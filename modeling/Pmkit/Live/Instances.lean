import Pmkit.Live.Recovery

/-!
# The instances of a live run

A start creates one instance for each registration, in their order.  The
pipeline changes what an instance holds, and neither its strategy id nor its
market.
-/

namespace Pmkit

open MachineInt

namespace LiveState

variable {S V : Type}

/-! ## The instances of a run -/

def named (strategy : StrategyInstance S) : StrategyId × MarketId :=
  (strategy.id, strategy.market)

/-- The instances of a run are those of its registrations, in their order; a
start that failed has none. -/
def Registered (run : LiveRun S V) (state : LiveState S V) : Prop :=
  state.strategies.map named <+:
    run.strategies.map fun registration =>
      (registration.id, registration.market)

/-- A change that leaves the instances and their names. -/
def SameNames (before after : LiveState S V) : Prop :=
  after.strategies.map named = before.strategies.map named

variable {run : LiveRun S V} {state : LiveState S V}

theorem Registered.same {before after : LiveState S V}
    (registered : before.Registered run) (same : SameNames before after) :
    after.Registered run := by
  rw [Registered, same]
  exact registered

theorem map_prefix_zip
    {A B C : Type} {left : A → C} {right : B → C} {whole : List A}
    {part : List B} (begins : part.map right <+: whole.map left) :
    ∀ pair ∈ whole.zip part, right pair.2 = left pair.1 := by
  induction part generalizing whole with
  | nil =>
      intro pair mem
      rw [List.zip_nil_right] at mem
      cases mem
  | cons second rest ih =>
      cases whole with
      | nil =>
          intro pair mem
          cases mem
      | cons first others =>
          rw [List.map_cons, List.map_cons, List.cons_prefix_cons] at begins
          intro pair mem
          rw [List.zip_cons_cons, List.mem_cons] at mem
          rcases mem with rfl | later
          · exact begins.1
          · exact ih begins.2 pair later

theorem Registered.pair (registered : state.Registered run)
    {pair : StrategyRegistration S × StrategyInstance S}
    (mem : pair ∈ run.strategies.zip state.strategies) :
    pair.2.id = pair.1.id ∧ pair.2.market = pair.1.market :=
  Prod.mk.injEq _ _ _ _ ▸ map_prefix_zip registered pair mem

theorem reconcileOpenOrders_strategies
    (run : LiveRun S V) (state : LiveState S V) :
    (state.reconcileOpenOrders run).strategies = state.strategies := by
  unfold reconcileOpenOrders
  simp only
  split
  · rfl
  · rfl

/-- The loop changes what is inside its instances. -/
theorem dispatchInstances_named
    (run : LiveRun S V) (input : PipelineInput) (dailyPnl : Option Decimal)
    (strategies : List (StrategyInstance S)) (state : LiveState S V) :
    (dispatchInstances run input dailyPnl strategies state).1.map named =
      strategies.map named := by
  induction strategies generalizing state with
  | nil =>
      rfl
  | cons strategy rest ih =>
      simp only [dispatchInstances]
      split
      · simp only [List.map_cons, ih]
      · have evaluated : named (state.evaluate run input dailyPnl strategy).1 =
            named strategy := by
          unfold evaluate
          simp only
          split
          · rfl
          · split
            · rfl
            · rfl
        split
        · simp only [List.map_cons, evaluated]
        · simp only [List.map_cons, evaluated, ih]

theorem dispatch_sameNames
    (run : LiveRun S V) (input : PipelineInput) (dailyPnl : Option Decimal)
    (state : LiveState S V) :
    SameNames state (state.dispatch run input dailyPnl) :=
  dispatchInstances_named run input dailyPnl state.strategies state

theorem storeFact_strategies
    (run : LiveRun S V) (envelope : SourceEnvelope Decimal)
    (state : LiveState S V) :
    (state.storeFact run envelope).strategies = state.strategies := by
  unfold storeFact
  split
  · rfl
  · split
    · rfl
    · rfl

theorem recordBreach_strategies (run : LiveRun S V) (state : LiveState S V) :
    (state.recordBreach run).strategies = state.strategies := by
  unfold recordBreach
  split
  · rfl
  · split
    · rfl
    · rfl

theorem applyReservationFill_strategies
    (fill : FillEvent Decimal) (state : LiveState S V) :
    (state.applyReservationFill fill).strategies = state.strategies := by
  unfold applyReservationFill
  simp only
  split
  · rfl
  · split
    · rfl
    · split
      · rfl
      · rfl

theorem accountEvent_strategies
    (run : LiveRun S V) (fact : PmAccountEvent Decimal)
    (state : LiveState S V) :
    (state.accountEvent run fact).strategies = state.strategies := by
  unfold accountEvent
  split
  · rfl
  · simp only
    split
    · split
      · rw [applyReservationFill_strategies]
      · rfl
    · rfl
    · rfl
    · rfl
    · rfl
    · rfl

theorem marketEvent_sameNames (run : LiveRun S V) (metadata : StreamMetadata)
    (fact : MarketEvent Decimal) (state : LiveState S V) :
    SameNames state (state.marketEvent run metadata fact) := by
  unfold marketEvent
  split
  · simp only [bookUpdate]
    refine (dispatch_sameNames run _ _ _).trans ?_
    rw [recordBreach_strategies]
  · split
    · rfl
    · simp only
      split
      · rw [SameNames, applyReservationFill_strategies]
      · rfl
  · rfl
  · rfl
  · rfl
  · rfl

theorem step_sameNames (run : LiveRun S V) (state : LiveState S V)
    (envelope : SourceEnvelope Decimal) :
    SameNames state (state.step run envelope) := by
  by_cases takes : state.Takes run envelope
  · rw [step_of_takes takes]
    have stored := storeFact_strategies run envelope state
    cases envelope with
    | pmMarket market =>
        refine (marketEvent_sameNames run _ _ _).trans ?_
        rw [stored]
    | pmAccount account =>
        rw [SameNames, processEvent, accountEvent_strategies, stored]
    | cexReference reference =>
        refine (dispatch_sameNames run _ _ _).trans ?_
        rw [stored]
  · obtain ⟨result, same⟩ := step_of_not_takes takes
    rw [same]
    rfl

theorem step_registered
    (envelope : SourceEnvelope Decimal) (registered : state.Registered run) :
    (state.step run envelope).Registered run :=
  registered.same (step_sameNames run state envelope)

theorem andThen_strategies {next : LiveState S V → LiveState S V}
    (same : ∀ state, (next state).strategies = state.strategies) :
    (state.andThen next).strategies = state.strategies := by
  unfold andThen
  split
  · rfl
  · exact same state

theorem recoverIntents_strategies
    (run : LiveRun S V) (store : LiveStore) (intents : List OrderIntent)
    (state : LiveState S V) :
    (recoverIntents run store intents state).strategies =
      state.strategies := by
  induction intents generalizing store state with
  | nil =>
      rfl
  | cons intent rest ih =>
      rw [recoverIntents]
      split
      · rfl
      · rfl
      · simp only [ih]
        rfl

theorem recover_strategies (run : LiveRun S V) (state : LiveState S V) :
    (state.recover run).strategies = state.strategies := by
  unfold recover
  split
  · rfl
  · rename_i store _
    have risk : (state.recoverRisk run store).strategies =
        state.strategies := by
      unfold recoverRisk
      split
      · rfl
      · rfl
    have rates : ∀ state : LiveState S V,
        (recoverRates run store state).strategies = state.strategies := by
      intro state
      unfold recoverRates
      split
      · rfl
      · rfl
    have orders : ∀ state : LiveState S V,
        (recoverOrders run state).strategies = state.strategies := by
      intro state
      unfold recoverOrders
      split
      · rfl
      · split
        · rfl
        · split
          · rfl
          · rfl
    rw [andThen_strategies orders,
      andThen_strategies (recoverIntents_strategies run store _),
      andThen_strategies rates, risk]

/-- Instances are created in the order of their registrations. -/
theorem instantiate_registered
    (run : LiveRun S V) (store : Option LiveStore) (venue : V) :
    ((unstarted store venue).instantiate run).Registered run := by
  unfold instantiate
  split
  · exact List.nil_prefix
  · rename_i strategies created
    have names : strategies.map named = run.strategies.map fun registration =>
        (registration.id, registration.market) := by
      rw [← List.forall₂_eq_eq_eq, List.forall₂_map_left_iff,
        List.forall₂_map_right_iff]
      refine (Fallible.forall₂_of_mapM created).flip.imp ?_
      intro strategy registration made
      cases found : registration.create with
      | error message =>
          rw [found] at made
          cases made
      | ok state =>
          rw [found] at made
          cases made
          rfl
    rw [Registered, names]

theorem start_registered
    (run : LiveRun S V) (store : Option LiveStore) (venue : V) :
    (start run store venue).Registered run := by
  refine (instantiate_registered run store venue).same ?_
  have checked : ∀ state : LiveState S V,
      (checkKillState run state).strategies = state.strategies := by
    intro state
    unfold checkKillState
    split
    · rfl
    · rfl
  have opened : ∀ state : LiveState S V,
      (initialOpenOrders run state).strategies = state.strategies := by
    intro state
    unfold initialOpenOrders
    simp only
    split
    · rfl
    · rw [reconcileOpenOrders_strategies]
  rw [SameNames, start, andThen_strategies (recover_strategies run),
    andThen_strategies opened, andThen_strategies checked]

end LiveState

end Pmkit
