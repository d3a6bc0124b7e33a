import Pmkit.Live.Recovery

/-!
# The loss kill switch

A breach of the loss limit is latched in the risk state, and no order passes
the gate after it.  The durable kill row, which a later start reads, is written
by book updates alone.
-/

namespace Pmkit

open MachineInt

namespace LiveState

variable {S V : Type}

/-- Whether the store says that the portfolio of a run is killed. -/
def killed (run : LiveRun S V) (state : LiveState S V) : Bool :=
  state.store.any fun store => store.killState run.portfolio

def Refuses (portfolio : PortfolioId) (store : LiveStore) : Prop :=
  ∀ (S V : Type) (run : LiveRun S V) (venue : V),
    run.portfolio = portfolio →
    (∀ registration ∈ run.strategies, registration.create.isOk = true) →
    (start run (some store) venue).result = some .killSwitchActive

/-- From a breach on, every later start is refused. -/
def Durable (run : LiveRun S V) (state : LiveState S V) : Prop :=
  state.risk.lossBreached = true →
    ∀ store, state.store = some store → Refuses run.portfolio store

/-- A fact after which the limit is breached submits nothing. -/
def Silent (run : LiveRun S V) (state : LiveState S V)
    (envelope : SourceEnvelope Decimal) : Prop :=
  (state.step run envelope).risk.lossBreached = true →
    (state.step run envelope).trace.submitted = state.trace.submitted

def BreachedByBook (run : LiveRun S V) (state : LiveState S V)
    (envelope : SourceEnvelope Decimal) : Prop :=
  state.Takes run envelope → state.risk.lossBreached = false →
    isBookUpdate envelope = false →
    (riskAfter run state.risk envelope).lossBreached = false

theorem instantiate_running {run : LiveRun S V} {state : LiveState S V}
    (running : state.result = none)
    (creates : ∀ registration ∈ run.strategies,
      registration.create.isOk = true) :
    (state.instantiate run).result = none ∧
      (state.instantiate run).store = state.store := by
  have made : ∀ registrations : List (StrategyRegistration S),
      (∀ registration ∈ registrations, registration.create.isOk = true) →
      ∃ strategies, (registrations.mapM fun registration =>
        registration.create.map fun strategy =>
          ({ id := registration.id
             market := registration.market
             state := strategy } : StrategyInstance S)) = .ok strategies := by
    intro registrations each
    induction registrations with
    | nil => exact ⟨[], rfl⟩
    | cons registration rest ih =>
        obtain ⟨others, made⟩ := ih fun other mem =>
          each other (List.mem_cons_of_mem registration mem)
        have first := each registration List.mem_cons_self
        cases created : registration.create with
        | error message =>
            rw [created] at first
            cases first
        | ok strategy =>
            rw [List.mapM_cons, created, made]
            exact ⟨_, rfl⟩
  obtain ⟨strategies, all⟩ := made run.strategies creates
  unfold instantiate
  rw [all]
  exact ⟨running, rfl⟩

/-- A start is refused for the kill row, and for nothing else that every start
meets. -/
theorem refuses_iff (run : LiveRun S V) (venue : V) (store : LiveStore) :
    Refuses run.portfolio store ↔ store.killState run.portfolio = true := by
  constructor
  · intro refuses
    by_contra alive
    -- a start whose venue does not answer gets past the kill row
    have unanswered := refuses S V
      { run with
        strategies := []
        executor :=
          { run.executor with
            preflight := fun venue => (venue, .error (.transport "")) } }
      venue rfl (by simp)
    have row : store.killState run.portfolio = false := by
      simpa using alive
    simp [start, instantiate, unstarted, andThen, checkKillState, row,
      initialOpenOrders, fail, pure, Except.pure] at unanswered
  · intro killed S' V' later venue' portfolio creates
    obtain ⟨running, sameStore⟩ := @instantiate_running _ _ _
      (unstarted (some store) venue') rfl creates
    have refused : ((unstarted (some store) venue').instantiate
        later).checkKillState later =
          ((unstarted (some store) venue').instantiate later).fail
            .killSwitchActive := by
      unfold checkKillState
      rw [sameStore]
      simp [unstarted, portfolio, killed]
    simp [start, andThen, running, refused, fail]

/-! ## What a start leaves -/

variable {store : LiveStore} {state : LiveState S V} {run : LiveRun S V}
  {envelope : SourceEnvelope Decimal} {submitted : List PlaceOrder}

theorem recoverIntents_killStates
    (run : LiveRun S V) (intents : List OrderIntent)
    (found : state.store = some store) :
    (recoverIntents run store intents state).store.map LiveStore.killStates =
      some store.killStates := by
  induction intents generalizing store state with
  | nil =>
      rw [recoverIntents, found]
      rfl
  | cons intent rest ih =>
      rw [recoverIntents]
      split
      · rw [fail, found]
        rfl
      · rw [fail, found]
        rfl
      · exact ih rfl

theorem andThen_store {next : LiveState S V → LiveState S V}
    (same : (next state).store = state.store) :
    (state.andThen next).store = state.store := by
  unfold andThen
  split
  · rfl
  · exact same

theorem recoverRisk_store
    (run : LiveRun S V) (store : LiveStore) (state : LiveState S V) :
    (state.recoverRisk run store).store = state.store := by
  unfold recoverRisk
  split
  · rfl
  · rfl

theorem recoverRates_store
    (run : LiveRun S V) (store : LiveStore) (state : LiveState S V) :
    (state.recoverRates run store).store = state.store := by
  unfold recoverRates
  split
  · rfl
  · rfl

theorem recoverOrders_store (run : LiveRun S V) (state : LiveState S V) :
    (state.recoverOrders run).store = state.store := by
  unfold recoverOrders
  split
  · rfl
  · split
    · rfl
    · split
      · rfl
      · rfl

/-- Recovery settles intents; it does not touch the kill rows. -/
theorem recover_killStates (run : LiveRun S V)
    (found : state.store = some store) :
    (state.recover run).store.map LiveStore.killStates =
      some store.killStates := by
  unfold recover
  rw [found]
  simp only
  have rates : ((state.recoverRisk run store).andThen
      (recoverRates run store)).store = some store := by
    rw [andThen_store (recoverRates_store run store _), recoverRisk_store,
      found]
  have intents : (((state.recoverRisk run store).andThen
      (recoverRates run store)).andThen (recoverIntents run store
        (store.intents.readByState run.scope .pending ++
          store.intents.readByState run.scope .unknown))).store.map
            LiveStore.killStates = some store.killStates := by
    rw [andThen.eq_def ((state.recoverRisk run store).andThen _)]
    split
    · rw [rates]
      rfl
    · exact recoverIntents_killStates run _ rates
  rw [andThen_store (recoverOrders_store run _), intents]

theorem instantiate_store (run : LiveRun S V) (state : LiveState S V) :
    (state.instantiate run).store = state.store := by
  unfold instantiate
  split
  · rfl
  · rfl

theorem reconcileOpenOrders_store (run : LiveRun S V) (state : LiveState S V) :
    (state.reconcileOpenOrders run).store = state.store := by
  unfold reconcileOpenOrders
  simp only
  split
  · rfl
  · rfl

theorem initialOpenOrders_store (run : LiveRun S V) (state : LiveState S V) :
    (state.initialOpenOrders run).store = state.store := by
  unfold initialOpenOrders
  simp only
  split
  · rfl
  · exact reconcileOpenOrders_store run _

theorem checkKillState_store (run : LiveRun S V) (state : LiveState S V) :
    (state.checkKillState run).store = state.store := by
  unfold checkKillState
  split
  · rfl
  · rfl

/-- Until the last part of a start the store is the one it was given. -/
theorem opened_store (run : LiveRun S V) (store : LiveStore) (venue : V) :
    ((((unstarted (some store) venue).instantiate run).andThen
      (checkKillState run)).andThen (initialOpenOrders run)).store =
        some store := by
  rw [andThen_store (initialOpenOrders_store run _),
    andThen_store (checkKillState_store run _), instantiate_store]
  rfl

theorem start_alive {venue : V}
    (started : (start run (some store) venue).result = none) :
    (start run (some store) venue).killed run = false ∧
      (start run (some store) venue).store.isSome = true := by
  unfold start at started ⊢
  obtain ⟨opened, same⟩ := andThen_running started
  obtain ⟨checked, sameOpened⟩ := andThen_running opened
  obtain ⟨created, sameChecked⟩ := andThen_running checked
  have unchanged : ((unstarted (some store) venue).instantiate run).store =
      some store := instantiate_store run _
  have alive : store.killState run.portfolio = false := by
    rw [sameChecked, checkKillState, unchanged] at checked
    by_contra killed
    have row : store.killState run.portfolio = true := by
      simpa using killed
    simp [row, fail] at checked
  have before := opened_store run store venue
  have rows := recover_killStates run before
  rw [same]
  cases left : (LiveState.recover run ((((unstarted (some store)
      venue).instantiate run).andThen (checkKillState run)).andThen
        (initialOpenOrders run))).store with
  | none =>
      rw [left] at rows
      cases rows
  | some next =>
      rw [left] at rows
      have sameRows : next.killStates = store.killStates :=
        Option.some.inj rows
      refine ⟨?_, rfl⟩
      unfold killed
      rw [left, Option.any_some, LiveStore.killState, sameRows]
      exact alive

/-! ## The kill row of a step -/

theorem killed_of_killStates {before after : LiveState S V}
    (same : after.store.map LiveStore.killStates =
      before.store.map LiveStore.killStates) :
    after.killed run = before.killed run := by
  unfold killed
  cases left : after.store with
  | none =>
      cases right : before.store with
      | none => rfl
      | some store =>
          rw [left, right] at same
          cases same
  | some next =>
      cases right : before.store with
      | none =>
          rw [left, right] at same
          cases same
      | some store =>
          rw [left, right] at same
          have rows : next.killStates = store.killStates :=
            Option.some.inj same
          simp only [Option.any_some, LiveStore.killState, rows]

theorem storeFact_killStates
    (stored : (state.storeFact run envelope).result = none) :
    (state.storeFact run envelope).store.map LiveStore.killStates =
      state.store.map LiveStore.killStates := by
  rcases storeFact_eq stored with ⟨_, same⟩ | ⟨store, envelopes, found, _, same⟩
  · rw [same]
  · rw [same, found]
    rfl

/-- A book update that leaves the limit breached writes the kill row. -/
theorem recordBreach_killed (run : LiveRun S V) (state : LiveState S V) :
    (state.recordBreach run).killed run =
      (state.killed run || state.store.isSome && state.risk.lossBreached) := by
  unfold recordBreach
  cases found : state.store with
  | none => simp [killed, found]
  | some store =>
      simp only
      cases breached : state.risk.lossBreached with
      | false => simp
      | true => simp [killed, write, LiveStore.killState, LiveStore.setKillState]

theorem recordBreach_isSome (run : LiveRun S V) (state : LiveState S V) :
    (state.recordBreach run).store.isSome = state.store.isSome := by
  unfold recordBreach
  split
  · rfl
  · rename_i found
    split
    · rw [found]
      rfl
    · rfl

theorem accountEvent_store (run : LiveRun S V) (fact : PmAccountEvent Decimal)
    (state : LiveState S V) :
    (state.accountEvent run fact).store = state.store := by
  unfold accountEvent
  split
  · rfl
  · simp only
    split
    · split
      · exact (applyReservationFill_sameRisk _ _).2.1
      · rfl
    · rfl
    · rfl
    · rfl
    · rfl
    · rfl

/-- The kill row after a fact that is taken. -/
theorem step_killed
    (takes : state.Takes run envelope) (hasStore : state.store.isSome = true) :
    (state.step run envelope).killed run =
      (state.killed run || isBookUpdate envelope &&
        (riskAfter run state.risk envelope).lossBreached) := by
  have stored : (state.storeFact run envelope).killed run =
      state.killed run :=
    killed_of_killStates (storeFact_killStates takes.2.2)
  have storedRisk := storeFact_risk takes.2.2
  have storedSome : (state.storeFact run envelope).store.isSome = true := by
    have mapped := congrArg Option.isSome (storeFact_killStates takes.2.2)
    simpa [hasStore] using mapped
  rw [step_of_takes takes, ← stored, ← storedRisk]
  generalize state.storeFact run envelope = next at storedSome
  cases envelope with
  | cexReference reference =>
      have same : (next.referenceEvent run reference).killed run =
          next.killed run :=
        killed_of_killStates (dispatch_sameFacts run _ _ _).killStates
      simpa [processEvent, isBookUpdate] using same
  | pmAccount account =>
      have same : (next.accountEvent run account.fact).killed run =
          next.killed run := by
        unfold killed
        rw [accountEvent_store]
      simpa [processEvent, isBookUpdate] using same
  | pmMarket market =>
      cases fact : market.fact with
      | bookUpdate id outcome bids asks timestampMs =>
          have recorded := recordBreach_killed run
            { next with
              risk := riskAfter run next.risk (.pmMarket market) }
          simp only [riskAfter, fact] at recorded
          simp only [processEvent, marketEvent, fact, bookUpdate,
            isBookUpdate, riskAfter, Bool.true_and]
          rw [killed_of_killStates (dispatch_sameFacts run _ _ _).killStates,
            recorded, storedSome, Bool.true_and]
          rfl
      | fill fill =>
          have same : (next.marketEvent run market.metadata
              (.fill fill)).killed run = next.killed run := by
            unfold killed marketEvent
            simp only
            split
            · rfl
            · split
              · rw [(applyReservationFill_sameRisk fill _).2.1]
              · rfl
          simpa [processEvent, isBookUpdate, fact] using same
      | bestBidAsk id outcome bid ask timestampMs =>
          simp [processEvent, marketEvent, isBookUpdate, fact]
      | lastTrade id outcome price side size timestampMs =>
          simp [processEvent, marketEvent, isBookUpdate, fact]
      | orderAck strategy orderId timestampMs =>
          simp [processEvent, marketEvent, isBookUpdate, fact]
      | tick timestampMs =>
          simp [processEvent, marketEvent, isBookUpdate, fact]

/-! ## The latch -/

theorem riskAfter_lossBreached {risk : LiveRiskState}
    (breached : risk.lossBreached = true)
    (envelope : SourceEnvelope Decimal) :
    (riskAfter run risk envelope).lossBreached = true := by
  cases envelope with
  | cexReference reference => exact breached
  | pmAccount account =>
      simp only [riskAfter]
      split
      · rename_i next isNew applied
        exact LiveRiskState.applyAccountEvent_lossBreached _ _ _ applied
          breached
      · exact breached
  | pmMarket market =>
      simp only [riskAfter]
      split
      · exact LiveRiskState.updateBook_lossBreached _ _ _ _ _ _ breached
      · exact LiveRiskState.applyFill_lossBreached _ _ _ _ _ breached
      · exact breached

theorem passesGate_of_breached (breached : state.risk.lossBreached = true)
    (evaluation : Evaluation) (order : PlaceOrder) :
    state.passesGate evaluation order = false := by
  simp [passesGate, breached]

theorem reconcileOpenOrders_submitted
    (run : LiveRun S V) (state : LiveState S V) :
    (state.reconcileOpenOrders run).trace.submitted =
      state.trace.submitted := by
  unfold reconcileOpenOrders
  simp only
  split
  · rfl
  · rfl

theorem recordDecision_submitted
    (evaluation : Evaluation) (decision : DecisionKind)
    (state : LiveState S V) :
    (recordDecision evaluation decision state).trace.submitted =
      state.trace.submitted := by
  unfold recordDecision
  split
  · rfl
  · split
    · rfl
    · rfl

def SilentSince (submitted : List PlaceOrder) (state : LiveState S V) : Prop :=
  state.risk.lossBreached = true ∧ state.trace.submitted = submitted

theorem placeAction_silent
    (silent : state.SilentSince submitted) (evaluation : Evaluation)
    (actionIndex : UInt32) (order : PlaceOrder) :
    (state.placeAction run evaluation actionIndex order).1.SilentSince
      submitted := by
  refine placeAction_keeps ?_ ?_ ?_ silent evaluation actionIndex order
  · rintro next ⟨latched, nothing⟩
    refine ⟨?_, ?_⟩
    · rw [(reconcileOpenOrders_sameFacts run next).risk]
      exact latched
    · rw [reconcileOpenOrders_submitted]
      exact nothing
  · rintro next rates ⟨latched, nothing⟩
    exact ⟨latched, nothing⟩
  · rintro evaluation actionIndex order next ⟨latched, _⟩ passes
    rw [passesGate_of_breached latched] at passes
    cases passes

theorem recordDecision_silent
    (silent : state.SilentSince submitted) (evaluation : Evaluation)
    (decision : DecisionKind) :
    (recordDecision evaluation decision state).SilentSince submitted := by
  refine ⟨?_, ?_⟩
  · rw [(recordDecision_sameFacts evaluation decision state).risk]
    exact silent.1
  · rw [recordDecision_submitted]
    exact silent.2

/-- A pass through the pipeline submits nothing while the limit is
breached. -/
theorem dispatch_submitted
    (run : LiveRun S V) (input : PipelineInput) (dailyPnl : Option Decimal)
    (breached : state.risk.lossBreached = true) :
    (state.dispatch run input dailyPnl).trace.submitted =
      state.trace.submitted := by
  have silent : (state.dispatch run input dailyPnl).SilentSince
      state.trace.submitted := by
    refine dispatch_keeps ?_ ?_ ⟨breached, rfl⟩
    · rintro next strategies ⟨latched, nothing⟩
      exact ⟨latched, nothing⟩
    · intro strategy next holds
      refine evaluate_keeps ?_ ?_ input dailyPnl strategy holds
      · intro evaluation actionIndex order middle middleSilent
        exact placeAction_silent middleSilent evaluation actionIndex order
      · intro evaluation decision middle middleSilent
        exact recordDecision_silent middleSilent evaluation decision
  exact silent.2

/-- A fact after which the limit is breached submits nothing. -/
theorem step_silent (run : LiveRun S V) (state : LiveState S V)
    (envelope : SourceEnvelope Decimal) : Silent run state envelope := by
  intro breached
  by_cases takes : state.Takes run envelope
  · have moved := step_risk takes
    have sameSubmitted : (state.storeFact run envelope).trace.submitted =
        state.trace.submitted := by
      rcases storeFact_eq takes.2.2 with
        ⟨_, same⟩ | ⟨store, envelopes, _, _, same⟩
      · rw [same]
      · rw [same]
        rfl
    rw [← storeFact_risk takes.2.2] at moved
    rw [moved] at breached
    rw [step_of_takes takes, ← sameSubmitted]
    generalize state.storeFact run envelope = next at breached
    cases envelope with
    | cexReference reference =>
        exact dispatch_submitted run _ _ breached
    | pmAccount account =>
        simp only [processEvent, accountEvent]
        split
        · rfl
        · split
          · split
            · exact (applyReservationFill_sameRisk _ _).2.2
            · rfl
          · rfl
          · rfl
          · rfl
          · rfl
          · rfl
    | pmMarket market =>
        cases fact : market.fact with
        | bookUpdate id outcome bids asks timestampMs =>
            simp only [riskAfter, fact] at breached
            simp only [processEvent, marketEvent, fact, bookUpdate]
            rw [dispatch_submitted]
            · unfold recordBreach
              split
              · rfl
              · split
                · rfl
                · rfl
            · rw [recordBreach_risk]
              exact breached
        | fill fill =>
            simp only [processEvent, marketEvent, fact]
            split
            · rfl
            · split
              · exact (applyReservationFill_sameRisk _ _).2.2
              · rfl
        | bestBidAsk id outcome bid ask timestampMs =>
            simp only [processEvent, marketEvent, fact]
        | lastTrade id outcome price side size timestampMs =>
            simp only [processEvent, marketEvent, fact]
        | orderAck strategy orderId timestampMs =>
            simp only [processEvent, marketEvent, fact]
        | tick timestampMs =>
            simp only [processEvent, marketEvent, fact]
  · obtain ⟨result, same⟩ := step_of_not_takes takes
    rw [same]

/-! ## Runs -/

/-- The latch and the kill row agree, over a store. -/
structure Agrees (run : LiveRun S V) (state : LiveState S V) : Prop where
  hasStore : state.store.isSome = true
  killed : state.killed run = state.risk.lossBreached

theorem SameFacts.isSome
    {before after : LiveState S V} (same : SameFacts before after) :
    after.store.isSome = before.store.isSome := by
  have mapped := congrArg Option.isSome same.killStates
  simpa using mapped

theorem step_isSome
    (takes : state.Takes run envelope) (hasStore : state.store.isSome = true) :
    (state.step run envelope).store.isSome = true := by
  have storedSome : (state.storeFact run envelope).store.isSome = true := by
    have mapped := congrArg Option.isSome (storeFact_killStates takes.2.2)
    simpa [hasStore] using mapped
  rw [step_of_takes takes]
  generalize state.storeFact run envelope = next at storedSome
  cases envelope with
  | cexReference reference =>
      rw [processEvent, referenceEvent, (dispatch_sameFacts run _ _ _).isSome]
      exact storedSome
  | pmAccount account =>
      rw [processEvent, accountEvent_store]
      exact storedSome
  | pmMarket market =>
      simp only [processEvent, marketEvent]
      split
      · rw [bookUpdate, (dispatch_sameFacts run _ _ _).isSome,
          recordBreach_isSome]
        exact storedSome
      · split
        · exact storedSome
        · split
          · rw [(applyReservationFill_sameRisk _ _).2.1]
            exact storedSome
          · exact storedSome
      · exact storedSome
      · exact storedSome
      · exact storedSome
      · exact storedSome

/-- A step whose breach is a book update's keeps the latch and the kill row
together. -/
theorem step_agrees (agrees : state.Agrees run)
    (byBook : state.BreachedByBook run envelope) :
    (state.step run envelope).Agrees run := by
  by_cases takes : state.Takes run envelope
  · refine ⟨step_isSome takes agrees.hasStore, ?_⟩
    rw [step_killed takes agrees.hasStore, step_risk takes, agrees.killed]
    cases latched : state.risk.lossBreached with
    | true =>
        rw [riskAfter_lossBreached latched envelope, Bool.true_or]
    | false =>
        rw [Bool.false_or]
        cases book : isBookUpdate envelope with
        | true => rw [Bool.true_and]
        | false =>
            rw [Bool.false_and, byBook takes latched book]
  · obtain ⟨result, same⟩ := step_of_not_takes takes
    rw [same]
    exact ⟨agrees.hasStore, agrees.killed⟩

/-- A breach without a kill row was not a book update's. -/
theorem byBook_of_killed (agrees : state.Agrees run)
    (killed : (state.step run envelope).risk.lossBreached = true →
      (state.step run envelope).killed run = true) :
    state.BreachedByBook run envelope := by
  intro takes latched book
  by_contra breached
  rw [Bool.not_eq_false] at breached
  rw [step_risk takes, step_killed takes agrees.hasStore, agrees.killed,
    latched, book] at killed
  have row := killed breached
  cases row

theorem durable_iff (run : LiveRun S V) (state : LiveState S V)
    (hasStore : state.store.isSome = true) :
    state.Durable run ↔
      (state.risk.lossBreached = true → state.killed run = true) := by
  unfold Durable
  obtain ⟨store, found⟩ := Option.isSome_iff_exists.mp hasStore
  constructor
  · intro durable breached
    have refuses := durable breached store found
    rw [killed, found]
    exact (refuses_iff run state.venue store).mp refuses
  · intro row breached other otherFound
    have killed := row breached
    rw [LiveState.killed, otherFound] at killed
    exact (refuses_iff run state.venue other).mpr killed

/-- After a breach nothing is submitted, in any run.  The breach outlives every
run state just when the start was not breached and only book updates set the
latch. -/
theorem killSwitch_iff
    (run : LiveRun S V) (store : LiveStore) (venue : V)
    (started : (start run (some store) venue).result = none)
    (facts : List (SourceEnvelope Decimal)) :
    (Trace.EveryStep (step run) (Silent run) (start run (some store) venue)
        facts ∧
      Trace.EveryState (step run) (Durable run)
        (start run (some store) venue) facts) ↔
      (start run (some store) venue).risk.lossBreached = false ∧
        Trace.EveryStep (step run) (BreachedByBook run)
          (start run (some store) venue) facts := by
  obtain ⟨alive, hasStore⟩ := start_alive started
  generalize start run (some store) venue = first at alive hasStore
  have silent : Trace.EveryStep (step run) (Silent run) first facts :=
    @Trace.everyStep_of_invariant _ _ _ (fun _ => True)
      (fun _ _ _ => trivial) _
      (fun state envelope _ => step_silent run state envelope) _ _ trivial
  have exact : first.risk.lossBreached = false →
      (Trace.EveryState (step run) (Durable run) first facts ↔
        Trace.EveryStep (step run) (BreachedByBook run) first facts) := by
    intro latched
    refine Trace.everyState_iff_everyStep (Agrees run) ?_ ?_ ?_
      ⟨hasStore, by rw [alive, latched]⟩
    · intro state agrees
      refine (durable_iff run state agrees.hasStore).mpr ?_
      intro breached
      rw [agrees.killed, breached]
    · intro state envelope agrees byBook
      exact step_agrees agrees byBook
    · intro state envelope agrees durable takes
      have killed := (durable_iff run _ (step_isSome takes
        agrees.hasStore)).mp durable
      exact byBook_of_killed agrees killed takes
  constructor
  · rintro ⟨_, durable⟩
    have latched : first.risk.lossBreached = false := by
      by_contra breached
      rw [Bool.not_eq_false] at breached
      have killed := (durable_iff run first hasStore).mp durable.first breached
      rw [alive] at killed
      cases killed
    exact ⟨latched, (exact latched).mp durable⟩
  · rintro ⟨latched, byBook⟩
    exact ⟨silent, (exact latched).mpr byBook⟩

theorem killSwitch_smallRun :
    (Trace.EveryStep (step SmallRun.accountRun) (Silent SmallRun.accountRun)
        (start SmallRun.accountRun (some SmallRun.store) ())
        [.pmAccount SmallRun.buy] ∧
      Trace.EveryState (step SmallRun.accountRun)
        (Durable SmallRun.accountRun)
        (start SmallRun.accountRun (some SmallRun.store) ())
        [.pmAccount SmallRun.buy]) ↔
      (start SmallRun.accountRun (some SmallRun.store)
          ()).risk.lossBreached = false ∧
        Trace.EveryStep (step SmallRun.accountRun)
          (BreachedByBook SmallRun.accountRun)
          (start SmallRun.accountRun (some SmallRun.store) ())
          [.pmAccount SmallRun.buy] :=
  killSwitch_iff SmallRun.accountRun SmallRun.store ()
    SmallRun.accountRun_starts [.pmAccount SmallRun.buy]

/-- The loss of a round trip, known from two account fills, breaches the limit
and leaves a store on which the portfolio starts again. -/
theorem roundTrip_not_durable :
    (start SmallRun.accountRun (some SmallRun.store) ()).result = none ∧
      ¬ Trace.EveryState (step SmallRun.accountRun)
        (Durable SmallRun.accountRun)
        (start SmallRun.accountRun (some SmallRun.store) ())
        [.pmAccount SmallRun.buy, .pmAccount SmallRun.sell] := by
  refine ⟨SmallRun.accountRun_starts, ?_⟩
  intro durable
  have hasStore : (Trace.run (step SmallRun.accountRun)
      (start SmallRun.accountRun (some SmallRun.store) ())
      [.pmAccount SmallRun.buy,
        .pmAccount SmallRun.sell]).store.isSome = true := by
    decide +kernel
  have breached : (Trace.run (step SmallRun.accountRun)
      (start SmallRun.accountRun (some SmallRun.store) ())
      [.pmAccount SmallRun.buy,
        .pmAccount SmallRun.sell]).risk.lossBreached = true := by
    decide +kernel
  have alive : (Trace.run (step SmallRun.accountRun)
      (start SmallRun.accountRun (some SmallRun.store) ())
      [.pmAccount SmallRun.buy,
        .pmAccount SmallRun.sell]).killed SmallRun.accountRun = false := by
    decide +kernel
  have killed := (durable_iff SmallRun.accountRun _ hasStore).mp durable.last
    breached
  rw [alive] at killed
  cases killed

end LiveState

end Pmkit
