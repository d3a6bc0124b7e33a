import Pmkit.Paper.Journal
import Pmkit.Paper.Replay

/-!
# One counter kept twice

The ledger numbers every placement it records; the simulator numbers only the
submissions it admits.  The two agree through calls and restarts as long as no
expired order passes the ledger's checks and no restart replays an order that
the restart's limits refuse.
-/

namespace Pmkit

open MachineInt

/-- An executor call, or a restart from the recorded entries. -/
inductive LifecycleEvent where
  | call (call : ExecutorCall)
  | restart (order : IterationOrder String) (config : SimulationConfig)

namespace ExecutorState

/-- A restart that fails leaves no executor; the entries stay as they are. -/
def restart (state : ExecutorState) (order : IterationOrder String)
    (config : SimulationConfig) : ExecutorState :=
  match reconstructWithFeeConfig order state.ledger.idPrefix config
      state.ledger.entries with
  | .ok next => next
  | .error _ => state

def live (state : ExecutorState) : LifecycleEvent → ExecutorState
  | .call call => state.step call
  | .restart order config => state.restart order config

/-- The counters agree, and neither identity check can fail. -/
structure IdsAgree (state : ExecutorState) : Prop where
  counters : state.engine.nextId = state.ledger.nextOrderId
  submitPasses : ∀ receiverOpen order nowMs,
    (state.submit receiverOpen order nowMs).2 ≠ .error .orderIdDiverged
  ackPasses : ∀ order strategy nowMs ledger placementId expectedOrderId engine
      actual orderState activeAtMs,
    state.ledger.beginOrder order strategy nowMs =
      (ledger, .ok (placementId, expectedOrderId)) →
    state.engine.submitWithStrategy order strategy nowMs =
      (engine, some actual) →
    actual = expectedOrderId ∧
      (ledger.acknowledge placementId actual orderState activeAtMs
        nowMs).2 = .ok ()

/-- A submission that reaches the ledger has not expired. -/
def SubmissionAlive (state : ExecutorState) (order : PlaceOrder)
    (nowMs : I64) : Prop :=
  ensureSubmittable order state.config state.ledger = .ok () →
    expired order nowMs = false

/-- Every recorded placement, at its remaining quantity while it is open,
passes the limits of a configuration. -/
def PlacementsPass (ledger : PaperLedger) (config : SimulationConfig) : Prop :=
  ∀ placed ∈ ledger.placedOrders, ∀ placement,
    ledger.placements.lookup placed.eventId = some placement →
      ensureMarketLimits (ledger.restoredOrder placed.order placement) config =
        .ok ()

def EventKeepsIds (state : ExecutorState) : LifecycleEvent → Prop
  | .call (.submit _ order nowMs) => state.SubmissionAlive order nowMs
  | .call (.submitForStrategy _ order _ nowMs) =>
      state.SubmissionAlive order nowMs
  | .call _ => True
  | .restart _ config => PlacementsPass state.ledger config

/-- The invariant of a life whose events all keep the counters equal. -/
structure Counted (idPrefix : String) (state : ExecutorState) : Prop where
  sound : ∃ config, state.Sound idPrefix config
  numbered : state.ledger.Numbered
  counters : state.engine.nextId = state.ledger.nextOrderId
  alive : ∀ placed ∈ state.ledger.placedOrders,
    expired placed.order.toOrder placed.timestampMs = false

variable {config : SimulationConfig} {engine : SimEngine} {order : PlaceOrder}
  {ledger : PaperLedger} {idPrefix : String} {state : ExecutorState}
  {strategy : Option StrategyId}

theorem ensureMarketLimits_eq_ok_iff (order : PlaceOrder)
    (same : engine.config = config) :
    ensureMarketLimits order config = .ok () ↔
      engine.violatesMarketLimits order = false := by
  unfold ensureMarketLimits SimEngine.violatesMarketLimits
  rw [same]
  cases config.marketLimits with
  | none =>
      simp
  | some limits =>
      simp only
      cases limits.check order with
      | error violation => simp [Except.toOption]
      | ok passed => simp [Except.toOption]

theorem ensureSubmittable_limits
    (check : ensureSubmittable order config ledger = .ok ()) :
    ensureMarketLimits order config = .ok () := by
  unfold ensureSubmittable at check
  cases limits : ensureMarketLimits order config with
  | error error =>
      rw [limits] at check
      cases check
  | ok passed =>
      rfl

theorem ensureSubmittable_cash
    (check : ensureSubmittable order config ledger = .ok ()) :
    ensureSufficientCash order ledger = .ok () := by
  unfold ensureSubmittable at check
  cases limits : ensureMarketLimits order config with
  | error error =>
      rw [limits] at check
      cases check
  | ok passed =>
      rw [limits] at check
      exact check

theorem ensureSubmittable_not_diverged
    (order : PlaceOrder) (config : SimulationConfig) (ledger : PaperLedger) :
    ensureSubmittable order config ledger ≠ .error .orderIdDiverged := by
  simp only [ensureSubmittable, ensureMarketLimits, ensureSufficientCash, bind,
    Except.bind]
  cases config.marketLimits with
  | none =>
      simp only
      split
      · simp
      · split
        · simp
        · split <;> simp
  | some limits =>
      simp only
      cases limits.check order with
      | error violation => simp
      | ok passed =>
          simp only
          split
          · simp
          · split
            · simp
            · split <;> simp

theorem completeSubmission_not_diverged
    (receiverOpen : Bool) (state : ExecutorState)
    (placementId expectedOrderId : String) (id : Option String)
    (order : PlaceOrder) (nowMs : I64) :
    (completeSubmission receiverOpen state placementId expectedOrderId id
      order nowMs).2 ≠ .error .orderIdDiverged := by
  simp only [completeSubmission, SimEngine.drainFills]
  split
  · simp
  · split
    · simp
    · simp only [deliver]
      split
      · rename_i failed
        split at failed
        · cases failed
        · cases failed
          simp
      · split <;> simp

/-- The expected identity of a counted state is the one the simulator mints. -/
theorem Counted.idsAgree
    (counted : state.Counted idPrefix) : state.IdsAgree := by
  obtain ⟨config, sound⟩ := counted.sound
  have fresh := sound.recorded.nextFresh
  have sameId := sound.expectedOrderId_iff.mpr counted.counters
  have minted : ∀ order strategy nowMs engine actual,
      state.engine.submitWithStrategy order strategy nowMs =
        (engine, some actual) → actual = state.ledger.expectedOrderId := by
    intro order strategy nowMs engine actual submitted
    have answer := (SimEngine.submitWithStrategy_submitted state.engine order
      strategy nowMs).answer
    rw [submitted] at answer
    rcases answer with ⟨_, own⟩ | ⟨_, none, _⟩
    · rw [sameId]
      exact Option.some.inj own
    · cases none
  refine ⟨counted.counters, ?_, ?_⟩
  · intro receiverOpen order nowMs
    unfold submit
    cases check : ensureSubmittable order state.config state.ledger with
    | error error =>
        intro failed
        have diverged : error = .orderIdDiverged := Except.error.inj failed
        rw [diverged] at check
        exact ensureSubmittable_not_diverged order state.config state.ledger
          check
    | ok passed =>
        obtain ⟨engine, id, result⟩ : ∃ engine id,
            state.engine.submitWithStrategy order none nowMs = (engine, id) :=
          ⟨_, _, rfl⟩
        simp only [PaperLedger.beginOrder_eq fresh, SimEngine.submit, result]
        have agrees : (id.any fun actual =>
            actual ≠ state.ledger.expectedOrderId) = false := by
          cases id with
          | none => rfl
          | some actual =>
              simp [minted order none nowMs engine actual result]
        simp only [agrees, Bool.false_eq_true, if_false]
        exact completeSubmission_not_diverged receiverOpen _ _ _ _ order nowMs
  · intro order strategy nowMs ledger placementId expectedOrderId engine
      actual orderState activeAtMs begun submitted
    rw [PaperLedger.beginOrder_eq fresh] at begun
    cases begun
    have same := minted order strategy nowMs engine actual submitted
    refine ⟨same, ?_⟩
    rw [same, PaperLedger.acknowledge_placed]

/-! ## Calls -/

theorem nextId_of_submitted {nowMs : I64} {result : SimEngine × Option String}
    (submitted : SimEngine.Submitted engine order strategy nowMs result)
    (admitted : engine.Admits order nowMs) :
    result.1.nextId = engine.nextId + 1 := by
  cases submitted with
  | refused notAdmitted => exact absurd admitted notAdmitted
  | _ => rfl

theorem SubmissionStep.counted {next : ExecutorState} {nowMs : I64}
    (counted : state.Counted idPrefix)
    (sound : ∃ config, next.Sound idPrefix config)
    (numbered : next.ledger.Numbered)
    (step : SubmissionStep state order strategy nowMs next)
    (alive : state.SubmissionAlive order nowMs) :
    next.Counted idPrefix := by
  obtain ⟨config, stateSound⟩ := counted.sound
  have admitted : ensureSubmittable order state.config state.ledger = .ok () →
      state.engine.Admits order nowMs := by
    intro check
    refine ⟨alive check, ?_⟩
    have sameConfig : state.engine.config = state.config := by
      rw [stateSound.engineConfig, stateSound.config]
    rw [← ensureMarketLimits_eq_ok_iff order sameConfig]
    exact ensureSubmittable_limits check
  have aliveAfter : ∀ ledger : PaperLedger,
      ensureSubmittable order state.config state.ledger = .ok () →
      ledger.placedOrders = state.ledger.placedOrders ++
        [state.ledger.submittedOrder order strategy nowMs] →
      ∀ placed ∈ ledger.placedOrders,
        expired placed.order.toOrder placed.timestampMs = false := by
    intro ledger check placedOrders placed mem
    rw [placedOrders, List.mem_append, List.mem_singleton] at mem
    rcases mem with older | rfl
    · exact counted.alive placed older
    · exact alive check
  cases step with
  | refused error check =>
      exact counted
  | rejected result check submitted noId =>
      have same := PaperLedger.recordFills_samePlacements
        (state.ledger.rejected order strategy nowMs) result.1.pendingFills
      refine ⟨sound, numbered, ?_, aliveAfter _ check ?_⟩
      · refine (nextId_of_submitted submitted (admitted check)).trans ?_
        rw [counted.counters]
        exact same.nextOrderId.symm
      · exact same.placedOrders.trans
          (PaperLedger.rejected_placedOrders _ _ _ _)
  | diverged result actual check submitted minted ne =>
      refine ⟨sound, numbered, ?_, aliveAfter _ check ?_⟩
      · refine (nextId_of_submitted submitted (admitted check)).trans ?_
        rw [counted.counters]
        rfl
      · exact PaperLedger.placed_placedOrders _ _ _ _
  | accepted result check submitted minted =>
      have same := PaperLedger.recordFills_samePlacements
        (state.ledger.acknowledged order strategy
          (acceptedState order state.config)
          (nowMs.saturatingAdd state.config.activationLatencyMs) nowMs)
        result.1.pendingFills
      refine ⟨sound, numbered, ?_, aliveAfter _ check ?_⟩
      · refine (nextId_of_submitted submitted (admitted check)).trans ?_
        rw [counted.counters]
        exact same.nextOrderId.symm
      · exact same.placedOrders.trans
          (PaperLedger.acknowledged_placedOrders _ _ _ _ _ _)

theorem Counted.samePlacements {next : ExecutorState}
    (counted : state.Counted idPrefix)
    (sound : ∃ config, next.Sound idPrefix config)
    (numbered : next.ledger.Numbered)
    (same : state.ledger.SamePlacements next.ledger)
    (nextId : next.engine.nextId = state.engine.nextId) :
    next.Counted idPrefix := by
  refine ⟨sound, numbered, ?_, ?_⟩
  · rw [nextId, same.nextOrderId]
    exact counted.counters
  · rw [same.placedOrders]
    exact counted.alive

theorem Counted.step {idPrefix : String} {state : ExecutorState}
    (counted : state.Counted idPrefix) {call : ExecutorCall}
    (kept : state.EventKeepsIds (.call call)) :
    (state.step call).Counted idPrefix := by
  obtain ⟨config, sound⟩ := counted.sound
  have fresh := sound.recorded.nextFresh
  have soundAfter : ∃ config, (state.step call).Sound idPrefix config :=
    ⟨config, step_sound sound call⟩
  have numbered := (step_grows state call).numbered sound.recorded
    counted.numbered
  cases call with
  | submit receiverOpen order nowMs =>
      simp only [ExecutorState.step, submit_state fresh] at soundAfter numbered ⊢
      exact (submitOwned_step fresh receiverOpen order none nowMs).counted
        counted soundAfter numbered kept
  | submitForStrategy receiverOpen order strategy nowMs =>
      exact (submitOwned_step fresh receiverOpen order (some strategy)
        nowMs).counted counted soundAfter numbered kept
  | updateBook receiverOpen fillOrder cancelOrder market outcome book =>
      refine counted.samePlacements soundAfter numbered
        (updateBook_samePlacements receiverOpen fillOrder cancelOrder state
          market outcome book) ?_
      simp only [ExecutorState.step, (updateBook_engine receiverOpen fillOrder
        cancelOrder state market outcome book).1]
      obtain ⟨_, _, _, nextId, _⟩ := SimEngine.updateBook_spec
        sound.wellFormed fillOrder market outcome book
      exact nextId
  | cancel orderId =>
      refine counted.samePlacements soundAfter numbered
        (cancel_samePlacements state orderId) ?_
      simp only [ExecutorState.step, (cancel_engine state orderId).1]
      exact SimEngine.cancel_nextId state.engine orderId
  | cancelAll =>
      refine counted.samePlacements soundAfter numbered ?_ ?_
      · simp only [ExecutorState.step, cancelAll_eq]
        exact PaperLedger.cancelEach_samePlacements _ _ _
      · simp only [ExecutorState.step, cancelAll_eq]
        rfl
  | settle market outcome settledSize proceeds timestampMs =>
      refine counted.samePlacements soundAfter numbered ?_ ?_
      · simp only [ExecutorState.step, settle_ledger]
        exact PaperLedger.settle_samePlacements _ _ _ _ _ _
      · simp only [ExecutorState.step, (settle_engine state market outcome
          settledSize proceeds timestampMs).1]

/-! ## Restarts -/

theorem expired_restoredOrder
    (ledger : PaperLedger) (recorded : RecordedOrder) (placement : Placement)
    (nowMs : I64) :
    expired (ledger.restoredOrder recorded placement) nowMs =
      expired recorded.toOrder nowMs := by
  unfold PaperLedger.restoredOrder
  split
  · rfl
  · rfl

theorem replayPlacement_nextId
    {order : IterationOrder String} {next : SimEngine}
    (sound : EngineSound idPrefix config engine) {placed : PlacedOrder}
    {placement : Placement}
    (found : ledger.placements.lookup placed.eventId = some placement)
    (alive : expired placed.order.toOrder placed.timestampMs = false)
    (passes : ensureMarketLimits (ledger.restoredOrder placed.order placement)
      config = .ok ())
    (replayed : ledger.replayPlacement order config engine placed.eventId
      placed.timestampMs placed.order = .ok next) :
    EngineSound idPrefix config next ∧ next.nextId = engine.nextId + 1 := by
  obtain ⟨_, rfl⟩ := (PaperLedger.replayPlacement_eq_ok_iff found).mp replayed
  have primedSound := PaperLedger.primed_sound order sound
    (ledger.restoredOrder placed.order placement)
  have submitted := SimEngine.submitWithStrategy_submitted
    (PaperLedger.primed order engine
      (ledger.restoredOrder placed.order placement))
    (ledger.restoredOrder placed.order placement) none placed.timestampMs
  have admitted : (PaperLedger.primed order engine
      (ledger.restoredOrder placed.order placement)).Admits
        (ledger.restoredOrder placed.order placement) placed.timestampMs := by
    refine ⟨?_, (ensureMarketLimits_eq_ok_iff _ primedSound.config).mp passes⟩
    rw [expired_restoredOrder]
    exact alive
  have resultSound := primedSound.submitted submitted
  have nextId := nextId_of_submitted submitted admitted
  rw [PaperLedger.primed_nextId order sound.wellFormed] at nextId
  unfold PaperLedger.replayedEngine PaperLedger.replayedSubmission
  simp only [SimEngine.submit]
  split
  · exact ⟨resultSound, nextId⟩
  · refine ⟨PaperLedger.closeReplayedOrder_sound resultSound _ _ _ _, ?_⟩
    rw [PaperLedger.closeReplayedOrder_nextId resultSound.wellFormed]
    exact nextId

theorem replayPlaced_nextId {order : IterationOrder String} {next : SimEngine}
    (sound : EngineSound idPrefix config engine) {rest : List PlacedOrder}
    (admitted : ∀ placed ∈ rest, ∃ placement,
      ledger.placements.lookup placed.eventId = some placement ∧
        expired placed.order.toOrder placed.timestampMs = false ∧
        ensureMarketLimits (ledger.restoredOrder placed.order placement)
          config = .ok ())
    (replayed : ledger.replayPlaced order config engine rest = .ok next) :
    EngineSound idPrefix config next ∧
      next.nextId = engine.nextId + rest.length := by
  induction rest generalizing engine with
  | nil =>
      cases replayed
      exact ⟨sound, rfl⟩
  | cons placed rest ih =>
      obtain ⟨placement, found, alive, passes⟩ :=
        admitted placed List.mem_cons_self
      rw [PaperLedger.replayPlaced] at replayed
      cases first : ledger.replayPlacement order config engine placed.eventId
          placed.timestampMs placed.order with
      | error error =>
          rw [first] at replayed
          cases replayed
      | ok middle =>
          rw [first] at replayed
          obtain ⟨middleSound, middleId⟩ :=
            replayPlacement_nextId sound found alive passes first
          obtain ⟨nextSound, nextId⟩ := ih middleSound
            (fun later mem => admitted later
              (List.mem_cons_of_mem placed mem)) replayed
          refine ⟨nextSound, ?_⟩
          rw [nextId, middleId, List.length_cons]
          omega

theorem Counted.restart
    (counted : state.Counted idPrefix) (order : IterationOrder String)
    (passes : PlacementsPass state.ledger config) :
    (state.restart order config).Counted idPrefix := by
  obtain ⟨oldConfig, sound⟩ := counted.sound
  unfold ExecutorState.restart
  cases restarted : reconstructWithFeeConfig order state.ledger.idPrefix config
      state.ledger.entries with
  | error error =>
      exact counted
  | ok next =>
      obtain ⟨_, engine, rebuilt, rfl⟩ :=
        (reconstructWithFeeConfig_eq_ok_iff sound.recorded).mp restarted
      obtain ⟨replayed, replays, rfl⟩ :=
        PaperLedger.rebuildEngine_eq_ok_iff.mp rebuilt
      have samePrefix : state.reread.idPrefix = idPrefix := sound.ledgerPrefix
      have startSound : EngineSound idPrefix config
          (.withFeeConfig state.reread.idPrefix 0 config) :=
        ⟨SimEngine.withFeeConfig_wellFormed _ 0 config, samePrefix, rfl⟩
      obtain ⟨replayedSound, nextId⟩ := replayPlaced_nextId startSound
        (fun placed mem => by
          obtain ⟨index, found⟩ := List.mem_iff_getElem?.mp mem
          obtain ⟨terminal, stored⟩ :=
            counted.numbered.placement index placed found
          exact ⟨_, stored, counted.alive placed mem,
            passes placed mem _ stored⟩)
        replays
      refine ⟨⟨config, ⟨reread_recorded sound.recorded,
        SimEngine.drainFills_wellFormed replayedSound.wellFormed,
        replayedSound.idPrefix, samePrefix, replayedSound.config, rfl⟩⟩,
        ⟨counted.numbered.count, counted.numbered.placement⟩, ?_, counted.alive⟩
      refine nextId.trans ?_
      change 0 + state.ledger.placedOrders.length = state.ledger.nextOrderId
      rw [counted.numbered.count, Nat.zero_add]

theorem withAccountFeeConfig_counted
    (idPrefix : String) (config : SimulationConfig) (initialCash : Money) :
    (withAccountFeeConfig idPrefix config initialCash).Counted idPrefix where
  sound := ⟨config, withAccountFeeConfig_sound idPrefix config initialCash⟩
  numbered := PaperLedger.new_numbered initialCash idPrefix
  counters := rfl
  alive := by
    intro placed mem
    have none : (withAccountFeeConfig idPrefix config
        initialCash).ledger.placedOrders = [] := rfl
    rw [none] at mem
    cases mem

/-- In a life of calls and restarts from a new account whose events all keep
the counters equal, they agree in every state. -/
theorem idsAgree_everyState
    (idPrefix : String) (config : SimulationConfig) (initialCash : Money)
    (events : List LifecycleEvent)
    (kept : Trace.EveryStep live EventKeepsIds
      (withAccountFeeConfig idPrefix config initialCash) events) :
    Trace.EveryState live IdsAgree
      (withAccountFeeConfig idPrefix config initialCash) events := by
  have everyCounted : Trace.EveryState live (Counted idPrefix)
      (withAccountFeeConfig idPrefix config initialCash) events := by
    refine Trace.everyState_of_everyStep ?_
      (withAccountFeeConfig_counted idPrefix config initialCash) kept
    intro state event counted eventKept
    cases event with
    | call call => exact counted.step eventKept
    | restart order newConfig => exact counted.restart order eventKept
  exact everyCounted.imp fun _ counted => counted.idsAgree

end ExecutorState

namespace Sample

def expiredSubmission : List LifecycleEvent :=
  [.call (update 0),
    .call (.submit true (order .buy (50 / 100) false (.gtd 50)) 100)]

def restartedMaker : List LifecycleEvent :=
  [.call (update 0), .call (.submit true (order .buy (45 / 100) true .gtc) 100),
    .restart (.stored String) (config 0 none)]

end Sample

namespace ExecutorState

theorem restartedMaker_idsAgree :
    Trace.EveryState live IdsAgree
      (withAccountFeeConfig "paper" (Sample.config 0 none) 100)
      Sample.restartedMaker := by
  apply idsAgree_everyState
  refine ⟨trivial, fun _ => rfl, ?_, trivial⟩
  intro placed member placement found
  rfl

/-- The ledger numbers an expired submission and the simulator does not. -/
theorem expiredSubmission_ids_differ :
    ¬ (Trace.run live
      (withAccountFeeConfig "paper" (Sample.config 0 none) 100)
      Sample.expiredSubmission).IdsAgree := by
  intro agree
  have different : (Trace.run live
      (withAccountFeeConfig "paper" (Sample.config 0 none) 100)
      Sample.expiredSubmission).engine.nextId ≠
      (Trace.run live
        (withAccountFeeConfig "paper" (Sample.config 0 none) 100)
        Sample.expiredSubmission).ledger.nextOrderId := by
    decide +kernel
  exact different agree.counters

end ExecutorState

end Pmkit
