import Pmkit.Paper.Restore

/-!
# Every state of an executor

An executor starts as a new account or from recorded entries, and goes on with
calls.  In each of its states the two order collections of its simulator are
addressable by identity.
-/

namespace Pmkit

open MachineInt

namespace ExecutorState

/-- The states of paper executors: a new or a reconstructed account, and what
calls make of it. -/
inductive Reachable : ExecutorState → Prop
  | created (idPrefix : String) (config : SimulationConfig)
      (initialCash : Money) :
      Reachable (withAccountFeeConfig idPrefix config initialCash)
  | restored (order : IterationOrder String) (idPrefix : String)
      (config : SimulationConfig) (entries : List PaperLedgerEntry)
      (state : ExecutorState)
      (rebuilt : reconstructWithFeeConfig order idPrefix config entries =
        .ok state) :
      Reachable state
  | called (state : ExecutorState) (call : ExecutorCall)
      (reachable : Reachable state) : Reachable (state.step call)

variable {state : ExecutorState}

/-- Answering a submission at most drains the simulator. -/
theorem completeSubmission_wellFormed (receiverOpen : Bool)
    (wellFormed : state.engine.WellFormed)
    (placementId expectedOrderId : String) (id : Option String)
    (order : PlaceOrder) (nowMs : I64) :
    (completeSubmission receiverOpen state placementId expectedOrderId id
      order nowMs).1.engine.WellFormed := by
  obtain ⟨_, _, ⟨_, engine⟩ | ⟨_, engine⟩⟩ := completeSubmission_cases
    receiverOpen state placementId expectedOrderId id order nowMs
  · rw [engine]
    exact wellFormed
  · rw [engine]
    exact SimEngine.drainFills_wellFormed wellFormed

theorem submit_wellFormed (receiverOpen : Bool)
    (wellFormed : state.engine.WellFormed) (order : PlaceOrder)
    (nowMs : I64) :
    (state.submit receiverOpen order nowMs).1.engine.WellFormed := by
  have submitted : (state.engine.submit order nowMs).1.WellFormed :=
    (SimEngine.submitWithStrategy_submitted state.engine order none
      nowMs).wellFormed wellFormed
  unfold submit
  cases ensureSubmittable order state.config state.ledger with
  | error error => exact wellFormed
  | ok done =>
      cases state.ledger.beginOrder order none nowMs with
      | mk ledger result =>
          cases result with
          | error error => exact wellFormed
          | ok ids =>
              simp only
              split
              · exact submitted
              · exact completeSubmission_wellFormed receiverOpen submitted _ _
                  _ _ _

theorem submitOwned_wellFormed (receiverOpen : Bool)
    (wellFormed : state.engine.WellFormed) (order : PlaceOrder)
    (strategy : Option StrategyId) (nowMs : I64) :
    (state.submitOwned receiverOpen order strategy
      nowMs).1.engine.WellFormed := by
  have submitted := (SimEngine.submitWithStrategy_submitted state.engine order
    strategy nowMs).wellFormed wellFormed
  unfold submitOwned
  cases ensureSubmittable order state.config state.ledger with
  | error error => exact wellFormed
  | ok done =>
      cases state.ledger.beginOrder order strategy nowMs with
      | mk ledger result =>
          cases result with
          | error error => exact wellFormed
          | ok ids =>
              exact completeSubmission_wellFormed receiverOpen submitted _ _ _
                _ _

theorem step_wellFormed (wellFormed : state.engine.WellFormed)
    (call : ExecutorCall) : (state.step call).engine.WellFormed := by
  cases call with
  | submit receiverOpen order nowMs =>
      exact submit_wellFormed receiverOpen wellFormed order nowMs
  | submitForStrategy receiverOpen order strategy nowMs =>
      exact submitOwned_wellFormed receiverOpen wellFormed order
        (some strategy) nowMs
  | updateBook receiverOpen fillOrder cancelOrder market outcome book =>
      simp only [step, (updateBook_engine receiverOpen fillOrder cancelOrder
        state market outcome book).1]
      exact SimEngine.drainFills_wellFormed
        (SimEngine.updateBook_wellFormed wellFormed fillOrder market outcome
          book)
  | cancel orderId =>
      simp only [step, (cancel_engine state orderId).1]
      exact SimEngine.cancel_wellFormed wellFormed orderId
  | cancelAll =>
      simp only [step, cancelAll_eq]
      exact SimEngine.cancelAll_wellFormed wellFormed
  | settle market outcome settledSize proceeds timestampMs =>
      simp only [step, (settle_engine state market outcome settledSize proceeds
        timestampMs).1]
      exact wellFormed

theorem replayPlaced_sound
    {idPrefix : String} {config : SimulationConfig} {ledger : PaperLedger}
    {order : IterationOrder String} {engine next : SimEngine}
    (sound : EngineSound idPrefix config engine) {placed : List PlacedOrder}
    (replayed : ledger.replayPlaced order config engine placed = .ok next) :
    EngineSound idPrefix config next := by
  induction placed generalizing engine with
  | nil =>
      cases replayed
      exact sound
  | cons head rest ih =>
      rw [PaperLedger.replayPlaced] at replayed
      cases first : ledger.replayPlacement order config engine head.eventId
          head.timestampMs head.order with
      | error error =>
          rw [first] at replayed
          cases replayed
      | ok middle =>
          rw [first] at replayed
          refine ih ?_ replayed
          cases found : ledger.placements.lookup head.eventId with
          | none =>
              simp only [PaperLedger.replayPlacement, found] at first
              cases first
          | some placement =>
              rw [((PaperLedger.replayPlacement_eq_ok_iff found).mp first).2]
              exact PaperLedger.replayedEngine_sound sound _ _

theorem Reachable.wellFormed (reachable : state.Reachable) :
    state.engine.WellFormed := by
  induction reachable with
  | created idPrefix config initialCash =>
      exact SimEngine.withFeeConfig_wellFormed idPrefix 0 config
  | restored order idPrefix config entries state rebuilt =>
      unfold reconstructWithFeeConfig at rebuilt
      cases replayed : PaperLedger.reconstruct order entries idPrefix with
      | error error =>
          rw [replayed] at rebuilt
          cases rebuilt
      | ok ledger =>
          rw [replayed] at rebuilt
          cases result : ledger.rebuildEngine order config with
          | error error =>
              simp only [bind, Except.bind, result] at rebuilt
              cases rebuilt
          | ok engine =>
              simp only [bind, Except.bind, result] at rebuilt
              cases rebuilt
              obtain ⟨last, placed, rfl⟩ :=
                PaperLedger.rebuildEngine_eq_ok_iff.mp result
              have start : EngineSound ledger.idPrefix config
                  (.withFeeConfig ledger.idPrefix 0 config) :=
                ⟨SimEngine.withFeeConfig_wellFormed ledger.idPrefix 0 config,
                  rfl, rfl⟩
              exact SimEngine.drainFills_wellFormed
                (replayPlaced_sound start placed).wellFormed
  | called state call _ wellFormed =>
      exact step_wellFormed wellFormed call

end ExecutorState

end Pmkit
