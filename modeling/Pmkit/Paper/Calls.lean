import Pmkit.Paper.Entries
import Pmkit.Sim.Submission

/-!
# What one executor call does

The ledger side of each call as equations: a placement, its answer, the fills
and the cancellations that follow.  Both submit paths leave the same state, so
later modules reason about one submission.
-/

namespace Pmkit

open MachineInt

namespace PaperLedger

@[simp]
theorem record_account (ledger : PaperLedger) (entry : PaperLedgerEntry) :
    (ledger.record entry).account = ledger.account := rfl

@[simp]
theorem record_placements (ledger : PaperLedger) (entry : PaperLedgerEntry) :
    (ledger.record entry).placements = ledger.placements := rfl

@[simp]
theorem record_orders (ledger : PaperLedger) (entry : PaperLedgerEntry) :
    (ledger.record entry).orders = ledger.orders := rfl

@[simp]
theorem record_nextOrderId (ledger : PaperLedger) (entry : PaperLedgerEntry) :
    (ledger.record entry).nextOrderId = ledger.nextOrderId := rfl

@[simp]
theorem record_idPrefix (ledger : PaperLedger) (entry : PaperLedgerEntry) :
    (ledger.record entry).idPrefix = ledger.idPrefix := rfl

/-! ## A placement and its answer -/

/-- The identity the ledger expects the simulator to mint next. -/
def expectedOrderId (ledger : PaperLedger) : String :=
  mintedId ledger.idPrefix ledger.nextOrderId

def newPlacement (ledger : PaperLedger) (order : PlaceOrder)
    (strategy : Option StrategyId) : Placement where
  order := .fromOrder order strategy
  expectedOrderId := ledger.expectedOrderId
  terminal := none

/-- The ledger after `begin_order`. -/
def placed (ledger : PaperLedger) (order : PlaceOrder)
    (strategy : Option StrategyId) (timestampMs : I64) : PaperLedger :=
  { ledger with
    placements := AList.insert ledger.nextEventId
      (ledger.newPlacement order strategy) ledger.placements
    nextOrderId := ledger.nextOrderId + 1 : PaperLedger }.record
      (ledger.nextEntry timestampMs (.orderPlaced (.fromOrder order strategy)))

def rejected (ledger : PaperLedger) (order : PlaceOrder)
    (strategy : Option StrategyId) (timestampMs : I64) : PaperLedger :=
  let placed := ledger.placed order strategy timestampMs
  { placed with
    placements := AList.insert ledger.nextEventId
      { ledger.newPlacement order strategy with terminal := some .rejected }
      placed.placements : PaperLedger }.record
        (placed.nextEntry timestampMs
          (.orderRejected ledger.nextEventId ledger.expectedOrderId))

def newTracked (order : PlaceOrder) (strategy : Option StrategyId)
    (state : OrderState) (activeAtMs timestampMs : I64) : TrackedOrder where
  order := .fromOrder order strategy
  state := state
  submittedMs := timestampMs
  activeAtMs := activeAtMs

def acknowledged (ledger : PaperLedger) (order : PlaceOrder)
    (strategy : Option StrategyId) (state : OrderState)
    (activeAtMs timestampMs : I64) : PaperLedger :=
  let placed := ledger.placed order strategy timestampMs
  { placed with
    orders := AList.insert ledger.expectedOrderId
      (newTracked order strategy state activeAtMs timestampMs) ledger.orders
    placements := AList.insert ledger.nextEventId
      { ledger.newPlacement order strategy with terminal := some (.ack state) }
      placed.placements : PaperLedger }.record
        (placed.nextEntry timestampMs
          (.orderAck ledger.nextEventId ledger.expectedOrderId state
            activeAtMs))

section Placement

variable {ledger : PaperLedger} {order : PlaceOrder}
  {strategy : Option StrategyId} {timestampMs : I64}

theorem beginOrder_eq
    (fresh : ledger.placements.lookup ledger.nextEventId = none) :
    ledger.beginOrder order strategy timestampMs =
      (ledger.placed order strategy timestampMs,
        .ok (ledger.nextEventId, ledger.expectedOrderId)) := by
  have applied : Applied ledger ledger.nextEventId timestampMs
      (.orderPlaced (.fromOrder order strategy)) _ :=
    .orderPlaced (.fromOrder order strategy) fresh
  simp only [beginOrder, append_of_applied applied]
  rfl

theorem placed_lookup :
    (ledger.placed order strategy timestampMs).placements.lookup
        ledger.nextEventId =
      some (ledger.newPlacement order strategy) := by
  simp [placed]

theorem reject_placed :
    (ledger.placed order strategy timestampMs).reject ledger.nextEventId
        ledger.expectedOrderId timestampMs =
      (ledger.rejected order strategy timestampMs, .ok ()) := by
  have applied : Applied (ledger.placed order strategy timestampMs)
      (ledger.placed order strategy timestampMs).nextEventId timestampMs
      (.orderRejected ledger.nextEventId ledger.expectedOrderId) _ :=
    .orderRejected _ _ _ placed_lookup rfl rfl
  simp only [reject, append_of_applied applied]
  rfl

theorem acknowledge_placed (state : OrderState) (activeAtMs : I64) :
    (ledger.placed order strategy timestampMs).acknowledge ledger.nextEventId
        ledger.expectedOrderId state activeAtMs timestampMs =
      (ledger.acknowledged order strategy state activeAtMs timestampMs,
        .ok ()) := by
  have applied : Applied (ledger.placed order strategy timestampMs)
      (ledger.placed order strategy timestampMs).nextEventId timestampMs
      (.orderAck ledger.nextEventId ledger.expectedOrderId state activeAtMs) _ :=
    .orderAck _ _ _ _ _ placed_lookup rfl rfl
  simp only [acknowledge, append_of_applied applied]
  rfl

/-- An acknowledgement of another identity is refused and changes nothing. -/
theorem acknowledge_diverged (state : OrderState) (activeAtMs : I64)
    {actual : String} (ne : ledger.expectedOrderId ≠ actual) :
    (ledger.placed order strategy timestampMs).acknowledge ledger.nextEventId
        actual state activeAtMs timestampMs =
      (ledger.placed order strategy timestampMs, .error (.inconsistent
          (ledger.placed order strategy timestampMs).nextEventId
          s!"ack does not match pending placement {ledger.nextEventId}")) := by
  have mismatch : (ledger.newPlacement order strategy).expectedOrderId ≠
      actual := ne
  simp only [acknowledge, append, apply, nextEntry, applyAck, placed_lookup]
  simp [mismatch, nextEventId]

theorem rejected_placements (key : String) :
    (ledger.rejected order strategy timestampMs).placements.lookup key =
      if key = ledger.nextEventId then
        some { ledger.newPlacement order strategy with
          terminal := some .rejected }
      else
        ledger.placements.lookup key := by
  simp only [rejected, placed, record_placements, KeyedMap.lookup_insert_eq]
  by_cases same : key = ledger.nextEventId
  · simp [same]
  · simp [same]

theorem acknowledged_placements (state : OrderState) (activeAtMs : I64)
    (key : String) :
    (ledger.acknowledged order strategy state activeAtMs
        timestampMs).placements.lookup key =
      if key = ledger.nextEventId then
        some { ledger.newPlacement order strategy with
          terminal := some (.ack state) }
      else
        ledger.placements.lookup key := by
  simp only [acknowledged, placed, record_placements, KeyedMap.lookup_insert_eq]
  by_cases same : key = ledger.nextEventId
  · simp [same]
  · simp [same]

theorem acknowledged_orders (ledger : PaperLedger) (order : PlaceOrder)
    (strategy : Option StrategyId) (timestampMs : I64) (state : OrderState)
    (activeAtMs : I64) (key : String) :
    (ledger.acknowledged order strategy state activeAtMs
        timestampMs).orders.lookup key =
      if key = ledger.expectedOrderId then
        some (newTracked order strategy state activeAtMs timestampMs)
      else
        ledger.orders.lookup key := by
  simp only [acknowledged, record_orders, KeyedMap.lookup_insert_eq]

end Placement

/-! ## One fill -/

def ledgerFillOf (fill : FillEvent Decimal) : LedgerFill where
  market := fill.market
  outcome := fill.outcome
  side := fill.side
  price := fill.price
  quantity := fill.size
  fee := fill.fee

def fillEventOf (fill : FillEvent Decimal) : PaperLedgerEvent :=
  .fill fill.orderId fill.market fill.outcome fill.price fill.size fill.side
    fill.fee

def Matches (tracked : TrackedOrder) (fill : FillEvent Decimal) : Prop :=
  fillMismatch tracked fill.market fill.outcome fill.size fill.side = false

inductive FillStep (ledger : PaperLedger) (fill : FillEvent Decimal) :
    PaperLedger × Except PaperLedgerError Unit → Prop
  | recorded (tracked : TrackedOrder)
      (found : ledger.orders.lookup fill.orderId = some tracked)
      (matched : Matches tracked fill)
      (accepted : ledger.account.Accepts (ledgerFillOf fill)) :
      FillStep ledger fill
        ({ ledger with
            account := (ledger.account.applyFill (ledgerFillOf fill)).1
            orders := ordersAfterFill ledger.orders fill.orderId tracked
              fill.size
            fillCount := ledger.fillCount + 1 : PaperLedger }.record
              (ledger.nextEntry fill.timestampMs (fillEventOf fill)),
          .ok ())
  | unmatched (error : PaperLedgerError)
      (unknown : ∀ tracked,
        ledger.orders.lookup fill.orderId = some tracked →
          ¬ Matches tracked fill) :
      FillStep ledger fill (ledger, .error error)
  | refused (tracked : TrackedOrder) (error : PaperLedgerError)
      (found : ledger.orders.lookup fill.orderId = some tracked)
      (matched : Matches tracked fill)
      (notAccepted : ¬ ledger.account.Accepts (ledgerFillOf fill)) :
      FillStep ledger fill
        ({ ledger with
            account :=
              { ledger.account with
                fees := ledger.account.fees +
                  PortfolioLedger.charged (ledgerFillOf fill) } },
          .error error)

theorem recordFill_step (ledger : PaperLedger) (fill : FillEvent Decimal) :
    FillStep ledger fill (ledger.recordFill fill) := by
  cases found : ledger.orders.lookup fill.orderId with
  | none =>
      have failed : ∃ error, ledger.recordFill fill = (ledger, .error error) := by
        refine ⟨.inconsistent ledger.nextEventId
          s!"fill references unknown order {fill.orderId}", ?_⟩
        simp only [recordFill, append, apply, nextEntry, applyFill, found]
      obtain ⟨error, failed⟩ := failed
      rw [failed]
      refine .unmatched error ?_
      intro tracked known
      rw [found] at known
      cases known
  | some tracked =>
      cases matched : fillMismatch tracked fill.market fill.outcome fill.size
          fill.side with
      | true =>
          have failed : ∃ error,
              ledger.recordFill fill = (ledger, .error error) := by
            refine ⟨.inconsistent ledger.nextEventId
              s!"fill does not match order {fill.orderId}", ?_⟩
            simp only [recordFill, append, apply, nextEntry, applyFill, found,
              matched, if_true]
          obtain ⟨error, failed⟩ := failed
          rw [failed]
          refine .unmatched error ?_
          intro known foundKnown agrees
          rw [found] at foundKnown
          cases foundKnown
          rw [Matches, matched] at agrees
          cases agrees
      | false =>
          by_cases accepted : ledger.account.Accepts (ledgerFillOf fill)
          · have applied : Applied ledger ledger.nextEventId fill.timestampMs
                (fillEventOf fill) _ :=
              .fill _ _ _ _ _ _ _ tracked found matched accepted
            have appended := append_of_applied applied
            unfold recordFill
            rw [fillEventOf] at appended
            rw [appended]
            exact .recorded tracked found matched accepted
          · have account := PortfolioLedger.applyFill_refused accepted
            have result : ∃ error,
                (ledger.account.applyFill (ledgerFillOf fill)).2 =
                  .error error := by
              cases answer :
                  (ledger.account.applyFill (ledgerFillOf fill)).2 with
              | error error => exact ⟨error, rfl⟩
              | ok done =>
                  exact absurd
                    (PortfolioLedger.applyFill_result_iff.mp answer) accepted
            obtain ⟨error, result⟩ := result
            unfold ledgerFillOf at account result
            have failed : ledger.recordFill fill =
                ({ ledger with
                    account :=
                      { ledger.account with
                        fees := ledger.account.fees +
                          PortfolioLedger.charged (ledgerFillOf fill) } },
                  .error (.accounting error)) := by
              simp only [recordFill, append, apply, nextEntry, applyFill,
                found, matched, Bool.false_eq_true, if_false, result, account]
              rfl
            rw [failed]
            exact .refused tracked _ found matched accepted

/-! ## Cancellations and settlements -/

variable {ledger : PaperLedger}

theorem cancel_tracked {orderId : String} {tracked : TrackedOrder}
    (found : ledger.orders.lookup orderId = some tracked) (timestampMs : I64) :
    ledger.cancel orderId timestampMs =
      ({ ledger with
          orders := ledger.orders.erase orderId : PaperLedger }.record
            (ledger.nextEntry timestampMs (.orderCancelled orderId)),
        .ok ()) := by
  have applied : Applied ledger ledger.nextEventId timestampMs
      (.orderCancelled orderId) _ := .orderCancelled orderId tracked found
  simp only [cancel, found, Option.isSome_some, if_true,
    append_of_applied applied]

theorem cancel_untracked {orderId : String}
    (absent : ledger.orders.lookup orderId = none) (timestampMs : I64) :
    ledger.cancel orderId timestampMs = (ledger, .ok ()) := by
  simp [cancel, absent]

/-- A reflexive and transitive relation that every fill keeps holds over the
loop. -/
theorem recordFills_related {related : PaperLedger → PaperLedger → Prop}
    (refl : ∀ ledger, related ledger ledger)
    (trans : ∀ {first second third}, related first second →
      related second third → related first third)
    {fills : List (FillEvent Decimal)}
    (one : ∀ ledger, ∀ fill ∈ fills, related ledger (ledger.recordFill fill).1)
    (ledger : PaperLedger) : related ledger (ledger.recordFills fills).1 := by
  induction fills generalizing ledger with
  | nil =>
      exact refl ledger
  | cons fill rest ih =>
      have first := one ledger fill List.mem_cons_self
      have later := ih fun ledger other mem =>
        one ledger other (List.mem_cons_of_mem fill mem)
      rw [recordFills]
      cases recorded : ledger.recordFill fill with
      | mk next result =>
          rw [recorded] at first
          cases result with
          | error error => exact first
          | ok done => exact trans first (later next)

theorem cancelEach_related {related : PaperLedger → PaperLedger → Prop}
    (refl : ∀ ledger, related ledger ledger)
    (trans : ∀ {first second third}, related first second →
      related second third → related first third)
    {timestampMs : I64}
    (one : ∀ ledger orderId tracked,
      ledger.orders.lookup orderId = some tracked →
        related ledger ({ ledger with
          orders := ledger.orders.erase orderId : PaperLedger }.record
            (ledger.nextEntry timestampMs (.orderCancelled orderId))))
    (orderIds : List String) (ledger : PaperLedger) :
    related ledger (ledger.cancelEach timestampMs orderIds).1 := by
  induction orderIds generalizing ledger with
  | nil =>
      exact refl ledger
  | cons orderId rest ih =>
      rw [cancelEach]
      cases found : ledger.orders.lookup orderId with
      | none =>
          rw [cancel_untracked found]
          exact ih ledger
      | some tracked =>
          rw [cancel_tracked found]
          exact trans (one ledger orderId tracked found)
            (ih _)

/-- Cancelling never fails, and removes exactly the orders it names. -/
theorem cancelEach_orders
    (timestampMs : I64) (ledger : PaperLedger) (orderIds : List String) :
    (ledger.cancelEach timestampMs orderIds).2 = .ok () ∧
      ∀ key, (ledger.cancelEach timestampMs orderIds).1.orders.lookup key =
        if key ∈ orderIds then none else ledger.orders.lookup key := by
  induction orderIds generalizing ledger with
  | nil =>
      simp [cancelEach]
  | cons orderId rest ih =>
      cases found : ledger.orders.lookup orderId with
      | none =>
          rw [cancelEach, cancel_untracked found]
          obtain ⟨result, orders⟩ := ih ledger
          refine ⟨result, ?_⟩
          intro key
          rw [orders key]
          by_cases same : key = orderId
          · subst same
            simp [found]
          · simp [same]
      | some tracked =>
          rw [cancelEach, cancel_tracked found]
          obtain ⟨result, orders⟩ := ih
            ({ ledger with
                orders := ledger.orders.erase orderId : PaperLedger }.record
                  (ledger.nextEntry timestampMs (.orderCancelled orderId)))
          refine ⟨result, ?_⟩
          intro key
          rw [orders key, record_orders, KeyedMap.lookup_erase_eq]
          by_cases same : key = orderId
          · simp [same]
          · simp [same]

theorem settle_cases
    (ledger : PaperLedger) (market : MarketId) (outcome : Outcome)
    (settledSize proceeds : Decimal) (timestampMs : I64) :
    (∃ next, Applied ledger ledger.nextEventId timestampMs
        (.settlement market outcome settledSize proceeds) next ∧
      ledger.settle market outcome settledSize proceeds timestampMs =
        (next.record (ledger.nextEntry timestampMs
          (.settlement market outcome settledSize proceeds)), .ok ())) ∨
    ∃ error, ledger.settle market outcome settledSize proceeds timestampMs =
      (ledger, .error error) := by
  by_cases refused : settledSize ≤ 0 ∨ proceeds < 0 ∨
      (ledger.account.position market outcome).quantity ≠ settledSize
  · right
    refine ⟨.inconsistent ledger.nextEventId
      "settlement does not exactly consume the held position", ?_⟩
    simp [settle, append, apply, nextEntry, applySettlement, refused]
  · left
    rw [not_or, not_or, not_le, not_lt, not_not] at refused
    have applied : Applied ledger ledger.nextEventId timestampMs
        (.settlement market outcome settledSize proceeds) _ :=
      .settlement market outcome settledSize proceeds refused.1 refused.2.1
        refused.2.2
    exact ⟨_, applied, append_of_applied applied⟩

theorem recordFill_grows (ledger : PaperLedger) (fill : FillEvent Decimal) :
    Grows ledger (ledger.recordFill fill).1 :=
  .single ledger _ _ (by simp)

theorem cancel_grows
    (ledger : PaperLedger) (orderId : String) (timestampMs : I64) :
    Grows ledger (ledger.cancel orderId timestampMs).1 := by
  unfold cancel
  split
  · exact .single ledger _ _ (by simp)
  · exact .same

theorem placed_grows (order : PlaceOrder) (strategy : Option StrategyId)
    (timestampMs : I64)
    (fresh : ledger.placements.lookup ledger.nextEventId = none) :
    Grows ledger (ledger.placed order strategy timestampMs) := by
  have applied : Applied ledger ledger.nextEventId timestampMs
      (.orderPlaced (.fromOrder order strategy)) _ := .orderPlaced _ fresh
  have grows := Grows.single ledger timestampMs
    (.orderPlaced (.fromOrder order strategy)) (by simp)
  rw [append_of_applied applied] at grows
  exact grows

theorem rejected_grows (order : PlaceOrder) (strategy : Option StrategyId)
    (timestampMs : I64)
    (fresh : ledger.placements.lookup ledger.nextEventId = none) :
    Grows ledger (ledger.rejected order strategy timestampMs) := by
  have answered := Grows.single (ledger.placed order strategy timestampMs)
    timestampMs
    (.orderRejected ledger.nextEventId ledger.expectedOrderId)
    (by simp)
  have result : ((ledger.placed order strategy timestampMs).append timestampMs
      (.orderRejected ledger.nextEventId ledger.expectedOrderId)).1 =
        ledger.rejected order strategy timestampMs :=
    congrArg Prod.fst reject_placed
  rw [result] at answered
  exact (placed_grows order strategy timestampMs fresh).trans answered

theorem acknowledged_grows (order : PlaceOrder) (strategy : Option StrategyId)
    (state : OrderState) (activeAtMs timestampMs : I64)
    (fresh : ledger.placements.lookup ledger.nextEventId = none) :
    Grows ledger
      (ledger.acknowledged order strategy state activeAtMs timestampMs) := by
  have answered := Grows.single (ledger.placed order strategy timestampMs)
    timestampMs
    (.orderAck ledger.nextEventId ledger.expectedOrderId state activeAtMs)
    (by simp)
  have result : ((ledger.placed order strategy timestampMs).append timestampMs
      (.orderAck ledger.nextEventId ledger.expectedOrderId state
        activeAtMs)).1 =
        ledger.acknowledged order strategy state activeAtMs timestampMs :=
    congrArg Prod.fst (acknowledge_placed state activeAtMs)
  rw [result] at answered
  exact (placed_grows order strategy timestampMs fresh).trans answered

theorem recordFills_grows
    (ledger : PaperLedger) (fills : List (FillEvent Decimal)) :
    Grows ledger (ledger.recordFills fills).1 :=
  recordFills_related (fun _ => .same) .trans
    (fun ledger fill _ => recordFill_grows ledger fill) ledger

theorem cancelEach_grows
    (timestampMs : I64) (ledger : PaperLedger) (orderIds : List String) :
    Grows ledger (ledger.cancelEach timestampMs orderIds).1 := by
  refine cancelEach_related (fun _ => .same) .trans ?_ orderIds ledger
  intro ledger orderId tracked found
  have grows := cancel_grows ledger orderId timestampMs
  rw [cancel_tracked found] at grows
  exact grows

end PaperLedger

namespace ExecutorState

/-! ## One submission -/

/-- The state after a placement was answered: the simulator's fills drained
into the ledger. -/
def concluded (state : ExecutorState) (engine : SimEngine)
    (answered : PaperLedger) (nowMs : I64) : ExecutorState :=
  { state with
    engine := engine.drainFills.1
    ledger := (answered.recordFills engine.pendingFills).1
    lastTimestampMs :=
      match (answered.recordFills engine.pendingFills).2 with
      | .ok () => nowMs
      | .error _ => state.lastTimestampMs }

inductive SubmissionStep (state : ExecutorState) (order : PlaceOrder)
    (strategy : Option StrategyId) (nowMs : I64) : ExecutorState → Prop
  | refused (error : ExecError)
      (check : ensureSubmittable order state.config state.ledger =
        .error error) :
      SubmissionStep state order strategy nowMs state
  | rejected (result : SimEngine × Option String)
      (check : ensureSubmittable order state.config state.ledger = .ok ())
      (submitted : SimEngine.Submitted state.engine order strategy nowMs result)
      (noId : result.2 = none) :
      SubmissionStep state order strategy nowMs
        (state.concluded result.1
          (state.ledger.rejected order strategy nowMs) nowMs)
  | diverged (result : SimEngine × Option String) (actual : String)
      (check : ensureSubmittable order state.config state.ledger = .ok ())
      (submitted : SimEngine.Submitted state.engine order strategy nowMs result)
      (minted : result.2 = some actual)
      (different : state.ledger.expectedOrderId ≠ actual) :
      SubmissionStep state order strategy nowMs
        { state with
          engine := result.1
          ledger := state.ledger.placed order strategy nowMs }
  | accepted (result : SimEngine × Option String)
      (check : ensureSubmittable order state.config state.ledger = .ok ())
      (submitted : SimEngine.Submitted state.engine order strategy nowMs result)
      (minted : result.2 = some state.ledger.expectedOrderId) :
      SubmissionStep state order strategy nowMs
        (state.concluded result.1
          (state.ledger.acknowledged order strategy
            (acceptedState order state.config)
            (nowMs.saturatingAdd state.config.activationLatencyMs) nowMs)
          nowMs)

theorem completeSubmission_rejected
    (receiverOpen : Bool) (state : ExecutorState) (order : PlaceOrder)
    (strategy : Option StrategyId) (nowMs : I64) (engine : SimEngine) :
    (completeSubmission receiverOpen { state with
        engine := engine
        ledger := state.ledger.placed order strategy nowMs }
      state.ledger.nextEventId state.ledger.expectedOrderId none order
      nowMs).1 =
      state.concluded engine (state.ledger.rejected order strategy nowMs)
        nowMs := by
  simp only [completeSubmission, PaperLedger.reject_placed,
    SimEngine.drainFills, concluded]
  cases (state.ledger.rejected order strategy nowMs).recordFills
      engine.pendingFills with
  | mk ledger result =>
      cases result with
      | error error => rfl
      | ok done => rfl

theorem completeSubmission_accepted
    (receiverOpen : Bool) (state : ExecutorState) (order : PlaceOrder)
    (strategy : Option StrategyId) (nowMs : I64) (engine : SimEngine) :
    (completeSubmission receiverOpen { state with
        engine := engine
        ledger := state.ledger.placed order strategy nowMs }
      state.ledger.nextEventId state.ledger.expectedOrderId
      (some state.ledger.expectedOrderId) order nowMs).1 =
      state.concluded engine
        (state.ledger.acknowledged order strategy
          (acceptedState order state.config)
          (nowMs.saturatingAdd state.config.activationLatencyMs) nowMs)
        nowMs := by
  simp only [completeSubmission, PaperLedger.acknowledge_placed,
    SimEngine.drainFills, concluded]
  cases (state.ledger.acknowledged order strategy
      (acceptedState order state.config)
      (nowMs.saturatingAdd state.config.activationLatencyMs)
      nowMs).recordFills engine.pendingFills with
  | mk ledger result =>
      cases result with
      | error error => rfl
      | ok done => rfl

theorem completeSubmission_diverged
    (receiverOpen : Bool) (state : ExecutorState) (order : PlaceOrder)
    (strategy : Option StrategyId) (nowMs : I64) (engine : SimEngine)
    {actual : String} (ne : state.ledger.expectedOrderId ≠ actual) :
    (completeSubmission receiverOpen { state with
        engine := engine
        ledger := state.ledger.placed order strategy nowMs }
      state.ledger.nextEventId state.ledger.expectedOrderId (some actual) order
      nowMs).1 =
      { state with
        engine := engine
        ledger := state.ledger.placed order strategy nowMs } := by
  simp only [completeSubmission, PaperLedger.acknowledge_diverged _ _ ne]

variable {state : ExecutorState} {idPrefix : String} {config : SimulationConfig}
  {engine : SimEngine}

theorem submitOwned_step
    (fresh : state.ledger.placements.lookup state.ledger.nextEventId = none)
    (receiverOpen : Bool) (order : PlaceOrder) (strategy : Option StrategyId)
    (nowMs : I64) :
    SubmissionStep state order strategy nowMs
      (state.submitOwned receiverOpen order strategy nowMs).1 := by
  unfold submitOwned
  cases check : ensureSubmittable order state.config state.ledger with
  | error error =>
      exact .refused error check
  | ok done =>
      simp only [PaperLedger.beginOrder_eq fresh]
      have submitted := SimEngine.submitWithStrategy_submitted state.engine
        order strategy nowMs
      generalize state.engine.submitWithStrategy order strategy nowMs =
        result at submitted
      obtain ⟨engine, id⟩ := result
      cases id with
      | none =>
          rw [completeSubmission_rejected]
          exact .rejected (engine, none) check submitted rfl
      | some actual =>
          by_cases same : state.ledger.expectedOrderId = actual
          · subst same
            rw [completeSubmission_accepted]
            exact .accepted (engine, some _) check submitted rfl
          · rw [completeSubmission_diverged receiverOpen state order strategy
              nowMs engine same]
            exact .diverged (engine, some actual) actual check submitted rfl same

/-- The identity check of `submit` changes its message, not its effect: both
paths leave the same state. -/
theorem submit_state
    (fresh : state.ledger.placements.lookup state.ledger.nextEventId = none)
    (receiverOpen : Bool) (order : PlaceOrder) (nowMs : I64) :
    (state.submit receiverOpen order nowMs).1 =
      (state.submitOwned receiverOpen order none nowMs).1 := by
  unfold submit submitOwned
  cases check : ensureSubmittable order state.config state.ledger with
  | error error =>
      rfl
  | ok done =>
      obtain ⟨engine, id, result⟩ : ∃ engine id,
          state.engine.submitWithStrategy order none nowMs = (engine, id) :=
        ⟨_, _, rfl⟩
      simp only [PaperLedger.beginOrder_eq fresh, SimEngine.submit, result]
      cases id with
      | none =>
          simp
      | some actual =>
          by_cases same : actual = state.ledger.expectedOrderId
          · simp [same]
          · simp only [Option.any_some, ne_eq, same, not_false_eq_true,
              decide_true, if_true]
            rw [completeSubmission_diverged receiverOpen state order none
              nowMs engine (Ne.symm same)]

/-! ## Every call only appends -/

/-- A submission is completed by an answer of the ledger, and then by the fills
that are drained. -/
theorem completeSubmission_cases (receiverOpen : Bool) (state : ExecutorState)
    (placementId expectedOrderId : String) (id : Option String)
    (order : PlaceOrder) (nowMs : I64) :
    ∃ event, (∀ amount, event ≠ .cashMovement amount) ∧
      ((completeSubmission receiverOpen state placementId expectedOrderId id
            order nowMs).1.ledger = (state.ledger.append nowMs event).1 ∧
          (completeSubmission receiverOpen state placementId expectedOrderId
            id order nowMs).1.engine = state.engine ∨
        (completeSubmission receiverOpen state placementId expectedOrderId id
            order nowMs).1.ledger = ((state.ledger.append nowMs
              event).1.recordFills state.engine.drainFills.2).1 ∧
          (completeSubmission receiverOpen state placementId expectedOrderId
            id order nowMs).1.engine = state.engine.drainFills.1) := by
  unfold completeSubmission
  cases id with
  | none =>
      refine ⟨.orderRejected placementId expectedOrderId, by simp, ?_⟩
      simp only [PaperLedger.reject]
      cases answer : state.ledger.append nowMs
          (.orderRejected placementId expectedOrderId) with
      | mk answered result =>
          cases result with
          | error error => exact .inl ⟨rfl, rfl⟩
          | ok done =>
              simp only
              cases recorded : answered.recordFills
                  state.engine.drainFills.2 with
              | mk ledger outcome =>
                  cases outcome with
                  | error error => exact .inr ⟨rfl, rfl⟩
                  | ok done => exact .inr ⟨rfl, rfl⟩
  | some actual =>
      refine ⟨.orderAck placementId actual (acceptedState order state.config)
        (nowMs.saturatingAdd state.config.activationLatencyMs), by simp, ?_⟩
      simp only [PaperLedger.acknowledge]
      cases answer : state.ledger.append nowMs
          (.orderAck placementId actual (acceptedState order state.config)
            (nowMs.saturatingAdd state.config.activationLatencyMs)) with
      | mk answered result =>
          cases result with
          | error error => exact .inl ⟨rfl, rfl⟩
          | ok done =>
              simp only
              cases recorded : answered.recordFills
                  state.engine.drainFills.2 with
              | mk ledger outcome =>
                  cases outcome with
                  | error error => exact .inr ⟨rfl, rfl⟩
                  | ok done => exact .inr ⟨rfl, rfl⟩

theorem completeSubmission_grows (receiverOpen : Bool) (state : ExecutorState)
    (placementId expectedOrderId : String) (id : Option String)
    (order : PlaceOrder) (nowMs : I64) :
    state.ledger.Grows (completeSubmission receiverOpen state placementId
      expectedOrderId id order nowMs).1.ledger := by
  obtain ⟨event, noCash, ⟨ledger, _⟩ | ⟨ledger, _⟩⟩ := completeSubmission_cases
    receiverOpen state placementId expectedOrderId id order nowMs
  · rw [ledger]
    exact .single state.ledger nowMs event noCash
  · rw [ledger]
    exact (PaperLedger.Grows.single state.ledger nowMs event noCash).trans
      (PaperLedger.recordFills_grows _ _)

theorem beginOrder_grows
    (ledger : PaperLedger) (order : PlaceOrder) (strategy : Option StrategyId)
    (nowMs : I64) :
    ledger.Grows (ledger.beginOrder order strategy nowMs).1 := by
  have grows : ledger.Grows (ledger.append nowMs
      (.orderPlaced (.fromOrder order strategy))).1 :=
    .single ledger nowMs _ (by simp)
  unfold PaperLedger.beginOrder
  cases appended : ledger.append nowMs
      (.orderPlaced (.fromOrder order strategy)) with
  | mk next result =>
      rw [appended] at grows
      cases result with
      | error error => exact grows
      | ok done => exact grows

theorem submitOwned_grows
    (receiverOpen : Bool) (state : ExecutorState) (order : PlaceOrder)
    (strategy : Option StrategyId) (nowMs : I64) :
    state.ledger.Grows
      (state.submitOwned receiverOpen order strategy nowMs).1.ledger := by
  have begun := beginOrder_grows state.ledger order strategy nowMs
  unfold submitOwned
  cases ensureSubmittable order state.config state.ledger with
  | error error =>
      exact .same
  | ok done =>
      cases started : state.ledger.beginOrder order strategy nowMs with
      | mk ledger result =>
          rw [started] at begun
          cases result with
          | error error => exact begun
          | ok ids =>
              exact begun.trans (completeSubmission_grows receiverOpen
                { state with
                  engine :=
                    (state.engine.submitWithStrategy order strategy nowMs).1
                  ledger := ledger } ids.1 ids.2
                (state.engine.submitWithStrategy order strategy nowMs).2 order
                nowMs)

theorem submit_grows
    (receiverOpen : Bool) (state : ExecutorState) (order : PlaceOrder)
    (nowMs : I64) :
    state.ledger.Grows (state.submit receiverOpen order nowMs).1.ledger := by
  have begun := beginOrder_grows state.ledger order none nowMs
  unfold submit
  cases ensureSubmittable order state.config state.ledger with
  | error error =>
      exact .same
  | ok done =>
      cases started : state.ledger.beginOrder order none nowMs with
      | mk ledger result =>
          rw [started] at begun
          cases result with
          | error error => exact begun
          | ok ids =>
              simp only
              split
              · exact begun
              · exact begun.trans (completeSubmission_grows receiverOpen
                  { state with
                    engine := (state.engine.submit order nowMs).1
                    ledger := ledger }
                  ids.1 ids.2 (state.engine.submit order nowMs).2 order nowMs)

theorem updateBook_ledger
    (receiverOpen : Bool) (fillOrder cancelOrder : IterationOrder String)
    (state : ExecutorState) (market : MarketId) (outcome : Outcome)
    (book : OrderBookL2) :
    ∃ orderIds, (state.updateBook receiverOpen fillOrder cancelOrder market
        outcome book).1.ledger =
      ((state.ledger.recordFills
        (state.engine.updateBook fillOrder market outcome
          book).pendingFills).1.cancelEach book.timestampMs orderIds).1 := by
  simp only [updateBook, SimEngine.drainFills]
  cases state.ledger.recordFills
      (state.engine.updateBook fillOrder market outcome book).pendingFills with
  | mk ledger result =>
      cases result with
      | error error =>
          exact ⟨[], rfl⟩
      | ok done =>
          refine ⟨state.ledger.maturingDelayed cancelOrder market outcome
            book.timestampMs, ?_⟩
          simp only
          cases ledger.cancelEach book.timestampMs
              (state.ledger.maturingDelayed cancelOrder market outcome
                book.timestampMs) with
          | mk last answer =>
              cases answer with
              | error error => rfl
              | ok done => rfl

theorem updateBook_grows
    (receiverOpen : Bool) (fillOrder cancelOrder : IterationOrder String)
    (state : ExecutorState) (market : MarketId) (outcome : Outcome)
    (book : OrderBookL2) :
    state.ledger.Grows (state.updateBook receiverOpen fillOrder cancelOrder
      market outcome book).1.ledger := by
  obtain ⟨orderIds, ledger⟩ := updateBook_ledger receiverOpen fillOrder
    cancelOrder state market outcome book
  rw [ledger]
  exact (PaperLedger.recordFills_grows _ _).trans
    (PaperLedger.cancelEach_grows _ _ _)

/-- A cancellation reaches the ledger when the simulator freed the order. -/
theorem cancel_ledger (state : ExecutorState) (orderId : String) :
    ∃ orderIds, (state.cancel orderId).1.ledger =
      (state.ledger.cancelEach state.lastTimestampMs orderIds).1 := by
  unfold cancel
  cases state.engine.cancel orderId with
  | mk engine freed =>
      cases freed with
      | none =>
          exact ⟨[], rfl⟩
      | some notional =>
          refine ⟨[orderId], ?_⟩
          simp only [PaperLedger.cancelEach]
          cases state.ledger.cancel orderId state.lastTimestampMs with
          | mk ledger result =>
              cases result with
              | error error => rfl
              | ok done => rfl

theorem cancel_grows (state : ExecutorState) (orderId : String) :
    state.ledger.Grows (state.cancel orderId).1.ledger := by
  obtain ⟨orderIds, ledger⟩ := cancel_ledger state orderId
  rw [ledger]
  exact PaperLedger.cancelEach_grows _ _ _

theorem cancelAll_grows (state : ExecutorState) :
    state.ledger.Grows state.cancelAll.1.ledger := by
  have grows := PaperLedger.cancelEach_grows state.lastTimestampMs
    state.ledger (state.engine.openOrders.map SimOpenOrder.orderId)
  unfold cancelAll
  simp only
  cases cancelled : state.ledger.cancelEach state.lastTimestampMs
      (state.engine.openOrders.map SimOpenOrder.orderId) with
  | mk ledger result =>
      rw [cancelled] at grows
      cases result with
      | error error => exact grows
      | ok done => exact grows

theorem settle_ledger
    (state : ExecutorState) (market : MarketId) (outcome : Outcome)
    (settledSize proceeds : Decimal) (timestampMs : I64) :
    (state.settle market outcome settledSize proceeds timestampMs).1.ledger =
      (state.ledger.settle market outcome settledSize proceeds
        timestampMs).1 := by
  unfold settle
  cases state.ledger.settle market outcome settledSize proceeds
      timestampMs with
  | mk ledger result =>
      cases result with
      | error error => rfl
      | ok done => rfl

theorem settle_grows
    (state : ExecutorState) (market : MarketId) (outcome : Outcome)
    (settledSize proceeds : Decimal) (timestampMs : I64) :
    state.ledger.Grows (state.settle market outcome settledSize proceeds
      timestampMs).1.ledger := by
  rw [settle_ledger]
  exact .single _ _ _ (by simp)

/-- Whatever a call does and however it ends, its ledger only grew. -/
theorem step_grows (state : ExecutorState) (call : ExecutorCall) :
    state.ledger.Grows (state.step call).ledger := by
  cases call with
  | submit receiverOpen order nowMs =>
      exact submit_grows receiverOpen state order nowMs
  | submitForStrategy receiverOpen order strategy nowMs =>
      exact submitOwned_grows receiverOpen state order (some strategy) nowMs
  | updateBook receiverOpen fillOrder cancelOrder market outcome book =>
      exact updateBook_grows receiverOpen fillOrder cancelOrder state market
        outcome book
  | cancel orderId =>
      exact cancel_grows state orderId
  | cancelAll =>
      exact cancelAll_grows state
  | settle market outcome settledSize proceeds timestampMs =>
      exact settle_grows state market outcome settledSize proceeds timestampMs

/-! ## What holds in every run -/

/-- What no call breaks, however it ends. -/
structure Sound (idPrefix : String) (config : SimulationConfig)
    (state : ExecutorState) : Prop where
  recorded : state.ledger.Recorded
  wellFormed : state.engine.WellFormed
  enginePrefix : state.engine.idPrefix = idPrefix
  ledgerPrefix : state.ledger.idPrefix = idPrefix
  engineConfig : state.engine.config = config
  config : state.config = config

theorem withAccountFeeConfig_sound
    (idPrefix : String) (config : SimulationConfig) (initialCash : Money) :
    (withAccountFeeConfig idPrefix config initialCash).Sound idPrefix config where
  recorded := PaperLedger.new_recorded initialCash idPrefix
  wellFormed := SimEngine.withFeeConfig_wellFormed idPrefix 0 config
  enginePrefix := rfl
  ledgerPrefix := rfl
  engineConfig := rfl
  config := rfl

/-- The part of the invariant about the simulator. -/
structure EngineSound (idPrefix : String) (config : SimulationConfig)
    (engine : SimEngine) : Prop where
  wellFormed : engine.WellFormed
  idPrefix : engine.idPrefix = idPrefix
  config : engine.config = config

theorem EngineSound.drainFills (sound : EngineSound idPrefix config engine) :
    EngineSound idPrefix config engine.drainFills.1 :=
  ⟨SimEngine.drainFills_wellFormed sound.wellFormed, sound.idPrefix,
    sound.config⟩

theorem EngineSound.submitted
    (sound : EngineSound idPrefix config engine) {order : PlaceOrder}
    {strategy : Option StrategyId} {nowMs : I64}
    {result : SimEngine × Option String}
    (submitted : SimEngine.Submitted engine order strategy nowMs result) :
    EngineSound idPrefix config result.1 := by
  obtain ⟨_, samePrefix, _, sameConfig⟩ := submitted.frame
  exact ⟨submitted.wellFormed sound.wellFormed,
    samePrefix.trans sound.idPrefix, sameConfig.trans sound.config⟩

theorem EngineSound.updateBook (sound : EngineSound idPrefix config engine)
    (order : IterationOrder String) (market : MarketId) (outcome : Outcome)
    (book : OrderBookL2) :
    EngineSound idPrefix config
      (engine.updateBook order market outcome book) := by
  obtain ⟨_, _, _, _, samePrefix, _, sameConfig, _⟩ :=
    SimEngine.updateBook_spec sound.wellFormed order market outcome book
  exact ⟨SimEngine.updateBook_wellFormed sound.wellFormed order market outcome
    book, samePrefix.trans sound.idPrefix, sameConfig.trans sound.config⟩

theorem EngineSound.cancel
    (sound : EngineSound idPrefix config engine) (orderId : String) :
    EngineSound idPrefix config (engine.cancel orderId).1 := by
  refine ⟨SimEngine.cancel_wellFormed sound.wellFormed orderId, ?_, ?_⟩
  · rw [← sound.idPrefix]
    unfold SimEngine.cancel
    split
    · rfl
    · split
      · rfl
      · rfl
  · rw [← sound.config]
    unfold SimEngine.cancel
    split
    · rfl
    · split
      · rfl
      · rfl

theorem submitOwned_sound
    (sound : state.Sound idPrefix config) (receiverOpen : Bool)
    (order : PlaceOrder) (strategy : Option StrategyId) (nowMs : I64) :
    (state.submitOwned receiverOpen order strategy nowMs).1.Sound idPrefix
      config := by
  have ledger := (submitOwned_grows receiverOpen state order strategy nowMs).recorded
    sound.recorded sound.ledgerPrefix
  have engineSound : EngineSound idPrefix config state.engine :=
    ⟨sound.wellFormed, sound.enginePrefix, sound.engineConfig⟩
  have step := submitOwned_step sound.recorded.nextFresh receiverOpen order
    strategy nowMs
  generalize (state.submitOwned receiverOpen order strategy nowMs).1 =
    next at step ledger
  have engine : EngineSound idPrefix config next.engine ∧
      next.config = state.config := by
    cases step with
    | refused error check =>
        exact ⟨engineSound, rfl⟩
    | rejected result check submitted noId =>
        exact ⟨(engineSound.submitted submitted).drainFills, rfl⟩
    | diverged result actual check submitted minted ne =>
        exact ⟨engineSound.submitted submitted, rfl⟩
    | accepted result check submitted minted =>
        exact ⟨(engineSound.submitted submitted).drainFills, rfl⟩
  exact ⟨ledger.1, engine.1.wellFormed, engine.1.idPrefix, ledger.2,
    engine.1.config, engine.2.trans sound.config⟩

theorem updateBook_engine
    (receiverOpen : Bool) (fillOrder cancelOrder : IterationOrder String)
    (state : ExecutorState) (market : MarketId) (outcome : Outcome)
    (book : OrderBookL2) :
    (state.updateBook receiverOpen fillOrder cancelOrder market outcome
        book).1.engine =
      (state.engine.updateBook fillOrder market outcome book).drainFills.1 ∧
    (state.updateBook receiverOpen fillOrder cancelOrder market outcome
        book).1.config = state.config := by
  simp only [updateBook, SimEngine.drainFills]
  cases state.ledger.recordFills
      (state.engine.updateBook fillOrder market outcome book).pendingFills with
  | mk ledger result =>
      cases result with
      | error error =>
          exact ⟨rfl, rfl⟩
      | ok done =>
          simp only
          cases ledger.cancelEach book.timestampMs
              (state.ledger.maturingDelayed cancelOrder market outcome
                book.timestampMs) with
          | mk last answer =>
              cases answer with
              | error error => exact ⟨rfl, rfl⟩
              | ok done => exact ⟨rfl, rfl⟩

theorem cancel_engine (state : ExecutorState) (orderId : String) :
    (state.cancel orderId).1.engine = (state.engine.cancel orderId).1 ∧
      (state.cancel orderId).1.config = state.config := by
  unfold cancel
  cases state.engine.cancel orderId with
  | mk engine freed =>
      cases freed with
      | none =>
          exact ⟨rfl, rfl⟩
      | some notional =>
          simp only
          cases state.ledger.cancel orderId state.lastTimestampMs with
          | mk ledger result =>
              cases result with
              | error error => exact ⟨rfl, rfl⟩
              | ok done => exact ⟨rfl, rfl⟩

theorem cancelAll_eq (state : ExecutorState) :
    state.cancelAll =
      ({ state with
          engine := state.engine.cancelAll.1
          ledger := (state.ledger.cancelEach state.lastTimestampMs
            (state.engine.openOrders.map SimOpenOrder.orderId)).1 },
        .ok ()) := by
  have result := (PaperLedger.cancelEach_orders state.lastTimestampMs
    state.ledger (state.engine.openOrders.map SimOpenOrder.orderId)).1
  unfold cancelAll
  simp only
  cases cancelled : state.ledger.cancelEach state.lastTimestampMs
      (state.engine.openOrders.map SimOpenOrder.orderId) with
  | mk ledger answer =>
      rw [cancelled] at result
      simp only at result
      subst result
      rfl

theorem settle_engine
    (state : ExecutorState) (market : MarketId) (outcome : Outcome)
    (settledSize proceeds : Decimal) (timestampMs : I64) :
    (state.settle market outcome settledSize proceeds timestampMs).1.engine =
        state.engine ∧
      (state.settle market outcome settledSize proceeds
        timestampMs).1.config = state.config := by
  unfold settle
  cases state.ledger.settle market outcome settledSize proceeds
      timestampMs with
  | mk ledger result =>
      cases result with
      | error error => exact ⟨rfl, rfl⟩
      | ok done => exact ⟨rfl, rfl⟩

/-- Every call keeps the invariant. -/
theorem step_sound (sound : state.Sound idPrefix config) (call : ExecutorCall) :
    (state.step call).Sound idPrefix config := by
  have ledger := (step_grows state call).recorded sound.recorded
    sound.ledgerPrefix
  have engineSound : EngineSound idPrefix config state.engine :=
    ⟨sound.wellFormed, sound.enginePrefix, sound.engineConfig⟩
  have assemble : ∀ next : ExecutorState, next.ledger.Recorded ∧
      next.ledger.idPrefix = idPrefix →
      EngineSound idPrefix config next.engine → next.config = state.config →
        next.Sound idPrefix config :=
    fun next ledger engine same => ⟨ledger.1, engine.wellFormed,
      engine.idPrefix, ledger.2, engine.config, same.trans sound.config⟩
  cases call with
  | submit receiverOpen order nowMs =>
      change (state.submit receiverOpen order nowMs).1.Sound idPrefix config
      rw [submit_state sound.recorded.nextFresh]
      exact submitOwned_sound sound receiverOpen order none nowMs
  | submitForStrategy receiverOpen order strategy nowMs =>
      exact submitOwned_sound sound receiverOpen order (some strategy) nowMs
  | updateBook receiverOpen fillOrder cancelOrder market outcome book =>
      obtain ⟨engine, same⟩ := updateBook_engine receiverOpen fillOrder
        cancelOrder state market outcome book
      refine assemble _ ledger ?_ same
      change EngineSound idPrefix config (state.updateBook receiverOpen
        fillOrder cancelOrder market outcome book).1.engine
      rw [engine]
      exact (engineSound.updateBook fillOrder market outcome book).drainFills
  | cancel orderId =>
      obtain ⟨engine, same⟩ := cancel_engine state orderId
      refine assemble _ ledger ?_ same
      change EngineSound idPrefix config (state.cancel orderId).1.engine
      rw [engine]
      exact engineSound.cancel orderId
  | cancelAll =>
      refine assemble _ ledger ?_ ?_
      · change EngineSound idPrefix config state.cancelAll.1.engine
        rw [cancelAll_eq]
        exact ⟨SimEngine.cancelAll_wellFormed sound.wellFormed,
          sound.enginePrefix, sound.engineConfig⟩
      · change state.cancelAll.1.config = state.config
        rw [cancelAll_eq]
  | settle market outcome settledSize proceeds timestampMs =>
      obtain ⟨engine, same⟩ := settle_engine state market outcome settledSize
        proceeds timestampMs
      refine assemble _ ledger ?_ same
      change EngineSound idPrefix config (state.settle market outcome
        settledSize proceeds timestampMs).1.engine
      rw [engine]
      exact engineSound

end ExecutorState

end Pmkit
