import Mathlib.Algebra.Order.BigOperators.Group.List
import Pmkit.Paper.Provenance

/-!
# The cash of a funded account

An open buy holds its notional, and a submission is refused when it costs more
than the cash that is not held.  A fill pays its price and its fee, and frees
what it was held for.  The price is never more than the hold; the fee is not
held at all, so an account stays solvent as long as the cash that is free when
a fill is charged covers its fee.
-/

namespace Pmkit

open MachineInt

/-- What an open order holds: the notional of a buy. -/
def TrackedOrder.hold (tracked : TrackedOrder) : Decimal :=
  if tracked.order.side = .buy then
    tracked.order.price * tracked.order.qty
  else
    0

/-- The part of the hold that a fill frees: all of it, unless the order stays
open with the rest of its quantity. -/
def TrackedOrder.released (tracked : TrackedOrder) (fillSize : Decimal) :
    Decimal :=
  if tracked.order.side = .buy then
    tracked.order.price *
      if tracked.state = .resting ∧ fillSize < tracked.order.qty then fillSize
      else tracked.order.qty
  else
    0

def heldCash (orders : KeyedMap String TrackedOrder) : Decimal :=
  (orders.values.map TrackedOrder.hold).sum

/-- Neither price nor quantity is negative. -/
def TrackedOrder.InRange (tracked : TrackedOrder) : Prop :=
  0 ≤ tracked.order.price ∧ 0 ≤ tracked.order.qty

def OrdersInRange (orders : KeyedMap String TrackedOrder) : Prop :=
  ∀ orderId tracked, orders.lookup orderId = some tracked → tracked.InRange

section Held

variable {orders : KeyedMap String TrackedOrder} {orderId : String}
  {tracked : TrackedOrder}

theorem TrackedOrder.InRange.hold_nonneg (inRange : tracked.InRange) :
    0 ≤ tracked.hold := by
  unfold hold
  split
  · exact mul_nonneg inRange.1 inRange.2
  · exact le_refl 0

theorem heldCash_nonneg (inRange : OrdersInRange orders) :
    0 ≤ heldCash orders := by
  apply List.sum_nonneg
  intro hold mem
  obtain ⟨tracked, stored, rfl⟩ := List.mem_map.mp mem
  obtain ⟨orderId, found⟩ := KeyedMap.mem_values.mp stored
  exact (inRange orderId tracked found).hold_nonneg

theorem heldCash_insert (orderId : String) (tracked : TrackedOrder) :
    heldCash (AList.insert orderId tracked orders) =
      tracked.hold + heldCash (orders.erase orderId) := by
  unfold heldCash
  rw [KeyedMap.values_insert, List.map_cons, List.sum_cons]

theorem heldCash_erase (found : orders.lookup orderId = some tracked) :
    heldCash orders = tracked.hold + heldCash (orders.erase orderId) :=
  KeyedMap.sum_values_erase TrackedOrder.hold found

theorem heldCash_erase_le (inRange : OrdersInRange orders) :
    heldCash (orders.erase orderId) ≤ heldCash orders := by
  cases found : orders.lookup orderId with
  | none => rw [KeyedMap.erase_of_lookup_none found]
  | some tracked =>
      have hold := (inRange orderId tracked found).hold_nonneg
      rw [heldCash_erase found]
      linarith

theorem OrdersInRange.erase
    (inRange : OrdersInRange orders) (orderId : String) :
    OrdersInRange (orders.erase orderId) := by
  intro key tracked found
  rw [KeyedMap.lookup_erase_eq] at found
  split at found
  · cases found
  · exact inRange key tracked found

theorem OrdersInRange.insert
    (inRange : OrdersInRange orders) (new : tracked.InRange) :
    OrdersInRange (AList.insert orderId tracked orders) := by
  intro key stored found
  rw [KeyedMap.lookup_insert_eq] at found
  split at found
  · cases found
    exact new
  · exact inRange key stored found

/-- A fill frees its part of the hold. -/
theorem heldCash_ordersAfterFill
    (found : orders.lookup orderId = some tracked) (fillSize : Decimal) :
    heldCash (PaperLedger.ordersAfterFill orders orderId tracked fillSize) =
      heldCash orders - tracked.released fillSize := by
  have total := heldCash_erase found
  unfold PaperLedger.ordersAfterFill TrackedOrder.released
  by_cases partly : tracked.state = .resting ∧ fillSize < tracked.order.qty
  · rw [if_pos partly, if_pos partly, heldCash_insert, total]
    unfold TrackedOrder.hold
    by_cases buy : tracked.order.side = .buy
    · simp only [if_pos buy]
      ring
    · simp only [if_neg buy]
      ring
  · rw [if_neg partly, if_neg partly, total]
    unfold TrackedOrder.hold
    ring

theorem OrdersInRange.afterFill (inRange : OrdersInRange orders)
    (found : orders.lookup orderId = some tracked) (fillSize : Decimal) :
    OrdersInRange
      (PaperLedger.ordersAfterFill orders orderId tracked fillSize) := by
  unfold PaperLedger.ordersAfterFill
  split
  · have old := inRange orderId tracked found
    have rest := ‹tracked.state = .resting ∧ fillSize < tracked.order.qty›.2
    exact inRange.insert ⟨old.1, sub_nonneg.mpr rest.le⟩
  · exact inRange.erase orderId

end Held

/-! ## Free cash -/

namespace PaperLedger

def freeCash (ledger : PaperLedger) : Decimal :=
  ledger.account.cash - heldCash ledger.orders

theorem availableCash_eq (ledger : PaperLedger) :
    ledger.availableCash =
      if ledger.cashFunded then some ledger.freeCash else none := by
  have held : ((ledger.orders.values.filter fun tracked =>
      tracked.order.side = .buy).map fun tracked =>
        tracked.order.price * tracked.order.qty).sum =
          heldCash ledger.orders := by
    unfold heldCash
    induction ledger.orders.values with
    | nil => rfl
    | cons tracked rest ih =>
        by_cases buy : tracked.order.side = .buy
        · simp [buy, TrackedOrder.hold, ih]
        · simp [buy, TrackedOrder.hold, ih]
  unfold availableCash freeCash
  rw [← held]

/-- What a fill frees and earns, less what it pays for the shares. -/
def feeRoom (ledger : PaperLedger) (tracked : TrackedOrder)
    (fill : FillEvent Decimal) : Decimal :=
  match fill.side with
  | .buy =>
      ledger.freeCash + tracked.released fill.size - fill.price * fill.size
  | .sell => ledger.freeCash + fill.price * fill.size

def FeeCovered (ledger : PaperLedger) (fill : FillEvent Decimal) : Prop :=
  ∀ tracked ∈ ledger.orders.lookup fill.orderId,
    fill.fee ≤ ledger.feeRoom tracked fill

instance (ledger : PaperLedger) (fill : FillEvent Decimal) :
    Decidable (ledger.FeeCovered fill) := by
  unfold FeeCovered
  infer_instance

def FeesCovered : PaperLedger → List (FillEvent Decimal) → Prop
  | _, [] => True
  | ledger, fill :: rest =>
      (ledger.recordFill fill).2 = .ok () →
        ledger.FeeCovered fill ∧ (ledger.recordFill fill).1.FeesCovered rest

instance decidableFeesCovered :
    (ledger : PaperLedger) → (fills : List (FillEvent Decimal)) →
      Decidable (ledger.FeesCovered fills)
  | _, [] => .isTrue trivial
  | ledger, fill :: rest =>
      have := decidableFeesCovered (ledger.recordFill fill).1 rest
      inferInstanceAs (Decidable ((ledger.recordFill fill).2 = .ok () →
        ledger.FeeCovered fill ∧ (ledger.recordFill fill).1.FeesCovered rest))

/-- A funded account whose open orders are covered by its cash. -/
structure Solvent (ledger : PaperLedger) : Prop where
  funded : ledger.cashFunded = true
  free : 0 ≤ ledger.freeCash
  orders : OrdersInRange ledger.orders

theorem Solvent.cash_nonneg {ledger : PaperLedger} (solvent : ledger.Solvent) :
    0 ≤ ledger.account.cash := by
  have free := solvent.free
  have held := heldCash_nonneg solvent.orders
  unfold freeCash at free
  linarith

theorem Solvent.availableCash
    {ledger : PaperLedger} (solvent : ledger.Solvent) :
    ledger.availableCash = some ledger.freeCash := by
  rw [availableCash_eq, solvent.funded]
  rfl

section Fill

variable {ledger : PaperLedger} {fill : FillEvent Decimal}
  {tracked : TrackedOrder}

theorem recordedFill_freeCash
    (found : ledger.orders.lookup fill.orderId = some tracked)
    (matched : Matches tracked fill)
    (accepted : ledger.account.Accepts (ledgerFillOf fill)) :
    (ledger.account.applyFill (ledgerFillOf fill)).1.cash -
        heldCash (ordersAfterFill ledger.orders fill.orderId tracked
          fill.size) =
      ledger.feeRoom tracked fill - fill.fee := by
  have side : tracked.order.side = fill.side := by
    simp only [Matches, fillMismatch, decide_eq_false_iff_not, not_or,
      not_not] at matched
    exact matched.2.2.1
  rw [heldCash_ordersAfterFill found]
  cases direction : fill.side with
  | buy =>
      rw [PortfolioLedger.applyFill_cash_buy accepted direction, feeRoom,
        direction, freeCash]
      simp only [ledgerFillOf]
      ring
  | sell =>
      have nothing : tracked.released fill.size = 0 := by
        simp [TrackedOrder.released, side, direction]
      rw [PortfolioLedger.applyFill_cash_sell accepted direction, feeRoom,
        direction, freeCash, nothing]
      simp only [ledgerFillOf]
      ring

theorem recordFill_solvent_iff (solvent : ledger.Solvent)
    (recorded : (ledger.recordFill fill).2 = .ok ()) :
    (ledger.recordFill fill).1.Solvent ↔ ledger.FeeCovered fill := by
  have step := recordFill_step ledger fill
  generalize ledger.recordFill fill = result at step recorded
  cases step with
  | recorded tracked found matched accepted =>
      have free := recordedFill_freeCash found matched accepted
      have orders := solvent.orders.afterFill found fill.size
      constructor
      · rintro ⟨_, nonneg, _⟩ other same
        rw [found] at same
        cases same
        change 0 ≤ _ - heldCash _ at nonneg
        rw [record_account, record_orders, free] at nonneg
        exact sub_nonneg.mp nonneg
      · intro covered
        refine ⟨solvent.funded, ?_, orders⟩
        change 0 ≤ _ - heldCash _
        rw [record_account, record_orders, free]
        exact sub_nonneg.mpr (covered tracked found)
  | unmatched error unknown => cases recorded
  | refused tracked error found matched notAccepted => cases recorded

end Fill

/-! ## Lists of fills and cancellations -/

section Solvent

variable {ledger : PaperLedger}

theorem Solvent.recordFill (solvent : ledger.Solvent) {fill : FillEvent Decimal}
    (covered : (ledger.recordFill fill).2 = .ok () → ledger.FeeCovered fill) :
    (ledger.recordFill fill).1.Solvent := by
  cases result : (ledger.recordFill fill).2 with
  | ok done =>
      exact (recordFill_solvent_iff solvent result).mpr (covered result)
  | error error =>
      have step := recordFill_step ledger fill
      generalize ledger.recordFill fill = recorded at step result
      cases step with
      | recorded tracked found matched accepted => cases result
      | unmatched error unknown => exact solvent
      | refused tracked error found matched notAccepted =>
          exact ⟨solvent.funded, solvent.free, solvent.orders⟩

theorem Solvent.recordFills
    (solvent : ledger.Solvent) {fills : List (FillEvent Decimal)}
    (covered : ledger.FeesCovered fills) :
    (ledger.recordFills fills).1.Solvent := by
  induction fills generalizing ledger with
  | nil =>
      exact solvent
  | cons fill rest ih =>
      have first := solvent.recordFill fun recorded => (covered recorded).1
      have later := fun recorded => (covered recorded).2
      rw [PaperLedger.recordFills]
      cases recorded : ledger.recordFill fill with
      | mk next result =>
          rw [recorded] at first later
          cases result with
          | error error => exact first
          | ok done => exact ih first (later rfl)

/-- A ledger keeps its solvency when it keeps its account and drops orders. -/
theorem Solvent.drop
    (solvent : ledger.Solvent) (orderId : String) (entry : PaperLedgerEntry) :
    ({ ledger with
        orders := ledger.orders.erase orderId : PaperLedger }.record
          entry).Solvent := by
  refine ⟨solvent.funded, ?_, solvent.orders.erase orderId⟩
  have less := @heldCash_erase_le _ orderId solvent.orders
  have free := solvent.free
  change 0 ≤ ledger.account.cash - heldCash (ledger.orders.erase orderId)
  unfold freeCash at free
  linarith

theorem Solvent.cancelEach
    (solvent : ledger.Solvent) (timestampMs : I64) (orderIds : List String) :
    (ledger.cancelEach timestampMs orderIds).1.Solvent :=
  @cancelEach_related (fun before after => before.Solvent → after.Solvent)
    (fun _ => id) (fun first second => second ∘ first) timestampMs
    (fun _ orderId _ _ solvent => solvent.drop orderId _) orderIds ledger
    solvent

/-- A settlement pays for shares that are held, and takes nothing. -/
theorem Solvent.settle
    (solvent : ledger.Solvent) (market : MarketId) (outcome : Outcome)
    (settledSize proceeds : Decimal) (timestampMs : I64) :
    (ledger.settle market outcome settledSize proceeds
      timestampMs).1.Solvent := by
  rcases settle_cases ledger market outcome settledSize proceeds timestampMs
    with ⟨next, applied, settled⟩ | ⟨error, failed⟩
  · rw [settled]
    cases applied with
    | settlement _ _ _ _ positive nonnegative exact =>
        refine ⟨solvent.funded, ?_, solvent.orders⟩
        have payout : 0 ≤ proceeds / settledSize :=
          div_nonneg nonnegative positive.le
        have paid := mul_nonneg payout positive.le
        have free := solvent.free
        change 0 ≤ _ - heldCash ledger.orders
        simp only [record_account, PortfolioLedger.settle,
          validateNonNegative, not_lt.mpr payout, if_false,
          PortfolioLedger.removePosition, exact]
        unfold freeCash at free
        linarith
  · rw [failed]
    exact solvent

theorem Solvent.placed (solvent : ledger.Solvent) (order : PlaceOrder)
    (strategy : Option StrategyId) (timestampMs : I64) :
    (ledger.placed order strategy timestampMs).Solvent :=
  ⟨solvent.funded, solvent.free, solvent.orders⟩

theorem Solvent.rejected (solvent : ledger.Solvent) (order : PlaceOrder)
    (strategy : Option StrategyId) (timestampMs : I64) :
    (ledger.rejected order strategy timestampMs).Solvent :=
  ⟨solvent.funded, solvent.free, solvent.orders⟩

/-- The check of a submission reserves the notional of a buy before the
acknowledgement holds it. -/
theorem Solvent.acknowledged (solvent : ledger.Solvent) {order : PlaceOrder}
    (strategy : Option StrategyId) (state : OrderState)
    (activeAtMs timestampMs : I64)
    (sufficient : ensureSufficientCash order ledger = .ok ())
    (price : 0 ≤ order.price) (qty : 0 ≤ order.qty) :
    (ledger.acknowledged order strategy state activeAtMs
      timestampMs).Solvent := by
  let new := newTracked order strategy state activeAtMs timestampMs
  refine ⟨solvent.funded, ?_, solvent.orders.insert ⟨price, qty⟩⟩
  have less :=
    @heldCash_erase_le _ ledger.expectedOrderId solvent.orders
  have free := solvent.free
  have held : new.hold ≤ ledger.freeCash := by
    unfold TrackedOrder.hold
    split
    · have buy : order.side = .buy := ‹_›
      rw [ensureSufficientCash, solvent.availableCash] at sufficient
      simp only [buy, ne_eq, not_true_eq_false, if_false] at sufficient
      split at sufficient
      · cases sufficient
      · exact not_lt.mp ‹_›
    · exact free
  change 0 ≤ ledger.account.cash -
    heldCash (AList.insert ledger.expectedOrderId new ledger.orders)
  rw [heldCash_insert]
  unfold freeCash at held
  linarith

end Solvent

end PaperLedger

namespace ExecutorState

/-! ## One call -/

/-- The ledger that answers a submission, and the fills it goes on to record.
An identity that the ledger does not expect is refused, and its fills wait in
the simulator. -/
def answered (state : ExecutorState) (order : PlaceOrder)
    (strategy : Option StrategyId) (nowMs : I64) :
    PaperLedger × List (FillEvent Decimal) :=
  let (engine, id) := state.engine.submitWithStrategy order strategy nowMs
  match id with
  | none => (state.ledger.rejected order strategy nowMs, engine.pendingFills)
  | some actual =>
      if state.ledger.expectedOrderId = actual then
        (state.ledger.acknowledged order strategy
            (acceptedState order state.config)
            (nowMs.saturatingAdd state.config.activationLatencyMs) nowMs,
          engine.pendingFills)
      else
        (state.ledger.placed order strategy nowMs, [])

def SubmissionCovered (state : ExecutorState) (order : PlaceOrder)
    (strategy : Option StrategyId) (nowMs : I64) : Prop :=
  ensureSubmittable order state.config state.ledger = .ok () →
    (state.answered order strategy nowMs).1.FeesCovered
      (state.answered order strategy nowMs).2

def CallCovered (state : ExecutorState) : ExecutorCall → Prop
  | .submit _ order nowMs => state.SubmissionCovered order none nowMs
  | .submitForStrategy _ order strategy nowMs =>
      state.SubmissionCovered order (some strategy) nowMs
  | .updateBook _ fillOrder _ market outcome book =>
      state.ledger.FeesCovered
        (state.engine.updateBook fillOrder market outcome book).pendingFills
  | .cancel _ => True
  | .cancelAll => True
  | .settle _ _ _ _ _ => True

end ExecutorState

/-- Submitted orders have a price in `[0, 1]` and a positive quantity. -/
def ExecutorCall.InRange : ExecutorCall → Prop
  | .submit _ order _ => 0 ≤ order.price ∧ order.price ≤ 1 ∧ 0 < order.qty
  | .submitForStrategy _ order _ _ =>
      0 ≤ order.price ∧ order.price ≤ 1 ∧ 0 < order.qty
  | _ => True

namespace ExecutorState

/-- Neither the cash of an account nor its available cash is negative. -/
def CashNonneg (state : ExecutorState) : Prop :=
  0 ≤ state.ledger.account.cash ∧
    ∃ available, state.ledger.availableCash = some available ∧ 0 ≤ available

variable {state : ExecutorState}

theorem submitOwned_ledger
    (fresh : state.ledger.placements.lookup state.ledger.nextEventId = none)
    (receiverOpen : Bool) {order : PlaceOrder} (strategy : Option StrategyId)
    (nowMs : I64)
    (check : ensureSubmittable order state.config state.ledger = .ok ()) :
    (state.submitOwned receiverOpen order strategy nowMs).1.ledger =
      ((state.answered order strategy nowMs).1.recordFills
        (state.answered order strategy nowMs).2).1 := by
  unfold submitOwned answered
  simp only [check, PaperLedger.beginOrder_eq fresh]
  generalize state.engine.submitWithStrategy order strategy nowMs = result
  obtain ⟨engine, id⟩ := result
  cases id with
  | none =>
      simp only [completeSubmission_rejected]
      rfl
  | some actual =>
      by_cases same : state.ledger.expectedOrderId = actual
      · subst same
        simp only [completeSubmission_accepted, if_true]
        rfl
      · simp only [completeSubmission_diverged receiverOpen state order
          strategy nowMs engine same, if_neg same]
        rfl

theorem submitOwned_solvent (solvent : state.ledger.Solvent)
    (fresh : state.ledger.placements.lookup state.ledger.nextEventId = none)
    (receiverOpen : Bool) {order : PlaceOrder} (strategy : Option StrategyId)
    (nowMs : I64) (price : 0 ≤ order.price) (qty : 0 < order.qty)
    (covered : state.SubmissionCovered order strategy nowMs) :
    (state.submitOwned receiverOpen order strategy nowMs).1.ledger.Solvent := by
  cases check : ensureSubmittable order state.config state.ledger with
  | error error =>
      simp only [submitOwned, check]
      exact solvent
  | ok done =>
      rw [submitOwned_ledger fresh receiverOpen strategy nowMs check]
      apply PaperLedger.Solvent.recordFills _ (covered check)
      unfold answered
      generalize state.engine.submitWithStrategy order strategy nowMs = result
      obtain ⟨engine, id⟩ := result
      cases id with
      | none =>
          exact solvent.rejected order strategy nowMs
      | some actual =>
          by_cases same : state.ledger.expectedOrderId = actual
          · simp only [if_pos same]
            exact solvent.acknowledged strategy _ _ _
              (ensureSubmittable_cash check) price qty.le
          · simp only [if_neg same]
            exact solvent.placed order strategy nowMs

theorem step_solvent {idPrefix : String} {config : SimulationConfig}
    (sound : state.Sound idPrefix config) (solvent : state.ledger.Solvent)
    {call : ExecutorCall} (inRange : call.InRange)
    (covered : state.CallCovered call) :
    (state.step call).ledger.Solvent := by
  have fresh := sound.recorded.nextFresh
  cases call with
  | submit receiverOpen order nowMs =>
      simp only [step, submit_state fresh]
      exact submitOwned_solvent solvent fresh receiverOpen none nowMs
        inRange.1 inRange.2.2 covered
  | submitForStrategy receiverOpen order strategy nowMs =>
      exact submitOwned_solvent solvent fresh receiverOpen (some strategy)
        nowMs inRange.1 inRange.2.2 covered
  | updateBook receiverOpen fillOrder cancelOrder market outcome book =>
      obtain ⟨orderIds, ledger⟩ := updateBook_ledger receiverOpen fillOrder
        cancelOrder state market outcome book
      simp only [step, ledger]
      exact (solvent.recordFills covered).cancelEach _ orderIds
  | cancel orderId =>
      obtain ⟨orderIds, ledger⟩ := cancel_ledger state orderId
      simp only [step, ledger]
      exact solvent.cancelEach _ orderIds
  | cancelAll =>
      simp only [step, cancelAll_eq]
      exact solvent.cancelEach _ _
  | settle market outcome settledSize proceeds timestampMs =>
      simp only [step, settle_ledger]
      exact solvent.settle market outcome settledSize proceeds timestampMs

theorem withAccountFeeConfig_solvent
    (idPrefix : String) (config : SimulationConfig) {initialCash : Money}
    (funded : 0 < initialCash) :
    (withAccountFeeConfig idPrefix config initialCash).ledger.Solvent where
  funded := decide_eq_true funded
  free := by
    change 0 ≤ initialCash - heldCash ∅
    rw [show heldCash ∅ = 0 from rfl, sub_zero]
    exact funded.le
  orders := by
    intro orderId tracked found
    cases found

end ExecutorState

namespace Sample

/-- A taker buys every share of the book at its price. -/
def wholeBuy : List ExecutorCall :=
  [update 0,
    .submit true { order .buy (46 / 100) false .gtc with qty := 50 } 100]

theorem wholeBuy_inRange : ∀ call ∈ wholeBuy, call.InRange := by
  intro call mem
  rcases List.mem_pair.mp mem with rfl | rfl
  · trivial
  · exact ⟨by decide +kernel, by decide +kernel, by decide +kernel⟩

end Sample

namespace ExecutorState

end ExecutorState

end Pmkit
