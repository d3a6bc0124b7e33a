import Pmkit.Positions

/-!
# Conservation of money

What the open positions cost moves between cash and positions with every call.
The initial cash with the realized profit, less the fees, is therefore the cash
with the cost of the positions, and marking the positions turns the cost into
equity.
-/

namespace Pmkit

namespace PortfolioLedger

def costOf (position : LedgerPosition) : Decimal :=
  position.quantity * position.averageEntry

def cost (ledger : PortfolioLedger) : Money :=
  (ledger.positions.map costOf).sum

def Marked (ledger : PortfolioLedger) (marks : List Mark) : Prop :=
  ∀ position ∈ ledger.positions, (markOf marks position).isSome = true

/-- No money appears or disappears, in cash or at any marks. -/
structure Balanced (initialCash : Money) (ledger : PortfolioLedger) :
    Prop where
  conserved : initialCash + ledger.realizedPnl - ledger.fees =
    ledger.cash + ledger.cost
  marked : ∀ marks, ledger.Marked marks →
    ledger.equity marks = initialCash + ledger.realizedPnl +
      ledger.unrealizedPnl marks - ledger.fees

def result (ledger : PortfolioLedger) :
    AccountCall → Except AccountingError Unit
  | .fill fill => (ledger.applyFill fill).2
  | .settle settlement => (ledger.settle settlement).2

def Succeeds (ledger : PortfolioLedger) (call : AccountCall) : Prop :=
  ledger.result call = .ok () ∧
    ∀ fill, call = .fill fill → 0 < fill.quantity

variable {positions : List LedgerPosition} {ledger : PortfolioLedger}

theorem modifyPosition_of_find?_eq_none {market : MarketId} {outcome : Outcome}
    (change : LedgerPosition → LedgerPosition)
    (absent : positions.find? (holds market outcome) = none) :
    modifyPosition market outcome change positions = positions := by
  induction positions with
  | nil =>
      rfl
  | cons position rest ih =>
      rw [List.find?_cons] at absent
      rw [modifyPosition]
      split
      · rename_i here
        rw [here] at absent
        cases absent
      · rename_i elsewhere
        rw [Bool.not_eq_true] at elsewhere
        rw [elsewhere] at absent
        rw [ih absent]

theorem sum_modifyPosition {market : MarketId} {outcome : Outcome}
    (change : LedgerPosition → LedgerPosition)
    (value : LedgerPosition → Decimal)
    {position : LedgerPosition}
    (found : positions.find? (holds market outcome) = some position) :
    ((modifyPosition market outcome change positions).map value).sum =
      (positions.map value).sum - value position + value (change position) := by
  induction positions with
  | nil =>
      cases found
  | cons head rest ih =>
      rw [List.find?_cons] at found
      rw [modifyPosition]
      split
      · rename_i here
        rw [here] at found
        cases found
        rw [List.map_cons, List.map_cons, List.sum_cons, List.sum_cons]
        ring
      · rename_i elsewhere
        rw [Bool.not_eq_true] at elsewhere
        rw [elsewhere] at found
        rw [List.map_cons, List.map_cons, List.sum_cons, List.sum_cons,
          ih found]
        ring

theorem sum_costOf_filter (positions : List LedgerPosition) :
    ((positions.filter fun position => position.quantity ≠ 0).map costOf).sum =
      (positions.map costOf).sum := by
  induction positions with
  | nil =>
      rfl
  | cons position rest ih =>
      rw [List.filter_cons]
      split
      · rw [List.map_cons, List.map_cons, List.sum_cons, List.sum_cons, ih]
      · rename_i closed
        have zero : position.quantity = 0 := by simpa using closed
        rw [ih, List.map_cons, List.sum_cons, costOf, zero, zero_mul, zero_add]

theorem cost_addPosition
    (positive : ∀ position ∈ ledger.positions, 0 < position.quantity)
    (market : MarketId) (outcome : Outcome) {quantity : Decimal}
    (bought : 0 < quantity) (price : Decimal) :
    (ledger.addPosition market outcome quantity price).cost =
      ledger.cost + price * quantity := by
  unfold addPosition cost
  cases held : ledger.positions.find? (holds market outcome) with
  | none =>
      have absent : ledger.positions.any (holds market outcome) = false := by
        rw [List.any_eq_false]
        exact fun position mem => List.find?_eq_none.mp held position mem
      simp only [absent, Bool.false_eq_true, if_false, List.map_append,
        List.sum_append, List.map_singleton, List.sum_singleton, costOf]
      ring
  | some position =>
      have present : ledger.positions.any (holds market outcome) = true := by
        rw [List.any_eq_true]
        exact ⟨position, List.mem_of_find?_eq_some held, List.find?_some held⟩
      have before := positive position (List.mem_of_find?_eq_some held)
      have total : position.quantity + quantity ≠ 0 :=
        (add_pos before bought).ne'
      simp only [present, if_true]
      rw [sum_modifyPosition _ costOf held]
      simp only [costOf]
      field_simp
      ring

theorem cost_removePosition
    (ledger : PortfolioLedger) (market : MarketId) (outcome : Outcome)
    (quantity : Decimal) :
    (ledger.removePosition market outcome quantity).cost =
      ledger.cost -
        quantity * (ledger.position market outcome).averageEntry := by
  unfold removePosition cost PortfolioLedger.position
  simp only
  rw [sum_costOf_filter]
  cases held : ledger.positions.find? (holds market outcome) with
  | none =>
      rw [modifyPosition_of_find?_eq_none _ held]
      simp
  | some position =>
      rw [sum_modifyPosition _ costOf held]
      simp only [costOf, Option.getD_some]
      ring

/-! ## One call -/

theorem cost_congr
    {left right : PortfolioLedger} (same : left.positions = right.positions) :
    left.cost = right.cost := by
  rw [cost, cost, same]

theorem applyFill_realizedPnl_buy {fill : LedgerFill}
    (accepted : ledger.Accepts fill) (buy : fill.side = .buy) :
    (ledger.applyFill fill).1.realizedPnl = ledger.realizedPnl := by
  have valid := validateFill_eq_ok_iff.mpr
    ⟨accepted.1, accepted.2.1, accepted.2.2.1⟩
  simp only [applyFill, valid, buy, addPosition]
  split
  · rfl
  · rfl

theorem applyFill_realizedPnl_sell {fill : LedgerFill}
    (accepted : ledger.Accepts fill) (sell : fill.side = .sell) :
    (ledger.applyFill fill).1.realizedPnl = ledger.realizedPnl +
      (fill.price - (ledger.position fill.market fill.outcome).averageEntry) *
        fill.quantity := by
  have valid := validateFill_eq_ok_iff.mpr
    ⟨accepted.1, accepted.2.1, accepted.2.2.1⟩
  have covered := not_lt.mpr (accepted.2.2.2 sell)
  simp [applyFill, valid, sell, covered, removePosition]

/-- What a successful settlement makes of the ledger. -/
theorem settle_of_ok {settlement : Settlement}
    (settled : (ledger.settle settlement).2 = .ok ()) :
    (ledger.settle settlement).1 =
      { ledger with
        realizedPnl := ledger.realizedPnl +
          (settlement.payoutPerShare -
            (ledger.position settlement.market
              settlement.outcome).averageEntry) *
            (ledger.position settlement.market settlement.outcome).quantity
        cash := ledger.cash + settlement.payoutPerShare *
          (ledger.position settlement.market settlement.outcome).quantity
        positions := (ledger.removePosition settlement.market
          settlement.outcome (ledger.position settlement.market
            settlement.outcome).quantity).positions } := by
  unfold settle at settled ⊢
  cases valid : validateNonNegative settlement.payoutPerShare
      "payout_per_share" with
  | error error =>
      rw [valid] at settled
      cases settled
  | ok checked => rfl

theorem conserved_step {initialCash : Money} (kept : ledger.WellKept)
    (conserved : initialCash + ledger.realizedPnl - ledger.fees =
      ledger.cash + ledger.cost)
    {call : AccountCall} (succeeds : ledger.Succeeds call) :
    initialCash + (ledger.step call).realizedPnl - (ledger.step call).fees =
      (ledger.step call).cash + (ledger.step call).cost := by
  cases call with
  | fill fill =>
      have accepted : ledger.Accepts fill :=
        applyFill_result_iff.mp succeeds.1
      have valid := validateFill_eq_ok_iff.mpr
        ⟨accepted.1, accepted.2.1, accepted.2.2.1⟩
      have positions := applyFill_positions accepted
      change initialCash + (ledger.applyFill fill).1.realizedPnl -
          (ledger.applyFill fill).1.fees =
        (ledger.applyFill fill).1.cash + (ledger.applyFill fill).1.cost
      rw [applyFill_fees, charged, if_pos valid]
      cases side : fill.side with
      | buy =>
          rw [if_pos side] at positions
          rw [applyFill_realizedPnl_buy accepted side,
            applyFill_cash_buy accepted side, cost_congr positions,
            cost_addPosition kept.positive _ _ (succeeds.2 fill rfl)]
          linarith
      | sell =>
          rw [if_neg (by rw [side]; exact Side.noConfusion)] at positions
          rw [applyFill_realizedPnl_sell accepted side,
            applyFill_cash_sell accepted side, cost_congr positions,
            cost_removePosition]
          linarith
  | settle settlement =>
      change initialCash + (ledger.settle settlement).1.realizedPnl -
          (ledger.settle settlement).1.fees =
        (ledger.settle settlement).1.cash + (ledger.settle settlement).1.cost
      have settled := settle_of_ok succeeds.1
      have positions : (ledger.settle settlement).1.positions =
          (ledger.removePosition settlement.market settlement.outcome
            (ledger.position settlement.market
              settlement.outcome).quantity).positions := by
        rw [settled]
      rw [cost_congr positions, cost_removePosition, settled]
      simp only
      linarith

theorem equity_eq {marks : List Mark} (marked : ledger.Marked marks) :
    ledger.equity marks =
      ledger.cash + ledger.cost + ledger.unrealizedPnl marks := by
  unfold equity cost unrealizedPnl
  revert marked
  unfold Marked
  induction ledger.positions with
  | nil =>
      intro _
      simp
  | cons position rest ih =>
      intro marked
      obtain ⟨mark, found⟩ := Option.isSome_iff_exists.mp
        (marked position List.mem_cons_self)
      have later := ih fun other mem =>
        marked other (List.mem_cons_of_mem position mem)
      simp only [List.map_cons, List.sum_cons, found, Option.elim_some, costOf]
      linarith

theorem balanced_of_conserved {initialCash : Money}
    (conserved : initialCash + ledger.realizedPnl - ledger.fees =
      ledger.cash + ledger.cost) : ledger.Balanced initialCash where
  conserved := conserved
  marked := by
    intro marks marked
    rw [equity_eq marked, ← conserved]
    ring

/-- A successful call of a positive quantity opens no empty position. -/
theorem Succeeds.not_opensEmpty {call : AccountCall}
    (succeeds : ledger.Succeeds call) : ¬ ledger.OpensEmpty call := by
  intro opens
  cases call with
  | fill fill => exact (succeeds.2 fill rfl).ne' opens.2.2.1
  | settle settlement => exact opens

/-- In every state of a run of successful calls no money has appeared or
disappeared. -/
theorem balanced_everyState
    (initialCash : Money) (calls : List AccountCall)
    (succeed : Trace.EveryStep step Succeeds (new initialCash) calls) :
    Trace.EveryState step (Balanced initialCash) (new initialCash) calls := by
  have every : Trace.EveryState step
      (fun ledger => ledger.WellKept ∧ ledger.Balanced initialCash)
      (new initialCash) calls := by
    refine Trace.everyState_of_everyStep ?_ ⟨new_wellKept initialCash, ?_⟩
      succeed
    · rintro ledger call ⟨kept, balanced⟩ succeeds
      exact ⟨kept.step succeeds.not_opensEmpty, balanced_of_conserved
        (conserved_step kept balanced.conserved succeeds)⟩
    · apply balanced_of_conserved
      simp [new, cost]
  exact every.imp fun ledger both => both.2

/-- A purchase and its settlement. -/
theorem purchase_settled_balanced :
    Trace.EveryState step (Balanced 10) (new 10)
      [.fill { emptyBuy with quantity := 4, fee := 1 / 10 },
        .settle
          { market := emptyBuy.market
            outcome := .up
            payoutPerShare := 1 }] := by
  refine balanced_everyState 10 _ ⟨⟨by decide +kernel, ?_⟩,
    ⟨by decide +kernel, ?_⟩, trivial⟩
  · intro fill same
    cases same
    decide +kernel
  · intro fill same
    cases same

end PortfolioLedger

end Pmkit
