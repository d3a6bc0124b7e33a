import Pmkit.Domain

/-!
# Portfolio accounting

Cash, fees, realised profit and open positions under fills and settlements.
A call that fails keeps whatever it changed before it failed, so every call
returns the ledger next to its result.
-/

namespace Pmkit

structure LedgerFill where
  market : MarketId
  outcome : Outcome
  side : Side
  price : Decimal
  quantity : Decimal
  fee : Decimal
  deriving DecidableEq

/-- One normalized settlement instruction. -/
structure Settlement where
  market : MarketId
  outcome : Outcome
  payoutPerShare : Decimal
  deriving DecidableEq

/-- A current position with average entry accounting. -/
structure LedgerPosition where
  market : MarketId
  outcome : Outcome
  quantity : Decimal
  averageEntry : Decimal
  deriving DecidableEq

structure Mark where
  market : MarketId
  outcome : Outcome
  price : Decimal
  deriving DecidableEq

/-- A typed accounting failure. -/
inductive AccountingError where
  | insufficientPosition (market : MarketId) (outcome : Outcome)
      (requested held : Decimal)
  | negativeValue (field : String) (value : Decimal)
  deriving DecidableEq

/-- `validate_non_negative`. -/
def validateNonNegative (value : Decimal) (field : String) :
    Except AccountingError Unit :=
  if value < 0 then
    .error (.negativeValue field value)
  else
    .ok ()

structure PortfolioLedger where
  cash : Money
  fees : Money
  realizedPnl : Money
  positions : List LedgerPosition
  deriving DecidableEq

namespace PortfolioLedger

def new (initialCash : Money) : PortfolioLedger where
  cash := initialCash
  fees := 0
  realizedPnl := 0
  positions := []

def holds (market : MarketId) (outcome : Outcome)
    (position : LedgerPosition) : Bool :=
  position.market = market && position.outcome = outcome

def position (ledger : PortfolioLedger) (market : MarketId)
    (outcome : Outcome) : LedgerPosition :=
  (ledger.positions.find? (holds market outcome)).getD
    { market := market
      outcome := outcome
      quantity := 0
      averageEntry := 0 }

def modifyPosition (market : MarketId) (outcome : Outcome)
    (change : LedgerPosition → LedgerPosition) :
    List LedgerPosition → List LedgerPosition
  | [] => []
  | position :: rest =>
      if holds market outcome position then
        change position :: rest
      else
        position :: modifyPosition market outcome change rest

def addPosition (ledger : PortfolioLedger) (market : MarketId)
    (outcome : Outcome) (quantity price : Decimal) : PortfolioLedger :=
  if ledger.positions.any (holds market outcome) then
    { ledger with
      positions := modifyPosition market outcome
        (fun position =>
          let total := position.quantity + quantity
          { position with
            averageEntry :=
              (position.averageEntry * position.quantity + price * quantity) /
                total
            quantity := total })
        ledger.positions }
  else
    { ledger with
      positions := ledger.positions ++
        [{ market := market
           outcome := outcome
           quantity := quantity
           averageEntry := price }] }

def removePosition (ledger : PortfolioLedger) (market : MarketId)
    (outcome : Outcome) (quantity : Decimal) : PortfolioLedger :=
  { ledger with
    positions := (modifyPosition market outcome
      (fun position => { position with quantity := position.quantity - quantity })
      ledger.positions).filter fun position => position.quantity ≠ 0 }

/-- The three checks at the top of `apply_fill`. -/
def validateFill (fill : LedgerFill) : Except AccountingError Unit := do
  validateNonNegative fill.price "price"
  validateNonNegative fill.quantity "quantity"
  validateNonNegative fill.fee "fee"

/-- `apply_fill`.  The fee is charged before a sell is compared with the held
position, so a refused sell leaves its fee behind. -/
def applyFill (ledger : PortfolioLedger) (fill : LedgerFill) :
    PortfolioLedger × Except AccountingError Unit :=
  match validateFill fill with
  | .error error => (ledger, .error error)
  | .ok () =>
      let notional := fill.price * fill.quantity
      let ledger := { ledger with fees := ledger.fees + fill.fee }
      match fill.side with
      | .buy =>
          let ledger :=
            { ledger with cash := ledger.cash - (notional + fill.fee) }
          (ledger.addPosition fill.market fill.outcome fill.quantity fill.price,
            .ok ())
      | .sell =>
          let position := ledger.position fill.market fill.outcome
          if position.quantity < fill.quantity then
            (ledger, .error (.insufficientPosition fill.market fill.outcome
              fill.quantity position.quantity))
          else
            let ledger :=
              { ledger with
                realizedPnl := ledger.realizedPnl +
                  (fill.price - position.averageEntry) * fill.quantity
                cash := ledger.cash + (notional - fill.fee) }
            (ledger.removePosition fill.market fill.outcome fill.quantity,
              .ok ())

/-- `settle`: pay out a position and close it. -/
def settle (ledger : PortfolioLedger) (settlement : Settlement) :
    PortfolioLedger × Except AccountingError Unit :=
  match validateNonNegative settlement.payoutPerShare "payout_per_share" with
  | .error error => (ledger, .error error)
  | .ok () =>
      let position := ledger.position settlement.market settlement.outcome
      let ledger :=
        { ledger with
          realizedPnl := ledger.realizedPnl +
            (settlement.payoutPerShare - position.averageEntry) *
              position.quantity
          cash := ledger.cash + settlement.payoutPerShare * position.quantity }
      (ledger.removePosition settlement.market settlement.outcome
          position.quantity, .ok ())

def markOf (marks : List Mark) (position : LedgerPosition) : Option Mark :=
  marks.find? fun mark =>
    mark.market = position.market && mark.outcome = position.outcome

/-- `unrealized_pnl`. -/
def unrealizedPnl (ledger : PortfolioLedger) (marks : List Mark) : Money :=
  (ledger.positions.map fun position =>
    (markOf marks position).elim 0 fun mark =>
      (mark.price - position.averageEntry) * position.quantity).sum

/-- `equity`. -/
def equity (ledger : PortfolioLedger) (marks : List Mark) : Money :=
  ledger.cash + (ledger.positions.map fun position =>
    (markOf marks position).elim 0 fun mark =>
      mark.price * position.quantity).sum

/-! ## What a fill does to the ledger -/

/-- Whether the account takes a fill: no negative value, and a sell is covered
by the held position. -/
def Accepts (ledger : PortfolioLedger) (fill : LedgerFill) : Prop :=
  0 ≤ fill.price ∧ 0 ≤ fill.quantity ∧ 0 ≤ fill.fee ∧
    (fill.side = .sell →
      fill.quantity ≤ (ledger.position fill.market fill.outcome).quantity)

instance (ledger : PortfolioLedger) (fill : LedgerFill) :
    Decidable (ledger.Accepts fill) := by
  unfold Accepts
  infer_instance

variable {fill : LedgerFill} {ledger : PortfolioLedger}

theorem validateFill_eq_ok_iff :
    validateFill fill = .ok () ↔
      0 ≤ fill.price ∧ 0 ≤ fill.quantity ∧ 0 ≤ fill.fee := by
  unfold validateFill validateNonNegative
  by_cases price : fill.price < 0
  · simp [price, not_le.mpr price, bind, Except.bind]
  · by_cases quantity : fill.quantity < 0
    · simp [price, quantity, not_le.mpr quantity, bind, Except.bind]
    · simp [price, quantity, not_lt.mp price, not_lt.mp quantity, bind,
        Except.bind]

def charged (fill : LedgerFill) : Money :=
  if validateFill fill = .ok () then fill.fee else 0

@[simp]
theorem position_withFees
    (ledger : PortfolioLedger) (fees : Money) (market : MarketId)
    (outcome : Outcome) :
    ({ ledger with fees := fees } : PortfolioLedger).position market outcome =
      ledger.position market outcome := rfl

theorem applyFill_result_iff
    :
    (ledger.applyFill fill).2 = .ok () ↔ ledger.Accepts fill := by
  unfold applyFill Accepts
  cases valid : validateFill fill with
  | error error =>
      have invalid : ¬ (0 ≤ fill.price ∧ 0 ≤ fill.quantity ∧ 0 ≤ fill.fee) := by
        rw [← validateFill_eq_ok_iff, valid]
        simp
      constructor
      · intro no
        cases no
      · rintro ⟨price, quantity, fee, _⟩
        exact absurd ⟨price, quantity, fee⟩ invalid
  | ok checked =>
      obtain ⟨price, quantity, fee⟩ := validateFill_eq_ok_iff.mp valid
      cases side : fill.side with
      | buy =>
          simp [price, quantity, fee]
      | sell =>
          by_cases short :
              (ledger.position fill.market fill.outcome).quantity <
                fill.quantity
          · simp [short, not_le.mpr short]
          · simp [short, not_lt.mp short, price, quantity, fee]

theorem applyFill_cash_buy
    (accepted : ledger.Accepts fill) (buy : fill.side = .buy) :
    (ledger.applyFill fill).1.cash =
      ledger.cash - (fill.price * fill.quantity + fill.fee) := by
  have valid := validateFill_eq_ok_iff.mpr
    ⟨accepted.1, accepted.2.1, accepted.2.2.1⟩
  simp only [applyFill, valid, buy, addPosition]
  split
  · rfl
  · rfl

theorem applyFill_cash_sell
    (accepted : ledger.Accepts fill) (sell : fill.side = .sell) :
    (ledger.applyFill fill).1.cash =
      ledger.cash + (fill.price * fill.quantity - fill.fee) := by
  have valid := validateFill_eq_ok_iff.mpr
    ⟨accepted.1, accepted.2.1, accepted.2.2.1⟩
  have covered := not_lt.mpr (accepted.2.2.2 sell)
  simp [applyFill, valid, sell, covered, removePosition]

theorem applyFill_refused (refused : ¬ ledger.Accepts fill) :
    (ledger.applyFill fill).1 =
      { ledger with fees := ledger.fees + charged fill } := by
  have failed : (ledger.applyFill fill).2 ≠ .ok () :=
    fun accepted => refused (applyFill_result_iff.mp accepted)
  unfold applyFill charged at *
  cases valid : validateFill fill with
  | error error =>
      simp
  | ok checked =>
      rw [valid] at failed
      cases side : fill.side with
      | buy =>
          simp [side] at failed
      | sell =>
          by_cases short :
              (ledger.position fill.market fill.outcome).quantity <
                fill.quantity
          · simp [short]
          · simp [side, short] at failed

/-- Fees are write-only: starting from other fees changes the result in its
fees alone, and by the same amount. -/
theorem applyFill_withFees
    (ledger : PortfolioLedger) (fees : Money) (fill : LedgerFill) :
    ({ ledger with fees := fees } : PortfolioLedger).applyFill fill =
      ({ (ledger.applyFill fill).1 with fees := fees + charged fill },
        (ledger.applyFill fill).2) := by
  unfold applyFill charged
  cases valid : validateFill fill with
  | error error =>
      simp
  | ok checked =>
      cases side : fill.side with
      | buy =>
          by_cases held : ledger.positions.any (holds fill.market fill.outcome)
          · simp [addPosition, held]
          · simp [addPosition, held]
      | sell =>
          by_cases short :
              (ledger.position fill.market fill.outcome).quantity <
                fill.quantity
          · simp [short]
          · simp [short, removePosition]

theorem applyFill_fees (ledger : PortfolioLedger) (fill : LedgerFill) :
    (ledger.applyFill fill).1.fees = ledger.fees + charged fill := by
  have same := applyFill_withFees ledger ledger.fees fill
  exact congrArg (fun result => result.1.fees) same

theorem settle_withFees
    (ledger : PortfolioLedger) (fees : Money) (settlement : Settlement) :
    ({ ledger with fees := fees } : PortfolioLedger).settle settlement =
      ({ (ledger.settle settlement).1 with fees := fees },
        (ledger.settle settlement).2) := by
  unfold settle
  cases validateNonNegative settlement.payoutPerShare "payout_per_share" with
  | error error => rfl
  | ok checked => rfl

theorem settle_fees (ledger : PortfolioLedger) (settlement : Settlement) :
    (ledger.settle settlement).1.fees = ledger.fees := by
  have same := settle_withFees ledger ledger.fees settlement
  exact congrArg (fun result => result.1.fees) same

end PortfolioLedger

end Pmkit
