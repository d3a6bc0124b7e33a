import Pmkit.Paper.Entries

/-!
# What a failed call leaves behind

A settlement that fails changes nothing.  A fill that fails changes nothing
unless it is a sell that is refused after its fee was charged, and a failed
entry of the paper ledger keeps what such a fill charged.
-/

namespace Pmkit

open MachineInt

namespace PortfolioLedger

/-- Whether the account charges a fill it then refuses: a valid sell with a
fee, of more than is held. -/
def LosesFee (ledger : PortfolioLedger) (fill : LedgerFill) : Prop :=
  0 ≤ fill.price ∧ 0 ≤ fill.quantity ∧ 0 < fill.fee ∧ fill.side = .sell ∧
    (ledger.position fill.market fill.outcome).quantity < fill.quantity

theorem applyFill_unchanged_iff (ledger : PortfolioLedger) (fill : LedgerFill) :
    ((ledger.applyFill fill).2 ≠ .ok () → (ledger.applyFill fill).1 = ledger) ↔
      ¬ ledger.LosesFee fill := by
  rw [Ne, applyFill_result_iff]
  constructor
  · rintro unchanged ⟨price, quantity, fee, sell, short⟩
    have refused : ¬ ledger.Accepts fill := fun accepted =>
      absurd (accepted.2.2.2 sell) (not_le.mpr short)
    have valid : validateFill fill = .ok () :=
      validateFill_eq_ok_iff.mpr ⟨price, quantity, fee.le⟩
    have same := congrArg PortfolioLedger.fees (unchanged refused)
    rw [applyFill_fees, charged, if_pos valid] at same
    linarith
  · intro keeps refused
    rw [applyFill_refused refused]
    have free : charged fill = 0 := by
      unfold charged
      split
      · rename_i valid
        obtain ⟨price, quantity, fee⟩ := validateFill_eq_ok_iff.mp valid
        by_contra costs
        have positive : 0 < fill.fee := lt_of_le_of_ne fee (Ne.symm costs)
        apply refused
        refine ⟨price, quantity, fee, fun sell => ?_⟩
        exact not_lt.mp fun short =>
          keeps ⟨price, quantity, positive, sell, short⟩
      · rfl
    rw [free, add_zero]

/-- A failed settlement changes nothing. -/
theorem settle_unchanged {ledger : PortfolioLedger} {settlement : Settlement}
    (failed : (ledger.settle settlement).2 ≠ .ok ()) :
    (ledger.settle settlement).1 = ledger := by
  unfold settle at failed ⊢
  cases valid :
      validateNonNegative settlement.payoutPerShare "payout_per_share" with
  | error error => rfl
  | ok checked => simp [valid] at failed

end PortfolioLedger

namespace PaperLedger

/-- Two ledgers that no reader tells apart. -/
structure Unchanged (before after : PaperLedger) : Prop where
  account : after.account = before.account
  entries : after.entries = before.entries
  pending : after.pending = before.pending
  placements : ∀ key, after.placements.lookup key = before.placements.lookup key
  orders : ∀ key, after.orders.lookup key = before.orders.lookup key
  nextSequence : after.nextSequence = before.nextSequence
  nextOrderId : after.nextOrderId = before.nextOrderId
  fillCount : after.fillCount = before.fillCount
  idPrefix : after.idPrefix = before.idPrefix
  cashFunded : after.cashFunded = before.cashFunded

theorem Unchanged.refl (ledger : PaperLedger) : Unchanged ledger ledger :=
  ⟨rfl, rfl, rfl, fun _ => rfl, fun _ => rfl, rfl, rfl, rfl, rfl, rfl⟩

def recordedFill (market : MarketId) (outcome : Outcome) (price size : Decimal)
    (side : Side) (fee : Decimal) : LedgerFill where
  market := market
  outcome := outcome
  side := side
  price := price
  quantity := size
  fee := fee

/-- Whether appending an event leaves something behind when it fails: a
placement overwrites another one under its identity, or a fill of a tracked
order is refused by the account after its fee was charged. -/
def LeavesTrace (ledger : PaperLedger) : PaperLedgerEvent → Prop
  | .orderPlaced order =>
      ∃ placement, ledger.placements.lookup ledger.nextEventId =
          some placement ∧
        placement ≠
          { order := order
            expectedOrderId := mintedId ledger.idPrefix ledger.nextOrderId
            terminal := none }
  | .fill orderId market outcome price size side fee =>
      ∃ tracked, ledger.orders.lookup orderId = some tracked ∧
        fillMismatch tracked market outcome size side = false ∧
        ledger.account.LosesFee
          (recordedFill market outcome price size side fee)
  | .cashMovement _ | .orderAck .. | .orderRejected .. | .orderCancelled _
  | .settlement .. => False

theorem append_failed
    (ledger : PaperLedger) (timestampMs : I64) (event : PaperLedgerEvent) :
    (ledger.append timestampMs event).2 =
        (ledger.apply (ledger.nextEntry timestampMs event)).2 ∧
      ((ledger.apply (ledger.nextEntry timestampMs event)).2 ≠ .ok () →
        (ledger.append timestampMs event).1 =
          (ledger.apply (ledger.nextEntry timestampMs event)).1) := by
  unfold append
  cases applied : ledger.apply (ledger.nextEntry timestampMs event) with
  | mk next result =>
      cases result with
      | error error => simp [applied]
      | ok done => simp [applied]

/-- A failed placement overwrites the one under its identity. -/
theorem applyPlacement_unchanged_iff
    (ledger : PaperLedger) (timestampMs : I64) (order : RecordedOrder) :
    ((ledger.applyPlacement
          (ledger.nextEntry timestampMs (.orderPlaced order)) order).2 ≠
          .ok () → Unchanged ledger (ledger.applyPlacement
          (ledger.nextEntry timestampMs (.orderPlaced order)) order).1) ↔
      ¬ ledger.LeavesTrace (.orderPlaced order) := by
  by_cases known : (ledger.placements.lookup ledger.nextEventId).isSome = true
  · obtain ⟨placement, stored⟩ := Option.isSome_iff_exists.mp known
    simp only [applyPlacement, LeavesTrace, nextEntry, stored,
      Option.isSome_some, if_true, ne_eq, reduceCtorEq, not_false_eq_true, true_implies,
      Option.some.injEq, exists_eq_left', not_not]
    constructor
    · intro unchanged
      have same := unchanged.placements ledger.nextEventId
      simp only [AList.lookup_insert, stored, Option.some.injEq] at same
      exact same.symm
    · intro same
      refine { Unchanged.refl ledger with placements := ?_ }
      intro key
      rw [KeyedMap.lookup_insert_eq]
      split
      · rename_i named
        rw [named, stored, same]
      · rfl
  · have free : ledger.placements.lookup ledger.nextEventId = none :=
      Option.not_isSome_iff_eq_none.mp known
    simp only [applyPlacement, LeavesTrace, nextEntry, free, Option.isSome_none,
      Bool.false_eq_true, if_false, ne_eq, not_true_eq_false, false_implies,
      reduceCtorEq, false_and, exists_false, not_false_eq_true]

/-- A failed fill leaves what the account charged. -/
theorem applyFill_unchanged_iff
    (ledger : PaperLedger) (entry : PaperLedgerEntry) (orderId : String)
    (market : MarketId) (outcome : Outcome) (price size : Decimal)
    (side : Side) (fee : Decimal) :
    ((ledger.applyFill entry orderId market outcome price size side fee).2 ≠
          .ok () → Unchanged ledger
          (ledger.applyFill entry orderId market outcome price size side
            fee).1) ↔
      ¬ ledger.LeavesTrace
        (.fill orderId market outcome price size side fee) := by
  simp only [applyFill, LeavesTrace]
  cases found : ledger.orders.lookup orderId with
  | none =>
      simp [Unchanged.refl]
  | some tracked =>
      cases matched : fillMismatch tracked market outcome size side with
      | true =>
          simp [matched, Unchanged.refl]
      | false =>
          have exactly := PortfolioLedger.applyFill_unchanged_iff ledger.account
            (recordedFill market outcome price size side fee)
          simp only [recordedFill] at exactly
          simp only [Option.some.injEq, exists_eq_left', matched, true_and,
            Bool.false_eq_true, if_false, recordedFill]
          rw [← exactly]
          cases result : (ledger.account.applyFill
              { market := market, outcome := outcome, side := side,
                price := price, quantity := size, fee := fee }).2 with
          | ok done =>
              simp
          | error error =>
              simp only [ne_eq, reduceCtorEq, not_false_eq_true, true_implies]
              constructor
              · exact fun unchanged => unchanged.account
              · exact fun same =>
                  { Unchanged.refl ledger with account := same }

/-- Every other failed entry changes nothing. -/
theorem apply_unchanged_iff
    (ledger : PaperLedger) (timestampMs : I64) (event : PaperLedgerEvent) :
    ((ledger.apply (ledger.nextEntry timestampMs event)).2 ≠ .ok () →
        Unchanged ledger
          (ledger.apply (ledger.nextEntry timestampMs event)).1) ↔
      ¬ ledger.LeavesTrace event := by
  cases event with
  | orderPlaced order =>
      exact ledger.applyPlacement_unchanged_iff timestampMs order
  | fill orderId market outcome price size side fee =>
      exact ledger.applyFill_unchanged_iff _ orderId market outcome price size
        side fee
  | cashMovement amount =>
      simp [apply, nextEntry, LeavesTrace]
  | orderAck placementId orderId state activeAtMs =>
      simp only [apply, nextEntry, LeavesTrace, not_false_eq_true, iff_true,
        applyAck]
      cases ledger.placements.lookup placementId with
      | none => exact fun _ => Unchanged.refl ledger
      | some placement =>
          by_cases answered : placement.terminal.isSome ∨
              placement.expectedOrderId ≠ orderId
          · simp only [if_pos answered]
            exact fun _ => Unchanged.refl ledger
          · simp only [if_neg answered]
            exact fun failed => absurd rfl failed
  | orderRejected placementId orderId =>
      simp only [apply, nextEntry, LeavesTrace, not_false_eq_true, iff_true,
        applyRejection]
      cases ledger.placements.lookup placementId with
      | none => exact fun _ => Unchanged.refl ledger
      | some placement =>
          by_cases answered : placement.terminal.isSome ∨
              placement.expectedOrderId ≠ orderId
          · simp only [if_pos answered]
            exact fun _ => Unchanged.refl ledger
          · simp only [if_neg answered]
            exact fun failed => absurd rfl failed
  | orderCancelled orderId =>
      simp only [apply, nextEntry, LeavesTrace, not_false_eq_true, iff_true,
        applyCancellation]
      cases ledger.orders.lookup orderId with
      | none => exact fun _ => Unchanged.refl ledger
      | some tracked => exact fun failed => absurd rfl failed
  | settlement market outcome settledSize proceeds =>
      simp only [apply, nextEntry, LeavesTrace, not_false_eq_true, iff_true,
        applySettlement]
      split
      · exact fun _ => Unchanged.refl ledger
      · cases result : (ledger.account.settle
            { market := market, outcome := outcome,
              payoutPerShare := proceeds / settledSize }).2 with
        | ok done => exact fun failed => absurd rfl failed
        | error error =>
            intro _
            have failed : (ledger.account.settle
                { market := market, outcome := outcome,
                  payoutPerShare := proceeds / settledSize }).2 ≠ .ok () := by
              rw [result]
              simp
            exact { Unchanged.refl ledger with
              account := PortfolioLedger.settle_unchanged failed }

end PaperLedger

/-- A failed fill or settlement leaves the account as it was, and a failed
entry the paper ledger, exactly when no fee is lost and no placement
overwritten. -/
theorem failed_unchanged_iff
    (account : PortfolioLedger) (fill : LedgerFill) (settlement : Settlement)
    (ledger : PaperLedger) (timestampMs : I64) (event : PaperLedgerEvent) :
    (((account.applyFill fill).2 ≠ .ok () →
          (account.applyFill fill).1 = account) ↔
        ¬ account.LosesFee fill) ∧
    ((account.settle settlement).2 ≠ .ok () →
        (account.settle settlement).1 = account) ∧
    (((ledger.append timestampMs event).2 ≠ .ok () →
          ledger.Unchanged (ledger.append timestampMs event).1) ↔
        ¬ ledger.LeavesTrace event) := by
  refine ⟨account.applyFill_unchanged_iff fill,
    PortfolioLedger.settle_unchanged, ?_⟩
  obtain ⟨result, failed⟩ := ledger.append_failed timestampMs event
  rw [← ledger.apply_unchanged_iff timestampMs, result]
  constructor
  · intro unchanged refused
    rw [← failed refused]
    exact unchanged refused
  · intro unchanged refused
    rw [failed refused]
    exact unchanged refused

def emptyAccountSell : LedgerFill where
  market := ⟨"dot-5m", by decide⟩
  outcome := .up
  side := .sell
  price := 1 / 2
  quantity := 1
  fee := 1 / 100

/-- The refused sell keeps its fee. -/
theorem emptyAccountSell_charged :
    ¬ (((PortfolioLedger.new 10).applyFill emptyAccountSell).2 ≠ .ok () →
      ((PortfolioLedger.new 10).applyFill emptyAccountSell).1 =
        .new 10) := by
  decide +kernel

end Pmkit
