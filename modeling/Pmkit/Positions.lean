import Mathlib.Tactic.Positivity
import Pmkit.Accounting
import Pmkit.Library.Trace

/-!
# The positions of the account

One position for each market outcome, of positive quantity: then the average
entry of every buy divides by a positive total.  Every call keeps this but a
buy of nothing where nothing is held.
-/

namespace Pmkit

inductive AccountCall where
  | fill (fill : LedgerFill)
  | settle (settlement : Settlement)

namespace PortfolioLedger

def step (ledger : PortfolioLedger) : AccountCall → PortfolioLedger
  | .fill fill => (ledger.applyFill fill).1
  | .settle settlement => (ledger.settle settlement).1

def keyOf (position : LedgerPosition) : MarketId × Outcome :=
  (position.market, position.outcome)

/-- The average entry of each buy that the account takes divides by a total
that is not zero. -/
def DividesSafely (ledger : PortfolioLedger) : Prop :=
  ∀ fill : LedgerFill, ledger.Accepts fill → fill.side = .buy →
    ∀ position,
      ledger.positions.find? (holds fill.market fill.outcome) =
        some position →
          position.quantity + fill.quantity ≠ 0

/-- Positions as every later call relies on them. -/
structure WellKept (ledger : PortfolioLedger) : Prop where
  distinct : (ledger.positions.map keyOf).Nodup
  positive : ∀ position ∈ ledger.positions, 0 < position.quantity
  dividesSafely : ledger.DividesSafely

variable {ledger : PortfolioLedger} {position : LedgerPosition}

theorem dividesSafely_of_positive
    (positive : ∀ position ∈ ledger.positions, 0 < position.quantity) :
    ledger.DividesSafely := by
  intro fill accepted _ position found
  have held := positive position (List.mem_of_find?_eq_some found)
  have bought := accepted.2.1
  linarith

theorem holds_iff {market : MarketId} {outcome : Outcome} :
    holds market outcome position = true ↔
      keyOf position = (market, outcome) := by
  simp [holds, keyOf]

theorem modifyPosition_keys (market : MarketId) (outcome : Outcome)
    (change : LedgerPosition → LedgerPosition)
    (keeps : ∀ position, keyOf (change position) = keyOf position)
    (positions : List LedgerPosition) :
    (modifyPosition market outcome change positions).map keyOf =
      positions.map keyOf := by
  induction positions with
  | nil =>
      rfl
  | cons position rest ih =>
      rw [modifyPosition]
      split
      · rw [List.map_cons, List.map_cons, keeps]
      · rw [List.map_cons, List.map_cons, ih]

theorem mem_modifyPosition {market : MarketId} {outcome : Outcome}
    {change : LedgerPosition → LedgerPosition}
    {positions : List LedgerPosition}
    (mem : position ∈ modifyPosition market outcome change positions) :
    position ∈ positions ∨
      ∃ found, positions.find? (holds market outcome) = some found ∧
        position = change found := by
  induction positions with
  | nil =>
      cases mem
  | cons head rest ih =>
      rw [modifyPosition] at mem
      split at mem
      · rename_i here
        rcases List.mem_cons.mp mem with changed | other
        · exact .inr ⟨head, by simp [here], changed⟩
        · exact .inl (List.mem_cons_of_mem head other)
      · rename_i elsewhere
        rcases List.mem_cons.mp mem with same | other
        · exact .inl (same ▸ List.mem_cons_self)
        · rcases ih other with old | ⟨found, first, changed⟩
          · exact .inl (List.mem_cons_of_mem head old)
          · exact .inr ⟨found, by
              rw [List.find?_cons_of_neg elsewhere]
              exact first, changed⟩

theorem addPosition_positions
    {left right : PortfolioLedger} (same : left.positions = right.positions)
    (market : MarketId) (outcome : Outcome) (quantity price : Decimal) :
    (left.addPosition market outcome quantity price).positions =
      (right.addPosition market outcome quantity price).positions := by
  unfold addPosition
  rw [same]
  split
  · rfl
  · rfl

theorem removePosition_positions
    {left right : PortfolioLedger} (same : left.positions = right.positions)
    (market : MarketId) (outcome : Outcome) (quantity : Decimal) :
    (left.removePosition market outcome quantity).positions =
      (right.removePosition market outcome quantity).positions := by
  simp only [removePosition, same]

theorem applyFill_positions {fill : LedgerFill}
    (accepted : ledger.Accepts fill) :
    (ledger.applyFill fill).1.positions =
      if fill.side = .buy then
        (ledger.addPosition fill.market fill.outcome fill.quantity
          fill.price).positions
      else
        (ledger.removePosition fill.market fill.outcome
          fill.quantity).positions := by
  have valid := validateFill_eq_ok_iff.mpr
    ⟨accepted.1, accepted.2.1, accepted.2.2.1⟩
  unfold applyFill
  cases side : fill.side with
  | buy =>
      simp only [valid, if_true]
      apply addPosition_positions
      rfl
  | sell =>
      have covered := not_lt.mpr (accepted.2.2.2 side)
      simp only [valid, reduceCtorEq, if_false, position_withFees, covered]
      exact removePosition_positions rfl _ _ _

/-- What an accepted settlement makes of the positions. -/
theorem settle_positions (ledger : PortfolioLedger) (settlement : Settlement) :
    (ledger.settle settlement).1.positions = ledger.positions ∨
      (ledger.settle settlement).1.positions =
        (ledger.removePosition settlement.market settlement.outcome
          (ledger.position settlement.market
            settlement.outcome).quantity).positions := by
  unfold settle
  cases validateNonNegative settlement.payoutPerShare "payout_per_share" with
  | error error => exact .inl rfl
  | ok checked => exact .inr (removePosition_positions rfl _ _ _)

/-! ## One call -/

def OpensEmpty (ledger : PortfolioLedger) : AccountCall → Prop
  | .fill fill =>
      ledger.Accepts fill ∧ fill.side = .buy ∧ fill.quantity = 0 ∧
        ledger.positions.any (holds fill.market fill.outcome) = false
  | .settle _ => False

section Kept

variable {ledger : PortfolioLedger}
  (distinct : (ledger.positions.map keyOf).Nodup)
  (positive : ∀ position ∈ ledger.positions, 0 < position.quantity)

include distinct positive

theorem addPosition_kept
    {market : MarketId} {outcome : Outcome} {quantity : Decimal}
    (price : Decimal) (bought : 0 ≤ quantity)
    (opens : ledger.positions.any (holds market outcome) = false →
      0 < quantity) :
    ((ledger.addPosition market outcome quantity price).positions.map
        keyOf).Nodup ∧
      ∀ position ∈
          (ledger.addPosition market outcome quantity price).positions,
        0 < position.quantity := by
  unfold addPosition
  cases held : ledger.positions.any (holds market outcome) with
  | true =>
      simp only [if_true]
      constructor
      · rw [modifyPosition_keys market outcome _ ?_]
        · exact distinct
        · exact fun _ => rfl
      · intro position mem
        rcases mem_modifyPosition mem with old | ⟨found, first, rfl⟩
        · exact positive position old
        · have before := positive found (List.mem_of_find?_eq_some first)
          exact add_pos_of_pos_of_nonneg before bought
  | false =>
      simp only [Bool.false_eq_true, if_false]
      constructor
      · rw [List.map_append, List.nodup_append]
        refine ⟨distinct, by simp, ?_⟩
        intro key mem added addedMem same
        obtain ⟨position, listed, rfl⟩ := List.mem_map.mp mem
        have isNew : added = (market, outcome) := by
          simpa [keyOf] using addedMem
        have here : holds market outcome position = true :=
          holds_iff.mpr (same.trans isNew)
        rw [List.any_eq_false] at held
        exact held position listed here
      · intro position mem
        rcases List.mem_append.mp mem with old | added
        · exact positive position old
        · rw [List.mem_singleton] at added
          subst added
          exact opens held

theorem removePosition_kept
    (market : MarketId) (outcome : Outcome) {quantity : Decimal}
    (covered : quantity ≤ (ledger.position market outcome).quantity) :
    ((ledger.removePosition market outcome quantity).positions.map
        keyOf).Nodup ∧
      ∀ position ∈
          (ledger.removePosition market outcome quantity).positions,
        0 < position.quantity := by
  unfold removePosition
  constructor
  · have keys := modifyPosition_keys market outcome
      (fun position =>
        { position with quantity := position.quantity - quantity })
      (fun _ => rfl) ledger.positions
    rw [← keys] at distinct
    exact distinct.sublist (List.filter_sublist.map keyOf)
  · intro position mem
    obtain ⟨listed, nonzero⟩ := List.mem_filter.mp mem
    have ne : position.quantity ≠ 0 := by simpa using nonzero
    rcases mem_modifyPosition listed with old | ⟨found, first, rfl⟩
    · exact positive position old
    · have held : (ledger.position market outcome).quantity =
          found.quantity := by
        simp [PortfolioLedger.position, first]
      rw [held] at covered
      exact lt_of_le_of_ne (sub_nonneg.mpr covered) (Ne.symm ne)

end Kept

/-- A call that opens no empty position keeps the positions. -/
theorem WellKept.step
    {ledger : PortfolioLedger} (kept : ledger.WellKept) {call : AccountCall}
    (opens : ¬ ledger.OpensEmpty call) : (ledger.step call).WellKept := by
  suffices after : ((ledger.step call).positions.map keyOf).Nodup ∧
      ∀ position ∈ (ledger.step call).positions, 0 < position.quantity from
    ⟨after.1, after.2, dividesSafely_of_positive after.2⟩
  have distinct := kept.distinct
  have positive := kept.positive
  cases call with
  | settle settlement =>
      change ((ledger.settle settlement).1.positions.map keyOf).Nodup ∧
        ∀ position ∈ (ledger.settle settlement).1.positions,
          0 < position.quantity
      rcases ledger.settle_positions settlement with same | removed
      · rw [same]
        exact ⟨distinct, positive⟩
      · rw [removed]
        exact removePosition_kept distinct positive _ _ le_rfl
  | fill fill =>
      change ((ledger.applyFill fill).1.positions.map keyOf).Nodup ∧
        ∀ position ∈ (ledger.applyFill fill).1.positions,
          0 < position.quantity
      by_cases accepted : ledger.Accepts fill
      · rw [applyFill_positions accepted]
        cases side : fill.side with
        | buy =>
            simp only [if_true]
            apply addPosition_kept distinct positive _ accepted.2.1
            intro absent
            apply lt_of_le_of_ne accepted.2.1
            intro zero
            exact opens ⟨accepted, side, zero.symm, absent⟩
        | sell =>
            simp only [reduceCtorEq, if_false]
            exact removePosition_kept distinct positive _ _
              (accepted.2.2.2 side)
      · rw [applyFill_refused accepted]
        exact ⟨distinct, positive⟩

theorem OpensEmpty.stored {call : AccountCall}
    (opens : ledger.OpensEmpty call) :
    ∃ position ∈ (ledger.step call).positions, position.quantity = 0 := by
  cases call with
  | settle settlement => cases opens
  | fill fill =>
      obtain ⟨accepted, buy, zero, absent⟩ := opens
      change ∃ position ∈ (ledger.applyFill fill).1.positions,
        position.quantity = 0
      rw [applyFill_positions accepted, if_pos buy, addPosition, absent]
      simp only [Bool.false_eq_true, if_false]
      exact ⟨_, List.mem_append_right _ (List.mem_singleton.mpr rfl), zero⟩

theorem new_wellKept (initialCash : Money) : (new initialCash).WellKept where
  distinct := List.nodup_nil
  positive := by simp [new]
  dividesSafely := dividesSafely_of_positive (by simp [new])

/-- Every state of a run keeps its positions exactly when no call of the run
buys nothing where nothing is held. -/
theorem wellKept_iff (initialCash : Money) (calls : List AccountCall) :
    Trace.EveryState step WellKept (new initialCash) calls ↔
      Trace.EveryStep step (fun ledger call => ¬ ledger.OpensEmpty call)
        (new initialCash) calls := by
  apply Trace.everyState_iff_everyStep WellKept
  · exact fun ledger kept => kept
  · exact fun ledger call kept opens => kept.step opens
  · intro ledger call _ after opens
    obtain ⟨position, member, zero⟩ := opens.stored
    exact absurd zero (after.positive position member).ne'
  · exact new_wellKept initialCash

def emptyBuy : LedgerFill where
  market := ⟨"ltc-5m", by decide⟩
  outcome := .up
  side := .buy
  price := 1 / 2
  quantity := 0
  fee := 0

/-- The first empty buy is stored as an empty position, from which the second
divides by zero. -/
theorem emptyBuy_not_wellKept :
    ¬ Trace.EveryState step WellKept (new 10)
      [.fill emptyBuy, .fill emptyBuy] := by
  intro every
  have divides := every.2.first.dividesSafely emptyBuy (by decide +kernel) rfl
    { market := emptyBuy.market
      outcome := .up
      quantity := 0
      averageEntry := 1 / 2 } (by decide +kernel)
  exact divides (by decide +kernel)

end PortfolioLedger

end Pmkit
