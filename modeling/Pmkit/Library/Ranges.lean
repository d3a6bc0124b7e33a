import Mathlib.Algebra.Order.BigOperators.Group.Finset
import Mathlib.Algebra.Order.Field.Basic
import Mathlib.Tactic.Linarith

/-!
# Sums of chosen amounts

Amounts of either sign are open, and any of them may be chosen.  The sums that
can come of it lie between the sum of the negative amounts and the sum of the
positive ones, and both are reached.
-/

namespace Ranges

variable {I R : Type} [Field R] [LinearOrder R]

def least (items : Finset I) (amount : I → R) : R :=
  ∑ item ∈ items, min (amount item) 0

def most (items : Finset I) (amount : I → R) : R :=
  ∑ item ∈ items, max (amount item) 0

section Choices

variable {items chosen : Finset I} {amount : I → R}

theorem range_of_subset (part : chosen ⊆ items)
    (zero : ∀ item ∈ items, item ∉ chosen → amount item = 0) :
    least chosen amount = least items amount ∧
      most chosen amount = most items amount := by
  constructor
  · apply Finset.sum_subset part
    intro item mem missing
    rw [zero item mem missing, min_self]
  · apply Finset.sum_subset part
    intro item mem missing
    rw [zero item mem missing, max_self]

/-- Both ends are chosen: by all negative amounts, and by all positive
ones. -/
theorem ends_of_forall_subset
    {held price limit : R} (every : ∀ chosen ⊆ items,
      |held + ∑ item ∈ chosen, amount item| * price ≤ limit) :
    |held + least items amount| * price ≤ limit ∧
      |held + most items amount| * price ≤ limit := by
  constructor
  · have chosen := every (items.filter fun item => amount item ≤ 0)
      (Finset.filter_subset _ _)
    have same : least items amount =
        ∑ item ∈ items, if amount item ≤ 0 then amount item else 0 := by
      apply Finset.sum_congr rfl
      intro item _
      rw [min_def]
    rw [Finset.sum_filter, ← same] at chosen
    exact chosen
  · have chosen := every (items.filter fun item => 0 ≤ amount item)
      (Finset.filter_subset _ _)
    have same : most items amount =
        ∑ item ∈ items, if 0 ≤ amount item then amount item else 0 := by
      apply Finset.sum_congr rfl
      intro item _
      rw [max_comm, max_def]
    rw [Finset.sum_filter, ← same] at chosen
    exact chosen

end Choices

variable [IsStrictOrderedRing R] {items chosen : Finset I}
  {amount changed : I → R}

theorem least_le_sum (part : chosen ⊆ items) :
    least items amount ≤ ∑ item ∈ chosen, amount item := by
  have fewer : least items amount ≤ least chosen amount := by
    apply Finset.sum_le_sum_of_subset_of_nonpos' part
    intro item _ _
    exact min_le_right _ _
  refine fewer.trans (Finset.sum_le_sum ?_)
  intro item _
  exact min_le_left _ _

theorem sum_le_most (part : chosen ⊆ items) :
    ∑ item ∈ chosen, amount item ≤ most items amount := by
  have more : most chosen amount ≤ most items amount := by
    apply Finset.sum_le_sum_of_subset_of_nonneg part
    intro item _ _
    exact le_max_right _ _
  refine le_trans (Finset.sum_le_sum ?_) more
  intro item _
  exact le_max_left _ _

theorem least_le_most : least items amount ≤ most items amount :=
  (least_le_sum (Finset.Subset.refl items)).trans
    (sum_le_most (Finset.Subset.refl items))

/-- A change of one amount moves the ends by its parts. -/
theorem range_of_change [DecidableEq I] {item : I} (mem : item ∈ items)
    (same : ∀ other, other ≠ item → changed other = amount other) :
    least items changed + min (amount item) 0 =
        least items amount + min (changed item) 0 ∧
      most items changed + max (amount item) 0 =
        most items amount + max (changed item) 0 := by
  have others : ∀ other ∈ items.erase item, changed other = amount other :=
    fun other inside => same other (Finset.ne_of_mem_erase inside)
  constructor
  · have before := Finset.add_sum_erase items
      (fun item => min (amount item) 0) mem
    have after := Finset.add_sum_erase items
      (fun item => min (changed item) 0) mem
    have rest := Finset.sum_congr rfl fun other inside =>
      congrArg (fun value => min value 0) (others other inside)
    unfold least
    linarith
  · have before := Finset.add_sum_erase items
      (fun item => max (amount item) 0) mem
    have after := Finset.add_sum_erase items
      (fun item => max (changed item) 0) mem
    have rest := Finset.sum_congr rfl fun other inside =>
      congrArg (fun value => max value 0) (others other inside)
    unfold most
    linarith

variable {lower value upper price limit : R}

/-- A bound on the ends of a range is a bound on what lies between, unless the
price and the limit are both negative. -/
theorem abs_mul_le_of_between (left : lower ≤ value) (right : value ≤ upper)
    (sign : 0 ≤ price ∨ 0 ≤ limit)
    (atLower : |lower| * price ≤ limit) (atUpper : |upper| * price ≤ limit) :
    |value| * price ≤ limit := by
  rcases le_total 0 price with positive | negative
  · have between : |value| ≤ max |lower| |upper| :=
      abs_le_max_abs_abs left right
    rcases le_max_iff.mp between with byLower | byUpper
    · exact (mul_le_mul_of_nonneg_right byLower positive).trans atLower
    · exact (mul_le_mul_of_nonneg_right byUpper positive).trans atUpper
  · have product : |value| * price ≤ 0 :=
      mul_nonpos_of_nonneg_of_nonpos (abs_nonneg value) negative
    rcases sign with positive | allowed
    · rw [le_antisymm negative positive, mul_zero] at atLower ⊢
      exact atLower
    · exact product.trans allowed

/-- A bound holds for every choice when it holds at both ends. -/
theorem forall_subset_of_ends {held : R} (sign : 0 ≤ price ∨ 0 ≤ limit)
    (atLeast : |held + least items amount| * price ≤ limit)
    (atMost : |held + most items amount| * price ≤ limit) :
    ∀ chosen ⊆ items, |held + ∑ item ∈ chosen, amount item| * price ≤
      limit := by
  intro chosen part
  have below := @least_le_sum _ _ _ _ _ items chosen amount part
  have above := @sum_le_most _ _ _ _ _ items chosen amount part
  exact abs_mul_le_of_between (by linarith) (by linarith) sign atLeast atMost

end Ranges
