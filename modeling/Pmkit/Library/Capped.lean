import Mathlib.Algebra.Order.BigOperators.Group.List
import Mathlib.Algebra.Order.Group.MinMax
import Mathlib.Tactic.Linarith
import Mathlib.Tactic.Ring

/-!
# Sums of capped quantities

Each of several claimants takes what it asks for, but no more than a cap that
all of them read from the same pool.  `sum_capped_le_iff` says when they
together stay within the pool: with quantities that are not negative, only
when nothing was capped or at most one of them takes anything.
-/

universe u

namespace Capped

variable {K : Type u} [Field K] [LinearOrder K] {cap : K} {quantities : List K}

/-- What the claimants take together. -/
def total (cap : K) (quantities : List K) : K :=
  (quantities.map (min · cap)).sum

/-- What the positive claimants ask for. -/
def takers (quantities : List K) : List K :=
  quantities.filter (0 < ·)

def givenBack (quantities : List K) : K :=
  ((quantities.filter (· < 0)).map fun quantity => -quantity).sum

@[simp]
theorem total_nil : total cap [] = 0 := rfl

@[simp]
theorem total_cons (quantity : K) (rest : List K) :
    total cap (quantity :: rest) = min quantity cap + total cap rest := by
  simp [total]

theorem total_append (first second : List K) :
    total cap (first ++ second) = total cap first + total cap second := by
  simp [total]

theorem total_eq (nonnegativeCap : 0 ≤ cap) (quantities : List K) :
    total cap quantities = total cap (takers quantities) -
      givenBack quantities := by
  induction quantities with
  | nil =>
      simp [takers, givenBack]
  | cons quantity rest ih =>
      simp only [takers, givenBack] at ih ⊢
      rw [total_cons, ih]
      rcases lt_trichotomy quantity 0 with negative | rfl | positive
      · have small : min quantity cap = quantity :=
          min_eq_left (negative.le.trans nonnegativeCap)
        simp only [List.filter_cons, negative, negative.not_gt, decide_true,
          decide_false, Bool.false_eq_true, if_true, if_false, List.map_cons,
          List.sum_cons, small]
        ring
      · simp [min_eq_left nonnegativeCap]
      · simp only [List.filter_cons, positive, positive.not_gt, decide_true,
          decide_false, Bool.false_eq_true, if_true, if_false, total_cons]
        ring

theorem total_le_of_one_taker
    (nonnegativeCap : 0 ≤ cap) (one : (takers quantities).length ≤ 1) :
    total cap (takers quantities) ≤ cap := by
  generalize takers quantities = positive at one
  cases positive with
  | nil =>
      simpa using nonnegativeCap
  | cons quantity rest =>
      have alone : rest = [] := by
        apply List.eq_nil_of_length_eq_zero
        rw [List.length_cons] at one
        omega
      subst alone
      simp

variable [IsStrictOrderedRing K]

theorem total_le_sum (cap : K) (quantities : List K) :
    total cap quantities ≤ quantities.sum := by
  induction quantities with
  | nil =>
      simp
  | cons quantity rest ih =>
      rw [total_cons, List.sum_cons]
      exact add_le_add (min_le_left quantity cap) ih

theorem total_nonneg (nonnegativeCap : 0 ≤ cap)
    (nonnegative : ∀ quantity ∈ quantities, 0 ≤ quantity) :
    0 ≤ total cap quantities := by
  apply List.sum_nonneg
  intro taken mem
  obtain ⟨quantity, asked, rfl⟩ := List.mem_map.mp mem
  exact le_min (nonnegative quantity asked) nonnegativeCap

theorem total_zero_le (quantities : List K) : total 0 quantities ≤ 0 := by
  induction quantities with
  | nil =>
      simp
  | cons quantity rest ih =>
      rw [total_cons]
      linarith [min_le_right quantity 0]

theorem givenBack_nonneg (quantities : List K) : 0 ≤ givenBack quantities := by
  apply List.sum_nonneg
  intro returned mem
  obtain ⟨quantity, negative, rfl⟩ := List.mem_map.mp mem
  have below : quantity < 0 := by
    simpa using (List.mem_filter.mp negative).2
  linarith

/-- Quantities that are not negative take nothing together only if each is
zero. -/
theorem takers_eq_nil (positiveCap : 0 < cap)
    (nonnegative : ∀ quantity ∈ quantities, 0 ≤ quantity)
    (nothing : total cap quantities ≤ 0) : takers quantities = [] := by
  apply List.filter_eq_nil_iff.mpr
  intro quantity mem
  obtain ⟨before, after, rfl⟩ := List.append_of_mem mem
  have earlier := total_nonneg positiveCap.le fun other otherMem =>
    nonnegative other (List.mem_append_left _ otherMem)
  have later := total_nonneg positiveCap.le fun other otherMem =>
    nonnegative other
      (List.mem_append_right before (List.mem_cons_of_mem _ otherMem))
  rw [total_append, total_cons] at nothing
  have zero : min quantity cap ≤ 0 := by linarith
  rcases min_le_iff.mp zero with small | smallCap
  · simpa using small
  · exact absurd smallCap (not_le.mpr positiveCap)

/-- Claimants that are within the pool although their requests are not leave
at most one taker. -/
theorem one_taker_of_total_le (positiveCap : 0 < cap)
    (nonnegative : ∀ quantity ∈ quantities, 0 ≤ quantity)
    (within : total cap quantities ≤ cap) (asked : cap < quantities.sum) :
    (takers quantities).length ≤ 1 := by
  by_cases large : ∃ quantity ∈ quantities, cap < quantity
  · obtain ⟨quantity, mem, above⟩ := large
    obtain ⟨before, after, rfl⟩ := List.append_of_mem mem
    have earlierNonnegative : ∀ other ∈ before, 0 ≤ other :=
      fun other otherMem =>
        nonnegative other (List.mem_append_left _ otherMem)
    have laterNonnegative : ∀ other ∈ after, 0 ≤ other :=
      fun other otherMem => nonnegative other
        (List.mem_append_right before (List.mem_cons_of_mem _ otherMem))
    have earlier := total_nonneg positiveCap.le earlierNonnegative
    have later := total_nonneg positiveCap.le laterNonnegative
    rw [total_append, total_cons, min_eq_right above.le] at within
    have noneBefore := takers_eq_nil positiveCap earlierNonnegative
      (by linarith)
    have noneAfter := takers_eq_nil positiveCap laterNonnegative
      (by linarith)
    have positive : 0 < quantity := positiveCap.trans above
    unfold takers at noneBefore noneAfter ⊢
    simp [List.filter_append, noneBefore, noneAfter, positive]
  · exfalso
    have uncapped : total cap quantities = quantities.sum := by
      have same : quantities.map (min · cap) = quantities := by
        rw [List.map_congr_left (g := id), List.map_id]
        intro quantity mem
        exact min_eq_left (not_lt.mp fun above => large ⟨quantity, mem, above⟩)
      rw [total, same]
    rw [uncapped] at within
    exact absurd asked (not_lt.mpr within)

/-- Claimants stay within a shared pool just when the pool is empty, their
requests fit, at most one takes anything, or negative claimants give back
what the takers take too much. -/
theorem sum_capped_le_iff (nonnegativeCap : 0 ≤ cap) (quantities : List K) :
    total cap quantities ≤ cap ↔
      cap = 0 ∨ quantities.sum ≤ cap ∨ (takers quantities).length ≤ 1 ∨
        ((∃ quantity ∈ quantities, quantity < 0) ∧
          total cap (takers quantities) ≤ cap + givenBack quantities) := by
  have balance := total_eq nonnegativeCap quantities
  constructor
  · intro within
    by_cases empty : cap = 0
    · exact .inl empty
    by_cases fits : quantities.sum ≤ cap
    · exact .inr (Or.inl fits)
    by_cases negative : ∃ quantity ∈ quantities, quantity < 0
    · refine Or.inr (Or.inr (Or.inr ⟨negative, ?_⟩))
      linarith
    · refine Or.inr (Or.inr (Or.inl (one_taker_of_total_le
        (lt_of_le_of_ne nonnegativeCap (Ne.symm empty)) ?_ within
        (not_le.mp fits))))
      intro quantity mem
      exact not_lt.mp fun below => negative ⟨quantity, mem, below⟩
  · rintro (rfl | fits | one | ⟨_, returned⟩)
    · exact total_zero_le quantities
    · exact (total_le_sum cap quantities).trans fits
    · have taken := total_le_of_one_taker nonnegativeCap one
      have returned := givenBack_nonneg quantities
      linarith
    · linarith

end Capped
