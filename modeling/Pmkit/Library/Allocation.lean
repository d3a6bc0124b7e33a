import Mathlib.Algebra.Order.BigOperators.Group.List
import Mathlib.Algebra.Order.Field.Basic
import Mathlib.Tactic.Linarith
import Mathlib.Tactic.Ring

/-!
# Taking from priced levels

A level is a unit price and a capacity.  An allocation takes a part of each
level whose price is within a limit.  The greedy one takes the levels in order
until it has what it wants; from levels of ascending price it takes as much as
any allocation can, at the least cost.
-/

universe u

namespace Allocation

section Definitions

variable {K : Type u} [Field K]

def cost : List (K × K) → List K → K
  | level :: levels, take :: takes => take * level.1 + cost levels takes
  | _, _ => 0

def nothing (levels : List (K × K)) : List K :=
  levels.map fun _ => 0

@[simp]
theorem sum_nothing (levels : List (K × K)) : (nothing levels).sum = 0 := by
  simp [nothing]

@[simp]
theorem cost_nothing (levels : List (K × K)) :
    cost levels (nothing levels) = 0 := by
  induction levels with
  | nil =>
      rfl
  | cons level rest ih =>
      simpa [nothing, cost] using ih

end Definitions

variable {K : Type u} [Field K] [LinearOrder K]

def Fits (limit : K) (levels : List (K × K)) (takes : List K) : Prop :=
  List.Forall₂ (fun level take =>
    0 ≤ take ∧ take ≤ level.2 ∧ (take ≠ 0 → level.1 ≤ limit)) levels takes

def depth (limit : K) (levels : List (K × K)) : K :=
  ((levels.filter fun level => level.1 ≤ limit).map Prod.snd).sum

def greedy (limit : K) : List (K × K) → K → List K
  | [], _ => []
  | level :: rest, wanted =>
      if wanted ≤ 0 ∨ limit < level.1 then
        0 :: rest.map fun _ => 0
      else
        min wanted level.2 :: greedy limit rest (wanted - min wanted level.2)

variable {limit : K} {levels : List (K × K)} {takes : List K}

/-- The two cases of the greedy allocation. -/
theorem greedy_cons (limit : K) (level : K × K) (rest : List (K × K))
    (wanted : K) :
    ((wanted ≤ 0 ∨ limit < level.1) ∧
        greedy limit (level :: rest) wanted = nothing (level :: rest)) ∨
      (0 < wanted ∧ level.1 ≤ limit ∧ greedy limit (level :: rest) wanted =
          min wanted level.2 ::
            greedy limit rest (wanted - min wanted level.2)) := by
  rw [greedy]
  split
  · rename_i stops
    exact .inl ⟨stops, rfl⟩
  · rename_i goes
    rw [not_or, not_le, not_lt] at goes
    exact .inr ⟨goes.1, goes.2, rfl⟩

theorem fits_nothing (capacity : ∀ level ∈ levels, 0 ≤ level.2) :
    Fits limit levels (nothing levels) := by
  induction levels with
  | nil =>
      exact List.Forall₂.nil
  | cons level rest ih =>
      exact List.Forall₂.cons
        ⟨le_rfl, capacity level List.mem_cons_self, fun zero => absurd rfl zero⟩
        (ih fun other mem =>
          capacity other (List.mem_cons_of_mem level mem))

/-- Nothing wanted, nothing taken. -/
theorem sum_greedy_of_nonpos {wanted : K} (none : wanted ≤ 0) :
    (greedy limit levels wanted).sum = 0 := by
  cases levels with
  | nil =>
      rfl
  | cons level rest =>
      rcases greedy_cons limit level rest wanted with
        ⟨_, stops⟩ | ⟨positive, _, _⟩
      · rw [stops, sum_nothing]
      · exact absurd none (not_le.mpr positive)

theorem greedy_fits (capacity : ∀ level ∈ levels, 0 ≤ level.2) (wanted : K) :
    Fits limit levels (greedy limit levels wanted) := by
  induction levels generalizing wanted with
  | nil =>
      exact List.Forall₂.nil
  | cons level rest ih =>
      rcases greedy_cons limit level rest wanted with
        ⟨_, stops⟩ | ⟨positive, within, goes⟩
      · rw [stops]
        exact fits_nothing capacity
      · rw [goes]
        exact List.Forall₂.cons
          ⟨le_min positive.le (capacity level List.mem_cons_self),
            min_le_right _ _, fun _ => within⟩
          (ih (fun other mem =>
            capacity other (List.mem_cons_of_mem level mem)) _)

theorem Fits.take_nonneg (fits : Fits limit levels takes) :
    ∀ take ∈ takes, 0 ≤ take := by
  induction fits with
  | nil =>
      simp
  | cons taken _ ih =>
      exact List.forall_mem_cons.mpr ⟨taken.1, ih⟩

variable [IsStrictOrderedRing K]

theorem Fits.sum_nonneg (fits : Fits limit levels takes) : 0 ≤ takes.sum := by
  induction fits with
  | nil =>
      simp
  | cons taken _ ih =>
      rw [List.sum_cons]
      exact add_nonneg taken.1 ih

theorem Fits.sum_le_depth (capacity : ∀ level ∈ levels, 0 ≤ level.2)
    (fits : Fits limit levels takes) : takes.sum ≤ depth limit levels := by
  induction fits with
  | nil =>
      simp [depth]
  | @cons level take rest others taken _ ih =>
      have later := ih fun other mem =>
        capacity other (List.mem_cons_of_mem level mem)
      rw [List.sum_cons]
      simp only [depth, List.filter_cons] at later ⊢
      by_cases within : level.1 ≤ limit
      · simp only [within, decide_true, if_true, List.map_cons, List.sum_cons]
        exact add_le_add taken.2.1 later
      · have zero : take = 0 := by
          by_contra some
          exact within (taken.2.2 some)
        simpa [within, zero] using later

theorem depth_nonneg (capacity : ∀ level ∈ levels, 0 ≤ level.2) :
    0 ≤ depth limit levels := by
  have fits : Fits limit levels (nothing levels) := fits_nothing capacity
  exact fits.sum_nonneg.trans (fits.sum_le_depth capacity)

/-- From ascending levels the greedy allocation takes what is wanted, as far
as the depth goes. -/
theorem sum_greedy
    (ascending : levels.Pairwise fun left right => left.1 ≤ right.1)
    (capacity : ∀ level ∈ levels, 0 ≤ level.2) {wanted : K}
    (nonnegative : 0 ≤ wanted) :
    (greedy limit levels wanted).sum = min wanted (depth limit levels) := by
  induction levels generalizing wanted with
  | nil =>
      simp [greedy, depth, nonnegative]
  | cons level rest ih =>
      obtain ⟨first, sorted⟩ := List.pairwise_cons.mp ascending
      have later : ∀ other ∈ rest, 0 ≤ other.2 := fun other mem =>
        capacity other (List.mem_cons_of_mem level mem)
      have deep : 0 ≤ depth limit rest := depth_nonneg later
      have deeper : 0 ≤ depth limit (level :: rest) := depth_nonneg capacity
      rcases greedy_cons limit level rest wanted with
        ⟨none | beyond, stops⟩ | ⟨positive, within, goes⟩
      · rw [stops, sum_nothing, le_antisymm none nonnegative,
          min_eq_left deeper]
      · have shallow : depth limit (level :: rest) = 0 := by
          unfold depth
          rw [List.filter_eq_nil_iff.mpr]
          · rfl
          · intro other mem
            rcases List.mem_cons.mp mem with rfl | behind
            · simpa using beyond
            · simpa using lt_of_lt_of_le beyond (first other behind)
        rw [stops, sum_nothing, shallow, min_eq_right nonnegative]
      · have split : depth limit (level :: rest) =
            level.2 + depth limit rest := by
          simp [depth, within]
        have enough : 0 ≤ wanted - min wanted level.2 :=
          sub_nonneg.mpr (min_le_left _ _)
        rw [goes, List.sum_cons, ih sorted later enough, split]
        rcases le_total wanted level.2 with small | large
        · rw [min_eq_left small, sub_self, min_eq_left deep, add_zero,
            min_eq_left (by linarith)]
        · rw [min_eq_right large]
          rcases le_total wanted (level.2 + depth limit rest) with fits | short
          · rw [min_eq_left fits, min_eq_left (by linarith)]
            ring
          · rw [min_eq_right short, min_eq_right (by linarith)]

theorem Fits.mul_sum_le_cost (fits : Fits limit levels takes) {least : K}
    (below : ∀ level ∈ levels, least ≤ level.1) :
    least * takes.sum ≤ cost levels takes := by
  induction fits with
  | nil =>
      simp [cost]
  | @cons level take rest others taken _ ih =>
      have later := ih fun other mem =>
        below other (List.mem_cons_of_mem level mem)
      have now := mul_le_mul_of_nonneg_left
        (below level List.mem_cons_self) taken.1
      rw [List.sum_cons, cost]
      linarith

theorem Fits.cost_le (fits : Fits limit levels takes) :
    cost levels takes ≤ limit * takes.sum := by
  induction fits with
  | nil =>
      simp [cost]
  | @cons level take rest others taken _ ih =>
      rw [List.sum_cons, cost, mul_add]
      by_cases zero : take = 0
      · subst zero
        simpa using ih
      · have now := mul_le_mul_of_nonneg_left (taken.2.2 zero) taken.1
        linarith

theorem cost_nonneg (prices : ∀ level ∈ levels, 0 ≤ level.1)
    (taken : ∀ take ∈ takes, 0 ≤ take) : 0 ≤ cost levels takes := by
  induction levels generalizing takes with
  | nil =>
      simp [cost]
  | cons level rest ih =>
      cases takes with
      | nil =>
          simp [cost]
      | cons take others =>
          obtain ⟨now, later⟩ := List.forall_mem_cons.mp taken
          obtain ⟨price, prices⟩ := List.forall_mem_cons.mp prices
          exact add_nonneg (mul_nonneg now price)
            (ih prices later)

/-- The greedy allocation is the cheapest, and each further unit costs at
least the least price. -/
theorem Fits.greedy_le_cost
    (ascending : levels.Pairwise fun left right => left.1 ≤ right.1)
    (fits : Fits limit levels takes) {wanted least : K}
    (below : ∀ level ∈ levels, least ≤ level.1)
    (more : (greedy limit levels wanted).sum ≤ takes.sum) :
    cost levels (greedy limit levels wanted) +
        least * (takes.sum - (greedy limit levels wanted).sum) ≤
      cost levels takes := by
  induction fits generalizing wanted least with
  | nil =>
      simp [greedy, cost]
  | @cons level take rest others taken fits ih =>
      obtain ⟨first, sorted⟩ := List.pairwise_cons.mp ascending
      rcases greedy_cons limit level rest wanted with
        ⟨_, stops⟩ | ⟨positive, within, goes⟩
      · rw [stops, sum_nothing, cost_nothing, sub_zero, zero_add]
        exact Fits.mul_sum_le_cost (List.Forall₂.cons taken fits) below
      · rw [goes, List.sum_cons, List.sum_cons] at more
        rw [goes, cost, cost, List.sum_cons, List.sum_cons]
        -- what is left over for the later levels is at least what the greedy
        -- allocation takes there
        have laterMore : (greedy limit rest
            (wanted - min wanted level.2)).sum ≤ others.sum := by
          rcases le_total wanted level.2 with small | large
          · rw [min_eq_left small, sub_self, sum_greedy_of_nonpos le_rfl]
            exact Fits.sum_nonneg fits
          · rw [min_eq_right large] at more ⊢
            linarith [taken.2.1]
        have later := ih sorted first laterMore
        have price := mul_le_mul_of_nonneg_right
          (below level List.mem_cons_self) (sub_nonneg.mpr more)
        linarith

def totals (limit : K) (levels : List (K × K)) : Set K :=
  {total | ∃ takes, Fits limit levels takes ∧ takes.sum = total}

def costs (limit : K) (levels : List (K × K)) (total : K) : Set K :=
  {paid | ∃ takes, Fits limit levels takes ∧ takes.sum = total ∧
    cost levels takes = paid}

section Optimum

variable (ascending : levels.Pairwise fun left right => left.1 ≤ right.1)
  (capacity : ∀ level ∈ levels, 0 ≤ level.2)

include ascending capacity

theorem depth_isGreatest :
    IsGreatest (totals limit levels) (depth limit levels) := by
  constructor
  · refine ⟨greedy limit levels (depth limit levels),
      greedy_fits capacity _, ?_⟩
    rw [sum_greedy ascending capacity (depth_nonneg capacity), min_self]
  · rintro total ⟨takes, fits, rfl⟩
    exact fits.sum_le_depth capacity

theorem greedy_isLeast (wanted : K) :
    IsLeast (costs limit levels (greedy limit levels wanted).sum)
      (cost levels (greedy limit levels wanted)) := by
  constructor
  · exact ⟨_, greedy_fits capacity wanted, rfl, rfl⟩
  · rintro paid ⟨takes, fits, same, rfl⟩
    cases levels with
    | nil =>
        cases fits
        exact le_rfl
    | cons level rest =>
        have below : ∀ other ∈ level :: rest, level.1 ≤ other.1 := by
          intro other mem
          rcases List.mem_cons.mp mem with rfl | behind
          · exact le_rfl
          · exact (List.pairwise_cons.mp ascending).1 other behind
        have cheapest := fits.greedy_le_cost ascending below same.ge
        rw [same, sub_self, mul_zero, add_zero] at cheapest
        exact cheapest

end Optimum

end Allocation
