import Mathlib.Data.List.Perm.Basic

/-!
# Strict majorities

Voters may each stand for one value or for none.  Two values cannot both have
more than half of the votes, and how many votes a value has does not depend on
the order in which the voters are listed.
-/

universe u v

namespace Majority

variable {A : Type u} {K : Type v} [DecidableEq K] (vote : A → Option K)

def supporters (voters : List A) (value : K) : List A :=
  voters.filter fun voter => vote voter = some value

/-- More than half of an electorate of the given size stands for a value. -/
def HasMajority (size : Nat) (voters : List A) (value : K) : Prop :=
  size < 2 * (supporters vote voters value).length

instance (size : Nat) (voters : List A) (value : K) :
    Decidable (HasMajority vote size voters value) :=
  inferInstanceAs (Decidable (_ < _))

@[simp] theorem mem_supporters {voters : List A} {value : K} {voter : A} :
    voter ∈ supporters vote voters value ↔
      voter ∈ voters ∧ vote voter = some value := by
  simp [supporters]

theorem supporters_cons (voter : A) (voters : List A) (value : K) :
    supporters vote (voter :: voters) value =
      if vote voter = some value then
        voter :: supporters vote voters value
      else
        supporters vote voters value := by
  simp [supporters, List.filter_cons]

/-- No voter stands for two values. -/
theorem supporters_disjoint
    {left right : K} (ne : left ≠ right) (voters : List A) :
    (supporters vote voters left).length +
      (supporters vote voters right).length ≤ voters.length := by
  induction voters with
  | nil =>
      simp [supporters]
  | cons voter voters ih =>
      rw [supporters_cons, supporters_cons]
      by_cases forLeft : vote voter = some left
      · have notRight : vote voter ≠ some right := by
          rw [forLeft]
          simpa using ne
        rw [if_pos forLeft, if_neg notRight]
        simp only [List.length_cons]
        omega
      · rw [if_neg forLeft]
        split <;> simp only [List.length_cons] <;> omega

variable {size : Nat} {voters : List A}

/-- Two majorities of one electorate are for one value. -/
theorem HasMajority.unique {left right : K}
    (forLeft : HasMajority vote size voters left)
    (forRight : HasMajority vote size voters right)
    (bounded : voters.length ≤ size) : left = right := by
  by_contra ne
  have disjoint := supporters_disjoint vote ne voters
  unfold HasMajority at forLeft forRight
  omega

theorem HasMajority.exists_mem {value : K}
    (majority : HasMajority vote size voters value) :
    ∃ voter ∈ voters, vote voter = some value := by
  have nonempty : 0 < (supporters vote voters value).length := by
    unfold HasMajority at majority
    omega
  obtain ⟨voter, mem⟩ := List.exists_mem_of_length_pos nonempty
  exact ⟨voter, (mem_supporters vote).mp mem⟩

theorem hasMajority_perm {permuted : List A} (same : permuted.Perm voters)
    {value : K} :
    HasMajority vote size permuted value ↔
      HasMajority vote size voters value := by
  have lengths := (same.filter fun voter => vote voter = some value).length_eq
  unfold HasMajority supporters
  rw [lengths]

/-- A coarser vote has the supporters of a finer one. -/
theorem HasMajority.map {L : Type v} [DecidableEq L] {coarse : A → Option L}
    {value : K} {image : L}
    (majority : HasMajority vote size voters value)
    (implied : ∀ voter ∈ voters, vote voter = some value →
      coarse voter = some image) :
    HasMajority coarse size voters image := by
  have fewer :
      (supporters vote voters value).length ≤
        (supporters coarse voters image).length := by
    have rows : supporters vote voters value =
        (supporters coarse voters image).filter
          fun voter => vote voter = some value := by
      unfold supporters
      rw [List.filter_filter]
      apply List.filter_congr
      intro voter mem
      by_cases stands : vote voter = some value
      · simp [stands, implied voter mem stands]
      · simp [stands]
    rw [rows]
    exact List.length_filter_le _ _
  unfold HasMajority at majority ⊢
  omega

end Majority
