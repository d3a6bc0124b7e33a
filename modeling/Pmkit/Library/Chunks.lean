import Mathlib.Data.List.Basic
import Mathlib.Data.List.Pairwise
import Mathlib.Order.Basic

/-!
# Lists in parts of one size

A list is cut into parts of a fixed size, and only the last part may be
smaller.  The second half is about lists in which no item comes twice, as a
comparison of neighbours finds it in a sorted list.
-/

namespace Chunks

variable {A : Type}

/-- The parts of a list, at most `limit` of them. -/
def chunksFrom (size : Nat) : Nat → List A → List (List A)
  | 0, _ => []
  | _ + 1, [] => []
  | limit + 1, item :: rest =>
      (item :: rest).take size ::
        chunksFrom size limit ((item :: rest).drop size)

/-- The parts of a list, each of `size` items as far as they go. -/
def chunks (size : Nat) (items : List A) : List (List A) :=
  chunksFrom size items.length items

variable {size limit : Nat} {items : List A}

theorem flatten_chunksFrom
    (positive : 0 < size) (enough : items.length ≤ limit) :
    (chunksFrom size limit items).flatten = items := by
  induction limit generalizing items with
  | zero =>
      have empty : items = [] := by
        simpa using enough
      simp [chunksFrom, empty]
  | succ limit ih =>
      cases items with
      | nil => rfl
      | cons item rest =>
          simp only [chunksFrom, List.flatten_cons]
          rw [ih (by
            simp only [List.length_drop, List.length_cons] at enough ⊢
            omega)]
          exact List.take_append_drop _ _

/-- The parts joined are the list. -/
theorem flatten_chunks (positive : 0 < size) (items : List A) :
    (chunks size items).flatten = items :=
  flatten_chunksFrom positive (Nat.le_refl _)

variable {chunk : List A}

theorem mem_chunksFrom (positive : 0 < size)
    (mem : chunk ∈ chunksFrom size limit items) :
    chunk ≠ [] ∧ chunk.length ≤ size := by
  induction limit generalizing items with
  | zero =>
      cases mem
  | succ limit ih =>
      cases items with
      | nil => cases mem
      | cons item rest =>
          simp only [chunksFrom, List.mem_cons] at mem
          rcases mem with rfl | later
          · constructor
            · intro empty
              have lengths := congrArg List.length empty
              simp only [List.length_take, List.length_cons,
                List.length_nil] at lengths
              omega
            · exact List.length_take_le _ _
          · exact ih later

/-- No part is empty, and none is larger than the size. -/
theorem mem_chunks (positive : 0 < size) (mem : chunk ∈ chunks size items) :
    chunk ≠ [] ∧ chunk.length ≤ size :=
  mem_chunksFrom positive mem

theorem dropLast_chunksFrom
    (mem : chunk ∈ (chunksFrom size limit items).dropLast) :
    chunk.length = size := by
  induction limit generalizing items with
  | zero =>
      cases mem
  | succ limit ih =>
      cases items with
      | nil => cases mem
      | cons item rest =>
          simp only [chunksFrom] at mem
          -- a part that is not the last has items behind it
          cases behind : chunksFrom size limit ((item :: rest).drop size) with
          | nil =>
              rw [behind] at mem
              cases mem
          | cons next others =>
              have more : (item :: rest).drop size ≠ [] := by
                intro empty
                rw [empty] at behind
                cases limit <;> cases behind
              have long : size < (item :: rest).length := by
                by_contra short
                exact more (List.drop_eq_nil_of_le (by omega))
              rw [behind, List.dropLast_cons_cons, ← behind] at mem
              rcases List.mem_cons.mp mem with rfl | later
              · rw [List.length_take]
                omega
              · exact ih later

/-- Every part but the last has the full size. -/
theorem dropLast_chunks
    (mem : chunk ∈ (chunks size items).dropLast) : chunk.length = size :=
  dropLast_chunksFrom mem

def hasTwin [DecidableEq A] : List A → Bool
  | [] => false
  | [_] => false
  | first :: second :: rest => first = second || hasTwin (second :: rest)

variable [DecidableEq A] [PartialOrder A]

/-- A sorted list ascends strictly just when no neighbours are the same. -/
theorem pairwise_lt_iff (sorted : items.Pairwise (· ≤ ·)) :
    items.Pairwise (· < ·) ↔ hasTwin items = false := by
  induction items with
  | nil => simp [hasTwin]
  | cons first rest ih =>
      cases rest with
      | nil => simp [hasTwin]
      | cons second others =>
          have tail := ih sorted.of_cons
          have first_le := (List.pairwise_cons.mp sorted).1
          simp only [hasTwin, Bool.or_eq_false_iff, decide_eq_false_iff_not]
          rw [← tail, List.pairwise_cons]
          constructor
          · rintro ⟨below, rising⟩
            exact ⟨(below second List.mem_cons_self).ne, rising⟩
          · rintro ⟨ne, rising⟩
            refine ⟨?_, rising⟩
            intro item mem
            have strict : first < second :=
              lt_of_le_of_ne (first_le second List.mem_cons_self) ne
            rcases List.mem_cons.mp mem with rfl | later
            · exact strict
            · exact strict.trans ((List.pairwise_cons.mp rising).1 item later)

end Chunks
