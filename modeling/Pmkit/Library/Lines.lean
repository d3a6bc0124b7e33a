import Mathlib.Data.List.Basic

/-!
# Texts of terminated lines

A text is split after each mark.  What follows the last mark is an unterminated
line, which is not there when the text ends with a mark.
-/

universe u

namespace Lines

variable {A : Type u}

def terminated (mark : A) (line : List A) : List A :=
  line ++ [mark]

def join (mark : A) (lines : List (List A)) : List A :=
  (lines.map (terminated mark)).flatten

@[simp]
theorem join_nil (mark : A) : join mark [] = [] := rfl

theorem join_cons (mark : A) (line : List A) (rest : List (List A)) :
    join mark (line :: rest) = line ++ mark :: join mark rest := by
  simp [join, terminated]

theorem join_concat (mark : A) (lines : List (List A)) (line : List A) :
    join mark (lines ++ [line]) = join mark lines ++ terminated mark line := by
  simp [join]

/-- A text that is cut anywhere has some whole lines, as many as fit, and a
tail of the next one without its mark. -/
theorem take_join
    {mark : A} {lines : List (List A)} (plain : ∀ line ∈ lines, mark ∉ line) (count : Nat) :
    ∃ whole tail, whole ≤ lines.length ∧
      (join mark lines).take count = join mark (lines.take whole) ++ tail ∧
      mark ∉ tail ∧ (join mark (lines.take whole)).length ≤ count ∧
      ∀ more ≤ lines.length,
        (join mark (lines.take more)).length ≤ count → more ≤ whole := by
  induction lines generalizing count with
  | nil =>
      refine ⟨0, [], Nat.le_refl 0, by simp, by simp, by simp, ?_⟩
      intro more small _
      exact small
  | cons line rest ih =>
      by_cases fits : line.length + 1 ≤ count
      · obtain ⟨whole, tail, within, cut, unmarked, short, most⟩ :=
          ih (fun other mem =>
            plain other (List.mem_cons_of_mem line mem))
            (count - (line.length + 1))
        have size : (line ++ [mark]).length = line.length + 1 := by simp
        refine ⟨whole + 1, tail, Nat.succ_le_succ within, ?_, unmarked, ?_, ?_⟩
        · rw [List.take_succ_cons, join_cons, join_cons,
            List.append_cons line mark (join mark rest),
            List.append_cons line mark (join mark (rest.take whole)),
            List.take_append, size, List.take_of_length_le (by omega), cut,
            ← List.append_assoc]
        · rw [List.take_succ_cons, join_cons, List.length_append,
            List.length_cons]
          omega
        · intro more small within
          cases more with
          | zero => exact Nat.zero_le _
          | succ more =>
              rw [List.take_succ_cons, join_cons, List.length_append,
                List.length_cons] at within
              exact Nat.succ_le_succ (most more (Nat.le_of_succ_le_succ small)
                (by omega))
      · refine ⟨0, line.take count, Nat.zero_le _, ?_, ?_, ?_, ?_⟩
        · rw [join_cons, List.take_append_of_le_length (by omega)]
          rfl
        · intro mem
          exact plain line List.mem_cons_self (List.mem_of_mem_take mem)
        · simp
        · intro more _ within
          cases more with
          | zero => exact Nat.le_refl 0
          | succ more =>
              rw [List.take_succ_cons, join_cons, List.length_append,
                List.length_cons] at within
              omega

variable [DecidableEq A]

def splitInclusive (mark : A) : List A → List (List A)
  | [] => []
  | item :: rest =>
      if item = mark then
        [item] :: splitInclusive mark rest
      else
        match splitInclusive mark rest with
        | [] => [[item]]
        | line :: lines => (item :: line) :: lines

variable {mark : A}

theorem splitInclusive_line
    {line : List A} (plain : mark ∉ line) (rest : List A) :
    splitInclusive mark (line ++ mark :: rest) =
      terminated mark line :: splitInclusive mark rest := by
  induction line with
  | nil =>
      simp [splitInclusive, terminated]
  | cons item line ih =>
      rw [List.mem_cons, not_or] at plain
      rw [List.cons_append, splitInclusive, if_neg (Ne.symm plain.1),
        ih plain.2]
      rfl

/-- A text without marks is one unterminated line. -/
theorem splitInclusive_tail
    {tail : List A} (plain : mark ∉ tail) (some : tail ≠ []) :
    splitInclusive mark tail = [tail] := by
  induction tail with
  | nil =>
      exact absurd rfl some
  | cons item tail ih =>
      rw [List.mem_cons, not_or] at plain
      rw [splitInclusive, if_neg (Ne.symm plain.1)]
      cases tail with
      | nil => rfl
      | cons next tail =>
          rw [ih plain.2 (List.cons_ne_nil next tail)]

theorem splitInclusive_join
    {lines : List (List A)} (plain : ∀ line ∈ lines, mark ∉ line)
    (rest : List A) :
    splitInclusive mark (join mark lines ++ rest) =
      lines.map (terminated mark) ++ splitInclusive mark rest := by
  induction lines with
  | nil =>
      rfl
  | cons line lines ih =>
      rw [join_cons, List.append_assoc, List.cons_append,
        splitInclusive_line (plain line List.mem_cons_self), ih fun other mem =>
          plain other (List.mem_cons_of_mem line mem)]
      rfl

end Lines
