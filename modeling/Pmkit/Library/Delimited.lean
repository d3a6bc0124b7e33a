import Mathlib.Data.List.Basic

/-!
# Where the parts of a text end

A text that is joined from parts is read back in one way when each part tells
where it ends: because the separator does not occur in it, from the front or
from the back, or because its own characters say so.
-/

namespace Delimited

section Cut

variable {A : Type} {separator : A} {before before' after after' : List A}

/-- The first place of a separator cuts a list in one way. -/
theorem cut_first (absent : separator ∉ before) (absent' : separator ∉ before')
    (same : before ++ separator :: after = before' ++ separator :: after') :
    before = before' ∧ after = after' := by
  induction before generalizing before' with
  | nil =>
      cases before' with
      | nil =>
          rw [List.nil_append, List.nil_append] at same
          injection same with _ rest
          exact ⟨rfl, rest⟩
      | cons first rest =>
          rw [List.nil_append, List.cons_append] at same
          injection same with firstEqual _
          rw [firstEqual] at absent'
          exact absurd List.mem_cons_self absent'
  | cons first rest ih =>
      cases before' with
      | nil =>
          rw [List.cons_append, List.nil_append] at same
          injection same with firstEqual _
          rw [firstEqual] at absent
          exact absurd List.mem_cons_self absent
      | cons first' rest' =>
          rw [List.cons_append, List.cons_append] at same
          injection same with firstEqual restEqual
          obtain ⟨front, back⟩ := ih
            (fun mem => absent (List.mem_cons_of_mem first mem))
            (fun mem => absent' (List.mem_cons_of_mem first' mem))
            restEqual
          exact ⟨by rw [firstEqual, front], back⟩

/-- The last place of a separator cuts a list in one way. -/
theorem cut_last (absent : separator ∉ after) (absent' : separator ∉ after')
    (same : before ++ separator :: after = before' ++ separator :: after') :
    before = before' ∧ after = after' := by
  have reversed := congrArg List.reverse same
  simp only [List.reverse_append, List.reverse_cons, List.append_assoc,
    List.singleton_append] at reversed
  obtain ⟨front, back⟩ := cut_first (by simpa using absent)
    (by simpa using absent') reversed
  exact ⟨List.reverse_injective back, List.reverse_injective front⟩

end Cut

/-- What follows a rendering cannot be taken for a part of it. -/
def SelfDelimiting {A B : Type} (render : A → List B) : Prop :=
  ∀ left right leftRest rightRest,
    render left ++ leftRest = render right ++ rightRest →
      left = right ∧ leftRest = rightRest

namespace SelfDelimiting

variable {A B C : Type} {render : A → List B}

/-- A fixed text may stand before a part. -/
theorem after (start : List B) (part : SelfDelimiting render) :
    SelfDelimiting fun value => start ++ render value := by
  intro left right leftRest rightRest same
  rw [List.append_assoc, List.append_assoc] at same
  exact part _ _ _ _ (List.append_cancel_left same)

theorem closed {close : B} (part : SelfDelimiting render)
    (starts : ∀ value, ∃ first rest,
      render value = first :: rest ∧ first ≠ close) :
    SelfDelimiting fun values : List A => values.flatMap render ++ [close] := by
  intro left
  induction left with
  | nil =>
      intro right leftRest rightRest same
      cases right with
      | nil => exact ⟨rfl, List.append_cancel_left same⟩
      | cons value values =>
          obtain ⟨first, rest, rendered, differs⟩ := starts value
          simp only [List.flatMap_nil, List.flatMap_cons, rendered,
            List.nil_append, List.cons_append] at same
          injection same with closes _
          exact absurd closes.symm differs
  | cons value values ih =>
      intro right leftRest rightRest same
      cases right with
      | nil =>
          obtain ⟨first, rest, rendered, differs⟩ := starts value
          simp only [List.flatMap_nil, List.flatMap_cons, rendered,
            List.nil_append, List.cons_append] at same
          injection same with closes _
          exact absurd closes differs
      | cons value' values' =>
          beta_reduce at same
          rw [List.flatMap_cons, List.flatMap_cons, List.append_assoc,
            List.append_assoc, List.append_assoc, List.append_assoc] at same
          obtain ⟨rfl, later⟩ := part _ _ _ _ same
          rw [← List.append_assoc, ← List.append_assoc] at later
          obtain ⟨rfl, rests⟩ := ih _ _ _ later
          exact ⟨rfl, rests⟩

end SelfDelimiting

theorem toString_natural (number : Nat) :
    (toString number).toList = Nat.toDigits 10 number := by
  rw [Nat.toString_eq_ofList_toDigits, String.toList_ofList]

theorem toString_ofNat (number : Nat) :
    (toString (Int.ofNat number)).toList = Nat.toDigits 10 number :=
  toString_natural number

theorem toString_negSucc (number : Nat) :
    (toString (Int.negSucc number)).toList =
      '-' :: Nat.toDigits 10 (number + 1) := by
  have text : toString (Int.negSucc number) = "-" ++ toString (number + 1) :=
    rfl
  rw [text, String.toList_append, toString_natural]
  rfl

theorem toDigits_injective {left right : Nat}
    (same : Nat.toDigits 10 left = Nat.toDigits 10 right) : left = right := by
  have numbers := congrArg (Nat.ofDigitChars 10 · 0) same
  simpa [Nat.ofDigitChars_ten_toDigits] using numbers

theorem minus_not_mem_toDigits (number : Nat) :
    '-' ∉ Nat.toDigits 10 number := by
  intro mem
  have digit := Nat.isDigit_of_mem_toDigits (by decide) (by decide) mem
  exact absurd digit (by decide)

/-- A number is written with digits after a possible sign. -/
theorem letter_of_mem_toString
    {value : Int} {letter : Char} (mem : letter ∈ (toString value).toList) :
    letter = '-' ∨ letter.isDigit = true := by
  cases value with
  | ofNat number =>
      rw [toString_ofNat] at mem
      exact .inr
        (Nat.isDigit_of_mem_toDigits (by decide) (by decide) mem)
  | negSucc number =>
      rw [toString_negSucc] at mem
      rcases List.mem_cons.mp mem with sign | digit
      · exact .inl sign
      · exact .inr
          (Nat.isDigit_of_mem_toDigits (by decide) (by decide) digit)

theorem toString_injective {left right : Int}
    (same : (toString left).toList = (toString right).toList) :
    left = right := by
  cases left with
  | ofNat left =>
      cases right with
      | ofNat right =>
          rw [toString_ofNat, toString_ofNat] at same
          rw [toDigits_injective same]
      | negSucc right =>
          rw [toString_ofNat, toString_negSucc] at same
          exact absurd (same ▸ List.mem_cons_self)
            (minus_not_mem_toDigits left)
  | negSucc left =>
      cases right with
      | ofNat right =>
          rw [toString_ofNat, toString_negSucc] at same
          exact absurd (same ▸ List.mem_cons_self)
            (minus_not_mem_toDigits right)
      | negSucc right =>
          rw [toString_negSucc, toString_negSucc] at same
          injection same with _ digits
          have numbers := toDigits_injective digits
          rw [Nat.succ.inj numbers]

end Delimited
