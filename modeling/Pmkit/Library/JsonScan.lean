import Mathlib.Data.List.Basic

/-!
# What the text of a JSON container looks like

A scan over the bytes of a text that follows its strings and brackets.  A text
that JSON accepts as an object or an array passes: its brackets close, no value
follows a string or a bracket that has just closed, and only blanks follow the
last bracket.
-/

namespace JsonScan

/-- Where a scan is: inside a string, between the strings at some depth of
brackets, behind the last bracket, or at what no container can hold. -/
inductive Scan where
  | rejected
  | finished
  | between (depth : Nat) (afterValue : Bool)
  | inString (depth : Nat) (escaped : Bool)
  deriving DecidableEq

/-- The white space of JSON. -/
def isBlank (byte : UInt8) : Bool :=
  byte = 32 || byte = 9 || byte = 10 || byte = 13

namespace Scan

def close : (depth : Nat) → Scan
  | 0 => rejected
  | 1 => finished
  | depth + 2 => between (depth + 1) true

def value (afterValue : Bool) (next : Scan) : Scan :=
  if afterValue then rejected else next

/-- The next byte: quotes, backslashes, brackets, commas and colons count. -/
def step : Scan → UInt8 → Scan
  | rejected, _ => rejected
  | finished, byte => if isBlank byte then finished else rejected
  | between depth afterValue, byte =>
      if byte = 34 then value afterValue (inString depth false)
      else if byte = 123 ∨ byte = 91 then
        value afterValue (between (depth + 1) false)
      else if byte = 125 ∨ byte = 93 then close depth
      else if byte = 44 ∨ byte = 58 then between depth false
      else if isBlank byte then between depth afterValue
      else value afterValue (between depth false)
  | inString depth true, _ => inString depth false
  | inString depth false, byte =>
      if byte = 92 then inString depth true
      else if byte = 34 then between depth true
      else inString depth false

def start : Scan := between 0 false

def after (scan : Scan) (text : List UInt8) : Scan :=
  text.foldl step scan

@[simp]
theorem after_nil (scan : Scan) : scan.after [] = scan := rfl

@[simp]
theorem after_cons (scan : Scan) (byte : UInt8) (text : List UInt8) :
    scan.after (byte :: text) = (scan.step byte).after text := rfl

theorem after_append (scan : Scan) (first second : List UInt8) :
    scan.after (first ++ second) = (scan.after first).after second :=
  List.foldl_append

@[simp]
theorem after_rejected (text : List UInt8) :
    rejected.after text = rejected := by
  induction text with
  | nil => rfl
  | cons byte text ih => exact ih

/-- Some bracket has been opened. -/
def Entered : Scan → Prop
  | rejected => True
  | finished => True
  | between depth _ => 0 < depth
  | inString depth _ => 0 < depth

theorem Entered.step {scan : Scan} (entered : scan.Entered) (byte : UInt8) :
    (scan.step byte).Entered := by
  cases scan with
  | rejected => trivial
  | finished =>
      show (if isBlank byte then finished else rejected).Entered
      split <;> trivial
  | between depth afterValue =>
      have closes : (close depth).Entered := by
        match depth with
        | 0 => trivial
        | 1 => trivial
        | depth + 2 => exact Nat.succ_pos depth
      have values : ∀ next : Scan, next.Entered →
          (value afterValue next).Entered := by
        intro next holds
        cases afterValue
        · exact holds
        · trivial
      have positive : 0 < depth := entered
      simp only [Scan.step]
      repeat' split
      · exact values _ positive
      · exact values _ (Nat.succ_pos depth)
      · exact closes
      · exact positive
      · exact positive
      · exact values _ positive
  | inString depth escaped =>
      have positive : 0 < depth := entered
      cases escaped
      · simp only [Scan.step]
        repeat' split
        all_goals exact positive
      · exact positive

theorem Entered.after {scan : Scan} (entered : scan.Entered)
    (text : List UInt8) : (scan.after text).Entered := by
  induction text generalizing scan with
  | nil => exact entered
  | cons byte text ih =>
      exact ih (entered.step byte)

/-! ## A text inside another -/

def within (more : Nat) : Scan → Scan
  | rejected => rejected
  | finished => between more true
  | between depth afterValue => between (depth + more) afterValue
  | inString depth escaped => inString (depth + more) escaped

theorem close_within {more depth : Nat} (positive : 0 < more)
    (open_ : close depth ≠ rejected) :
    close (depth + more) = (close depth).within more := by
  match depth, more, positive with
  | 0, _, _ => exact absurd rfl open_
  | 1, more + 1, _ =>
      show close (1 + (more + 1)) = _
      rw [Nat.add_comm 1]
      rfl
  | depth + 2, more, _ =>
      show close (depth + 2 + more) = between (depth + 1 + more) true
      rw [show depth + 2 + more = depth + more + 2 by omega,
        show depth + 1 + more = depth + more + 1 by omega]
      rfl

/-- More brackets change no step that is not rejected. -/
theorem step_within
    {scan : Scan} {byte : UInt8} {more : Nat} (positive : 0 < more)
    (passes : scan.step byte ≠ rejected) :
    (scan.within more).step byte = (scan.step byte).within more := by
  cases scan with
  | rejected => rfl
  | finished =>
      by_cases blank : isBlank byte = true
      · have cases : byte = 32 ∨ byte = 9 ∨ byte = 10 ∨ byte = 13 := by
          simpa [isBlank, or_assoc] using blank
        rcases cases with rfl | rfl | rfl | rfl <;> rfl
      · exact absurd (by simp [step, blank]) passes
  | between depth afterValue =>
      have values : ∀ next : Scan, (value afterValue next).within more =
          value afterValue (next.within more) := by
        intro next
        cases afterValue <;> rfl
      show (between (depth + more) afterValue).step byte = _
      simp only [step] at passes ⊢
      split
      · rw [values]
        rfl
      · split
        · rw [values, within, Nat.add_right_comm]
        · split
          · rename_i notQuote notOpen isClose
            rw [if_neg notQuote, if_neg notOpen, if_pos isClose] at passes
            exact close_within positive passes
          · split
            · rfl
            · split
              · rfl
              · rw [values]
                rfl
  | inString depth escaped =>
      cases escaped
      · show (inString (depth + more) false).step byte = _
        simp only [step]
        repeat' split
        all_goals rfl
      · rfl

theorem after_within
    {scan : Scan} {text : List UInt8} {more : Nat} (positive : 0 < more)
    (passes : scan.after text ≠ rejected) :
    (scan.within more).after text = (scan.after text).within more := by
  induction text generalizing scan with
  | nil => rfl
  | cons byte text ih =>
      rw [after_cons] at passes ⊢
      have first : scan.step byte ≠ rejected := by
        intro rejects
        rw [rejects, after_rejected] at passes
        exact passes rfl
      rw [step_within positive first]
      exact ih passes

end Scan

open Scan

def Accepts (text : List UInt8) : Prop :=
  start.after text = finished

instance (text : List UInt8) : Decidable (Accepts text) :=
  inferInstanceAs (Decidable (start.after text = finished))

def isLetter (byte : UInt8) : Bool :=
  !isBlank byte && byte ≠ 34 && byte ≠ 123 && byte ≠ 91 && byte ≠ 125 &&
    byte ≠ 93 && byte ≠ 44 && byte ≠ 58

theorem step_letter {byte : UInt8} (letter : isLetter byte = true)
    (depth : Nat) (afterValue : Bool) :
    (between depth afterValue).step byte =
      value afterValue (between depth false) := by
  simp only [isLetter, Bool.and_eq_true, Bool.not_eq_true',
    decide_eq_true_eq] at letter
  obtain ⟨⟨⟨⟨⟨⟨⟨notBlank, quote⟩, brace⟩, bracket⟩, closeBrace⟩,
    closeBracket⟩, comma⟩, colon⟩ := letter
  simp [step, quote, brace, bracket, closeBrace, closeBracket, comma, colon,
    notBlank]

/-- An object cannot follow the beginning of another text on its line. -/
theorem not_accepts_of_entered {beginning rest : List UInt8} {letter : UInt8}
    (entered : (start.after beginning).Entered)
    (accepted : Accepts (123 :: 34 :: letter :: rest))
    (isName : isLetter letter = true) (ending : List UInt8)
    (blank : ∀ byte ∈ ending, isBlank byte = true) :
    ¬ Accepts (beginning ++ (123 :: 34 :: letter :: rest) ++ ending) := by
  -- Blanks change nothing outside strings.
  have stays : ∀ (depth : Nat) (afterValue : Bool),
      (between depth afterValue).after ending = between depth afterValue := by
    intro depth afterValue
    induction ending with
    | nil => rfl
    | cons byte ending ih =>
        have cases : byte = 32 ∨ byte = 9 ∨ byte = 10 ∨ byte = 13 := by
          simpa [isBlank, or_assoc] using blank byte List.mem_cons_self
        have step : (between depth afterValue).step byte =
            between depth afterValue := by
          rcases cases with rfl | rfl | rfl | rfl <;> rfl
        rw [after_cons, step]
        exact ih fun other mem =>
          blank other (List.mem_cons_of_mem byte mem)
  unfold Accepts
  rw [after_append, after_append]
  generalize start.after beginning = scan at entered
  have passes : start.after (123 :: 34 :: letter :: rest) ≠ rejected := by
    rw [accepted]
    exact Scan.noConfusion
  cases scan with
  | rejected =>
      rw [after_rejected, after_rejected]
      exact Scan.noConfusion
  | finished => simp [step, isBlank]
  | between depth afterValue =>
      cases afterValue
      · have inner := @after_within start _ _ entered passes
        have same : start.within depth = between depth false := by
          show between (0 + depth) false = _
          rw [Nat.zero_add]
        rw [same, accepted] at inner
        rw [inner]
        show (between depth true).after ending ≠ finished
        rw [stays]
        exact Scan.noConfusion
      · simp [step, value]
  | inString depth escaped =>
      -- The quote of the first name closes the string.
      have closed : (inString depth escaped).after [123, 34] =
          between depth true := by
        cases escaped <;> rfl
      have split : (123 :: 34 :: letter :: rest : List UInt8) =
          [123, 34] ++ letter :: rest := rfl
      rw [split, after_append, closed, after_cons, step_letter isName]
      simp [value]

end JsonScan
