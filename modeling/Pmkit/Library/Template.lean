import Mathlib.Data.List.Basic

/-!
# Fields between fixed texts

A template is a list of fixed texts; a text of the template has one field
between each of them and the next.  A field ends where the next fixed text
starts, so fields without the character it starts with are read back.
-/

universe u

namespace Template

variable {A : Type u}

def render : List (List A) → List (List A) → List A
  | literal :: literals, field :: fields =>
      literal ++ (field ++ render literals fields)
  | literal :: _, [] => literal
  | [], _ => []

/-- One field between each fixed text and the next, which starts with something
that the field does not have. -/
inductive Fits : List (List A) → List (List A) → Prop where
  | last (literal : List A) : Fits [literal] []
  | field {literal next field : List A} {stop : A}
      {literals fields : List (List A)} (starts : next.head? = some stop)
      (plain : stop ∉ field) (others : Fits (next :: literals) fields) :
      Fits (literal :: next :: literals) (field :: fields)

variable [DecidableEq A]

def afterLiteral (literal text : List A) : Option (List A) :=
  if literal.isPrefixOf text then some (text.drop literal.length) else none

def parse : List (List A) → List A → Option (List (List A))
  | [], _ => none
  | [literal], text => if text = literal then some [] else none
  | literal :: next :: literals, text =>
      match afterLiteral literal text with
      | none => none
      | some body =>
          let field := body.takeWhile fun item => some item ≠ next.head?
          (parse (next :: literals) (body.drop field.length)).map
            (field :: ·)

theorem afterLiteral_append (literal text : List A) :
    afterLiteral literal (literal ++ text) = some text := by
  rw [afterLiteral, if_pos (List.isPrefixOf_iff_prefix.mpr
    (List.prefix_append literal text)), List.drop_left]

theorem parse_render
    {literals fields : List (List A)} (fits : Fits literals fields) :
    parse literals (render literals fields) = some fields := by
  induction fits with
  | last literal => simp [render, parse]
  | @field literal next field stop literals fields starts plain others
      ih =>
      obtain ⟨rest, rfl⟩ := List.head?_eq_some_iff.mp starts
      have isRest : ∃ more,
          render ((stop :: rest) :: literals) fields = stop :: more := by
        cases fields <;> exact ⟨_, rfl⟩
      obtain ⟨more, isRest⟩ := isRest
      have taken : (field ++ render ((stop :: rest) :: literals)
          fields).takeWhile (fun item =>
            decide (some item ≠ (stop :: rest).head?)) = field := by
        rw [isRest, List.takeWhile_append_of_pos]
        · simp
        · intro item mem
          rw [decide_eq_true_eq]
          intro same
          cases same
          exact plain mem
      rw [render, parse, afterLiteral_append]
      dsimp only
      rw [taken, List.drop_left, ih]
      rfl

end Template
