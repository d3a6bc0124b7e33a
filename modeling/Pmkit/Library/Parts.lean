import Mathlib.Data.List.SplitLengths

/-!
# Consecutive parts of a list

A list that falls into consecutive parts is cut again by the lengths of the
parts; so the parts of an image are the images of parts.
-/

universe u v

namespace Parts

variable {A : Type u} {B : Type v}

def alike (parts : List (List B)) (items : List A) : List (List A) :=
  (parts.map List.length).splitLengths items

theorem alike_cons (part : List B) (parts : List (List B)) (items : List A) :
    alike (part :: parts) items =
      items.take part.length :: alike parts (items.drop part.length) := by
  simp [alike]

theorem map_alike {image : A → B} {parts : List (List B)} {items : List A}
    (whole : parts.flatten = items.map image) :
    (alike parts items).map (List.map image) = parts := by
  induction parts generalizing items with
  | nil => rfl
  | cons part rest ih =>
      rw [List.flatten_cons] at whole
      have front : (items.take part.length).map image = part := by
        rw [List.map_take, ← whole, List.take_left]
      have back : rest.flatten = (items.drop part.length).map image := by
        rw [List.map_drop, ← whole, List.drop_left]
      rw [alike_cons, List.map_cons, front, ih back]

theorem flatten_alike {image : A → B} {parts : List (List B)} {items : List A}
    (whole : parts.flatten = items.map image) :
    (alike parts items).flatten = items := by
  induction parts generalizing items with
  | nil =>
      rw [List.flatten_nil] at whole
      exact (List.map_eq_nil_iff.mp whole.symm).symm
  | cons part rest ih =>
      rw [List.flatten_cons] at whole
      have back : rest.flatten = (items.drop part.length).map image := by
        rw [List.map_drop, ← whole, List.drop_left]
      rw [alike_cons, List.flatten_cons, ih back, List.take_append_drop]

end Parts
