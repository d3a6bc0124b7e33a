import Mathlib.Data.List.Forall2

/-!
# Lists that are related item by item

Every item of one list stands at the place of an item of the other.
-/

universe u v

namespace Related

variable {A : Type u} {B : Type v} {related : A → B → Prop} {left : List A}
  {right : List B}

theorem exists_left
    (each : List.Forall₂ related left right) {item : B} (mem : item ∈ right) :
    ∃ source ∈ left, related source item := by
  induction each with
  | nil =>
      cases mem
  | cons first _ ih =>
      rcases List.mem_cons.mp mem with rfl | later
      · exact ⟨_, List.mem_cons_self, first⟩
      · obtain ⟨source, inside, isSource⟩ := ih later
        exact ⟨source, List.mem_cons_of_mem _ inside, isSource⟩

theorem exists_right
    (each : List.Forall₂ related left right) {item : A} (mem : item ∈ left) :
    ∃ target ∈ right, related item target :=
  exists_left each.flip mem

/-- Values that are the same on both sides of every pair. -/
theorem map_eq_of_forall₂ {C : Type} {value : A → C} {other : B → C}
    {left : List A} {right : List B}
    (each : List.Forall₂ (fun first second => other second = value first) left
      right) :
    right.map other = left.map value := by
  induction each with
  | nil => rfl
  | cons same _ ih =>
      rw [List.map_cons, List.map_cons, same, ih]

end Related
