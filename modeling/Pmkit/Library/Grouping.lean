import Mathlib.Data.List.Nodup

/-!
# Items by their keys

A list falls into the items of each of its keys.  Put one behind the other, for
keys that are different and leave out no item, they are the list in another
order.
-/

universe u v

namespace Grouping

variable {A : Type u} {K : Type v} [DecidableEq K] (key : A → K)

def ofKey (items : List A) (wanted : K) : List A :=
  items.filter fun item => key item = wanted

variable {key} {keys : List K} {items : List A}

theorem mem_ofKey {wanted : K} {item : A} :
    item ∈ ofKey key items wanted ↔ item ∈ items ∧ key item = wanted := by
  simp [ofKey]

theorem ofKey_cons_self (item : A) (items : List A) :
    ofKey key (item :: items) (key item) =
      item :: ofKey key items (key item) := by
  simp [ofKey]

theorem ofKey_cons_ne {item : A} {wanted : K} (ne : key item ≠ wanted)
    (items : List A) :
    ofKey key (item :: items) wanted = ofKey key items wanted := by
  simp [ofKey, ne]

theorem ofKey_append (first second : List A) (wanted : K) :
    ofKey key (first ++ second) wanted =
      ofKey key first wanted ++ ofKey key second wanted :=
  List.filter_append ..

theorem flatMap_ofKey_of_absent {item : A} (absent : key item ∉ keys) :
    keys.flatMap (ofKey key (item :: items)) =
      keys.flatMap (ofKey key items) := by
  apply List.flatMap_congr
  intro wanted mem
  apply ofKey_cons_ne
  rintro rfl
  exact absent mem

theorem flatMap_ofKey_perm
    (distinct : keys.Nodup) (covered : ∀ item ∈ items, key item ∈ keys) :
    (keys.flatMap (ofKey key items)).Perm items := by
  induction items with
  | nil =>
      have empty : keys.flatMap (ofKey key ([] : List A)) = [] := by
        simp [ofKey]
      rw [empty]
  | cons item rest ih =>
      have others := ih fun other mem =>
        covered other (List.mem_cons_of_mem item mem)
      obtain ⟨front, back, rfl⟩ :=
        List.append_of_mem (covered item List.mem_cons_self)
      rw [List.nodup_middle, List.nodup_cons, List.mem_append,
        not_or] at distinct
      rw [List.flatMap_append, List.flatMap_cons] at others ⊢
      rw [flatMap_ofKey_of_absent distinct.1.1,
        flatMap_ofKey_of_absent distinct.1.2, ofKey_cons_self, List.cons_append]
      exact List.perm_middle.trans (others.cons item)

end Grouping
