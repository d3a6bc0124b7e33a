import Mathlib.Data.List.Perm.Basic
import Mathlib.Data.Option.Basic
import Mathlib.Order.Basic

/-!
# Maps in the order of their keys

A map keeps its entries strictly ascending by key, so a loop over it visits the
keys in one order, whatever the order in which they came.  Two maps with the
same keys are visited alike.
-/

universe u v

structure SortedMap (K : Type u) (V : Type v) (cmp : K → K → Ordering) where
  entries : List (K × V)
  sorted : entries.Pairwise fun left right => cmp left.1 right.1 = .lt

namespace SortedMap

variable {K : Type u} {V : Type v} {cmp : K → K → Ordering}

def empty : SortedMap K V cmp where
  entries := []
  sorted := List.Pairwise.nil

def keys (map : SortedMap K V cmp) : List K :=
  map.entries.map Prod.fst

/-! ## Lists of entries -/

section Entries

variable (cmp)

def findIn (key : K) : List (K × V) → Option V
  | [] => none
  | (other, value) :: rest =>
      if cmp key other = .eq then some value else findIn key rest

def changeIn (key : K) (fresh : V) (change : V → V) :
    List (K × V) → List (K × V)
  | [] => [(key, change fresh)]
  | (other, value) :: rest =>
      match cmp key other with
      | .lt => (key, change fresh) :: (other, value) :: rest
      | .eq => (other, change value) :: rest
      | .gt => (other, value) :: changeIn key fresh change rest

variable {cmp} [Std.LawfulEqCmp cmp]

theorem mem_changeIn
    (key : K) (fresh : V) (change : V → V) (entries : List (K × V))
    (other : K) :
    other ∈ (changeIn cmp key fresh change entries).map Prod.fst ↔
      other = key ∨ other ∈ entries.map Prod.fst := by
  induction entries with
  | nil =>
      simp [changeIn]
  | cons entry rest ih =>
      obtain ⟨first, value⟩ := entry
      rw [changeIn]
      cases compared : cmp key first with
      | lt => simp
      | eq =>
          have same : key = first := Std.LawfulEqCmp.eq_of_compare compared
          simp [same]
      | gt =>
          simp only [List.map_cons, List.mem_cons, ih]
          exact or_left_comm

variable {entries : List (K × V)}

theorem of_mem_changeIn {key : K} {fresh : V} {change : V → V}
    {entry : K × V} (mem : entry ∈ changeIn cmp key fresh change entries) :
    entry ∈ entries ∨ ∃ value, entry = (key, change value) := by
  induction entries with
  | nil =>
      rw [changeIn, List.mem_singleton] at mem
      exact .inr ⟨fresh, mem⟩
  | cons first rest ih =>
      obtain ⟨other, value⟩ := first
      rw [changeIn] at mem
      split at mem
      · rcases List.mem_cons.mp mem with same | old
        · exact .inr ⟨fresh, same⟩
        · exact .inl old
      · rename_i equal
        rcases List.mem_cons.mp mem with same | old
        · rw [← Std.LawfulEqCmp.eq_of_compare equal] at same
          exact .inr ⟨value, same⟩
        · exact .inl (List.mem_cons_of_mem _ old)
      · rcases List.mem_cons.mp mem with same | later
        · exact .inl (same ▸ List.mem_cons_self)
        · rcases ih later with old | changed
          · exact .inl (List.mem_cons_of_mem _ old)
          · exact .inr changed

theorem not_lt_self (key : K) : cmp key key ≠ .lt := by
  have same : cmp key key = .eq := Std.ReflCmp.compare_self
  rw [same]
  exact Ordering.noConfusion

theorem findIn_eq_none {key : K}
    (absent : key ∉ entries.map Prod.fst) : findIn cmp key entries = none := by
  induction entries with
  | nil =>
      rfl
  | cons entry rest ih =>
      obtain ⟨first, value⟩ := entry
      rw [List.map_cons, List.mem_cons, not_or] at absent
      rw [findIn, if_neg]
      · exact ih absent.2
      · intro equal
        exact absent.1 (Std.LawfulEqCmp.eq_of_compare equal)

/-- A key before every other one has no value. -/
theorem findIn_of_lt {key : K}
    (before : ∀ entry ∈ entries, cmp key entry.1 = .lt) :
    findIn cmp key entries = none := by
  apply findIn_eq_none
  intro mem
  obtain ⟨entry, inside, rfl⟩ := List.mem_map.mp mem
  exact not_lt_self entry.1 (before entry inside)

theorem findIn_mem
    (sorted : entries.Pairwise fun left right => cmp left.1 right.1 = .lt)
    {pair : K × V} (mem : pair ∈ entries) :
    findIn cmp pair.1 entries = some pair.2 := by
  induction entries with
  | nil =>
      cases mem
  | cons entry rest ih =>
      obtain ⟨first, value⟩ := entry
      obtain ⟨least, later⟩ := List.pairwise_cons.mp sorted
      rcases List.mem_cons.mp mem with rfl | inside
      · exact if_pos Std.ReflCmp.compare_self
      · rw [findIn, if_neg]
        · exact ih later inside
        · intro equal
          have less := least pair inside
          rw [Std.LawfulEqCmp.eq_of_compare equal] at less
          exact not_lt_self first less

variable [Std.TransCmp cmp]

theorem changeIn_sorted (key : K) (fresh : V) (change : V → V)
    (sorted : entries.Pairwise fun left right => cmp left.1 right.1 = .lt) :
    (changeIn cmp key fresh change entries).Pairwise fun left right =>
      cmp left.1 right.1 = .lt := by
  induction entries with
  | nil =>
      exact List.pairwise_singleton _ _
  | cons entry rest ih =>
      obtain ⟨first, value⟩ := entry
      obtain ⟨least, later⟩ := List.pairwise_cons.mp sorted
      rw [changeIn]
      cases compared : cmp key first with
      | lt =>
          refine List.pairwise_cons.mpr ⟨?_, sorted⟩
          intro other mem
          rcases List.mem_cons.mp mem with rfl | inside
          · exact compared
          · exact Std.TransCmp.lt_trans compared (least other inside)
      | eq => exact List.pairwise_cons.mpr ⟨least, later⟩
      | gt =>
          refine List.pairwise_cons.mpr ⟨?_, ih later⟩
          intro other mem
          have named := (mem_changeIn key fresh change rest other.1).mp
            (List.mem_map_of_mem mem)
          rcases named with same | inside
          · rw [same]
            exact Std.OrientedCmp.lt_of_gt compared
          · obtain ⟨stored, isStored, same⟩ := List.mem_map.mp inside
            rw [← same]
            exact least stored isStored

theorem findIn_changeIn (key : K) (fresh : V) (change : V → V)
    (sorted : entries.Pairwise fun left right => cmp left.1 right.1 = .lt)
    [DecidableEq K] (other : K) :
    findIn cmp other (changeIn cmp key fresh change entries) =
      if other = key then
        some (change ((findIn cmp key entries).getD fresh))
      else
        findIn cmp other entries := by
  have isEq : ∀ {left right : K}, cmp left right = .eq ↔ left = right :=
    Std.LawfulEqCmp.compare_eq_iff_eq
  induction entries with
  | nil =>
      simp only [changeIn, findIn, isEq, Option.getD_none]
  | cons entry rest ih =>
      obtain ⟨first, value⟩ := entry
      obtain ⟨least, later⟩ := List.pairwise_cons.mp sorted
      rw [changeIn]
      cases compared : cmp key first with
      | lt =>
          have none : findIn cmp key ((first, value) :: rest) = none := by
            apply findIn_of_lt
            intro entry mem
            rcases List.mem_cons.mp mem with rfl | inside
            · exact compared
            · exact Std.TransCmp.lt_trans compared (least entry inside)
          rw [none, Option.getD_none]
          simp only [findIn, isEq]
      | eq =>
          have same : key = first := Std.LawfulEqCmp.eq_of_compare compared
          subst same
          simp only [findIn, isEq, if_true, Option.getD_some]
          by_cases equal : other = key
          · rw [if_pos equal, if_pos equal]
          · rw [if_neg equal, if_neg equal, if_neg equal]
      | gt =>
          have ne : key ≠ first := by
            rintro rfl
            have same : cmp key key = .eq := Std.ReflCmp.compare_self
            rw [same] at compared
            cases compared
          simp only [findIn, isEq]
          rw [ih later, if_neg ne]
          by_cases equal : other = key
          · subst equal
            rw [if_neg ne, if_pos rfl, if_pos rfl]
          · rw [if_neg equal, if_neg equal]

end Entries

def entry (map : SortedMap K V cmp) (key : K) (fresh : V) : V :=
  (findIn cmp key map.entries).getD fresh

theorem keys_pairwise (map : SortedMap K V cmp) :
    map.keys.Pairwise fun left right => cmp left right = .lt := by
  rw [keys, List.pairwise_map]
  exact map.sorted

theorem keys_nodup [Std.LawfulEqCmp cmp] (map : SortedMap K V cmp) :
    map.keys.Nodup := by
  refine map.keys_pairwise.imp ?_
  rintro key _ less rfl
  exact not_lt_self key less

theorem entries_eq [Std.LawfulEqCmp cmp] (map : SortedMap K V cmp) (fresh : V) :
    map.entries = map.keys.map fun key => (key, map.entry key fresh) := by
  rw [keys, List.map_map]
  conv_lhs => rw [← List.map_id map.entries]
  apply List.map_congr_left
  intro pair mem
  simp only [Function.comp_apply, id_eq, entry, findIn_mem map.sorted mem,
    Option.getD_some]

def erase [DecidableEq K] (map : SortedMap K V cmp) (key : K) :
    SortedMap K V cmp where
  entries := map.entries.filter fun entry => entry.1 ≠ key
  sorted := map.sorted.filter _

section Change

variable [Std.LawfulEqCmp cmp] [Std.TransCmp cmp]

/-- Change the value under a key, which is added with a fresh value when it is
new. -/
def change (map : SortedMap K V cmp) (key : K) (fresh : V)
    (update : V → V) : SortedMap K V cmp where
  entries := changeIn cmp key fresh update map.entries
  sorted := changeIn_sorted key fresh update map.sorted

variable (map : SortedMap K V cmp)

theorem mem_keys_change (key : K) (fresh : V) (update : V → V) (other : K) :
    other ∈ (map.change key fresh update).keys ↔
      other = key ∨ other ∈ map.keys :=
  mem_changeIn key fresh update map.entries other

theorem entry_change
    [DecidableEq K] (key : K) (fresh : V) (update : V → V) (other : K) :
    (map.change key fresh update).entry other fresh =
      if other = key then
        update (map.entry key fresh)
      else
        map.entry other fresh := by
  rw [entry, change, findIn_changeIn key fresh update map.sorted other]
  split
  · rfl
  · rfl

theorem keys_eq
    {W : Type v} {left : SortedMap K V cmp} {right : SortedMap K W cmp}
    (same : ∀ key, key ∈ left.keys ↔ key ∈ right.keys) :
    left.keys = right.keys := by
  apply List.Perm.eq_of_pairwise _ left.keys_pairwise right.keys_pairwise
  · exact (List.perm_ext_iff_of_nodup left.keys_nodup right.keys_nodup).mpr
      same
  · intro one other _ _ before after
    have back := Std.OrientedCmp.gt_of_lt after
    rw [before] at back
    cases back

end Change

end SortedMap
