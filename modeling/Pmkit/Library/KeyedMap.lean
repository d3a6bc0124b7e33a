import Mathlib.Algebra.BigOperators.Group.List.Basic
import Mathlib.Data.Finset.Erase
import Mathlib.Data.Finset.Insert
import Mathlib.Data.List.AList

/-!
# Keyed maps with an unspecified iteration order

A hash map is an association list without repeated keys.  Lookup, insertion and
removal are those of `AList`; a loop over the map visits the keys in an order
the map does not fix, so every such loop takes an `IterationOrder`.
-/

universe u v w

/-- A finite map from keys to values. -/
abbrev KeyedMap (K : Type u) (V : Type v) : Type (max u v) :=
  AList (fun _ : K => V)

/-- The order in which one traversal of a hash map visits its keys.  Any
rearrangement of the keys is possible. -/
structure IterationOrder (K : Type u) where
  arrange : List K → List K
  perm : ∀ keys, (arrange keys).Perm keys

namespace IterationOrder

def stored (K : Type u) : IterationOrder K where
  arrange := id
  perm := fun keys => List.Perm.refl keys

def reversed (K : Type u) : IterationOrder K where
  arrange := List.reverse
  perm := List.reverse_perm

def first [DecidableEq K] (key : K) : IterationOrder K where
  arrange := fun keys => if key ∈ keys then key :: keys.erase key else keys
  perm := by
    intro keys
    split
    · exact (List.perm_cons_erase ‹key ∈ keys›).symm
    · exact List.Perm.refl keys

end IterationOrder

/-- Two arrangements of at most one item are one list. -/
theorem List.Perm.eq_of_subsingleton
    {A : Type u} {left right : List A} (perm : left.Perm right)
    (nodup : left.Nodup) (one : ∀ x ∈ left, ∀ y ∈ left, x = y) :
    left = right := by
  cases left with
  | nil => exact perm.nil_eq
  | cons item rest =>
      have alone : rest = [] := by
        apply List.eq_nil_iff_forall_not_mem.mpr
        intro other mem
        have same := one item List.mem_cons_self other
          (List.mem_cons_of_mem item mem)
        exact (List.nodup_cons.mp nodup).1 (same ▸ mem)
      subst alone
      exact (List.singleton_perm.mp perm)

namespace KeyedMap

variable {K : Type u} {V : Type v}

def retain (keep : K → V → Bool) (map : KeyedMap K V) : KeyedMap K V where
  entries := map.entries.filter fun entry => keep entry.1 entry.2
  nodupKeys :=
    map.nodupKeys.sublist List.filter_sublist

def values (map : KeyedMap K V) : List V :=
  map.entries.map Sigma.snd

variable [DecidableEq K]

def visit (order : IterationOrder K) (map : KeyedMap K V) : List (K × V) :=
  (order.arrange map.keys).filterMap fun key =>
    (map.lookup key).map fun value => (key, value)

variable {map : KeyedMap K V} {key : K} {value : V}

theorem lookup_iff_mem_entries
    :
    map.lookup key = some value ↔
      (⟨key, value⟩ : Sigma fun _ : K => V) ∈ map.entries :=
  AList.mem_lookup_iff

@[simp]
theorem lookup_retain (keep : K → V → Bool) (map : KeyedMap K V) (key : K) :
    (map.retain keep).lookup key = (map.lookup key).filter (keep key) := by
  apply Option.ext
  intro value
  rw [lookup_iff_mem_entries, Option.filter_eq_some_iff, lookup_iff_mem_entries]
  simp [retain, List.mem_filter]

theorem lookup_insert_eq (map : KeyedMap K V) (inserted key : K) (value : V) :
    (AList.insert inserted value map).lookup key =
      if key = inserted then some value else map.lookup key := by
  by_cases same : key = inserted
  · subst same
    simp
  · rw [AList.lookup_insert_ne same, if_neg same]

theorem lookup_erase_eq (map : KeyedMap K V) (erased key : K) :
    (map.erase erased).lookup key =
      if key = erased then none else map.lookup key := by
  by_cases same : key = erased
  · subst same
    simp
  · rw [AList.lookup_erase_ne same, if_neg same]

theorem mem_keys_of_lookup
    (found : map.lookup key = some value) : key ∈ map.keys := by
  rw [← AList.mem_keys, ← AList.lookup_isSome, found]
  rfl

def keySet (map : KeyedMap K V) : Finset K :=
  map.keys.toFinset

theorem mem_keySet :
    key ∈ map.keySet ↔ key ∈ map :=
  List.mem_toFinset

theorem keySet_insert (map : KeyedMap K V) (key : K) (value : V) :
    keySet (AList.insert key value map) = insert key map.keySet := by
  ext other
  rw [mem_keySet, Finset.mem_insert, mem_keySet, AList.mem_insert]

theorem keySet_erase (map : KeyedMap K V) (key : K) :
    keySet (map.erase key) = map.keySet.erase key := by
  ext other
  rw [mem_keySet, Finset.mem_erase, mem_keySet, AList.mem_erase]

theorem lookup_of_keySet_empty (empty : map.keySet = ∅) (key : K) :
    map.lookup key = none := by
  rw [AList.lookup_eq_none, ← mem_keySet, empty]
  exact Finset.notMem_empty key

/-- A traversal visits exactly the entries of the map, whatever its order. -/
@[simp]
theorem mem_visit {order : IterationOrder K} :
    (key, value) ∈ map.visit order ↔ map.lookup key = some value := by
  constructor
  · intro mem
    obtain ⟨visited, _, found⟩ := List.mem_filterMap.mp mem
    obtain ⟨stored, storedFound, pairEqual⟩ := Option.map_eq_some_iff.mp found
    injection pairEqual with keyEqual valueEqual
    subst keyEqual valueEqual
    exact storedFound
  · intro found
    apply List.mem_filterMap.mpr
    refine ⟨key, (order.perm map.keys).mem_iff.mpr (mem_keys_of_lookup found), ?_⟩
    rw [found]
    rfl

theorem nodup_visit_keys (order : IterationOrder K) (map : KeyedMap K V) :
    ((map.visit order).map Prod.fst).Nodup := by
  have arranged : (order.arrange map.keys).Nodup :=
    (order.perm map.keys).nodup_iff.mpr map.keys_nodup
  have sublist :
      ((map.visit order).map Prod.fst).Sublist (order.arrange map.keys) := by
    unfold visit
    generalize order.arrange map.keys = keys
    induction keys with
    | nil =>
        exact List.Sublist.slnil
    | cons key rest ih =>
        cases found : map.lookup key with
        | none =>
            simpa [found] using ih.cons key
        | some value =>
            simpa [found] using ih.cons_cons key
  exact arranged.sublist sublist

/-- Any two traversals visit the same entries. -/
theorem visit_perm (left right : IterationOrder K) (map : KeyedMap K V) :
    (map.visit left).Perm (map.visit right) :=
  ((left.perm map.keys).trans (right.perm map.keys).symm).filterMap _

theorem visit_first (found : map.lookup key = some value) :
    ∃ rest, map.visit (.first key) = (key, value) :: rest := by
  have stored := mem_keys_of_lookup found
  refine ⟨(map.keys.erase key).filterMap fun other =>
    (map.lookup other).map fun value => (other, value), ?_⟩
  simp only [visit, IterationOrder.first]
  rw [if_pos stored, List.filterMap_cons, found]
  rfl

theorem mem_values
    :
    value ∈ map.values ↔ ∃ key, map.lookup key = some value := by
  simp only [values, List.mem_map, lookup_iff_mem_entries]
  constructor
  · rintro ⟨⟨key, stored⟩, mem, rfl⟩
    exact ⟨key, mem⟩
  · rintro ⟨key, mem⟩
    exact ⟨⟨key, value⟩, mem, rfl⟩

theorem values_insert (map : KeyedMap K V) (key : K) (value : V) :
    KeyedMap.values (AList.insert key value map) =
      value :: KeyedMap.values (map.erase key) :=
  rfl

theorem erase_of_lookup_none (absent : map.lookup key = none) :
    map.erase key = map := by
  apply AList.ext
  exact List.kerase_of_notMem_keys (AList.lookup_eq_none.mp absent)

theorem sum_values_erase {M : Type w} [AddCommMonoid M] (weight : V → M)
    (found : map.lookup key = some value) :
    (map.values.map weight).sum =
      weight value +
        ((KeyedMap.values (map.erase key)).map weight).sum := by
  obtain ⟨stored, before, after, _, split, erased⟩ :=
    List.exists_of_kerase (mem_keys_of_lookup found)
  have same : stored = value := by
    have mem : (⟨key, stored⟩ : Sigma fun _ : K => V) ∈ map.entries := by
      rw [split]
      exact List.mem_append_right before List.mem_cons_self
    have known := lookup_iff_mem_entries.mpr mem
    rw [found] at known
    exact (Option.some.inj known).symm
  subst same
  have rest : (map.erase key).entries = before ++ after := erased
  simp only [values, split, rest, List.map_append, List.map_cons,
    List.sum_append, List.sum_cons]
  exact add_left_comm _ _ _

end KeyedMap
