import Pmkit.Library.Interleaving

/-!
# Merging streams through a heap

Each of several streams has at most one item in a heap.  The least item is
taken, and its stream is asked for the next one.  What comes out is every
stream in its own order, and ordered as a whole when each stream is.
-/

universe u v w

namespace StreamMerge

open Interleaving

variable {S : Type u} {A : Type v} {K : Type w}

/-- What a stream yields, one item after the other, until it has none. -/
inductive Yields (Next : S → Option A → S → Prop) : S → List A → Prop
  | done {state after : S} (ended : Next state none after) : Yields Next state []
  | more {state after : S} {item : A} {rest : List A}
      (found : Next state (some item) after) (later : Yields Next after rest) :
      Yields Next state (item :: rest)

theorem nodup_pushed {pending rest : List (K × A)} {stream : K} {item : A}
    (taken : ((stream, item) :: rest).Perm pending)
    (nodup : (pending.map Prod.fst).Nodup) (found : Option A) :
    stream ∉ rest.map Prod.fst ∧
      ((found.toList.map (Prod.mk stream) ++ rest).map Prod.fst).Nodup := by
  have owners := (taken.map Prod.fst).nodup_iff.mpr nodup
  rw [List.map_cons, List.nodup_cons] at owners
  refine ⟨owners.1, ?_⟩
  cases found with
  | none => exact owners.2
  | some next => exact List.nodup_cons.mpr owners

variable [DecidableEq K]

/-- A merge of streams, each with at most one pending item. -/
inductive Merges (Next : S → Option A → S → Prop)
    (le : K × A → K × A → Prop) :
    List (K × A) → (K → S) → List (K × A) → Prop
  | done {streams : K → S} : Merges Next le [] streams []
  | step {pending rest merged : List (K × A)} {streams : K → S} {stream : K}
      {item : A} {found : Option A} {after : S}
      (taken : ((stream, item) :: rest).Perm pending)
      (least : ∀ other ∈ pending, le (stream, item) other)
      (asked : Next (streams stream) found after)
      (next : Merges Next le (found.toList.map (Prod.mk stream) ++ rest)
        (Function.update streams stream after) merged) :
      Merges Next le pending streams ((stream, item) :: merged)

variable {Next : S → Option A → S → Prop} {le : K × A → K × A → Prop}
  {pending merged : List (K × A)} {streams : K → S}

theorem ownedBy_cons_self (stream : K) (item : A) (rest : List (K × A)) :
    ownedBy Prod.fst stream ((stream, item) :: rest) =
      (stream, item) :: ownedBy Prod.fst stream rest := by
  simp [ownedBy]

theorem ownedBy_cons_ne {stream other : K} (ne : stream ≠ other)
    (item : A) (rest : List (K × A)) :
    ownedBy Prod.fst other ((stream, item) :: rest) =
      ownedBy Prod.fst other rest := by
  simp [ownedBy, ne]

theorem Merges.yields (merges : Merges Next le pending streams merged)
    (nodup : (pending.map Prod.fst).Nodup) :
    (∀ stream, stream ∉ pending.map Prod.fst →
      ownedBy Prod.fst stream merged = []) ∧
    ∀ entry ∈ pending, ∃ later, Yields Next (streams entry.1) later ∧
      ownedBy Prod.fst entry.1 merged =
        (entry.2 :: later).map (Prod.mk entry.1) := by
  induction merges with
  | done => exact ⟨fun _ _ => rfl, fun _ mem => by cases mem⟩
  | @step pending rest merged streams stream item found after taken least asked
      next ih =>
      obtain ⟨alone, pushed⟩ := nodup_pushed taken nodup found
      obtain ⟨absent, present⟩ := ih pushed
      constructor
      · intro other outside
        have owners := (taken.map Prod.fst).mem_iff (a := other)
        rw [List.map_cons, List.mem_cons] at owners
        have ne : stream ≠ other := by
          rintro rfl
          exact outside (owners.mp (.inl rfl))
        rw [ownedBy_cons_ne ne]
        apply absent
        cases found with
        | none => exact fun inside => outside (owners.mp (.inr inside))
        | some item =>
            intro inside
            rcases List.mem_cons.mp inside with same | inside
            · exact ne same.symm
            · exact outside (owners.mp (.inr inside))
      · intro entry mem
        rcases List.mem_cons.mp (taken.mem_iff.mpr mem) with rfl | inside
        · rw [ownedBy_cons_self]
          cases found with
          | none =>
              rw [absent stream alone]
              exact ⟨[], .done asked, rfl⟩
          | some nextItem =>
              obtain ⟨later, yields, owned⟩ :=
                present (stream, nextItem) List.mem_cons_self
              rw [Function.update_self] at yields
              exact ⟨nextItem :: later, .more asked yields, by rw [owned]; rfl⟩
        · have ne : stream ≠ entry.1 := by
            rintro rfl
            exact alone (List.mem_map_of_mem inside)
          obtain ⟨later, yields, owned⟩ :=
            present entry (List.mem_append_right _ inside)
          rw [Function.update_of_ne ne.symm] at yields
          exact ⟨later, yields, by rw [ownedBy_cons_ne ne, owned]⟩

/-- What comes out belongs to a stream with a pending item. -/
theorem Merges.owner_mem (merges : Merges Next le pending streams merged)
    (nodup : (pending.map Prod.fst).Nodup) {entry : K × A}
    (mem : entry ∈ merged) : entry.1 ∈ pending.map Prod.fst := by
  by_contra outside
  have none := (merges.yields nodup).1 entry.1 outside
  have owned : entry ∈ ownedBy Prod.fst entry.1 merged :=
    List.mem_filter.mpr ⟨mem, by simp⟩
  rw [none] at owned
  cases owned

theorem Merges.sorted
    (trans : ∀ {first second third}, le first second → le second third →
      le first third)
    (merges : Merges Next le pending streams merged)
    (nodup : (pending.map Prod.fst).Nodup)
    (ordered : ∀ entry ∈ pending, ∀ later, Yields Next (streams entry.1) later →
        ((entry.2 :: later).map (Prod.mk entry.1)).Pairwise le) :
    merged.Pairwise le := by
  induction merges with
  | done => exact .nil
  | @step pending rest merged streams stream item found after taken least asked
      next ih =>
      have whole : Merges Next le pending streams ((stream, item) :: merged) :=
        .step taken least asked next
      obtain ⟨alone, pushed⟩ := nodup_pushed taken nodup found
      refine List.pairwise_cons.mpr ⟨?_, ih pushed ?_⟩
      · intro entry mem
        have inside := List.mem_cons_of_mem (stream, item) mem
        obtain ⟨first, waiting, owner⟩ :=
          List.mem_map.mp (whole.owner_mem nodup inside)
        obtain ⟨later, yields, owned⟩ := (whole.yields nodup).2 first waiting
        have own : entry ∈ (first.2 :: later).map (Prod.mk first.1) := by
          rw [← owned]
          exact List.mem_filter.mpr ⟨inside, by simp [owner]⟩
        have sorted := ordered first waiting later yields
        rw [List.map_cons] at own sorted
        rcases List.mem_cons.mp own with rfl | behind
        · exact least first waiting
        · exact trans (least first waiting)
            ((List.pairwise_cons.mp sorted).1 entry behind)
      · intro entry waiting later yields
        rcases List.mem_append.mp waiting with fresh | old
        · cases found with
          | none => cases fresh
          | some nextItem =>
              obtain rfl := List.mem_singleton.mp fresh
              rw [Function.update_self] at yields
              have first := taken.subset List.mem_cons_self
              exact (List.pairwise_cons.mp (ordered (stream, item) first _
                (.more asked yields))).2
        · have ne : entry.1 ≠ stream := by
            rintro same
            exact alone (same ▸ List.mem_map_of_mem old)
          rw [Function.update_of_ne ne] at yields
          exact ordered entry
            (taken.subset (List.mem_cons_of_mem _ old)) later yields

end StreamMerge
