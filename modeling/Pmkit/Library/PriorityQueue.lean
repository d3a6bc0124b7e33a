import Pmkit.Library.KeyedMap

/-!
# Priority queues over a total preorder

A heap promises that the item it pops is a least one, and nothing about which
one among several.  The queue is the list of its items; the arrangement of an
`IterationOrder` decides between equals.
-/

universe u v

/-! ## Comparisons -/

/-- Compare two values by what a function makes of them. -/
def comapCmp {A : Type u} {B : Type v} (project : A → B)
    (cmp : B → B → Ordering) (left right : A) : Ordering :=
  cmp (project left) (project right)

section Comap

variable {A : Type u} {B : Type v} (project : A → B) (cmp : B → B → Ordering)

instance [Std.OrientedCmp cmp] : Std.OrientedCmp (comapCmp project cmp) where
  eq_swap := by
    intro left right
    simp only [comapCmp]
    exact Std.OrientedCmp.eq_swap

instance [Std.TransCmp cmp] : Std.TransCmp (comapCmp project cmp) where
  isLE_trans := by
    intro first second third before after
    simp only [comapCmp] at before after ⊢
    exact Std.TransCmp.isLE_trans before after

end Comap

namespace PriorityQueue

variable {A : Type u} (cmp : A → A → Ordering)

def isLeast (queue : List A) (item : A) : Bool :=
  queue.all fun other => (cmp item other).isLE

def pop (order : IterationOrder A) (queue : List A) : Option (A × List A) :=
  match (order.arrange queue).find? (isLeast cmp queue) with
  | none => none
  | some item => some (item, (order.arrange queue).eraseP (isLeast cmp queue))

variable {cmp} {order : IterationOrder A} {queue : List A}

theorem pop_perm
    {item : A} {rest : List A} (popped : pop cmp order queue = some (item, rest)) :
    (item :: rest).Perm queue := by
  unfold pop at popped
  cases found : (order.arrange queue).find? (isLeast cmp queue) with
  | none =>
      rw [found] at popped
      cases popped
  | some least =>
      rw [found] at popped
      cases popped
      have shape := List.find?_eq_some_iff_append.mp found
      obtain ⟨isFirst, before, after, split, skipped⟩ := shape
      have erased : (order.arrange queue).eraseP (isLeast cmp queue) =
          before ++ after := by
        rw [split, List.eraseP_append_right _ (by simpa using skipped),
          List.eraseP_cons_of_pos isFirst]
      rw [erased]
      have arranged := order.perm queue
      rw [split] at arranged
      exact List.perm_middle.symm.trans arranged

theorem pop_least
    {item : A} {rest : List A} (popped : pop cmp order queue = some (item, rest))
    {other : A} (mem : other ∈ queue) : (cmp item other).isLE := by
  unfold pop at popped
  cases found : (order.arrange queue).find? (isLeast cmp queue) with
  | none =>
      rw [found] at popped
      cases popped
  | some least =>
      rw [found] at popped
      cases popped
      have isFirst := List.find?_some found
      rw [isLeast, List.all_eq_true] at isFirst
      exact isFirst other mem

/-- A queue with items has a least one. -/
theorem exists_least
    (cmp : A → A → Ordering) [Std.TransCmp cmp] (first : A) (rest : List A) :
    ∃ item ∈ first :: rest, ∀ other ∈ first :: rest,
      (cmp item other).isLE := by
  induction rest generalizing first with
  | nil =>
      refine ⟨first, List.mem_cons_self, ?_⟩
      intro other mem
      rw [List.mem_singleton] at mem
      subst mem
      exact Std.ReflCmp.isLE_rfl
  | cons second rest ih =>
      obtain ⟨item, mem, least⟩ := ih second
      by_cases smaller : (cmp first item).isLE
      · refine ⟨first, List.mem_cons_self, ?_⟩
        intro other otherMem
        rcases List.mem_cons.mp otherMem with rfl | later
        · exact Std.ReflCmp.isLE_rfl
        · exact Std.TransCmp.isLE_trans smaller (least other later)
      · refine ⟨item, List.mem_cons_of_mem first mem, ?_⟩
        intro other otherMem
        rcases List.mem_cons.mp otherMem with rfl | later
        · rw [Std.OrientedCmp.lt_of_not_isLE smaller]
          rfl
        · exact least other later

theorem pop_eq_none_iff [Std.TransCmp cmp] :
    pop cmp order queue = none ↔ queue = [] := by
  constructor
  · intro nothing
    cases queue with
    | nil => rfl
    | cons first rest =>
        obtain ⟨item, mem, least⟩ := exists_least cmp first rest
        have isFirst : isLeast cmp (first :: rest) item = true :=
          List.all_eq_true.mpr least
        have arranged : item ∈ order.arrange (first :: rest) :=
          (order.perm _).mem_iff.mpr mem
        unfold pop at nothing
        cases found : (order.arrange (first :: rest)).find?
            (isLeast cmp (first :: rest)) with
        | none => exact absurd isFirst (List.find?_eq_none.mp found item arranged)
        | some other =>
            rw [found] at nothing
            cases nothing
  · rintro rfl
    have arranged : order.arrange [] = [] :=
      (order.perm []).eq_nil
    rw [pop, arranged]
    rfl

theorem cmp_congr [Std.TransCmp cmp] {left right : A} :
    cmp left = cmp right ↔ cmp left right = .eq := by
  constructor
  · intro same
    rw [same]
    exact Std.ReflCmp.compare_self
  · intro equal
    funext other
    exact Std.TransCmp.congr_left equal

/-- Two releases of one queue agree, place by place, up to equal items. -/
theorem map_cmp_eq_of_perm [Std.TransCmp cmp] {left right : List A}
    (perm : left.Perm right)
    (sorted : left.Pairwise fun first second => (cmp first second).isLE)
    (sorted' : right.Pairwise fun first second => (cmp first second).isLE) :
    left.map cmp = right.map cmp := by
  let before := fun first second : A → Ordering =>
    ∃ item other, cmp item = first ∧ cmp other = second ∧
      (cmp item other).isLE
  have ordered : ∀ items : List A,
      (items.Pairwise fun first second => (cmp first second).isLE) →
        (items.map cmp).Pairwise before := by
    intro items pairs
    rw [List.pairwise_map]
    exact pairs.imp fun {item other} isLE => ⟨item, other, rfl, rfl, isLE⟩
  refine List.Perm.eq_of_pairwise ?_ (ordered left sorted)
    (ordered right sorted') (perm.map cmp)
  rintro _ _ - - ⟨item, other, rfl, rfl, isLE⟩ ⟨other', item', same, same', isLE'⟩
  -- The second pair stands for the first one, the other way round.
  rw [same, ← Std.TransCmp.congr_right (cmp_congr.mp same'.symm)] at isLE'
  exact cmp_congr.mpr (Std.OrientedCmp.isLE_antisymm isLE isLE')

/-- What equal items share is released in one order. -/
theorem map_eq_of_perm [Std.TransCmp cmp] {B : Type v} {shown : A → B}
    {left right : List A} (perm : left.Perm right)
    (sorted : left.Pairwise fun first second => (cmp first second).isLE)
    (sorted' : right.Pairwise fun first second => (cmp first second).isLE)
    (shared : ∀ item ∈ left, ∀ other ∈ left,
      cmp item other = .eq → shown item = shown other) :
    left.map shown = right.map shown := by
  have places := map_cmp_eq_of_perm perm sorted sorted'
  apply List.ext_getElem
  · rw [List.length_map, List.length_map, perm.length_eq]
  · intro index inLeft inRight
    rw [List.length_map] at inLeft inRight
    rw [List.getElem_map, List.getElem_map]
    apply shared _ (List.getElem_mem inLeft) _
      (perm.mem_iff.mpr (List.getElem_mem inRight))
    have place := congrArg (fun items => items[index]?) places
    simp only [List.getElem?_map, List.getElem?_eq_getElem inLeft,
      List.getElem?_eq_getElem inRight, Option.map_some, Option.some.injEq]
      at place
    exact cmp_congr.mp place

end PriorityQueue
