import Mathlib.Data.List.Sort

/-!
# Queries over tables

A table is the list of its rows.  A query with an `ORDER BY` returns rows
sorted by a comparison; where the comparison separates the rows, the place of
one row before another says how they compare.
-/

universe u

namespace Table

variable {R : Type u} (cmp : R → R → Ordering)

def orderBy (rows : List R) : List R :=
  rows.insertionSort fun left right => (cmp left right).isLE

theorem orderBy_perm (rows : List R) : (orderBy cmp rows).Perm rows :=
  List.perm_insertionSort _ rows

variable {cmp}

@[simp]
theorem mem_orderBy {rows : List R} {row : R} :
    row ∈ orderBy cmp rows ↔ row ∈ rows :=
  (orderBy_perm cmp rows).mem_iff

variable [Std.TransCmp cmp]

theorem orderBy_pairwise (rows : List R) :
    (orderBy cmp rows).Pairwise fun left right => (cmp left right).isLE := by
  have total : Std.Total fun left right : R =>
      ((cmp left right).isLE : Prop) := by
    constructor
    intro left right
    have swapped : cmp right left = (cmp left right).swap :=
      Std.OrientedCmp.eq_swap
    rw [swapped]
    cases cmp left right <;> simp
  have transitive : IsTrans R fun left right =>
      ((cmp left right).isLE : Prop) :=
    ⟨fun _ _ _ => Std.TransCmp.isLE_trans⟩
  exact List.pairwise_insertionSort _ rows

/-- The first row of a query is the one that stands before all others. -/
theorem head?_orderBy {rows : List R} {row : R} (mem : row ∈ rows)
    (least : ∀ other ∈ rows, other ≠ row → cmp row other = .lt) :
    (orderBy cmp rows).head? = some row := by
  have inside : row ∈ orderBy cmp rows := mem_orderBy.mpr mem
  have sorted := @orderBy_pairwise R cmp _ rows
  cases ordered : orderBy cmp rows with
  | nil =>
      rw [ordered] at inside
      cases inside
  | cons first rest =>
      rw [ordered] at inside sorted
      rcases List.mem_cons.mp inside with rfl | later
      · rfl
      · have present : first ∈ rows := by
          rw [← @mem_orderBy R cmp, ordered]
          exact List.mem_cons_self
        by_cases same : first = row
        · rw [same]
          rfl
        · have before := List.rel_of_pairwise_cons sorted later
          rw [Std.OrientedCmp.gt_of_lt (least first present same)] at before
          cases before

end Table

theorem List.pair_sublist_or {A : Type u} {first second : A} {items : List A}
    (firstMem : first ∈ items) (secondMem : second ∈ items)
    (ne : first ≠ second) :
    [first, second].Sublist items ∨ [second, first].Sublist items := by
  induction items with
  | nil =>
      cases firstMem
  | cons item rest ih =>
      rw [List.mem_cons] at firstMem secondMem
      rcases firstMem with rfl | firstRest
      · left
        have later := secondMem.resolve_left (Ne.symm ne)
        exact (List.singleton_sublist.mpr later).cons_cons first
      · rcases secondMem with rfl | secondRest
        · right
          exact (List.singleton_sublist.mpr firstRest).cons_cons second
        · exact (ih firstRest secondRest).imp
            (fun before => before.cons item) (fun before => before.cons item)

variable {R : Type u}

/-- In a sorted list the place of two rows that do not tie is how they
compare. -/
theorem Table.pair_sublist_iff {cmp : R → R → Ordering} [Std.TransCmp cmp]
    {rows : List R} {first second : R}
    (sorted : rows.Pairwise fun left right => (cmp left right).isLE)
    (firstMem : first ∈ rows) (secondMem : second ∈ rows)
    (separated : cmp first second ≠ .eq) :
    [first, second].Sublist rows ↔ cmp first second = .lt := by
  have before : ∀ left right : R, [left, right].Sublist rows →
      (cmp left right).isLE := by
    intro left right inside
    have pair := List.Pairwise.sublist inside sorted
    simpa using pair
  constructor
  · intro inside
    have ordered := before first second inside
    cases compared : cmp first second with
    | lt => rfl
    | eq => exact absurd compared separated
    | gt =>
        rw [compared] at ordered
        cases ordered
  · intro less
    have ne : first ≠ second := by
      rintro rfl
      exact separated Std.ReflCmp.compare_self
    refine (List.pair_sublist_or firstMem secondMem ne).resolve_right ?_
    intro inside
    have ordered := before second first inside
    rw [Std.OrientedCmp.gt_of_lt less] at ordered
    cases ordered

/-- A query that separates its rows may filter before or after it sorts. -/
theorem Table.orderBy_filter
    {cmp : R → R → Ordering} [Std.TransCmp cmp] {rows : List R}
    (strict : (orderBy cmp rows).Pairwise fun left right =>
      cmp left right = .lt) (keep : R → Bool) :
    orderBy cmp (rows.filter keep) = (orderBy cmp rows).filter keep := by
  refine List.Perm.eq_of_pairwise ?_ (orderBy_pairwise _)
    (List.Pairwise.sublist List.filter_sublist (orderBy_pairwise rows))
    ((orderBy_perm cmp _).trans ((orderBy_perm cmp rows).symm.filter keep))
  intro left right leftMem rightMem forward backward
  by_contra ne
  have leftInside : left ∈ orderBy cmp rows := by
    rw [mem_orderBy] at leftMem ⊢
    exact List.mem_of_mem_filter leftMem
  have rightInside := List.mem_of_mem_filter rightMem
  rcases List.pair_sublist_or leftInside rightInside ne with
    inside | inside
  · have pair := List.Pairwise.sublist inside strict
    have less : cmp left right = .lt := by
      simpa using pair
    rw [Std.OrientedCmp.gt_of_lt less] at backward
    cases backward
  · have pair := List.Pairwise.sublist inside strict
    have less : cmp right left = .lt := by
      simpa using pair
    rw [Std.OrientedCmp.gt_of_lt less] at forward
    cases forward

/-- The rows behind a place of a strictly sorted list are those its last row
before the place is less than. -/
theorem List.filter_lt_of_getLast {cmp : R → R → Ordering} [Std.TransCmp cmp]
    {before after : List R} {last : R}
    (strict : (before ++ after).Pairwise fun left right => cmp left right = .lt)
    (found : before.getLast? = some last) :
    (before ++ after).filter (fun row => (cmp last row).isLT) = after := by
  obtain ⟨initial, rfl⟩ : ∃ initial, before = initial ++ [last] := by
    rw [List.getLast?_eq_some_iff] at found
    exact found
  have parts := List.pairwise_append.mp strict
  rw [List.filter_append]
  have none : (initial ++ [last]).filter
      (fun row => (cmp last row).isLT) = [] := by
    rw [List.filter_eq_nil_iff]
    intro row mem less
    have behind : cmp last row = .lt := by
      simpa using less
    rcases List.mem_append.mp mem with early | here
    · have forward := (List.pairwise_append.mp parts.1).2.2 row early last
        (List.mem_singleton.mpr rfl)
      rw [Std.OrientedCmp.gt_of_lt forward] at behind
      cases behind
    · have ties : cmp last last = .eq := Std.ReflCmp.compare_self
      rw [List.mem_singleton.mp here, ties] at behind
      cases behind
  have all : after.filter (fun row => (cmp last row).isLT) = after := by
    rw [List.filter_eq_self]
    intro row mem
    have less := parts.2.2 last (by simp) row mem
    simp [less]
  rw [none, all, List.nil_append]

/-- Rows that are counted through a second table, and then once more unless
they are skipped, are counted once each just when every skipped row is in the
second table. -/
theorem Table.perm_once_iff
    {R B : Type u} [DecidableEq R] {rows counted : List R} (value : R → B)
    {skipped : R → Bool} (rowsNodup : rows.Nodup)
    (countedNodup : counted.Nodup) (inside : ∀ row ∈ counted, row ∈ rows)
    (skips : ∀ row ∈ counted, skipped row = true) :
    (counted.map value ++ (rows.filter fun row => !skipped row).map value).Perm
        (rows.map value) ↔
      ∀ row ∈ rows, skipped row = true → row ∈ counted := by
  let rest := rows.filter fun row => row ∉ counted
  have chosen : (rows.filter fun row => row ∈ counted).Perm counted := by
    refine (List.perm_ext_iff_of_nodup (rowsNodup.filter _) countedNodup).mpr ?_
    intro row
    rw [List.mem_filter]
    constructor
    · rintro ⟨_, mem⟩
      simpa using mem
    · intro mem
      exact ⟨inside row mem, by simpa using mem⟩
  have parts : (counted ++ rest).Perm rows := by
    refine (chosen.symm.append_right rest).trans ?_
    have split := List.filter_append_perm (fun row => decide (row ∈ counted))
      rows
    simpa [rest] using split
  have unskipped : (rows.filter fun row => !skipped row) =
      rest.filter fun row => !skipped row := by
    rw [List.filter_filter]
    apply List.filter_congr
    intro row _
    by_cases mem : row ∈ counted
    · simp [skips row mem, mem]
    · simp [mem]
  have cancel : (counted.map value ++
      (rows.filter fun row => !skipped row).map value).Perm
        (rows.map value) ↔
      ((rest.filter fun row => !skipped row).map value).Perm
        (rest.map value) := by
    have whole : (rows.map value).Perm
        (counted.map value ++ rest.map value) := by
      rw [← List.map_append]
      exact (parts.map value).symm
    rw [unskipped]
    constructor
    · intro same
      exact (List.perm_append_left_iff _).mp (same.trans whole)
    · intro same
      exact (same.append_left _).trans whole.symm
  rw [cancel]
  constructor
  · intro same row mem skip
    by_contra absent
    have lengths := same.length_eq
    rw [List.length_map, List.length_map,
      List.length_filter_eq_length_iff] at lengths
    have kept := lengths row (List.mem_filter.mpr ⟨mem, by simpa using absent⟩)
    rw [skip] at kept
    cases kept
  · intro all
    have every : (rest.filter fun row => !skipped row) = rest := by
      rw [List.filter_eq_self]
      intro row mem
      have kept := List.mem_filter.mp mem
      have absent : row ∉ counted := by
        simpa using kept.2
      cases skip : skipped row with
      | false => rfl
      | true => exact absurd (all row kept.1 skip) absent
    rw [every]

structure Table.Separated {R : Type u} (clash : R → R → Bool) where
  rows : List R
  separated : rows.Pairwise fun left right => clash left right = false

namespace Table.Separated

variable {R : Type u} {clash : R → R → Bool}

def empty : Separated clash where
  rows := []
  separated := List.Pairwise.nil

def insert (table : Separated clash) (row : R) : Option (Separated clash) :=
  if free : table.rows.all (fun stored => !clash stored row) = true then
    some
      { rows := table.rows ++ [row]
        separated := List.pairwise_append.mpr
          ⟨table.separated, List.pairwise_singleton _ _, by
            simpa using free⟩ }
  else
    none

def insertAll (table : Separated clash) (rows : List R) :
    Option (Separated clash) :=
  rows.foldlM insert table

theorem insert_rows {table stored : Separated clash} {row : R}
    (inserted : table.insert row = some stored) :
    stored.rows = table.rows ++ [row] := by
  unfold insert at inserted
  split at inserted
  · cases inserted
    rfl
  · cases inserted

theorem insertAll_rows {rows : List R} {table stored : Separated clash}
    (inserted : table.insertAll rows = some stored) :
    stored.rows = table.rows ++ rows := by
  induction rows generalizing table with
  | nil =>
      cases inserted
      rw [List.append_nil]
  | cons row rest ih =>
      rw [insertAll, List.foldlM_cons] at inserted
      obtain ⟨next, first, others⟩ := Option.bind_eq_some_iff.mp inserted
      rw [ih others, insert_rows first, List.append_assoc,
        List.singleton_append]

theorem insertAll_isSome_iff (table : Separated clash) (rows : List R) :
    (∃ stored, table.insertAll rows = some stored) ↔
      (table.rows ++ rows).Pairwise fun left right =>
        clash left right = false := by
  constructor
  · rintro ⟨stored, inserted⟩
    rw [← insertAll_rows inserted]
    exact stored.separated
  · induction rows generalizing table with
    | nil =>
        intro _
        exact ⟨table, rfl⟩
    | cons row rest ih =>
        intro apart
        have free : table.rows.all (fun stored => !clash stored row) = true := by
          rw [List.all_eq_true]
          intro stored mem
          have pair := (List.pairwise_append.mp apart).2.2 stored mem row
            List.mem_cons_self
          rw [pair]
          rfl
        have first : table.insert row = some
            { rows := table.rows ++ [row]
              separated := List.pairwise_append.mpr
                ⟨table.separated, List.pairwise_singleton _ _, by
                  simpa using free⟩ } :=
          dif_pos free
        rw [insertAll, List.foldlM_cons, first]
        apply ih
        rwa [List.append_assoc, List.singleton_append]

end Table.Separated
