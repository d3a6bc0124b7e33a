import Mathlib.Data.List.Infix
import Mathlib.Data.List.Pairwise

/-!
# Tables that keep the first row of a key

An insert is passed over when the key of its row is taken.  What the table has
for a key is the first row with it, among the rows that were there and those
that came later, and so two lots of rows may be inserted in either order when
they begin the new keys with the same rows.
-/

universe u v

namespace FirstRows

variable {R : Type u} {K : Type v} [DecidableEq K] (key : R → K)

def insert (rows : List R) (row : R) : List R :=
  if rows.any (key · = key row) then rows else rows ++ [row]

def insertAll (rows items : List R) : List R :=
  items.foldl (insert key) rows

def first (rows : List R) (wanted : K) : Option R :=
  rows.find? (key · = wanted)

/-- The keys that are not stored have the same first row in both lots, if both
have one. -/
def Agree (rows left right : List R) : Prop :=
  ∀ wanted, first key rows wanted = none →
    ∀ one ∈ first key left wanted, ∀ other ∈ first key right wanted,
      one = other

def Separated (rows : List R) : Prop :=
  rows.Pairwise fun left right => key left ≠ key right

variable {key} {rows : List R}

theorem first_append (later : List R) (wanted : K) :
    first key (rows ++ later) wanted =
      (first key rows wanted).or (first key later wanted) :=
  List.find?_append

theorem first_eq_none {wanted : K} :
    first key rows wanted = none ↔ ∀ row ∈ rows, key row ≠ wanted := by
  simp [first]

variable {row : R}

theorem taken_iff :
    rows.any (key · = key row) = true ↔ first key rows (key row) ≠ none := by
  simp [first]

theorem insert_eq_of_taken (taken : first key rows (key row) ≠ none) :
    insert key rows row = rows :=
  if_pos (taken_iff.mpr taken)

theorem insert_eq_of_free (free : first key rows (key row) = none) :
    insert key rows row = rows ++ [row] :=
  if_neg fun taken => taken_iff.mp taken free

theorem first_insert (row : R) (wanted : K) :
    first key (insert key rows row) wanted =
      first key (rows ++ [row]) wanted := by
  by_cases free : first key rows (key row) = none
  · rw [insert_eq_of_free free]
  · rw [insert_eq_of_taken free, first_append]
    by_cases same : key row = wanted
    · obtain ⟨stored, found⟩ := Option.ne_none_iff_exists'.mp (same ▸ free)
      rw [found, Option.some_or]
    · rw [first, first, List.find?_singleton, if_neg (by simpa using same),
        Option.or_none]

theorem first_insert_self (row : R) :
    first key (insert key rows row) (key row) ≠ none := by
  rw [first_insert]
  exact fun absent =>
    first_eq_none.mp absent row (List.mem_append_right rows (by simp)) rfl

theorem first_insertAll (items : List R) (wanted : K) :
    first key (insertAll key rows items) wanted =
      first key (rows ++ items) wanted := by
  induction items generalizing rows with
  | nil => rw [List.append_nil]; rfl
  | cons item rest ih =>
      rw [insertAll, List.foldl_cons, ← insertAll, ih,
        first_append, first_insert, ← first_append, List.append_assoc]
      rfl

theorem prefix_insert (row : R) : rows <+: insert key rows row := by
  unfold insert
  split
  · exact List.prefix_refl rows
  · exact List.prefix_append rows [row]

theorem prefix_insertAll (items : List R) : rows <+: insertAll key rows items := by
  induction items generalizing rows with
  | nil => exact List.prefix_refl rows
  | cons item rest ih =>
      exact (prefix_insert item).trans ih

theorem insertAll_append (items later : List R) :
    insertAll key rows (items ++ later) =
      insertAll key (insertAll key rows items) later :=
  List.foldl_append

/-- Rows whose keys are taken change nothing. -/
theorem insertAll_of_taken {items : List R}
    (taken : ∀ item ∈ items, first key rows (key item) ≠ none) :
    insertAll key rows items = rows := by
  induction items with
  | nil => rfl
  | cons item rest ih =>
      obtain ⟨present, others⟩ := List.forall_mem_cons.mp taken
      rw [insertAll, List.foldl_cons, insert_eq_of_taken present]
      exact ih others

theorem insertAll_twice (items : List R) :
    insertAll key (insertAll key rows items) items =
      insertAll key rows items := by
  apply insertAll_of_taken
  intro item mem absent
  rw [first_insertAll, first_eq_none] at absent
  exact absent item (List.mem_append_right rows mem) rfl

theorem separated_insert (separated : Separated key rows) (row : R) :
    Separated key (insert key rows row) := by
  by_cases free : first key rows (key row) = none
  · rw [insert_eq_of_free free]
    refine List.pairwise_append.mpr
      ⟨separated, List.pairwise_singleton _ _, fun stored inside other mem => ?_⟩
    rw [List.mem_singleton.mp mem]
    exact first_eq_none.mp free stored inside
  · rw [insert_eq_of_taken free]
    exact separated

theorem separated_insertAll (separated : Separated key rows) (items : List R) :
    Separated key (insertAll key rows items) := by
  induction items generalizing rows with
  | nil => exact separated
  | cons item rest ih =>
      exact ih (separated_insert separated item)

theorem first_eq_some_iff (separated : Separated key rows) {wanted : K}
    :
    first key rows wanted = some row ↔ row ∈ rows ∧ key row = wanted := by
  constructor
  · intro isFirst
    exact ⟨List.mem_of_find?_eq_some isFirst, by
      simpa using List.find?_some isFirst⟩
  · rintro ⟨mem, rfl⟩
    have present : first key rows (key row) ≠ none := fun absent =>
      (first_eq_none.mp absent) row mem rfl
    obtain ⟨found, isFirst⟩ := Option.ne_none_iff_exists'.mp present
    have same : key found = key row := by
      simpa using List.find?_some isFirst
    by_contra ne
    have apart : found ≠ row := by
      rintro rfl
      exact ne isFirst
    have symmetric : Std.Symm fun left right : R => key left ≠ key right :=
      ⟨fun _ _ => Ne.symm⟩
    exact separated.forall (List.mem_of_find?_eq_some isFirst) mem apart same

/-- Tables with the same rows have the same first rows, and the other way. -/
theorem same_iff {left right : List R} (leftSeparated : Separated key left)
    (rightSeparated : Separated key right) :
    (∀ row, row ∈ left ↔ row ∈ right) ↔
      ∀ wanted, first key left wanted = first key right wanted := by
  constructor
  · intro same wanted
    apply Option.ext
    intro row
    rw [first_eq_some_iff leftSeparated, first_eq_some_iff rightSeparated,
      same row]
  · intro same row
    have mem : ∀ {rows : List R}, Separated key rows →
        (row ∈ rows ↔ first key rows (key row) = some row) :=
      fun separated => by rw [first_eq_some_iff separated, and_iff_left rfl]
    rw [mem leftSeparated, mem rightSeparated, same]

/-- Two lots of rows leave the same rows in either order just when they agree
on the keys that are new. -/
theorem exchange_iff (separated : Separated key rows) (left right : List R) :
    (∀ row, row ∈ insertAll key (insertAll key rows left) right ↔
      row ∈ insertAll key (insertAll key rows right) left) ↔
      Agree key rows left right := by
  rw [same_iff (separated_insertAll (separated_insertAll separated left) right)
    (separated_insertAll (separated_insertAll separated right) left)]
  refine forall_congr' fun wanted => ?_
  simp only [← insertAll_append, first_insertAll, first_append]
  cases first key rows wanted with
  | some stored => simp
  | none =>
      cases first key left wanted <;> cases first key right wanted <;>
        simp [eq_comm]

end FirstRows
