import Pmkit.Store.Envelopes

/-!
# Reading a scope page by page

Every reader of the envelope table asks for a page, handles its items, and asks
again from the cursor of the last row until a page has none.  The pages of such
a loop are the rows of the scope in replay order, cut into pieces, so the loop
handles each item once, in that order.
-/

namespace Pmkit

open MachineInt

namespace EnvelopeTable

def scopeRows (table : EnvelopeTable) (scope : OwnerScope) :
    List EnvelopeRow :=
  Table.orderBy (fun left right => ReplayKey.cmp left.key right.key)
    (table.rows.filter fun row => row.scope = scope)

/-- The loop over the pages of a scope.  Each page but the last has a row, so
the number of rows and one bounds the number of pages. -/
def forPages {S E : Type} (text : StoreText) (table : EnvelopeTable)
    (scope : OwnerScope) (limit : ℕ+) (storeError : S → TapeStoreError → E)
    (handle : S → ReplayItem → Except E S) :
    Nat → Option ReplayCursor → S → Except E S
  | 0, _, state => .ok state
  | fuel + 1, cursor, state =>
      match table.readEnvelopes text scope cursor limit with
      | .error error => .error (storeError state error)
      | .ok page =>
          match page.items.foldlM handle state with
          | .error error => .error error
          | .ok next =>
              match page.nextCursor with
              | none => .ok next
              | some cursor =>
                  forPages text table scope limit storeError handle fuel
                    (some cursor) next

/-- The whole loop. -/
def forAll {S E : Type} (text : StoreText) (table : EnvelopeTable)
    (scope : OwnerScope) (limit : ℕ+) (storeError : S → TapeStoreError → E)
    (handle : S → ReplayItem → Except E S) (state : S) : Except E S :=
  forPages text table scope limit storeError handle (table.rows.length + 1)
    none state

/-! ## What the loop reads -/

variable {table : EnvelopeTable}

/-- The rows of a scope are strictly ordered. -/
theorem scopeRows_pairwise (scope : OwnerScope) :
    (table.scopeRows scope).Pairwise fun left right =>
      ReplayKey.cmp left.key right.key = .lt := by
  have apart : (table.scopeRows scope).Pairwise fun left right =>
      ReplayKey.cmp left.key right.key ≠ .eq := by
    have stored : (table.rows.filter fun row => row.scope = scope).Pairwise
        fun left right => ReplayKey.cmp left.key right.key ≠ .eq := by
      rw [List.pairwise_iff_forall_sublist]
      intro left right inside
      have leftScope : left.scope = scope := by
        simpa using (List.mem_filter.mp
          (inside.subset (List.mem_cons_self : left ∈ [left, right]))).2
      have rightScope : right.scope = scope := by
        simpa using (List.mem_filter.mp (inside.subset
          (List.mem_cons_of_mem left (List.mem_singleton.mpr rfl)))).2
      exact cmp_ne_eq (inside.trans List.filter_sublist)
        (leftScope.trans rightScope.symm)
    refine stored.perm (Table.orderBy_perm _ _).symm ?_
    intro left right ne ties
    apply ne
    rw [Std.OrientedCmp.eq_comm] at ties
    exact ties
  exact ((Table.orderBy_pairwise _).and apart).imp fun ⟨ordered, ne⟩ =>
    (Ordering.isLE_iff_eq_lt_or_eq_eq.mp ordered).resolve_right ne

def cursorAfter (scope : OwnerScope) (rows : List EnvelopeRow) :
    Option ReplayCursor :=
  rows.getLast?.map fun row => { scope := scope, key := row.key }

/-- A page starts where the rows before its cursor end. -/
theorem readRows_of_split {scope : OwnerScope} {before after : List EnvelopeRow}
    (split : table.scopeRows scope = before ++ after) (limit : ℕ+) :
    table.readRows scope ((cursorAfter scope before).map ReplayCursor.key)
      limit = after.take limit := by
  have strict := @scopeRows_pairwise table scope
  cases last : before.getLast? with
  | none =>
      rw [List.getLast?_eq_none_iff] at last
      subst last
      rw [List.nil_append] at split
      rw [← split]
      simp [readRows, scopeRows, cursorAfter]
  | some row =>
      have sorted := Table.orderBy_filter strict
        (fun other => (ReplayKey.cmp row.key other.key).isLT)
      rw [List.filter_filter, ← scopeRows, split] at sorted
      rw [split] at strict
      have rest := List.filter_lt_of_getLast strict last
      rw [rest] at sorted
      simp only [readRows, cursorAfter, last, Option.map_some, Option.all_some]
      rw [← sorted]
      congr 2
      apply List.filter_congr
      intro other _
      rw [Bool.and_comm]
      cases ReplayKey.cmp row.key other.key <;> simp

/-- The page from the cursor of some rows. -/
theorem readEnvelopes_of_split
    {text : StoreText} {scope : OwnerScope} {limit : ℕ+}
    (small : (limit : ℕ) ≤ I64.maxValue.1) {before after : List EnvelopeRow}
    (split : table.scopeRows scope = before ++ after) :
    table.readEnvelopes text scope (cursorAfter scope before) limit = .ok
      { items := (after.take limit).map (decodeRow text)
        nextCursor := cursorAfter scope (after.take limit) } := by
  have own : ((cursorAfter scope before).any fun cursor =>
      decide (cursor.scope ≠ scope)) = false := by
    cases last : before.getLast? <;> simp [cursorAfter, last]
  rw [readEnvelopes, own, if_neg Bool.false_ne_true, if_neg (by omega),
    readRows_of_split split]
  rfl

/-- A page with a row has a cursor, which is that of all rows read so far. -/
theorem cursorAfter_take
    {scope : OwnerScope} {before after : List EnvelopeRow} {limit : ℕ+}
    (more : after ≠ []) :
    ∃ cursor, cursorAfter scope (after.take limit) = some cursor ∧
      cursorAfter scope (before ++ after.take limit) = some cursor := by
  have positive := limit.pos
  obtain ⟨row, found⟩ : ∃ row, (after.take limit).getLast? = some row := by
    rw [← Option.isSome_iff_exists, List.getLast?_isSome]
    simpa using more
  refine ⟨{ scope := scope, key := row.key }, ?_, ?_⟩
  · rw [cursorAfter, found]
    rfl
  · rw [cursorAfter, List.getLast?_append, found]
    rfl

theorem forPages_eq
    {S E : Type} {text : StoreText} {scope : OwnerScope} {limit : ℕ+}
    {storeError : S → TapeStoreError → E} {handle : S → ReplayItem → Except E S}
    (small : (limit : ℕ) ≤ I64.maxValue.1) {fuel : Nat}
    {before after : List EnvelopeRow}
    (split : table.scopeRows scope = before ++ after)
    (enough : after.length < fuel) (state : S) :
    forPages text table scope limit storeError handle fuel
        (cursorAfter scope before) state =
      (after.map (decodeRow text)).foldlM handle state := by
  induction fuel generalizing before after state with
  | zero =>
      omega
  | succ fuel ih =>
      have parts : (after.map (decodeRow text)).foldlM handle state =
          ((after.take limit).map (decodeRow text)).foldlM handle state >>=
            ((after.drop limit).map (decodeRow text)).foldlM handle := by
        rw [← List.foldlM_append, ← List.map_append, List.take_append_drop]
      rw [forPages, readEnvelopes_of_split small split, parts]
      simp only
      cases ((after.take limit).map (decodeRow text)).foldlM handle state with
      | error error => rfl
      | ok next =>
          simp only
          cases after with
          | nil =>
              simp [cursorAfter]
          | cons first rest =>
              obtain ⟨cursor, ofPage, ofRows⟩ := @cursorAfter_take scope before
                (first :: rest) limit (List.cons_ne_nil _ _)
              have positive := limit.pos
              have later := @ih
                (before ++ (first :: rest).take limit)
                ((first :: rest).drop limit)
                (by rw [split, List.append_assoc, List.take_append_drop])
                (by simp only [List.length_drop, List.length_cons] at enough ⊢
                    omega) next
              rw [ofRows] at later
              rw [ofPage]
              exact later

/-- A loop over a scope handles each item once, in replay order. -/
theorem forAll_eq
    {S E : Type} {text : StoreText} {scope : OwnerScope} {limit : ℕ+}
    {storeError : S → TapeStoreError → E} {handle : S → ReplayItem → Except E S}
    (small : (limit : ℕ) ≤ I64.maxValue.1) (state : S) :
    forAll text table scope limit storeError handle state =
      ((table.scopeRows scope).map (decodeRow text)).foldlM handle state := by
  have bound : (table.scopeRows scope).length < table.rows.length + 1 := by
    rw [scopeRows, (Table.orderBy_perm _ _).length_eq]
    exact Nat.lt_succ_of_le (List.length_filter_le _ _)
  exact @forPages_eq table S E text scope limit storeError handle small _ []
    _ rfl bound state

/-! ## Following the cursors -/

/-- The pages that are read from a cursor by following the next one until
there is none. -/
inductive Pages (text : StoreText) (table : EnvelopeTable) (scope : OwnerScope)
    (limit : ℕ+) : Option ReplayCursor → List ReplayPage → Prop where
  | last {cursor : Option ReplayCursor} {page : ReplayPage} :
      table.readEnvelopes text scope cursor limit = .ok page →
      page.nextCursor = none → Pages text table scope limit cursor [page]
  | more {cursor : Option ReplayCursor} {page : ReplayPage}
      {next : ReplayCursor} {pages : List ReplayPage} :
      table.readEnvelopes text scope cursor limit = .ok page →
      page.nextCursor = some next →
      Pages text table scope limit (some next) pages →
      Pages text table scope limit cursor (page :: pages)

section Pages

variable {text : StoreText} {scope : OwnerScope} {limit : ℕ+}

theorem Pages.unique
    {cursor : Option ReplayCursor} {pages others : List ReplayPage}
    (first : Pages text table scope limit cursor pages)
    (second : Pages text table scope limit cursor others) : pages = others := by
  induction first generalizing others with
  | last read ended =>
      cases second with
      | last again _ =>
          rw [read] at again
          cases again
          rfl
      | more again goesOn _ =>
          rw [read] at again
          cases again
          rw [ended] at goesOn
          cases goesOn
  | more read goesOn _ ih =>
      cases second with
      | last again ended =>
          rw [read] at again
          cases again
          rw [ended] at goesOn
          cases goesOn
      | more again next later =>
          rw [read] at again
          cases again
          rw [goesOn] at next
          cases next
          rw [ih later]

theorem exists_pages
    (small : (limit : ℕ) ≤ I64.maxValue.1) {before after : List EnvelopeRow}
    (split : table.scopeRows scope = before ++ after) :
    ∃ pages, Pages text table scope limit (cursorAfter scope before) pages ∧
      pages.flatMap ReplayPage.items = after.map (decodeRow text) := by
  induction length : after.length using Nat.strong_induction_on
    generalizing before after with
  | _ count ih =>
      have page := @readEnvelopes_of_split table text scope limit small before
        after split
      cases after with
      | nil =>
          refine ⟨_, .last page ?_, ?_⟩
          · simp [cursorAfter]
          · simp
      | cons first rest =>
          obtain ⟨cursor, ofPage, ofRows⟩ := @cursorAfter_take scope before
            (first :: rest) limit (List.cons_ne_nil _ _)
          have positive := limit.pos
          obtain ⟨pages, followed, items⟩ := ih
            ((first :: rest).drop limit).length
            (by simp only [List.length_drop, List.length_cons] at length ⊢
                omega)
            (by rw [split, List.append_assoc, List.take_append_drop] :
              table.scopeRows scope = (before ++ (first :: rest).take limit) ++
                (first :: rest).drop limit) rfl
          rw [ofRows] at followed
          refine ⟨_, .more page ofPage followed, ?_⟩
          rw [List.flatMap_cons, items, ← List.map_append,
            List.take_append_drop]

/-- Following the cursors reads each row of a scope once, in replay order and
whatever the size of the pages. -/
theorem pages_scopeRows (small : (limit : ℕ) ≤ I64.maxValue.1) :
    ∃ pages, Pages text table scope limit none pages ∧
      (∀ others, Pages text table scope limit none others → others = pages) ∧
      pages.flatMap ReplayPage.items =
        (table.scopeRows scope).map (decodeRow text) ∧
      (table.scopeRows scope).Perm
        (table.rows.filter fun row => row.scope = scope) ∧
      (table.scopeRows scope).Pairwise fun left right =>
        ReplayKey.cmp left.key right.key = .lt := by
  obtain ⟨pages, followed, items⟩ := @exists_pages table text scope limit small
    [] _ rfl
  exact ⟨pages, followed, fun others other => other.unique followed, items,
    Table.orderBy_perm _ _, scopeRows_pairwise scope⟩

end Pages

end EnvelopeTable

namespace PagingSample

def text : StoreText where
  sha256Hex := fun _ => ""
  writeJson := fun _ => ""
  parseJson := fun _ => none
  toLowercase := String.toLower
  toLowercase_display := toLower_display

def scope : OwnerScope :=
  ⟨⟨"pages", by decide⟩, ⟨"pages-run", by decide⟩⟩

def row (frame : I64) : EnvelopeRow where
  scope := scope
  sourceId := "pm"
  connectionId := "1"
  key := ⟨0, 0, "", "market-source:pm", 0, frame⟩
  ingestSequence := frame
  schemaVersion := 6
  receiptTimestampMs := 0
  venueId := "polymarket"
  configHash := ""
  rawFrame := []
  rawSha256 := ""
  normalizedJson := ""
  normalizedSha256 := ""

def table : EnvelopeTable where
  rows := [row 2, row 1]
  separated := by decide +kernel

end PagingSample

theorem EnvelopeTable.pages_scopeRows_sample :
    ∃ pages, Pages PagingSample.text PagingSample.table PagingSample.scope 1
        none pages ∧
      pages.flatMap ReplayPage.items =
        [PagingSample.row 1, PagingSample.row 2].map
          (decodeRow PagingSample.text) := by
  obtain ⟨pages, followed, _, items, _⟩ := @pages_scopeRows PagingSample.table
    PagingSample.text PagingSample.scope 1 (by decide)
  have rows : PagingSample.table.scopeRows PagingSample.scope =
      [PagingSample.row 1, PagingSample.row 2] := by
    decide +kernel
  rw [rows] at items
  exact ⟨pages, followed, items⟩

/-- A page size that does not fit the limit of a query is refused. -/
theorem EnvelopeTable.pages_limitTooLarge :
    ¬ ∀ (text : StoreText) (table : EnvelopeTable) (scope : OwnerScope)
      (limit : ℕ+), ∃ pages, Pages text table scope limit none pages := by
  intro claimed
  obtain ⟨pages, followed⟩ := claimed PagingSample.text PagingSample.table
    PagingSample.scope ⟨9223372036854775808, by decide⟩
  have refused : PagingSample.table.readEnvelopes PagingSample.text
      PagingSample.scope none ⟨9223372036854775808, by decide⟩ =
        .error .limitTooLarge := by
    rfl
  cases followed with
  | last read _ =>
      rw [refused] at read
      cases read
  | more read _ _ =>
      rw [refused] at read
      cases read

end Pmkit
