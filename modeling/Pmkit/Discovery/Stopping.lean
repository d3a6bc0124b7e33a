import Pmkit.Discovery.Paging

/-!
# Servers that repeat themselves

The digests are looked up for pages of exactly the requested size only.  A
server that answers with more records than were asked for can repeat a page
without being noticed.
-/

namespace Pmkit

/-- The page that a call is answered with, while the loop goes on. -/
def servedAt (text : DigestText) (pageSize shardSize : Nat) (fetch : Fetch)
    (call : Nat) : Option (List GammaMarket) :=
  if pageSize = 0 ∨ shardSize = 0 then
    none
  else
    match pagingAfter text pageSize (receivePage pageSize fetch) call with
    | .returns _ => none
    | .goesOn state =>
        (fetch call { limit := pageSize, offset := state.offset }).toOption

/-- A discovery returns after at most one more request than there are pages,
and a full page that is served again is reported. -/
structure Stops (text : DigestText) (pageSize shardSize : Nat) (fetch : Fetch)
    (pages : Finset (List GammaMarket)) : Prop where
  returns : ∃ result, discoverSubscriptionSnapshot text pageSize shardSize
    fetch (pages.card + 1) = some result
  reports : ∀ first second page, first < second →
    servedAt text pageSize shardSize fetch first = some page →
    servedAt text pageSize shardSize fetch second = some page →
    pageSize ≤ page.length →
    ∃ offset, discoverSubscriptionSnapshot text pageSize shardSize fetch
      (second + 1) = some (.error (.repeatedPage offset))

/-- No valid page of more records than were asked for is received twice. -/
def NoLongPageTwice (text : DigestText) (pageSize : Nat) (fetch : Fetch) :
    Prop :=
  ∀ pages page, Received (receivePage pageSize fetch) (pages ++ [page]) →
    Continues text pageSize pages → pageSize < page.length → page ∉ pages

section Stopping

variable {text : DigestText} {pageSize shardSize : Nat} {fetch : Fetch}
  {pages : List (List GammaMarket)} {page : List GammaMarket}

theorem mem_exactDigests (mem : page ∈ pages)
    (exact : page.length = pageSize) :
    pageDigest text page ∈ exactDigests text pageSize pages :=
  List.mem_map.mpr
    ⟨page, List.mem_filter.mpr ⟨mem, decide_eq_true exact⟩, rfl⟩

/-- The pages after which the loop goes on are different ones. -/
theorem nodup_of_continues (once : NoLongPageTwice text pageSize fetch)
    (received : Received (receivePage pageSize fetch) pages)
    (continues : Continues text pageSize pages) : pages.Nodup := by
  induction received with
  | nil => exact List.nodup_nil
  | snoc received found ih =>
      rename_i before last
      obtain ⟨earlier, full, unknown, _⟩ := continues_append.mp continues
      refine List.nodup_append.mpr
        ⟨ih earlier, List.nodup_singleton _, ?_⟩
      rintro other mem _ isLast rfl
      rw [List.mem_singleton.mp isLast] at mem
      by_cases exact : last.length = pageSize
      · exact unknown ⟨exact, mem_exactDigests mem exact⟩
      · exact once before last (received.snoc found) earlier (by omega) mem

theorem servedAt_eq_some {call : Nat} :
    servedAt text pageSize shardSize fetch call = some page ↔
      (pageSize ≠ 0 ∧ shardSize ≠ 0) ∧
      ∃ pages, pages.length = call ∧
        Received (receivePage pageSize fetch) pages ∧
        Continues text pageSize pages ∧
        fetch call { limit := pageSize, offset := pages.flatten.length } =
          .ok page := by
  unfold servedAt
  by_cases sizes : pageSize = 0 ∨ shardSize = 0
  · rw [if_pos sizes]
    simp only [reduceCtorEq, false_iff, not_and]
    intro positive
    exact absurd sizes (not_or.mpr positive)
  · rw [if_neg sizes]
    constructor
    · intro served
      split at served
      · cases served
      · rename_i state goesOn
        obtain ⟨pages, count, received, continues, rfl⟩ :=
          pagingAfter_eq_goesOn.mp goesOn
        refine ⟨not_or.mp sizes, pages, count, received, continues, ?_⟩
        cases answer : fetch call
            { limit := pageSize, offset := pages.flatten.length } with
        | error error =>
            simp only [PagingState.of, answer] at served
            cases served
        | ok fetched =>
            simp only [PagingState.of, answer] at served
            cases served
            rfl
    · rintro ⟨_, pages, count, received, continues, answer⟩
      rw [pagingAfter_eq_goesOn.mpr ⟨pages, count, received, continues, rfl⟩]
      simp only [PagingState.of, answer]
      rfl

/-- A page that is served before a later one is among those received before
it. -/
theorem mem_of_served {first : Nat}
    (received : Received (receivePage pageSize fetch) pages)
    (before : first < pages.length)
    (served : servedAt text pageSize shardSize fetch first = some page) :
    page ∈ pages := by
  obtain ⟨_, earlier, count, earlierReceived, _, answer⟩ :=
    servedAt_eq_some.mp served
  have split : pages = pages.take first ++
      pages[first] :: pages.drop (first + 1) := by
    rw [List.getElem_cons_drop, List.take_append_drop]
  rw [split] at received
  obtain ⟨prefixReceived, found⟩ := received.split
  have taken : (pages.take first).length = first := by
    rw [List.length_take]
    omega
  have same := earlierReceived.unique prefixReceived (by omega)
  rw [← same, count] at found
  have fetched := (receivePage_eq_ok.mp found).1
  rw [answer] at fetched
  cases fetched
  exact List.getElem_mem before

theorem not_repeatedPage_of_long {offset : Nat}
    (long : pageSize < page.length) :
    ((PagingState.of text pageSize pages).takePage text pageSize
      page).publish text shardSize ≠ some (.error (.repeatedPage offset)) := by
  unfold PagingState.takePage
  have exact : page.length ≠ pageSize := by omega
  have full : ¬page.length < pageSize := by omega
  simp only [exact, decide_false, Bool.false_and, Bool.false_eq_true, if_false,
    full]
  split <;> simp [Turn.publish]

/-- One more request, answered with a valid page. -/
theorem discover_received (positive : ¬(pageSize = 0 ∨ shardSize = 0))
    (received : Received (receivePage pageSize fetch) (pages ++ [page]))
    (continues : Continues text pageSize pages) :
    discoverSubscriptionSnapshot text pageSize shardSize fetch
        (pages.length + 1) =
      ((PagingState.of text pageSize pages).takePage text pageSize
        page).publish text shardSize := by
  obtain ⟨before, found⟩ := received.split
  unfold discoverSubscriptionSnapshot
  rw [if_neg positive, pagingAfter,
    pagingAfter_eq_goesOn.mpr ⟨pages, rfl, before, continues, rfl⟩]
  simp only [PagingState.of] at found ⊢
  rw [found]

theorem repeatedPage_of_exact
    (mem : page ∈ pages) (exact : page.length = pageSize) :
    ((PagingState.of text pageSize pages).takePage text pageSize
      page).publish text shardSize =
        some (.error (.repeatedPage pages.flatten.length)) := by
  unfold PagingState.takePage PagingState.of
  simp only [exact, decide_true, Bool.true_and, List.contains_iff_mem,
    mem_exactDigests mem exact, if_true, Turn.publish]

/-- A valid page is served at its own place. -/
theorem servedAt_received {after : List (List GammaMarket)}
    (positive : ¬(pageSize = 0 ∨ shardSize = 0))
    (received : Received (receivePage pageSize fetch) (pages ++ page :: after))
    (continues : Continues text pageSize pages) :
    servedAt text pageSize shardSize fetch pages.length = some page := by
  obtain ⟨before, found⟩ := received.split
  exact servedAt_eq_some.mpr ⟨not_or.mp positive, pages, rfl, before,
    continues, (receivePage_eq_ok.mp found).1⟩

/-- A discovery stops on a finite set of pages just when none of them that is
longer than it was asked for comes twice. -/
theorem discovery_stops_iff
    (text : DigestText) (pageSize shardSize : Nat) (fetch : Fetch)
    (known : Finset (List GammaMarket))
    (answers : ∀ call request page,
      fetch call request = .ok page → page ∈ known) :
    Stops text pageSize shardSize fetch known ↔
      pageSize = 0 ∨ shardSize = 0 ∨ NoLongPageTwice text pageSize fetch := by
  rw [← or_assoc]
  by_cases zero : pageSize = 0 ∨ shardSize = 0
  · refine ⟨fun _ => .inl zero, fun _ => ⟨⟨_, if_pos zero⟩, ?_⟩⟩
    intro first _ _ _ served
    exact absurd (servedAt_eq_some.mp served).1 (by tauto)
  rw [or_iff_right zero]
  constructor
  · intro stops pages page received continues long member
    obtain ⟨before, after, rfl⟩ := List.append_of_mem member
    have first : servedAt text pageSize shardSize fetch before.length =
        some page := by
      rw [List.append_assoc, List.cons_append] at received
      exact servedAt_received zero received continues.of_prefix
    have second := servedAt_received zero received continues
    obtain ⟨offset, reported⟩ := stops.reports _ _ page
      (by simp) first second (by omega)
    rw [discover_received zero received continues] at reported
    exact not_repeatedPage_of_long long reported
  · intro once
    constructor
    · -- pages that let the loop go on are different, so they run out
      by_contra none
      simp only [← Option.ne_none_iff_exists', not_not] at none
      unfold discoverSubscriptionSnapshot at none
      rw [if_neg zero] at none
      obtain ⟨state, goesOn⟩ := publish_eq_none.mp none
      obtain ⟨pages, count, received, continues, _⟩ :=
        pagingAfter_eq_goesOn.mp goesOn
      have distinct := nodup_of_continues once received continues
      have inside : pages.toFinset ⊆ known := by
        intro page member
        obtain ⟨before, after, rfl⟩ :=
          List.append_of_mem (List.mem_toFinset.mp member)
        have fetched := (receivePage_eq_ok.mp received.split.2).1
        exact answers _ _ page fetched
      have few := Finset.card_le_card inside
      rw [List.toFinset_card_of_nodup distinct] at few
      omega
    · intro first second page order served again full
      obtain ⟨_, pages, rfl, received, continues, answer⟩ :=
        servedAt_eq_some.mp again
      have member := mem_of_served received order served
      have valid : validatePage page = .ok () := by
        obtain ⟨before, after, rfl⟩ := List.append_of_mem member
        exact (receivePage_eq_ok.mp received.split.2).2
      have more := received.snoc (receivePage_eq_ok.mpr ⟨answer, valid⟩)
      have exact : page.length = pageSize := by
        by_contra longer
        exact once pages page more continues (by omega) member
      refine ⟨pages.flatten.length, ?_⟩
      rw [discover_received zero more continues]
      exact repeatedPage_of_exact member exact

end Stopping

section Samples

open DiscoverySample

/-- A server that repeats a full page. -/
theorem discovery_stops_full :
    Stops text 1 1 (fun _ _ => .ok [market 0]) {[market 0]} := by
  refine (discovery_stops_iff text 1 1 _ _ ?_).mpr (.inr (.inr ?_))
  · intro call request page answer
    cases answer
    exact Finset.mem_singleton_self _
  · intro pages page received continues long
    have answer := (receivePage_eq_ok.mp received.split.2).1
    cases answer
    exact absurd long (by decide)

/-- A server that ignores the limit repeats two markets for every request of
one. -/
theorem discovery_not_stops :
    ¬Stops text 1 1 (fun _ _ => .ok [market 0, market 1])
      {[market 0, market 1]} := by
  intro stops
  obtain ⟨result, returned⟩ := stops.returns
  have unfinished : discoverSubscriptionSnapshot text 1 1
      (fun _ _ => .ok [market 0, market 1]) 2 = none := by
    rfl
  rw [Finset.card_singleton, unfinished] at returned
  cases returned

end Samples

end Pmkit
