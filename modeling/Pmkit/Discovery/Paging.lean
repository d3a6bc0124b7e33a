import Mathlib.Algebra.Order.BigOperators.Group.List
import Mathlib.Data.Finset.Card
import Pmkit.Discovery.Snapshot
import Pmkit.Library.JsonText

/-!
# Pages of a discovery

Discovery asks for one page after the other, at the offset that the pages so
far add up to, until a page is short.  A page of exactly the requested size is
remembered by its digest, and the same one is not taken twice.
-/

namespace Pmkit

open MachineInt

structure GammaPageRequest where
  limit : Nat
  offset : Nat

/-- What is fetched by each call for its request. -/
abbrev Fetch : Type :=
  Nat → GammaPageRequest → Except DiscoveryError (List GammaMarket)

/-- `usize::MAX`. -/
def usizeMax : Nat := 18446744073709551615

structure PagingState where
  offset : Nat
  fingerprints : List String
  markets : List GammaMarket

/-- What one round of the loop comes to. -/
inductive Turn where
  | returns (result : Except DiscoveryError (List GammaMarket))
  | goesOn (state : PagingState)

/-- `validate_page`. -/
def validatePage (page : List GammaMarket) : Except DiscoveryError Unit :=
  page.forM fun market =>
    if isBlank market.marketId || isBlank market.conditionId ||
        market.openTimeMs > market.closeTimeMs || market.outcomes.isEmpty then
      .error (.malformedPage "market identity or window is invalid")
    else
      .ok ()

namespace PagingState

def start : PagingState where
  offset := 0
  fingerprints := []
  markets := []

/-- The rest of a round, once a page is received. -/
def takePage (text : DigestText) (pageSize : Nat) (state : PagingState)
    (page : List GammaMarket) : Turn :=
  if page.length = pageSize &&
      state.fingerprints.contains (pageDigest text page) then
    .returns (.error (.repeatedPage state.offset))
  else if page.length < pageSize then
    .returns (.ok (state.markets ++ page))
  else if usizeMax < state.offset + page.length then
    .returns (.error (.offsetOverflow state.offset))
  else
    .goesOn {
      offset := state.offset + page.length
      fingerprints :=
        if page.length = pageSize then
          state.fingerprints ++ [pageDigest text page]
        else
          state.fingerprints
      markets := state.markets ++ page }

end PagingState

/-- How a page is received: by its call, at an offset. -/
abbrev Receive : Type := Nat → Nat → Except DiscoveryError (List GammaMarket)

def pagingAfter (text : DigestText) (pageSize : Nat) (receive : Receive) :
    Nat → Turn
  | 0 => .goesOn .start
  | requests + 1 =>
      match pagingAfter text pageSize receive requests with
      | .returns result => .returns result
      | .goesOn state =>
          match receive requests state.offset with
          | .error error => .returns (.error error)
          | .ok page => state.takePage text pageSize page

/-- The end of a discovery; nothing while the loop goes on. -/
def Turn.publish (text : DigestText) (shardSize : Nat) :
    Turn → Option (Except DiscoveryError DiscoverySnapshot)
  | .goesOn _ => none
  | .returns (.error error) => some (.error error)
  | .returns (.ok markets) => some (normalizeSnapshot text markets shardSize)

/-- A page of `discover_subscription_snapshot`: fetched and validated. -/
def receivePage (pageSize : Nat) (fetch : Fetch) : Receive :=
  fun call offset =>
    match fetch call { limit := pageSize, offset } with
    | .error error =>
        .error (if offset = 0 then error else .incompletePagination offset)
    | .ok page => (validatePage page).map fun _ => page

/-- `discover_subscription_snapshot`, followed for a number of requests. -/
def discoverSubscriptionSnapshot (text : DigestText) (pageSize shardSize : Nat)
    (fetch : Fetch) (requests : Nat) :
    Option (Except DiscoveryError DiscoverySnapshot) :=
  if pageSize = 0 ∨ shardSize = 0 then
    some (.error (.malformedPage "page and shard sizes must be positive"))
  else
    (pagingAfter text pageSize (receivePage pageSize fetch) requests).publish
      text shardSize

/-! ## Runs of the loop -/

/-- Pages that are received one after the other, each at the offset that the
pages before it add up to. -/
inductive Received (receive : Receive) : List (List GammaMarket) → Prop
  | nil : Received receive []
  | snoc {pages : List (List GammaMarket)} {page : List GammaMarket} :
      Received receive pages →
      receive pages.length pages.flatten.length = .ok page →
      Received receive (pages ++ [page])

def exactDigests (text : DigestText) (pageSize : Nat)
    (pages : List (List GammaMarket)) : List String :=
  (pages.filter fun page => page.length = pageSize).map (pageDigest text)

structure Continues (text : DigestText) (pageSize : Nat)
    (pages : List (List GammaMarket)) : Prop where
  full : ∀ page ∈ pages, pageSize ≤ page.length
  apart : (exactDigests text pageSize pages).Nodup
  fits : pages.flatten.length ≤ usizeMax

def PagingState.of (text : DigestText) (pageSize : Nat)
    (pages : List (List GammaMarket)) : PagingState where
  offset := pages.flatten.length
  fingerprints := exactDigests text pageSize pages
  markets := pages.flatten

section Run

variable {text : DigestText} {pageSize : Nat} {receive : Receive}
  {pages others : List (List GammaMarket)} {page : List GammaMarket}
  {requests : Nat} {state : PagingState}

theorem exactDigests_append :
    exactDigests text pageSize (pages ++ [page]) =
      exactDigests text pageSize pages ++
        if page.length = pageSize then [pageDigest text page] else [] := by
  unfold exactDigests
  rw [List.filter_append, List.map_append]
  by_cases exact : page.length = pageSize <;> simp [exact]

theorem continues_append :
    Continues text pageSize (pages ++ [page]) ↔
      Continues text pageSize pages ∧ pageSize ≤ page.length ∧
        ¬(page.length = pageSize ∧
          pageDigest text page ∈ exactDigests text pageSize pages) ∧
        pages.flatten.length + page.length ≤ usizeMax := by
  have total : (pages ++ [page]).flatten.length =
      pages.flatten.length + page.length := by simp
  constructor
  · rintro ⟨full, apart, fits⟩
    rw [exactDigests_append] at apart
    rw [total] at fits
    refine ⟨⟨fun earlier mem => full earlier (List.mem_append_left _ mem),
      apart.of_append_left, by omega⟩, full page (by simp), ?_, fits⟩
    rintro ⟨exact, known⟩
    rw [if_pos exact] at apart
    exact (List.nodup_append.mp apart).2.2 _ known _
      List.mem_cons_self rfl
  · rintro ⟨before, full, unknown, fits⟩
    refine ⟨?_, ?_, total ▸ fits⟩
    · intro earlier mem
      rcases List.mem_append.mp mem with inside | last
      · exact before.full earlier inside
      · rw [List.mem_singleton.mp last]
        exact full
    · rw [exactDigests_append]
      by_cases exact : page.length = pageSize
      · rw [if_pos exact]
        refine List.nodup_append.mpr ⟨before.apart, by simp, ?_⟩
        rintro digest known _ mem rfl
        rw [List.mem_singleton.mp mem] at known
        exact unknown ⟨exact, known⟩
      · rw [if_neg exact, List.append_nil]
        exact before.apart

theorem of_append :
    PagingState.of text pageSize (pages ++ [page]) = {
      offset := pages.flatten.length + page.length
      fingerprints :=
        if page.length = pageSize then
          exactDigests text pageSize pages ++ [pageDigest text page]
        else
          exactDigests text pageSize pages
      markets := pages.flatten ++ page } := by
  unfold PagingState.of
  rw [exactDigests_append]
  by_cases exact : page.length = pageSize <;> simp [exact]

/-- A round goes on when the page is full, is not known, and leaves a next
offset. -/
theorem takePage_eq_goesOn {next : PagingState}
    (before : Continues text pageSize pages) :
    (PagingState.of text pageSize pages).takePage text pageSize page =
        .goesOn next ↔
      Continues text pageSize (pages ++ [page]) ∧
        next = .of text pageSize (pages ++ [page]) := by
  rw [continues_append, of_append]
  unfold PagingState.takePage PagingState.of
  simp only [List.contains_iff_mem, Bool.and_eq_true, decide_eq_true_eq]
  by_cases known : page.length = pageSize ∧
      pageDigest text page ∈ exactDigests text pageSize pages
  · simp [known]
  by_cases short : page.length < pageSize
  · simp [known, short]
  by_cases beyond : usizeMax < pages.flatten.length + page.length
  · rw [if_neg known, if_neg short, if_pos beyond]
    constructor
    · intro no
      cases no
    · rintro ⟨⟨_, _, _, fits⟩, _⟩
      omega
  · rw [if_neg known, if_neg short, if_neg beyond]
    constructor
    · intro same
      cases same
      exact ⟨⟨before, by omega, known, by omega⟩, rfl⟩
    · rintro ⟨_, rfl⟩
      rfl

variable {markets : List GammaMarket}

theorem takePage_eq_ok :
    (PagingState.of text pageSize pages).takePage text pageSize page =
        .returns (.ok markets) ↔
      page.length < pageSize ∧ (pages ++ [page]).flatten = markets := by
  rw [List.flatten_append, List.flatten_singleton]
  unfold PagingState.takePage PagingState.of
  simp only [List.contains_iff_mem, Bool.and_eq_true, decide_eq_true_eq]
  by_cases known : page.length = pageSize ∧
      pageDigest text page ∈ exactDigests text pageSize pages
  · simp [known]
  by_cases short : page.length < pageSize
  · rw [if_neg known, if_pos short]
    simp [short]
  by_cases beyond : usizeMax < pages.flatten.length + page.length
  · rw [if_neg known, if_neg short, if_pos beyond]
    simp [short]
  · rw [if_neg known, if_neg short, if_neg beyond]
    simp [short]

theorem continues_nil : Continues text pageSize [] where
  full _ member := absurd member List.not_mem_nil
  apart := List.nodup_nil
  fits := Nat.zero_le _

/-- The loop goes on after a number of requests when so many pages were
received that let it go on. -/
theorem pagingAfter_eq_goesOn :
    pagingAfter text pageSize receive requests = .goesOn state ↔
      ∃ pages, pages.length = requests ∧ Received receive pages ∧
        Continues text pageSize pages ∧
        state = .of text pageSize pages := by
  induction requests generalizing state with
  | zero =>
      constructor
      · intro same
        cases same
        exact ⟨[], rfl, .nil, continues_nil, rfl⟩
      · rintro ⟨pages, none, _, _, rfl⟩
        rw [List.length_eq_zero_iff.mp none]
        rfl
  | succ requests ih =>
      rw [pagingAfter]
      constructor
      · intro goesOn
        split at goesOn
        · cases goesOn
        · rename_i earlier before
          obtain ⟨pages, rfl, received, continues, rfl⟩ :=
            ih.mp before
          split at goesOn
          · cases goesOn
          · rename_i page found
            obtain ⟨more, rfl⟩ := (takePage_eq_goesOn continues).mp goesOn
            exact ⟨pages ++ [page], by simp, received.snoc found, more, rfl⟩
      · rintro ⟨pages, count, received, continues, rfl⟩
        cases received with
        | nil => cases count
        | snoc received found =>
            rename_i before page
            have before_continues := (continues_append.mp continues).1
            have length : before.length = requests := by
              simpa using count
            subst length
            rw [ih.mpr ⟨before, rfl, received, before_continues, rfl⟩]
            simp only [PagingState.of] at found ⊢
            rw [found]
            exact (takePage_eq_goesOn before_continues).mpr ⟨continues, rfl⟩

/-- The loop returns markets when full pages are followed by a short one. -/
theorem pagingAfter_eq_ok :
    pagingAfter text pageSize receive requests = .returns (.ok markets) ↔
      ∃ pages page, pages.length < requests ∧
        Received receive (pages ++ [page]) ∧
        Continues text pageSize pages ∧ page.length < pageSize ∧
        (pages ++ [page]).flatten = markets := by
  induction requests with
  | zero => simp [pagingAfter]
  | succ requests ih =>
      rw [pagingAfter]
      constructor
      · intro returned
        split at returned
        · rename_i result earlier
          cases returned
          obtain ⟨pages, page, count, rest⟩ :=
            ih.mp earlier
          exact ⟨pages, page, by omega, rest⟩
        · rename_i earlier before
          obtain ⟨pages, rfl, received, continues, rfl⟩ :=
            pagingAfter_eq_goesOn.mp before
          split at returned
          · cases returned
          · rename_i page found
            obtain ⟨short, same⟩ := takePage_eq_ok.mp returned
            exact ⟨pages, page, by omega, received.snoc found, continues,
              short, same⟩
      · rintro ⟨pages, page, count, received, continues, short, same⟩
        by_cases last : pages.length < requests
        · rw [ih.mpr ⟨pages, page, last, received, continues, short, same⟩]
        · have length : pages.length = requests := by omega
          subst length
          generalize whole : pages ++ [page] = all at received
          cases received with
          | nil => simp at whole
          | snoc received found =>
              obtain ⟨rfl, rest⟩ := List.append_inj' whole rfl
              cases rest
              rw [pagingAfter_eq_goesOn.mpr
                ⟨pages, rfl, received, continues, rfl⟩]
              simp only [PagingState.of] at found ⊢
              rw [found]
              exact takePage_eq_ok.mpr ⟨short, same⟩

/-- The pages received are determined by their number. -/
theorem Received.unique (received : Received receive pages)
    (otherReceived : Received receive others)
    (count : pages.length = others.length) : pages = others := by
  induction received generalizing others with
  | nil =>
      exact (List.length_eq_zero_iff.mp count.symm).symm
  | snoc received found ih =>
      cases otherReceived with
      | nil => simp at count
      | snoc otherReceived otherFound =>
          have same := ih otherReceived (by simpa using count)
          subst same
          rw [found] at otherFound
          cases otherFound
          rfl

/-- A loop that has returned stays as it is. -/
theorem pagingAfter_returns {result : Except DiscoveryError (List GammaMarket)}
    (returned : pagingAfter text pageSize receive requests = .returns result)
    {later : Nat} (after : requests ≤ later) :
    pagingAfter text pageSize receive later = .returns result := by
  induction after with
  | refl => exact returned
  | step _ ih =>
      rw [pagingAfter, ih]

theorem Received.split {before after : List (List GammaMarket)}
    (received : Received receive (before ++ page :: after)) :
    Received receive before ∧
      receive before.length before.flatten.length = .ok page := by
  generalize whole : before ++ page :: after = all at received
  induction received generalizing after with
  | nil => simp at whole
  | snoc received found ih =>
      rcases List.eq_nil_or_concat after with rfl | ⟨others, last, rfl⟩
      · obtain ⟨rfl, rest⟩ := List.append_inj' whole rfl
        cases rest
        exact ⟨received, found⟩
      · rw [List.concat_eq_append, ← List.cons_append, ← List.append_assoc]
          at whole
        exact ih (List.append_inj' whole rfl).1

/-- Pages are received in another way when each of them is. -/
theorem Received.mono {other : Receive} (received : Received receive pages)
    (each : ∀ before page after, pages = before ++ page :: after →
      receive before.length before.flatten.length = .ok page →
      other before.length before.flatten.length = .ok page) :
    Received other pages := by
  induction received with
  | nil => exact .nil
  | snoc _ found ih =>
      refine .snoc (ih ?_) (each _ _ [] rfl found)
      intro before page after whole
      apply each before page (after ++ [_])
      rw [whole, List.append_assoc, List.cons_append]

theorem Continues.of_prefix
    (continues : Continues text pageSize (pages ++ others)) :
    Continues text pageSize pages where
  full earlier member :=
    continues.full earlier (List.mem_append_left _ member)
  apart := by
    have apart := continues.apart
    unfold exactDigests at apart
    rw [List.filter_append, List.map_append] at apart
    exact apart.of_append_left
  fits := by
    have fits := continues.fits
    simp only [List.flatten_append, List.length_append] at fits
    omega

/-- Full pages hold at least a page size of markets each. -/
theorem Continues.length_mul_le (continues : Continues text pageSize pages) :
    pages.length * pageSize ≤ pages.flatten.length := by
  rw [List.length_flatten]
  have each : ∀ count ∈ pages.map List.length, pageSize ≤ count := by
    intro count mem
    obtain ⟨page, inside, rfl⟩ := List.mem_map.mp mem
    exact continues.full page inside
  have sum := List.card_nsmul_le_sum _ _ each
  simpa using sum

end Run

section Fetched

variable {pageSize : Nat} {fetch : Fetch} {page : List GammaMarket}

theorem receivePage_eq_ok {call offset : Nat} :
    receivePage pageSize fetch call offset = .ok page ↔
      fetch call { limit := pageSize, offset } = .ok page ∧
        validatePage page = .ok () := by
  unfold receivePage
  cases fetch call { limit := pageSize, offset } with
  | error error => simp
  | ok fetched =>
      simp only [Except.ok.injEq]
      constructor
      · intro mapped
        obtain ⟨_, valid, rfl⟩ := Fallible.map_eq_ok.mp mapped
        exact ⟨rfl, valid⟩
      · rintro ⟨rfl, valid⟩
        rw [valid]
        rfl

end Fetched

section Discovered

variable {text : DigestText} {pageSize shardSize requests : Nat} {fetch : Fetch}

theorem publish_eq_some_ok {turn : Turn} {snapshot : DiscoverySnapshot} :
    turn.publish text shardSize = some (.ok snapshot) ↔
      ∃ markets, turn = .returns (.ok markets) ∧
        normalizeSnapshot text markets shardSize = .ok snapshot := by
  cases turn with
  | goesOn state => simp [Turn.publish]
  | returns result => cases result <;> simp [Turn.publish]

theorem publish_eq_none {turn : Turn} :
    turn.publish text shardSize = none ↔ ∃ state, turn = .goesOn state := by
  cases turn with
  | goesOn state => simp [Turn.publish]
  | returns result => cases result <;> simp [Turn.publish]

theorem publish_stays {receive : Receive} {later : Nat}
    {result : Except DiscoveryError DiscoverySnapshot}
    (returned : (pagingAfter text pageSize receive requests).publish text
      shardSize = some result) (after : requests ≤ later) :
    (pagingAfter text pageSize receive later).publish text shardSize =
      some result := by
  cases turn : pagingAfter text pageSize receive requests with
  | goesOn state =>
      rw [turn] at returned
      cases returned
  | returns whole =>
      rw [turn] at returned
      rw [pagingAfter_returns turn after]
      exact returned

end Discovered

namespace DiscoverySample

def market (index : Nat) : GammaMarket where
  marketId := "m" ++ Nat.repr index
  conditionId := "c" ++ Nat.repr index
  openTimeMs := I64.clamp (index * 300000)
  closeTimeMs := I64.clamp ((index + 1) * 300000)
  active := true
  family := some { seriesId := "btc", asset := none, duration := none }
  outcomes := [{ outcomeId := "Up", tokenId := "u" ++ Nat.repr index }]

/-- Compact texts with the fields in their own order. -/
def toVec (value : JsonValue) : List UInt8 :=
  (JsonValue.compact (fun _ => "0.0") id value).toUTF8.toList

/-- The hash of a page with one market, and of a page with both. -/
def text : DigestText where
  toVec
  sha256Hex bytes :=
    if bytes = toVec (.array [(market 0).json]) then
      "c5c2a3e10f9d5896be97753982664fd3d625fdb2d70621025a3c6e1e7fa67851"
    else if bytes = toVec (.array [(market 1).json]) then
      "79dea9029fae499d4989d90b496aad609d31ea0493a77a13a83adaaa366d6111"
    else if bytes = toVec (.array [(market 0).json, (market 1).json]) then
      "2e74d1be643e708b5eea92fcbcfb8cf57e44e02859e5fa190cf2f2f28ed4cc00"
    else
      ""

end DiscoverySample

end Pmkit
