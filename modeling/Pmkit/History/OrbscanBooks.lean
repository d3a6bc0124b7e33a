import Pmkit.History.Orbscan
import Pmkit.Library.StreamMerge

/-!
# The books of one token

What a token replay sends is the book behind the changes before the start, and
then the book behind each change.  Its levels are sound, and its updates follow
each other in time.
-/

namespace Pmkit

open MachineInt StreamMerge

/-! ## Sound books -/

/-- Prices between zero and one, with positive sizes. -/
def PriceLevels.Sound (levels : PriceLevels) : Prop :=
  ∀ level ∈ levels.entries, 0 ≤ level.1 ∧ level.1 ≤ 1 ∧ 0 < level.2

structure BookLevels.Sound (book : BookLevels) : Prop where
  bids : book.bids.Sound
  asks : book.asks.Sound

theorem PriceLevels.Sound.change
    {levels : PriceLevels} (sound : levels.Sound) {price size : Decimal}
    (low : 0 ≤ price) (high : price ≤ 1) (positive : 0 < size) :
    PriceLevels.Sound (levels.change price size fun _ => size) := by
  intro level mem
  rcases SortedMap.of_mem_changeIn mem with old | ⟨_, rfl⟩
  · exact sound level old
  · exact ⟨low, high, positive⟩

theorem PriceLevels.Sound.put
    {levels : PriceLevels} (sound : levels.Sound) {price size : Decimal}
    (low : 0 ≤ price) (high : price ≤ 1) (allowed : 0 ≤ size) :
    (levels.put price size).Sound := by
  unfold PriceLevels.put
  split
  · intro level mem
    exact sound level (List.mem_of_mem_filter mem)
  · rename_i filled
    exact sound.change low high (lt_of_le_of_ne allowed (Ne.symm filled))

section Client

variable {client : OrbscanClient}

theorem present_eq_ok {A : Type} {value : Option A} {message : String}
    {found : A} :
    present value message = .ok found ↔ value = some found := by
  cases value with
  | none => simp [present]
  | some value => simp [present]

theorem parseLevels_sound
    {levels : List (String × String)} {parsed : PriceLevels}
    (read : parseLevels client levels = .ok parsed) : parsed.Sound := by
  refine Fallible.foldlM_keeps ?_ (fun level mem => by cases mem) read
  intro before sound level _ next handled
  unfold parseLevel at handled
  obtain ⟨price, _, rest⟩ := Fallible.bind_eq_ok.mp handled
  obtain ⟨size, _, rest⟩ := Fallible.bind_eq_ok.mp rest
  split at rest
  · cases rest
  · rename_i allowed
    cases rest
    simp only [not_or, not_lt, not_le] at allowed
    exact sound.change allowed.1 allowed.2.1 allowed.2.2.1

variable {event : OrbscanEvent} {book : BookLevels}
  {changes : List OrbscanEvent}

theorem BookLevels.fromSnapshot_sound
    (read : fromSnapshot client event = .ok book) : book.Sound := by
  unfold fromSnapshot at read
  obtain ⟨_, _, rest⟩ := Fallible.bind_eq_ok.mp read
  obtain ⟨bids, bidsRead, rest⟩ := Fallible.bind_eq_ok.mp rest
  obtain ⟨_, _, rest⟩ := Fallible.bind_eq_ok.mp rest
  obtain ⟨asks, asksRead, rest⟩ := Fallible.bind_eq_ok.mp rest
  cases rest
  exact ⟨parseLevels_sound bidsRead, parseLevels_sound asksRead⟩

theorem validateDelta_eq_ok (valid : validateDelta client event = .ok ()) :
    ∃ rawPrice price rawSize size, event.price = some rawPrice ∧
      client.fromStrExact rawPrice = some price ∧
      event.sizeAfter = some rawSize ∧
      client.fromStrExact rawSize = some size ∧
      0 ≤ price ∧ price ≤ 1 ∧ 0 ≤ size := by
  unfold validateDelta at valid
  split at valid
  · cases valid
  · obtain ⟨_, _, rest⟩ := Fallible.bind_eq_ok.mp valid
    split at rest
    · cases rest
    · obtain ⟨rawPrice, priceGiven, rest⟩ := Fallible.bind_eq_ok.mp rest
      obtain ⟨price, priceRead, rest⟩ := Fallible.bind_eq_ok.mp rest
      obtain ⟨rawSize, sizeGiven, rest⟩ := Fallible.bind_eq_ok.mp rest
      obtain ⟨size, sizeRead, rest⟩ := Fallible.bind_eq_ok.mp rest
      split at rest
      · cases rest
      · rename_i allowed
        simp only [not_or, not_lt] at allowed
        exact ⟨rawPrice, price, rawSize, size, present_eq_ok.mp priceGiven,
          present_eq_ok.mp priceRead, present_eq_ok.mp sizeGiven,
          present_eq_ok.mp sizeRead, allowed.1, allowed.2.1, allowed.2.2⟩

theorem BookLevels.Sound.apply {next : BookLevels} (sound : book.Sound)
    (applied : book.apply client event = .ok next) : next.Sound := by
  unfold BookLevels.apply at applied
  obtain ⟨_, valid, rest⟩ := Fallible.bind_eq_ok.mp applied
  obtain ⟨rawPrice, price, rawSize, size, priceGiven, priceRead, sizeGiven,
    sizeRead, low, high, allowed⟩ := validateDelta_eq_ok valid
  simp only [priceGiven, sizeGiven, present, parseDecimal, priceRead, sizeRead,
    bind, Except.bind] at rest
  split at rest
  · cases rest
    exact ⟨sound.bids.put low high allowed, sound.asks⟩
  · cases rest
    exact ⟨sound.bids, sound.asks.put low high allowed⟩
  · cases rest

/-- The price changes on the pages from a cursor on, up to a page without a
next one. -/
inductive ServedChanges (client : OrbscanClient) (token : MappedOutcome)
    (toMs : I64) : Option String → List OrbscanEvent → Prop
  | last {cursor : Option String} {items : List OrbscanEvent}
      (answered : client.eventPage
        (TokenReplay.changesRequest token toMs cursor) = .ok ⟨items, none⟩) :
      ServedChanges client token toMs cursor items
  | page {cursor : Option String} {next : String}
      {items rest : List OrbscanEvent}
      (answered : client.eventPage
        (TokenReplay.changesRequest token toMs cursor) =
          .ok ⟨items, some next⟩)
      (later : ServedChanges client token toMs (some next) rest) :
      ServedChanges client token toMs cursor (items ++ rest)

def booksBehind (client : OrbscanClient) (book : BookLevels) :
    List OrbscanEvent → Except OrbscanError (List (I64 × BookLevels))
  | [] => .ok []
  | event :: rest => do
      let next ← book.apply client event
      let later ← booksBehind client next rest
      .ok ((event.timestamp, next) :: later)

/-- The updates of a token: at the start the snapshot with all changes before
the start, and then the book behind each later change. -/
def tokenUpdates (client : OrbscanClient) (fromMs : I64)
    (snapshot : BookLevels) (changes : List OrbscanEvent) :
    Except OrbscanError (List (I64 × BookLevels)) := do
  let start ← (changes.filter (·.timestamp < fromMs)).foldlM
    (BookLevels.apply client) snapshot
  let later ← booksBehind client start
    (changes.filter (fromMs ≤ ·.timestamp))
  .ok ((fromMs, start) :: later)

theorem booksBehind_sound (sound : book.Sound) {books : List (I64 × BookLevels)}
    (behind : booksBehind client book changes = .ok books) :
    ∀ update ∈ books, update.2.Sound := by
  induction changes generalizing book books with
  | nil =>
      cases behind
      intro update mem
      cases mem
  | cons event rest ih =>
      rw [booksBehind] at behind
      obtain ⟨next, applied, others⟩ := Fallible.bind_eq_ok.mp behind
      obtain ⟨later, following, joined⟩ := Fallible.bind_eq_ok.mp others
      cases joined
      have nextSound := sound.apply applied
      exact List.forall_mem_cons.mpr
        ⟨nextSound, ih nextSound following⟩

theorem tokenUpdates_sound
    {fromMs : I64} {snapshot : BookLevels} (sound : snapshot.Sound)
    {updates : List (I64 × BookLevels)}
    (behind : tokenUpdates client fromMs snapshot changes = .ok updates) :
    ∀ update ∈ updates, update.2.Sound := by
  unfold tokenUpdates at behind
  obtain ⟨start, applied, others⟩ := Fallible.bind_eq_ok.mp behind
  obtain ⟨later, following, joined⟩ := Fallible.bind_eq_ok.mp others
  cases joined
  have startSound : start.Sound :=
    Fallible.foldlM_keeps (fun _ kept _ _ _ handled => kept.apply handled)
      sound applied
  exact List.forall_mem_cons.mpr
    ⟨startSound, booksBehind_sound startSound following⟩

end Client

/-! ## Reading pages -/

namespace TokenReplay

structure SameToken (before after : TokenReplay) : Prop where
  market : after.market = before.market
  outcome : after.outcome = before.outcome
  token : after.token = before.token
  fromMs : after.fromMs = before.fromMs
  toMs : after.toMs = before.toMs

theorem SameToken.trans {first second third : TokenReplay}
    (before : first.SameToken second) (after : second.SameToken third) :
    first.SameToken third where
  market := after.market.trans before.market
  outcome := after.outcome.trans before.outcome
  token := after.token.trans before.token
  fromMs := after.fromMs.trans before.fromMs
  toMs := after.toMs.trans before.toMs

/-- What reading pages leaves as it is. -/
structure SameBook (before after : TokenReplay) : Prop
    extends SameToken before after where
  book : after.book = before.book
  baselineEmitted : after.baselineEmitted = before.baselineEmitted
  pendingEvent : after.pendingEvent = before.pendingEvent
  frameSequence : after.frameSequence = before.frameSequence

theorem SameBook.refl (replay : TokenReplay) : replay.SameBook replay :=
  ⟨⟨rfl, rfl, rfl, rfl, rfl⟩, rfl, rfl, rfl, rfl⟩

/-- The page that is being read is sorted by time, and reaches no further than
what was seen. -/
structure Paged (replay : TokenReplay) : Prop where
  sorted : replay.pages.Pairwise fun earlier later =>
    earlier.timestamp ≤ later.timestamp
  bounded : ∀ event ∈ replay.pages,
    event.timestamp ≤ replay.lastTimestampMs ∧ event.timestamp < replay.toMs

/-- Nothing that is still to be read lies before a time. -/
structure NotBefore (replay : TokenReplay) (time : I64) : Prop where
  seen : replay.exhausted = false → time ≤ replay.lastTimestampMs
  pages : ∀ event ∈ replay.pages, time ≤ event.timestamp

def Unread (client : OrbscanClient) (replay : TokenReplay)
    (changes : List OrbscanEvent) : Prop :=
  ∃ later, changes = replay.pages ++ later ∧
    (replay.exhausted = true → later = []) ∧
    (replay.exhausted = false → ServedChanges client replay.token replay.toMs
      replay.nextCursor later)

variable {client : OrbscanClient} {replay after : TokenReplay}

theorem checkItems_ordered
    {items : List OrbscanEvent} {checks checked : PageChecks}
    (loop : items.foldlM (replay.checkItem client) checks = .ok checked) :
    items.Pairwise (fun earlier later =>
        earlier.timestamp ≤ later.timestamp) ∧
      (∀ event ∈ items, checks.lastTimestampMs ≤ event.timestamp ∧
        event.timestamp ≤ checked.lastTimestampMs ∧
        event.timestamp < replay.toMs) ∧
      checks.lastTimestampMs ≤ checked.lastTimestampMs := by
  induction items generalizing checks with
  | nil =>
      cases loop
      exact ⟨.nil, fun event mem => (by cases mem), le_refl _⟩
  | cons event rest ih =>
      rw [List.foldlM_cons] at loop
      obtain ⟨next, handled, others⟩ := Fallible.bind_eq_ok.mp loop
      unfold checkItem at handled
      obtain ⟨_, _, handled⟩ := Fallible.bind_eq_ok.mp handled
      split at handled
      · cases handled
      · rename_i allowed
        obtain ⟨_, _, handled⟩ := Fallible.bind_eq_ok.mp handled
        cases handled
        simp only [not_or, not_lt, not_le] at allowed
        obtain ⟨_, forward, early, _⟩ := allowed
        obtain ⟨sorted, bounded, reached⟩ := ih others
        refine ⟨List.pairwise_cons.mpr
            ⟨fun other mem => (bounded other mem).1, sorted⟩,
          List.forall_mem_cons.mpr ⟨⟨forward, reached, early⟩, ?_⟩,
          forward.trans reached⟩
        intro other mem
        obtain ⟨start, stop, inside⟩ := bounded other mem
        exact ⟨forward.trans start, stop, inside⟩

structure Fetched (client : OrbscanClient) (replay after : TokenReplay) :
    Prop where
  same : replay.SameBook after
  page : ∃ nextCursor, client.eventPage
      (changesRequest replay.token replay.toMs replay.nextCursor) =
        .ok ⟨after.pages, nextCursor⟩ ∧
    (nextCursor = none → after.exhausted = true) ∧
    ∀ next, nextCursor = some next → after.pages ≠ [] ∧
      after.exhausted = replay.exhausted ∧ after.nextCursor = some next
  sorted : after.pages.Pairwise fun earlier later =>
    earlier.timestamp ≤ later.timestamp
  bounded : ∀ event ∈ after.pages,
    replay.lastTimestampMs ≤ event.timestamp ∧
      event.timestamp ≤ after.lastTimestampMs ∧ event.timestamp < replay.toMs
  forward : replay.lastTimestampMs ≤ after.lastTimestampMs

theorem fetchPage_fetched (read : replay.fetchPage client = .ok after) :
    replay.Fetched client after := by
  unfold fetchPage at read
  obtain ⟨⟨items, nextCursor⟩, answered, rest⟩ :=
    Fallible.bind_eq_ok.mp read
  split at rest
  · cases rest
  · rename_i filled
    obtain ⟨checks, loop, rest⟩ := Fallible.bind_eq_ok.mp rest
    obtain ⟨sorted, bounded, reached⟩ := checkItems_ordered loop
    cases nextCursor with
    | none =>
        cases rest
        exact ⟨⟨⟨rfl, rfl, rfl, rfl, rfl⟩, rfl, rfl, rfl, rfl⟩,
          ⟨none, answered, fun _ => rfl, fun next given => (by cases given)⟩,
          sorted, bounded, reached⟩
    | some next =>
        simp only at rest
        split at rest
        · cases rest
        · cases rest
          refine ⟨⟨⟨rfl, rfl, rfl, rfl, rfl⟩, rfl, rfl, rfl, rfl⟩,
            ⟨some next, answered, fun given => (by cases given), ?_⟩,
            sorted, bounded, reached⟩
          intro other given
          cases given
          exact ⟨fun empty => filled ⟨empty, rfl⟩, rfl, rfl⟩

/-- What `next_delta` makes of a replay. -/
structure Delta (client : OrbscanClient) (replay : TokenReplay)
    (found : Option OrbscanEvent) (after : TokenReplay) : Prop where
  same : replay.SameBook after
  unread : ∀ later, after.Unread client later →
    replay.Unread client (found.toList ++ later)
  paged : replay.Paged → after.Paged
  notBefore : replay.Paged → ∀ time, replay.NotBefore time →
    ∀ event, found = some event → time ≤ event.timestamp ∧
      event.timestamp < replay.toMs ∧ after.NotBefore event.timestamp
  ended : found = none → after.pages = [] ∧ after.exhausted = true

variable {rest : List OrbscanEvent}

theorem delta_of_pages {event : OrbscanEvent}
    (pages : replay.pages = event :: rest) :
    replay.Delta client (some event) { replay with pages := rest } where
  same := ⟨⟨rfl, rfl, rfl, rfl, rfl⟩, rfl, rfl, rfl, rfl⟩
  unread := by
    rintro _ ⟨later, rfl, exhausted, unexhausted⟩
    exact ⟨later, by rw [pages]; rfl, exhausted, unexhausted⟩
  paged := by
    rintro ⟨sorted, bounded⟩
    rw [pages] at sorted bounded
    exact ⟨(List.pairwise_cons.mp sorted).2,
      (List.forall_mem_cons.mp bounded).2⟩
  notBefore := by
    rintro ⟨sorted, bounded⟩ time ⟨_, later⟩ _ same
    cases same
    rw [pages] at sorted bounded later
    obtain ⟨reached, inside⟩ := (List.forall_mem_cons.mp bounded).1
    exact ⟨(List.forall_mem_cons.mp later).1, inside, fun _ => reached,
      (List.pairwise_cons.mp sorted).1⟩
  ended := fun none => by cases none

theorem Fetched.delta
    (fetched : replay.Fetched client after) (empty : replay.pages = [])
    (unexhausted : replay.exhausted = false) {event : OrbscanEvent}
    (pages : after.pages = event :: rest) :
    replay.Delta client (some event) { after with pages := rest } := by
  obtain ⟨same, ⟨nextCursor, answered, last, continued⟩, sorted, bounded,
    forward⟩ := fetched
  rw [pages] at sorted bounded answered
  refine ⟨⟨⟨same.market, same.outcome, same.token, same.fromMs, same.toMs⟩,
    same.book, same.baselineEmitted, same.pendingEvent, same.frameSequence⟩,
    ?_, ?_, ?_, fun none => by cases none⟩
  · rintro _ ⟨later, rfl, exhausted, served⟩
    refine ⟨event :: rest ++ later, by rw [empty]; rfl,
      fun ended => ?_, fun _ => ?_⟩
    · rw [unexhausted] at ended
      cases ended
    · cases nextCursor with
      | none =>
          rw [exhausted (last rfl), List.append_nil]
          exact .last answered
      | some next =>
          obtain ⟨_, open', cursor⟩ := continued next rfl
          refine .page answered ?_
          have more := served (open'.trans unexhausted)
          simp only [same.token, same.toMs, cursor] at more
          exact more
  · intro _
    refine ⟨(List.pairwise_cons.mp sorted).2, ?_⟩
    intro other mem
    have bounds := bounded other (List.mem_cons_of_mem _ mem)
    exact ⟨bounds.2.1, same.toMs ▸ bounds.2.2⟩
  · rintro _ time ⟨seen, _⟩ _ found
    cases found
    obtain ⟨start, reached, inside⟩ := bounded event List.mem_cons_self
    exact ⟨(seen unexhausted).trans start, inside, fun _ => reached,
      (List.pairwise_cons.mp sorted).1⟩

/-- A page without items is the last one. -/
theorem Fetched.delta_none
    (fetched : replay.Fetched client after) (empty : replay.pages = [])
    (pages : after.pages = []) :
    replay.Delta client none after := by
  obtain ⟨same, ⟨nextCursor, answered, last, continued⟩, sorted, bounded,
    forward⟩ := fetched
  have final : nextCursor = none := by
    cases nextCursor with
    | none => rfl
    | some next => exact absurd pages (continued next rfl).1
  have exhausted := last final
  rw [final, pages] at answered
  refine ⟨same, ?_, ?_, fun _ _ _ _ found => (by cases found),
    fun _ => ⟨pages, exhausted⟩⟩
  · rintro _ ⟨later, rfl, ended, _⟩
    rw [pages, ended exhausted]
    refine ⟨[], by rw [empty]; rfl, fun _ => rfl, fun _ => .last answered⟩
  · intro _
    rw [pages] at sorted bounded
    refine ⟨by rw [pages]; exact .nil, ?_⟩
    rw [pages]
    intro event mem
    cases mem

theorem nextDelta_delta {found : Option OrbscanEvent}
    (read : replay.nextDelta client = .ok (found, after)) :
    replay.Delta client found after := by
  unfold nextDelta at read
  cases pages : replay.pages with
  | cons event rest =>
      simp only [pages] at read
      cases read
      exact delta_of_pages pages
  | nil =>
      simp only [pages] at read
      cases exhausted : replay.exhausted with
      | true =>
          rw [exhausted, if_pos rfl] at read
          cases read
          exact ⟨.refl replay, fun later unread => unread, fun paged => paged,
            fun _ _ _ _ found => (by cases found),
            fun _ => ⟨pages, exhausted⟩⟩
      | false =>
          rw [exhausted, if_neg (by simp)] at read
          obtain ⟨page, fetch, rest⟩ := Fallible.bind_eq_ok.mp read
          have fetched := fetchPage_fetched fetch
          cases items : page.pages with
          | cons event later =>
              simp only [items] at rest
              cases rest
              exact fetched.delta pages exhausted items
          | nil =>
              simp only [items] at rest
              cases rest
              exact fetched.delta_none pages items

end TokenReplay

end Pmkit
