import Pmkit.History.OrbscanBooks

/-!
# The updates of one token

The states of a token replay follow each other in two phases: the changes
before the start go into the book, and each change behind it is sent with the
book it leaves.
-/

namespace Pmkit

open MachineInt StreamMerge

theorem CanonicalSourceKey.pm_lt
    {time later rank epoch frame other : I64} {stream : String}
    (times : time ≤ later) (frames : frame < other) :
    compare (CanonicalSourceKey.pm time rank stream epoch frame)
      (.pm later rank stream epoch other) = .lt := by
  have byFrame : comparePm (stream, epoch, frame) (stream, epoch, other) =
      .lt := by
    simp [comparePm, compareLex, compareOn, Std.ReflCmp.compare_self,
      compare_lt_iff_lt.mpr frames]
  change (compareLex (compareLex (compareOn timestampMs)
    (compareOn canonicalSourceRank)) compareIdentity) _ _ = .lt
  rcases lt_or_eq_of_le times with before | rfl
  · simp [compareLex, compareOn, timestampMs, compare_lt_iff_lt.mpr before]
  · simp [compareLex, compareOn, timestampMs, canonicalSourceRank,
      compareIdentity, Std.ReflCmp.compare_self, byFrame]

namespace TokenReplay

variable {client : OrbscanClient} {replay after : TokenReplay}

/-! ## Envelopes -/

def updateEnvelope (replay : TokenReplay) (frameSequence : I64)
    (rawFrame : List UInt8) (update : I64 × BookLevels) :
    SourceEnvelope Decimal :=
  .pmMarket
    { metadata :=
        { schemaVersion := 1
          sourceId := "orbscan-orderbook"
          sourceTimeMs := update.1
          canonicalSourceRank := 0
          receiptTimeMs := update.1
          connectionId := "token:" ++ replay.token.tokenId
          connectionEpoch := 0
          frameSequence := frameSequence
          ingestSequence := UInt64.ofNat frameSequence.1.toNat }
      rawFrame := rawFrame
      fact := .bookUpdate replay.market replay.outcome
        update.2.bids.entries.reverse update.2.asks.entries update.1 }

theorem SameToken.updateEnvelope (same : replay.SameToken after) :
    after.updateEnvelope = replay.updateEnvelope := by
  funext frameSequence rawFrame update
  rw [TokenReplay.updateEnvelope, TokenReplay.updateEnvelope, same.market,
    same.outcome, same.token]

theorem I64.checkedAdd_eq_some {value result : I64} {amount : Int}
    (added : I64.checkedAdd value amount = some result) :
    result.1 = value.1 + amount := by
  unfold I64.checkedAdd at added
  split at added
  · rename_i inRange
    cases added
    have inside : (-(2 ^ 63) : ℤ) ≤ value.1 + amount ∧
        value.1 + amount ≤ 2 ^ 63 - 1 := by
      omega
    rw [MachineInt.I64.clamp, Set.projIcc_of_mem int64_min_le_max inside]
  · cases added

variable {time : I64} {envelope : SourceEnvelope Decimal} {frame : Int}
  {updates : List (I64 × BookLevels)}
  {envelopes : List (SourceEnvelope Decimal)}
  {found : Option (SourceEnvelope Decimal)} {mapping : OrbscanMarketMapping}

theorem makeEnvelope_eq_ok {rawFrame : List UInt8}
    (made : replay.makeEnvelope time rawFrame = .ok (envelope, after)) :
    envelope = replay.updateEnvelope replay.frameSequence rawFrame
        (time, replay.book) ∧
      after.frameSequence.1 = replay.frameSequence.1 + 1 ∧
      after = { replay with frameSequence := after.frameSequence } := by
  unfold makeEnvelope at made
  split at made
  · cases made
  · rename_i next added
    split at made
    · cases made
    · cases made
      exact ⟨rfl, I64.checkedAdd_eq_some added, rfl⟩

theorem updateEnvelope_lt {frame other : I64} {rawFrame otherFrame : List UInt8}
    {update later : I64 × BookLevels} (times : update.1 ≤ later.1)
    (frames : frame < other) :
    compare (replay.updateEnvelope frame rawFrame update).canonicalKey
      (replay.updateEnvelope other otherFrame later).canonicalKey = .lt :=
  CanonicalSourceKey.pm_lt times frames

/-- Envelopes show updates one after the other: none before a time, each before
the end, with rising frames from some number on. -/
inductive Shows (replay : TokenReplay) : I64 → Int →
    List (I64 × BookLevels) → List (SourceEnvelope Decimal) → Prop
  | nil {time : I64} {frame : Int} : Shows replay time frame [] []
  | cons {time own : I64} {frame : Int} {rawFrame : List UInt8}
      {update : I64 × BookLevels} {updates : List (I64 × BookLevels)}
      {envelopes : List (SourceEnvelope Decimal)}
      (start : time ≤ update.1) (stop : update.1 < replay.toMs)
      (numbered : frame ≤ own.1)
      (later : Shows replay update.1 (own.1 + 1) updates envelopes) :
      Shows replay time frame (update :: updates)
        (replay.updateEnvelope own rawFrame update :: envelopes)

theorem SameToken.shows (same : replay.SameToken after)
    (shows' : after.Shows time frame updates envelopes) :
    replay.Shows time frame updates envelopes := by
  induction shows' with
  | nil => exact .nil
  | cons start stop numbered later ih =>
      rw [same.updateEnvelope]
      exact .cons start (same.toMs ▸ stop) numbered ih

theorem Shows.mem (shown : replay.Shows time frame updates envelopes)
    (mem : envelope ∈ envelopes) :
    ∃ own rawFrame, ∃ update ∈ updates,
      envelope = replay.updateEnvelope own rawFrame update ∧
        time ≤ update.1 ∧ update.1 < replay.toMs ∧ frame ≤ own.1 := by
  induction shown with
  | nil => cases mem
  | @cons time own frame rawFrame update updates envelopes start stop numbered
      later ih =>
      rcases List.mem_cons.mp mem with rfl | behind
      · exact ⟨own, rawFrame, update, List.mem_cons_self, rfl, start, stop,
          numbered⟩
      · obtain ⟨other, otherFrame, shownUpdate, inside, same, after, before,
          above⟩ := ih behind
        exact ⟨other, otherFrame, shownUpdate, List.mem_cons_of_mem _ inside,
          same, start.trans after, before, by omega⟩

theorem Shows.sorted (shown : replay.Shows time frame updates envelopes) :
    envelopes.Pairwise fun earlier later =>
      compare earlier.canonicalKey later.canonicalKey = .lt := by
  induction shown with
  | nil => exact .nil
  | cons start stop numbered later ih =>
      refine List.pairwise_cons.mpr ⟨?_, ih⟩
      intro envelope mem
      obtain ⟨other, otherFrame, update, _, rfl, after, _, above⟩ :=
        later.mem mem
      apply updateEnvelope_lt after
      change (_ : Int) < _
      omega

/-- No change that is still to come lies before a time. -/
def Upcoming (replay : TokenReplay) (time : I64) : Prop :=
  replay.Paged ∧
    match replay.pendingEvent with
    | none => replay.NotBefore time
    | some event => time ≤ event.timestamp ∧
        event.timestamp < replay.toMs ∧ replay.NotBefore event.timestamp

/-- The changes that are still to come, with the one that was held back. -/
def Remaining (client : OrbscanClient) (replay : TokenReplay)
    (changes : List OrbscanEvent) : Prop :=
  ∃ later, changes = replay.pendingEvent.toList ++ later ∧
    replay.Unread client later

/-- What is read next before the held change is none. -/
structure Next (client : OrbscanClient) (replay : TokenReplay) (time : I64)
    (found : Option OrbscanEvent) (after : TokenReplay) : Prop where
  same : replay.SameToken after
  book : after.book = replay.book
  frameSequence : after.frameSequence = replay.frameSequence
  baselineEmitted : after.baselineEmitted = replay.baselineEmitted
  pendingEvent : after.pendingEvent = none
  remaining : ∀ later, after.Unread client later →
    replay.Remaining client (found.toList ++ later)
  paged : after.Paged
  timely : ∀ event, found = some event → time ≤ event.timestamp ∧
    event.timestamp < replay.toMs ∧ after.NotBefore event.timestamp
  ended : found = none → after.pages = [] ∧ after.exhausted = true

theorem nextEvent_next (upcoming : replay.Upcoming time)
    {found : Option OrbscanEvent}
    (read : replay.nextEvent client = .ok (found, after)) :
    replay.Next client time found after := by
  unfold nextEvent at read
  obtain ⟨paged, upcoming⟩ := upcoming
  cases held : replay.pendingEvent with
  | some event =>
      simp only [held] at read upcoming
      cases read
      refine ⟨⟨rfl, rfl, rfl, rfl, rfl⟩, rfl, rfl, rfl, rfl, ?_,
        ⟨paged.sorted, paged.bounded⟩, ?_, fun none => by cases none⟩
      · intro later unread
        exact ⟨later, by rw [held], unread⟩
      · rintro _ same
        cases same
        obtain ⟨start, stop, notBefore⟩ := upcoming
        exact ⟨start, stop, notBefore.seen, notBefore.pages⟩
  | none =>
      simp only [held] at read upcoming
      have delta := nextDelta_delta read
      refine ⟨delta.same.toSameToken, delta.same.book,
        delta.same.frameSequence, delta.same.baselineEmitted,
        delta.same.pendingEvent.trans held, ?_, delta.paged paged,
        delta.notBefore paged time upcoming, delta.ended⟩
      intro later unread
      exact ⟨_, by rw [held]; rfl, delta.unread later unread⟩

/-! ## Behind the start -/

/-- `next_book_update` with enough fuel. -/
def NextUpdate (client : OrbscanClient) (replay : TokenReplay)
    (found : Option (SourceEnvelope Decimal)) (after : TokenReplay) : Prop :=
  ∃ fuel, replay.nextBookUpdate client fuel = .ok (found, after)

theorem mapError_eq_ok {A E F : Type} {read : Except E A} {change : E → F}
    {value : A} (mapped : read.mapError change = .ok value) :
    read = .ok value := by
  cases read with
  | error error => cases mapped
  | ok other => exact congrArg _ (Except.ok.inj mapped)

theorem NextUpdate.nextChange (asked : replay.NextUpdate client found after)
    (ready : replay.baselineEmitted = true) :
    replay.nextChange client = .ok (found, after) := by
  obtain ⟨fuel, read⟩ := asked
  rw [nextBookUpdate, if_pos ready] at read
  exact mapError_eq_ok read

structure Sent (client : OrbscanClient) (replay : TokenReplay) (time : I64)
    (envelope : SourceEnvelope Decimal) (event : OrbscanEvent)
    (after : TokenReplay) : Prop where
  same : replay.SameToken after
  baselineEmitted : after.baselineEmitted = replay.baselineEmitted
  applied : replay.book.apply client event = .ok after.book
  shown : ∃ rawFrame, envelope = replay.updateEnvelope replay.frameSequence
    rawFrame (event.timestamp, after.book)
  frame : after.frameSequence.1 = replay.frameSequence.1 + 1
  timely : time ≤ event.timestamp ∧ event.timestamp < replay.toMs
  upcoming : after.Upcoming event.timestamp
  remaining : ∀ later, after.Remaining client later →
    replay.Remaining client (event :: later)

theorem nextChange_sent (upcoming : replay.Upcoming time)
    (read : replay.nextChange client = .ok (some envelope, after)) :
    ∃ event, replay.Sent client time envelope event after := by
  unfold nextChange at read
  obtain ⟨⟨found, middle⟩, asked, rest⟩ := Fallible.bind_eq_ok.mp read
  have next := nextEvent_next upcoming asked
  cases found with
  | none => cases rest
  | some event =>
      obtain ⟨book, applied, rest⟩ := Fallible.bind_eq_ok.mp rest
      split at rest
      · cases rest
      · rename_i rawFrame written
        obtain ⟨⟨_, made⟩, making, rest⟩ := Fallible.bind_eq_ok.mp rest
        cases rest
        obtain ⟨shown, frame, shape⟩ := makeEnvelope_eq_ok making
        obtain ⟨start, stop, notBefore⟩ := next.timely event rfl
        have same : replay.SameToken after := by
          rw [shape]
          exact ⟨next.same.market, next.same.outcome, next.same.token,
            next.same.fromMs, next.same.toMs⟩
        have pending : after.pendingEvent = none := by
          rw [shape]
          exact next.pendingEvent
        have newBook : after.book = book := by
          rw [shape]
        refine ⟨event, same, ?_, ?_, ⟨rawFrame, ?_⟩, ?_, ⟨start, stop⟩, ?_, ?_⟩
        · rw [shape]
          exact next.baselineEmitted
        · rw [newBook, ← next.book]
          exact applied
        · rw [shown, newBook, ← next.frameSequence]
          exact congrFun (congrFun (congrFun next.same.updateEnvelope _) _) _
        · rw [frame]
          simp only [next.frameSequence]
        · refine ⟨?_, ?_⟩
          · rw [shape]
            exact ⟨next.paged.sorted, next.paged.bounded⟩
          · rw [pending, shape]
            exact ⟨notBefore.seen, notBefore.pages⟩
        · rintro _ ⟨later, rfl, unread⟩
          rw [pending]
          apply next.remaining
          rw [shape] at unread
          exact unread

/-- Once no change is found, none is to come. -/
theorem nextChange_none (upcoming : replay.Upcoming time)
    (read : replay.nextChange client = .ok (none, after)) :
    replay.Remaining client [] := by
  unfold nextChange at read
  obtain ⟨⟨found, middle⟩, asked, rest⟩ := Fallible.bind_eq_ok.mp read
  have next := nextEvent_next upcoming asked
  cases found with
  | none =>
      obtain ⟨pages, exhausted⟩ := next.ended rfl
      apply next.remaining []
      exact ⟨[], by rw [pages]; rfl, fun _ => rfl, fun open' => by
        rw [exhausted] at open'
        cases open'⟩
  | some event =>
      obtain ⟨book, applied, rest⟩ := Fallible.bind_eq_ok.mp rest
      split at rest
      · cases rest
      · obtain ⟨_, _, rest⟩ := Fallible.bind_eq_ok.mp rest
        cases rest

/-- Behind the start each change is sent with the book it leaves. -/
theorem yields_changes (yields : Yields (NextUpdate client) replay envelopes)
    (ready : replay.baselineEmitted = true)
    (upcoming : replay.Upcoming time) :
    ∃ changes books, replay.Remaining client changes ∧
      (∀ change ∈ changes, time ≤ change.timestamp) ∧
      booksBehind client replay.book changes = .ok books ∧
      replay.Shows time replay.frameSequence.1 books envelopes := by
  induction yields generalizing time with
  | @done state after ended =>
      exact ⟨[], [], nextChange_none upcoming (ended.nextChange ready),
        fun change mem => (by cases mem), rfl, .nil⟩
  | @more state after envelope rest found later ih =>
      obtain ⟨event, sent⟩ := nextChange_sent upcoming (found.nextChange ready)
      obtain ⟨changes, books, remaining, timely, behind, shows'⟩ :=
        ih (sent.baselineEmitted.trans ready) sent.upcoming
      obtain ⟨rawFrame, shown⟩ := sent.shown
      refine ⟨event :: changes, (event.timestamp, after.book) :: books,
        sent.remaining changes remaining, ?_, ?_, ?_⟩
      · exact List.forall_mem_cons.mpr ⟨sent.timely.1,
          fun change mem => sent.timely.1.trans (timely change mem)⟩
      · rw [booksBehind, sent.applied]
        show (booksBehind client after.book changes >>= _) = _
        rw [behind]
        rfl
      · rw [shown]
        refine .cons sent.timely.1 sent.timely.2 (le_refl _) ?_
        rw [sent.frame] at shows'
        exact sent.same.shows shows'

/-! ## Up to the start -/

/-- What the loop before the first update makes of a replay. -/
structure Absorbed (client : OrbscanClient) (replay ready : TokenReplay) :
    Prop where
  same : replay.SameToken ready
  frameSequence : ready.frameSequence = replay.frameSequence
  baselineEmitted : ready.baselineEmitted = true
  upcoming : ready.Upcoming replay.fromMs
  changes : ∀ later, ready.Remaining client later →
    ∃ before, replay.Unread client (before ++ later) ∧
      (∀ change ∈ before, change.timestamp < replay.fromMs) ∧
      before.foldlM (BookLevels.apply client) replay.book = .ok ready.book

/-- Changes before the start go into the book, up to one that is held back or
the end of the pages. -/
theorem absorb_absorbed {fuel : Nat} (paged : replay.Paged)
    (notBefore : replay.NotBefore time) (held : replay.pendingEvent = none)
    (read : replay.absorb client fuel = .ok after) :
    replay.Absorbed client after := by
  induction fuel generalizing replay time with
  | zero => cases read
  | succ fuel ih =>
      rw [absorb] at read
      split at read
      · cases read
      · rename_i middle asked
        cases read
        have delta := nextDelta_delta asked
        obtain ⟨pages, exhausted⟩ := delta.ended rfl
        have unheld := delta.same.pendingEvent.trans held
        have stopped := delta.paged paged
        refine ⟨⟨delta.same.market, delta.same.outcome, delta.same.token,
          delta.same.fromMs, delta.same.toMs⟩, delta.same.frameSequence, rfl,
          ⟨⟨stopped.sorted, stopped.bounded⟩, ?_⟩, ?_⟩
        · simp only [unheld]
          refine ⟨fun open' => ?_, ?_⟩
          · rw [exhausted] at open'
            cases open'
          · rw [pages]
            intro event mem
            cases mem
        · rintro _ ⟨later, rfl, unread⟩
          refine ⟨[], ?_, fun change mem => (by cases mem), ?_⟩
          · simp only [unheld]
            exact delta.unread later unread
          · exact congrArg Except.ok delta.same.book.symm
      · rename_i event middle asked
        have delta := nextDelta_delta asked
        obtain ⟨_, stop, following⟩ :=
          delta.notBefore paged time notBefore event rfl
        have unheld := delta.same.pendingEvent.trans held
        have pagedAfter := delta.paged paged
        split at read
        · rename_i early
          split at read
          · cases read
          · rename_i book applied
            have absorbed := @ih
              { middle with book := book } _
              ⟨pagedAfter.sorted, pagedAfter.bounded⟩
              ⟨following.seen, following.pages⟩ unheld read
            have same : replay.SameToken { middle with book := book } :=
              ⟨delta.same.market, delta.same.outcome, delta.same.token,
                delta.same.fromMs, delta.same.toMs⟩
            refine ⟨same.trans absorbed.same,
              absorbed.frameSequence.trans delta.same.frameSequence,
              absorbed.baselineEmitted, ?_, ?_⟩
            · have upcoming := absorbed.upcoming
              rw [same.fromMs] at upcoming
              exact upcoming
            · intro later remaining
              obtain ⟨before, unread, earlier, folded⟩ :=
                absorbed.changes later remaining
              refine ⟨event :: before, delta.unread _ unread, ?_, ?_⟩
              · rw [delta.same.fromMs] at early
                rw [same.fromMs] at earlier
                exact List.forall_mem_cons.mpr ⟨early, earlier⟩
              · rw [List.foldlM_cons, ← delta.same.book, applied]
                exact folded
        · rename_i late
          cases read
          rw [delta.same.fromMs, not_lt] at late
          refine ⟨⟨delta.same.market, delta.same.outcome, delta.same.token,
            delta.same.fromMs, delta.same.toMs⟩, delta.same.frameSequence,
            rfl, ⟨⟨pagedAfter.sorted, pagedAfter.bounded⟩, late, ?_,
              following.seen, following.pages⟩, ?_⟩
          · exact delta.same.toMs.symm ▸ stop
          · rintro _ ⟨later, rfl, unread⟩
            exact ⟨[], delta.unread later unread,
              fun change mem => (by cases mem),
              congrArg Except.ok delta.same.book.symm⟩

structure Opened (client : OrbscanClient) (mapping : OrbscanMarketMapping)
    (outcome : Outcome) (fromMs toMs : I64) (replay : TokenReplay) : Prop where
  market : replay.market = mapping.market
  named : replay.outcome = outcome
  token : replay.token = mapping.tokenOf outcome
  starts : replay.fromMs = fromMs
  stops : replay.toMs = toMs
  unready : replay.baselineEmitted = false
  unheld : replay.pendingEvent = none
  numbered : replay.frameSequence = 0
  paged : replay.Paged
  notBefore : replay.NotBefore replay.snapshotTimestampMs
  snapshot : ∃ event next, client.eventPage
      (snapshotRequest (mapping.tokenOf outcome) fromMs) =
        .ok ⟨[event], next⟩ ∧
    BookLevels.fromSnapshot client event = .ok replay.book ∧
    ∀ changes, replay.Unread client changes → ServedChanges client
      (mapping.tokenOf outcome) toMs (some event.cursor) changes

theorem new_opened {outcome : Outcome} {fromMs toMs : I64}
    (opened : new client mapping outcome fromMs toMs = .ok replay) :
    Opened client mapping outcome fromMs toMs replay := by
  unfold new at opened
  obtain ⟨⟨items, next⟩, answered, rest⟩ := Fallible.bind_eq_ok.mp opened
  cases items with
  | nil => cases rest
  | cons event others =>
      cases others with
      | cons second others => cases rest
      | nil =>
          obtain ⟨_, _, rest⟩ := Fallible.bind_eq_ok.mp rest
          split at rest
          · cases rest
          · obtain ⟨book, read, rest⟩ := Fallible.bind_eq_ok.mp rest
            cases rest
            refine ⟨rfl, rfl, rfl, rfl, rfl, rfl, rfl, rfl,
              ⟨.nil, fun event mem => by cases mem⟩,
              ⟨fun _ => le_refl _, fun event mem => by cases mem⟩,
              event, next, answered, read, ?_⟩
            rintro _ ⟨later, rfl, _, served⟩
            exact served rfl

structure Reconstructed (client : OrbscanClient)
    (mapping : OrbscanMarketMapping) (outcome : Outcome) (fromMs toMs : I64)
    (replay : TokenReplay) (updates : List (I64 × BookLevels))
    (envelopes : List (SourceEnvelope Decimal)) : Prop where
  shown : replay.Shows fromMs 0 updates envelopes
  snapshot : ∃ event next start changes, client.eventPage
      (snapshotRequest (mapping.tokenOf outcome) fromMs) =
        .ok ⟨[event], next⟩ ∧
    BookLevels.fromSnapshot client event = .ok start ∧
    ServedChanges client (mapping.tokenOf outcome) toMs (some event.cursor)
      changes ∧
    tokenUpdates client fromMs start changes = .ok updates

/-- The first update of a token is the book at the start. -/
theorem Opened.reconstructed {outcome : Outcome} {fromMs toMs : I64}
    (opened : Opened client mapping outcome fromMs toMs replay)
    (window : fromMs < toMs)
    (asked : replay.NextUpdate client found after)
    {later : List (SourceEnvelope Decimal)} :
    ∃ first, found = some first ∧
      (Yields (NextUpdate client) after later → ∃ updates,
        Reconstructed client mapping outcome fromMs toMs replay updates
          (first :: later)) := by
  obtain ⟨fuel, read⟩ := asked
  rw [nextBookUpdate, if_neg (by rw [opened.unready]; simp)] at read
  obtain ⟨ready, absorbing, rest⟩ := Fallible.bind_eq_ok.mp read
  obtain ⟨⟨first, made⟩, making, rest⟩ := Fallible.bind_eq_ok.mp rest
  cases rest
  refine ⟨first, rfl, fun yields => ?_⟩
  have absorbed := absorb_absorbed opened.paged opened.notBefore opened.unheld
    absorbing
  obtain ⟨shown, frame, shape⟩ := makeEnvelope_eq_ok (mapError_eq_ok making)
  have readyUpcoming := absorbed.upcoming
  have emitted : after.baselineEmitted = true := by
    rw [shape]
    exact absorbed.baselineEmitted
  have upcoming : after.Upcoming replay.fromMs := by
    obtain ⟨paged, pending⟩ := readyUpcoming
    rw [shape]
    refine ⟨⟨paged.sorted, paged.bounded⟩, ?_⟩
    show match ready.pendingEvent with | none => _ | some event => _
    split
    · rename_i unheld
      rw [unheld] at pending
      exact ⟨pending.seen, pending.pages⟩
    · rename_i event held
      rw [held] at pending
      exact ⟨pending.1, pending.2.1, pending.2.2.seen, pending.2.2.pages⟩
  obtain ⟨changes, books, remaining, timely, behind, shows'⟩ :=
    yields_changes yields emitted upcoming
  have readyRemaining : ready.Remaining client changes := by
    rw [shape] at remaining
    exact remaining
  obtain ⟨before, unread, early, folded⟩ :=
    absorbed.changes changes readyRemaining
  obtain ⟨event, next, answered, snapshotRead, served⟩ := opened.snapshot
  have sameAfter : replay.SameToken after := by
    rw [shape]
    exact ⟨absorbed.same.market, absorbed.same.outcome, absorbed.same.token,
      absorbed.same.fromMs, absorbed.same.toMs⟩
  have book : after.book = ready.book := by
    rw [shape]
  have zero : ready.frameSequence = 0 :=
    absorbed.frameSequence.trans opened.numbered
  rw [opened.starts] at early timely shows'
  refine ⟨(fromMs, ready.book) :: books, ?_, event, next, replay.book,
    before ++ changes, answered, snapshotRead, served _ unread, ?_⟩
  · rw [shown, absorbed.same.updateEnvelope, absorbed.same.fromMs,
      opened.starts]
    refine .cons (le_refl _) (opened.stops.symm ▸ window) ?_ ?_
    · rw [zero, I64.zero_val]
    · rw [← frame]
      exact sameAfter.shows shows'
  · have absorbedChanges :
        (before ++ changes).filter (·.timestamp < fromMs) = before := by
      rw [List.filter_append, List.filter_eq_self.mpr, List.filter_eq_nil_iff.mpr,
        List.append_nil]
      · intro change mem
        simpa using timely change mem
      · intro change mem
        simpa using early change mem
    have sentChanges :
        (before ++ changes).filter (fromMs ≤ ·.timestamp) = changes := by
      rw [List.filter_append, List.filter_eq_nil_iff.mpr, List.filter_eq_self.mpr,
        List.nil_append]
      · intro change mem
        simpa using timely change mem
      · intro change mem
        simpa using early change mem
    rw [book] at behind
    rw [tokenUpdates, absorbedChanges, sentChanges, folded]
    show (booksBehind client ready.book changes >>= _) = _
    rw [behind]
    rfl

end TokenReplay

end Pmkit
