import Pmkit.History.OrbscanUpdates
import Pmkit.History.OrbscanWatermarks

/-!
# Replays of order books

The streams of all tokens are merged by their keys, with watermarks between
them.  What is accepted shows every token's books, in one order, and is taken
by the merge of a backtest.
-/

namespace Pmkit

open MachineInt StreamMerge

/-- The update of a token that an envelope carries: time, bids and asks. -/
def updateOf (market : MarketId) (outcome : Outcome) :
    SourceEnvelope Decimal →
      Option (I64 × List (Decimal × Decimal) × List (Decimal × Decimal))
  | .pmMarket ⟨_, _, .bookUpdate other side bids asks time⟩ =>
      if other = market ∧ side = outcome then some (time, bids, asks) else none
  | _ => none

def sentUpdates (market : MarketId) (outcome : Outcome)
    (signals : List (SourceSignal Decimal)) :
    List (I64 × List (Decimal × Decimal) × List (Decimal × Decimal)) :=
  (sentData signals).filterMap (updateOf market outcome)

namespace OrbscanHistoricalDataSource

/-- The updates that are sent of a token are the snapshot with the changes
before the start, and the book behind each later change. -/
def Reconstructs (source : OrbscanHistoricalDataSource) (fromMs toMs : I64)
    (market : MarketId) (outcome : Outcome)
    (sent : List (SourceSignal Decimal)) : Prop :=
  ∃ mapping ∈ source.mappings, ∃ event next start changes updates,
    mapping.market = market ∧
    source.client.eventPage (TokenReplay.snapshotRequest
      (mapping.tokenOf outcome) fromMs) = .ok ⟨[event], next⟩ ∧
    BookLevels.fromSnapshot source.client event = .ok start ∧
    ServedChanges source.client (mapping.tokenOf outcome) toMs
      (some event.cursor) changes ∧
    tokenUpdates source.client fromMs start changes = .ok updates ∧
    sentUpdates market outcome sent = updates.map fun update =>
      (update.1, update.2.bids.entries.reverse, update.2.asks.entries)

/-- An update of a token, with bids from the highest price down and asks from
the lowest price up. -/
def SoundUpdate (markets : List MarketId) (envelope : SourceEnvelope Decimal) :
    Prop :=
  ∃ metadata rawFrame, ∃ market ∈ markets, ∃ outcome bids asks,
    envelope = .pmMarket ⟨metadata, rawFrame,
      .bookUpdate market outcome bids asks metadata.sourceTimeMs⟩ ∧
    bids.Pairwise (fun higher lower => lower.1 < higher.1) ∧
    asks.Pairwise (fun lower higher => lower.1 < higher.1) ∧
    ∀ level ∈ bids ++ asks, 0 ≤ level.1 ∧ level.1 ≤ 1 ∧ 0 < level.2

structure Replays (source : OrbscanHistoricalDataSource) (query : ResearchQuery)
    (sent : List (SourceSignal Decimal)) : Prop where
  books : query.fromTime.timestampMillis < query.toTime.timestampMillis →
    ∀ market ∈ query.markets, ∀ outcome,
      source.Reconstructs query.fromTime.timestampMillis
        query.toTime.timestampMillis market outcome sent
  first : query.fromTime.timestampMillis < query.toTime.timestampMillis →
    ∀ market ∈ query.markets, ∀ outcome,
      (sentUpdates market outcome sent).head?.map Prod.fst =
        some query.fromTime.timestampMillis
  updates : ∀ envelope ∈ sentData sent, SoundUpdate query.markets envelope
  sorted : (sentData sent).Pairwise fun earlier later =>
    (compare earlier.canonicalKey later.canonicalKey).isLE
  above : ∀ earlier watermark later,
    sent = earlier ++ .watermark watermark :: later →
      ∀ envelope ∈ sentData later,
        watermark < envelope.canonicalKey.timestampMs
  rising : (sentWatermarks sent).Pairwise (· < ·)
  ends : ∃ earlier,
    sent = earlier ++ [.watermark query.toTime.timestampMillis, .eof]
  merged : ∀ (name : String) (format : EventFormat Decimal)
    (events : List (MergeEvent Decimal)),
    MergedFeed.Interleaved [⟨name, sent⟩] events →
      ((windowFeed query.toReplayWindow format).forward [name]
        events).result = some (.ok ())

end OrbscanHistoricalDataSource

/-! ## The loop -/

def PendingEvent.Le {n : Nat} (event other : Fin n × SourceEnvelope Decimal) :
    Prop :=
  (PendingEvent.cmp event other).isLE

namespace PendingEvent

variable {n : Nat}

instance : Std.TransCmp (PendingEvent.cmp (n := n)) :=
  inferInstanceAs (Std.TransCmp (compareLex _ _))

theorem key_le {event other : Fin n × SourceEnvelope Decimal}
    (before : Le event other) :
    (compare event.2.canonicalKey other.2.canonicalKey).isLE :=
  Ordering.isLE_left_of_isLE_then before

theorem timestampMs_le {event other : Fin n × SourceEnvelope Decimal}
    (before : Le event other) :
    event.2.canonicalKey.timestampMs ≤ other.2.canonicalKey.timestampMs := by
  have keys := key_le before
  change (((compare _ _).then _).then _).isLE at keys
  have times := Ordering.isLE_left_of_isLE_then
    (Ordering.isLE_left_of_isLE_then keys)
  simpa [Ordering.isLE_iff_ne_gt, compare_gt_iff_gt] using times

end PendingEvent

namespace OrbscanHistoricalDataSource

variable {source : OrbscanHistoricalDataSource} {n : Nat}
  {order : IterationOrder (Fin n × SourceEnvelope Decimal)} {toMs : I64}
  {pending : List (Fin n × SourceEnvelope Decimal)}
  {streams : Fin n → TokenReplay}

/-- The watermark stands right before whatever the merge goes on with. -/
theorem standsBefore_of_watermarkBefore
    {client : OrbscanClient} {merged : List (Fin n × SourceEnvelope Decimal)}
    (merges : Merges (TokenReplay.NextUpdate client) PendingEvent.Le pending
      streams merged) {watermark : I64}
    (found : watermarkBefore order toMs pending = some watermark) :
    StandsBefore toMs (merged.map Prod.snd) watermark := by
  unfold watermarkBefore at found
  cases popped : PriorityQueue.pop PendingEvent.cmp order pending with
  | none =>
      rw [popped] at found
      have empty := PriorityQueue.pop_eq_none_iff.mp popped
      cases merges with
      | done => exact (Option.some.inj found).symm
      | step taken least asked next =>
          rw [empty] at taken
          cases taken.eq_nil
  | some next =>
      rw [popped] at found
      have added := TokenReplay.I64.checkedAdd_eq_some found
      have mem : next.1 ∈ pending :=
        (PriorityQueue.pop_perm popped).subset List.mem_cons_self
      cases merges with
      | done => cases mem
      | @step _ rest merged _ stream item found after taken least asked later =>
          have before := PendingEvent.timestampMs_le (least next.1 mem)
          have behind := PendingEvent.timestampMs_le (PriorityQueue.pop_least
            popped (taken.subset List.mem_cons_self))
          show watermark.1 = item.canonicalKey.timestampMs.1 - 1
          rw [added, le_antisymm behind before]
          rfl

theorem merge_announced
    {fuel : Nat} {sent all : List (SourceSignal Decimal)} {last : Option I64}
    (accepted : source.merge order toMs fuel pending streams sent last =
      some ⟨all, .ok ()⟩)
    (covered : pending = [] → ∀ watermark, last = some watermark →
      watermark = toMs) :
    ∃ merged signals,
      Merges (TokenReplay.NextUpdate source.client) PendingEvent.Le pending
        streams merged ∧
      all = sent ++ signals ∧
      Announced toMs last (merged.map Prod.snd) signals := by
  induction fuel generalizing pending streams sent last with
  | zero => cases accepted
  | succ fuel ih =>
      rw [merge] at accepted
      cases popped : PriorityQueue.pop PendingEvent.cmp order pending with
      | none =>
          rw [popped] at accepted
          have empty := PriorityQueue.pop_eq_none_iff.mp popped
          subst empty
          simp only at accepted
          split at accepted
          · rename_i below
            cases accepted
            refine ⟨[], [.watermark toMs], .done, rfl, .ended ?_⟩
            rintro prev rfl
            simpa using below
          · rename_i reached
            cases accepted
            cases last with
            | none => exact absurd rfl reached
            | some watermark =>
                obtain rfl := covered rfl watermark rfl
                exact ⟨[], [], .done, (List.append_nil _).symm, .covered⟩
      | some first =>
          obtain ⟨⟨stream, envelope⟩, rest⟩ := first
          have taken := PriorityQueue.pop_perm popped
          have least : ∀ other ∈ pending,
              PendingEvent.Le (stream, envelope) other :=
            fun other mem => PriorityQueue.pop_least popped mem
          rw [popped] at accepted
          simp only at accepted
          split at accepted
          · cases accepted
          · cases accepted
          · rename_i found after asked
            split at accepted
            · cases accepted
            · rename_i watermark marked
              have next : found.toList.map (Prod.mk stream) ++ rest = [] →
                  watermark = toMs := by
                intro empty
                rw [empty, watermarkBefore,
                  PriorityQueue.pop_eq_none_iff.mpr rfl] at marked
                exact (Option.some.inj marked).symm
              split at accepted
              · cases accepted
              · rename_i forward
                split at accepted
                · rename_i same
                  obtain ⟨merged, signals, merges, rfl, announced⟩ :=
                    ih accepted (by
                      intro empty other given
                      rw [same] at given
                      cases given
                      exact next empty)
                  subst same
                  exact ⟨(stream, envelope) :: merged, .data envelope :: signals,
                    .step taken least ⟨fuel, asked⟩ merges,
                    List.append_assoc _ _ _,
                    .silent (standsBefore_of_watermarkBefore merges marked)
                      announced⟩
                · rename_i ne
                  obtain ⟨merged, signals, merges, rfl, announced⟩ :=
                    ih accepted (by
                      intro empty other given
                      cases given
                      exact next empty)
                  refine ⟨(stream, envelope) :: merged,
                    .data envelope :: .watermark watermark :: signals,
                    .step taken least ⟨fuel, asked⟩ merges, by simp,
                    .marked (standsBefore_of_watermarkBefore merges marked) ?_
                      announced⟩
                  rintro prev rfl
                  have upwards : prev ≤ watermark := by
                    simpa using forward
                  exact upwards.lt_of_ne fun equal => ne (equal ▸ rfl)

/-! ## The streams -/

structure Primed (client : OrbscanClient) (before after : Fin n → TokenReplay)
    (asked : List (Fin n)) (found : List (Fin n × SourceEnvelope Decimal)) :
    Prop where
  owners : found.map Prod.fst = asked
  first : ∀ entry ∈ found, TokenReplay.NextUpdate client (before entry.1)
    (some entry.2) (after entry.1)
  others : ∀ stream, stream ∉ asked → after stream = before stream

theorem primeStreams_primed
    {fuel : Nat} {asked : List (Fin n)} (distinct : asked.Nodup)
    {primed : Fin n → TokenReplay}
    {all : List (Fin n × SourceEnvelope Decimal)}
    (loop : asked.foldlM (source.primeStream fuel) (pending, streams) =
      .ok (all, primed))
    (starts : ∀ stream ∈ asked, ∀ found after, TokenReplay.NextUpdate
      source.client (streams stream) found after →
        ∃ first, found = some first) :
    ∃ found, all = pending ++ found ∧
      Primed source.client streams primed asked found := by
  induction asked generalizing pending streams with
  | nil =>
      cases loop
      exact ⟨[], (List.append_nil _).symm, rfl,
        fun entry mem => (by cases mem), fun _ _ => rfl⟩
  | cons stream rest ih =>
      obtain ⟨fresh, restDistinct⟩ := List.nodup_cons.mp distinct
      rw [List.foldlM_cons] at loop
      obtain ⟨_, primedOne, others⟩ := Fallible.bind_eq_ok.mp loop
      unfold primeStream at primedOne
      obtain ⟨⟨found, after⟩, read, primedOne⟩ :=
        Fallible.bind_eq_ok.mp primedOne
      cases primedOne
      have asked : TokenReplay.NextUpdate source.client (streams stream) found
        after := ⟨fuel, read⟩
      obtain ⟨startsHere, startsLater⟩ := List.forall_mem_cons.mp starts
      obtain ⟨first, rfl⟩ := startsHere found after asked
      have apart : ∀ other ∈ rest,
          Function.update streams stream after other = streams other := by
        intro other mem
        apply Function.update_of_ne
        rintro rfl
        exact fresh mem
      obtain ⟨later, rfl, owners, firsts, unchanged⟩ :=
        ih restDistinct others (by
          intro other mem
          rw [apart other mem]
          exact startsLater other mem)
      refine ⟨(stream, first) :: later, by simp, ?_, ?_, ?_⟩
      · rw [List.map_cons, owners]
      · intro entry mem
        rcases List.mem_cons.mp mem with rfl | behind
        · show TokenReplay.NextUpdate _ _ _ (primed stream)
          rw [unchanged stream fresh, Function.update_self]
          exact asked
        · have owner : entry.1 ∈ rest := owners ▸ List.mem_map_of_mem behind
          rw [← apart entry.1 owner]
          exact firsts entry behind
      · intro other outside
        rw [List.mem_cons, not_or] at outside
        rw [unchanged other outside.2, Function.update_of_ne outside.1]

/-- The streams that are opened for markets: one for each outcome of each. -/
structure OpenedMarkets (source : OrbscanHistoricalDataSource)
    (fromMs toMs : I64) (opened : List MarketId × List TokenReplay) : Prop where
  of : ∀ replay ∈ opened.2, ∃ mapping ∈ source.mappings, ∃ outcome,
    mapping.market ∈ opened.1 ∧
      replay.Opened source.client mapping outcome fromMs toMs
  every : ∀ market ∈ opened.1, ∀ outcome, ∃ replay ∈ opened.2,
    replay.market = market ∧ replay.outcome = outcome
  apart : opened.2.Pairwise fun first second =>
    first.market = second.market → first.outcome ≠ second.outcome

variable {fromMs : I64} {markets : List MarketId} {replay : TokenReplay}
  {envelopes : List (SourceEnvelope Decimal)}

theorem openMarket_opened {before after : List MarketId × List TokenReplay}
    {market : MarketId} (opened : source.OpenedMarkets fromMs toMs before)
    (handled : source.openMarket fromMs toMs before market = .ok after) :
    source.OpenedMarkets fromMs toMs after ∧
      ∀ other, other ∈ after.1 ↔ other = market ∨ other ∈ before.1 := by
  unfold openMarket at handled
  split at handled
  · rename_i known
    cases handled
    refine ⟨opened, fun other => ⟨.inr, ?_⟩⟩
    rintro (rfl | mem)
    · exact List.contains_iff_mem.mp known
    · exact mem
  · rename_i unknown
    split at handled
    · cases handled
    · rename_i mapping found
      obtain ⟨up, upOpened, handled⟩ := Fallible.bind_eq_ok.mp handled
      obtain ⟨down, downOpened, handled⟩ := Fallible.bind_eq_ok.mp handled
      cases handled
      have upOpened := TokenReplay.new_opened
        (TokenReplay.mapError_eq_ok upOpened)
      have downOpened := TokenReplay.new_opened
        (TokenReplay.mapError_eq_ok downOpened)
      have mem := List.mem_of_find?_eq_some found
      have named : mapping.market = market := by
        simpa using List.find?_some found
      refine ⟨⟨?_, ?_, ?_⟩, fun other => List.mem_cons⟩
      · intro replay inside
        rcases List.mem_append.mp inside with old | new
        · obtain ⟨other, otherMem, outcome, selected, otherOpened⟩ :=
            opened.of replay old
          exact ⟨other, otherMem, outcome, List.mem_cons_of_mem _ selected,
            otherOpened⟩
        · simp only [List.mem_cons, List.not_mem_nil, or_false] at new
          rcases new with rfl | rfl
          · exact ⟨mapping, mem, .up, named ▸ List.mem_cons_self, upOpened⟩
          · exact ⟨mapping, mem, .down, named ▸ List.mem_cons_self, downOpened⟩
      · intro other selected outcome
        rcases List.mem_cons.mp selected with rfl | selected
        · cases outcome with
          | up => exact ⟨up, by simp, upOpened.market.trans named,
              upOpened.named⟩
          | down => exact ⟨down, by simp, downOpened.market.trans named,
              downOpened.named⟩
        · obtain ⟨replay, inside, same⟩ := opened.every other selected outcome
          exact ⟨replay, List.mem_append_left _ inside, same⟩
      · refine List.pairwise_append.mpr ⟨opened.apart, ?_, ?_⟩
        · simp [upOpened.named, downOpened.named]
        · intro replay inside fresh new same
          exfalso
          apply unknown
          apply List.contains_iff_mem.mpr
          obtain ⟨other, _, _, selected, otherOpened⟩ := opened.of replay inside
          have freshMarket : fresh.market = market := by
            simp only [List.mem_cons, List.not_mem_nil, or_false] at new
            rcases new with rfl | rfl
            · exact upOpened.market.trans named
            · exact downOpened.market.trans named
          rw [← freshMarket, ← same, otherOpened.market]
          exact selected

theorem openMarkets_opened {before after : List MarketId × List TokenReplay}
    (opened : source.OpenedMarkets fromMs toMs before)
    (loop : markets.foldlM (source.openMarket fromMs toMs) before = .ok after) :
    source.OpenedMarkets fromMs toMs after ∧
      ∀ other, other ∈ after.1 ↔ other ∈ markets ∨ other ∈ before.1 := by
  induction markets generalizing before with
  | nil =>
      cases loop
      exact ⟨opened, fun other => by simp⟩
  | cons market rest ih =>
      rw [List.foldlM_cons] at loop
      obtain ⟨next, handled, others⟩ := Fallible.bind_eq_ok.mp loop
      obtain ⟨nextOpened, grown⟩ := openMarket_opened opened handled
      obtain ⟨allOpened, all⟩ := ih nextOpened others
      refine ⟨allOpened, fun other => ?_⟩
      rw [all, grown, List.mem_cons]
      tauto

structure Sends (source : OrbscanHistoricalDataSource)
    (markets : List MarketId) (fromMs toMs : I64) (replay : TokenReplay)
    (envelopes : List (SourceEnvelope Decimal)) : Prop where
  market : replay.market ∈ markets
  reconstructed : ∃ mapping ∈ source.mappings, ∃ updates,
    mapping.market = replay.market ∧ replay.toMs = toMs ∧
      TokenReplay.Reconstructed source.client mapping replay.outcome fromMs
        toMs replay updates envelopes

/-- Every opened stream has a first update, and sends what is read from its
snapshot on. -/
theorem OpenedMarkets.sends {opened : List MarketId × List TokenReplay}
    (openedMarkets : source.OpenedMarkets fromMs toMs opened)
    (window : fromMs < toMs) {after : TokenReplay}
    (mem : replay ∈ opened.2) {found : Option (SourceEnvelope Decimal)}
    (asked : TokenReplay.NextUpdate source.client replay found after) :
    ∃ first, found = some first ∧
      ∀ later, Yields (TokenReplay.NextUpdate source.client) after later →
        source.Sends opened.1 fromMs toMs replay (first :: later) := by
  obtain ⟨mapping, mapped, outcome, selected, replayOpened⟩ :=
    openedMarkets.of replay mem
  have reconstructed : ∀ later, ∃ first, found = some first ∧
      (Yields (TokenReplay.NextUpdate source.client) after later → ∃ updates,
        TokenReplay.Reconstructed source.client mapping outcome fromMs toMs
          replay updates (first :: later)) :=
    fun later => replayOpened.reconstructed window asked
  obtain ⟨first, rfl, _⟩ := reconstructed []
  refine ⟨first, rfl, fun later yields => ⟨?_, mapping, mapped, ?_⟩⟩
  · rw [replayOpened.market]
    exact selected
  · obtain ⟨_, same, behind⟩ := reconstructed later
    cases same
    obtain ⟨updates, sent⟩ := behind yields
    refine ⟨updates, replayOpened.market.symm, replayOpened.stops, ?_⟩
    rw [replayOpened.named]
    exact sent

theorem Sends.sorted
    (sends : source.Sends markets fromMs toMs replay envelopes) :
    envelopes.Pairwise fun earlier later =>
      compare earlier.canonicalKey later.canonicalKey = .lt := by
  obtain ⟨_, _, _, _, _, reconstructed⟩ := sends.reconstructed
  exact reconstructed.shown.sorted

/-- Each update of a stream is sound and lies in the window. -/
theorem Sends.sound (sends : source.Sends markets fromMs toMs replay envelopes)
    {envelope : SourceEnvelope Decimal} (mem : envelope ∈ envelopes) :
    SoundUpdate markets envelope ∧
      envelope.canonicalKey.timestampMs < toMs := by
  obtain ⟨mapping, _, updates, _, stops, shown, event, _, start, changes, _,
    read, _, behind⟩ := sends.reconstructed
  obtain ⟨own, rawFrame, update, inside, rfl, _, before, _⟩ := shown.mem mem
  have sound := tokenUpdates_sound (BookLevels.fromSnapshot_sound read) behind
    update inside
  refine ⟨⟨_, _, replay.market, sends.market, replay.outcome, _, _, rfl, ?_, ?_,
    ?_⟩, stops ▸ before⟩
  · apply List.pairwise_reverse.mpr
    exact update.2.bids.sorted.imp compare_lt_iff_lt.mp
  · exact update.2.asks.sorted.imp compare_lt_iff_lt.mp
  · intro level inLevels
    rcases List.mem_append.mp inLevels with bid | ask
    · exact sound.bids level (List.mem_reverse.mp bid)
    · exact sound.asks level ask

end OrbscanHistoricalDataSource

namespace TokenReplay

variable {replay : TokenReplay} {time : I64} {frame : Int}
  {updates : List (I64 × BookLevels)}
  {envelopes : List (SourceEnvelope Decimal)}

theorem updateOf_updateEnvelope
    (own : I64) (rawFrame : List UInt8) (update : I64 × BookLevels) :
    Pmkit.updateOf replay.market replay.outcome
        (replay.updateEnvelope own rawFrame update) =
      some (update.1, update.2.bids.entries.reverse, update.2.asks.entries) :=
  if_pos ⟨rfl, rfl⟩

/-- The updates are read back from what shows them. -/
theorem Shows.updateOf (shown : replay.Shows time frame updates envelopes) :
    envelopes.filterMap (Pmkit.updateOf replay.market replay.outcome) =
      updates.map fun update =>
        (update.1, update.2.bids.entries.reverse, update.2.asks.entries) := by
  induction shown with
  | nil => rfl
  | cons start stop numbered later ih =>
      rw [List.filterMap_cons_some (updateOf_updateEnvelope _ _ _),
        ih, List.map_cons]

theorem Shows.updateOf_other
    (shown : replay.Shows time frame updates envelopes) {market : MarketId}
    {outcome : Outcome}
    (ne : replay.market = market → replay.outcome ≠ outcome)
    {envelope : SourceEnvelope Decimal} (mem : envelope ∈ envelopes) :
    Pmkit.updateOf market outcome envelope = none := by
  obtain ⟨own, rawFrame, update, _, rfl, _⟩ := shown.mem mem
  exact if_neg fun same => ne same.1 same.2

end TokenReplay

namespace OrbscanHistoricalDataSource

/-! ## The whole replay -/

section Merged

variable {source : OrbscanHistoricalDataSource} {fromMs toMs : I64}
  {opened : List MarketId × List TokenReplay}
  {pending merged : List (Fin opened.2.length × SourceEnvelope Decimal)}
  {primed : Fin opened.2.length → TokenReplay}

def outOf {n : Nat} (merged : List (Fin n × SourceEnvelope Decimal))
    (stream : Fin n) : List (SourceEnvelope Decimal) :=
  (Interleaving.ownedBy Prod.fst stream merged).map Prod.snd

theorem mem_outOf {entry : Fin opened.2.length × SourceEnvelope Decimal}
    (mem : entry ∈ merged) : entry.2 ∈ outOf merged entry.1 :=
  List.mem_map.mpr ⟨entry, List.mem_filter.mpr ⟨mem, by simp⟩, rfl⟩

theorem merged_sends (openedMarkets : source.OpenedMarkets fromMs toMs opened)
    (window : fromMs < toMs)
    (started : Primed source.client opened.2.get primed (List.finRange _)
      pending)
    (merges : Merges (TokenReplay.NextUpdate source.client) PendingEvent.Le
      pending primed merged) (stream : Fin opened.2.length) :
    source.Sends opened.1 fromMs toMs (opened.2.get stream)
      (outOf merged stream) := by
  have nodup : (pending.map Prod.fst).Nodup :=
    started.owners ▸ List.nodup_finRange _
  have waiting : stream ∈ pending.map Prod.fst :=
    started.owners ▸ List.mem_finRange stream
  obtain ⟨entry, mem, rfl⟩ := List.mem_map.mp waiting
  obtain ⟨later, yields, owned⟩ := (merges.yields nodup).2 entry mem
  obtain ⟨first, same, sends⟩ := openedMarkets.sends window
    (List.get_mem opened.2 entry.1) (started.first entry mem)
  cases same
  rw [outOf, owned, List.map_map]
  simpa using sends later yields

theorem merged_sorted (openedMarkets : source.OpenedMarkets fromMs toMs opened)
    (window : fromMs < toMs)
    (started : Primed source.client opened.2.get primed (List.finRange _)
      pending)
    (merges : Merges (TokenReplay.NextUpdate source.client) PendingEvent.Le
      pending primed merged) : merged.Pairwise PendingEvent.Le := by
  have nodup : (pending.map Prod.fst).Nodup :=
    started.owners ▸ List.nodup_finRange _
  refine merges.sorted (fun before behind =>
    Std.TransCmp.isLE_trans before behind) nodup ?_
  intro entry mem later yields
  obtain ⟨first, same, sends⟩ := openedMarkets.sends window
    (List.get_mem opened.2 entry.1) (started.first entry mem)
  cases same
  refine ((sends later yields).sorted.map (Prod.mk entry.1) ?_)
  intro before behind less
  show ((compare before.canonicalKey behind.canonicalKey).then _).isLE
  rw [less]
  rfl

/-- The updates of one token are those of its stream. -/
theorem merged_updateOf
    (openedMarkets : source.OpenedMarkets fromMs toMs opened)
    (sends : ∀ stream, source.Sends opened.1 fromMs toMs (opened.2.get stream)
      (outOf merged stream)) (stream : Fin opened.2.length) :
    (merged.map Prod.snd).filterMap (updateOf (opened.2.get stream).market
        (opened.2.get stream).outcome) =
      (outOf merged stream).filterMap (updateOf (opened.2.get stream).market
        (opened.2.get stream).outcome) := by
  rw [outOf, Interleaving.ownedBy, List.filterMap_map, List.filterMap_map,
    List.filterMap_filter]
  apply List.filterMap_congr
  intro entry mem
  split
  · rfl
  · rename_i foreign
    obtain ⟨_, _, _, _, _, reconstructed⟩ := (sends entry.1).reconstructed
    apply reconstructed.shown.updateOf_other
    · have pairs := List.pairwise_iff_get.mp openedMarkets.apart
      have ne : entry.1 ≠ stream := by simpa using foreign
      rcases lt_or_gt_of_ne ne with before | behind
      · exact pairs _ _ before
      · intro same other
        exact pairs _ _ behind same.symm other.symm
    · exact mem_outOf mem

/-- The updates that are sent of a token are those that its pages say. -/
theorem reconstructs_of_sends
    (openedMarkets : source.OpenedMarkets fromMs toMs opened)
    (sends : ∀ stream, source.Sends opened.1 fromMs toMs (opened.2.get stream)
      (outOf merged stream)) {sent : List (SourceSignal Decimal)}
    (data : sentData sent = merged.map Prod.snd) {market : MarketId}
    (selected : market ∈ opened.1) (outcome : Outcome) :
    source.Reconstructs fromMs toMs market outcome sent := by
  obtain ⟨replay, mem, rfl, rfl⟩ :=
    openedMarkets.every market selected outcome
  obtain ⟨stream, rfl⟩ := List.get_of_mem mem
  obtain ⟨mapping, mapped, updates, same, _, shown, event, next, start, changes,
    answered, read, served, behind⟩ := (sends stream).reconstructed
  refine ⟨mapping, mapped, event, next, start, changes, updates, same, answered,
    read, served, behind, ?_⟩
  rw [sentUpdates, data, merged_updateOf openedMarkets sends, shown.updateOf]

end Merged

theorem tokenUpdates_head
    {client : OrbscanClient} {fromMs : I64} {snapshot : BookLevels}
    {changes : List OrbscanEvent} {updates : List (I64 × BookLevels)}
    (behind : tokenUpdates client fromMs snapshot changes = .ok updates) :
    updates.head?.map Prod.fst = some fromMs := by
  unfold tokenUpdates at behind
  obtain ⟨start, _, others⟩ := Fallible.bind_eq_ok.mp behind
  obtain ⟨later, _, joined⟩ := Fallible.bind_eq_ok.mp others
  cases joined
  rfl

theorem Reconstructs.first
    {source : OrbscanHistoricalDataSource} {fromMs toMs : I64}
    {market : MarketId} {outcome : Outcome}
    {sent : List (SourceSignal Decimal)}
    (reconstructs : source.Reconstructs fromMs toMs market outcome sent) :
    (sentUpdates market outcome sent).head?.map Prod.fst = some fromMs := by
  obtain ⟨_, _, _, _, _, _, updates, _, _, _, _, behind, shown⟩ := reconstructs
  rw [shown, List.head?_map, Option.map_map]
  exact tokenUpdates_head behind

/-- Behind the end of a stream nothing follows. -/
theorem split_of_eof {D : Type} {signals earlier later : List (SourceSignal D)}
    {watermark : I64}
    (split : signals ++ [.eof] = earlier ++ .watermark watermark :: later) :
    ∃ others, signals = earlier ++ .watermark watermark :: others ∧
      later = others ++ [.eof] := by
  rcases List.append_eq_append_iff.mp split with
    ⟨between, rfl, last⟩ | ⟨between, rfl, last⟩
  · cases between with
    | nil => cases last
    | cons signal rest =>
        have lengths := congrArg List.length last
        simp at lengths
  · cases between with
    | nil => cases last
    | cons signal rest =>
        obtain ⟨rfl, rfl⟩ := List.cons.inj last
        exact ⟨rest, rfl, rfl⟩

/-- What is announced up to the end of the window keeps all promises. -/
theorem replays_of_announced
    {source : OrbscanHistoricalDataSource} {query : ResearchQuery}
    {data : List (SourceEnvelope Decimal)}
    {signals : List (SourceSignal Decimal)}
    (announced : Announced query.toTime.timestampMillis none data signals)
    (books : query.fromTime.timestampMillis < query.toTime.timestampMillis →
      ∀ market ∈ query.markets, ∀ outcome,
        source.Reconstructs query.fromTime.timestampMillis
          query.toTime.timestampMillis market outcome (signals ++ [.eof]))
    (sound : ∀ envelope ∈ data, SoundUpdate query.markets envelope ∧
      envelope.canonicalKey.timestampMs < query.toTime.timestampMillis)
    (sorted : data.Pairwise fun earlier later =>
      (compare earlier.canonicalKey later.canonicalKey).isLE ∧
        earlier.canonicalKey.timestampMs ≤ later.canonicalKey.timestampMs) :
    source.Replays query (signals ++ [.eof]) := by
  have whole : sentData (signals ++ [.eof]) = data := by
    rw [sentData, List.filterMap_append]
    exact (List.append_nil _).trans announced.data_eq
  have marks : sentWatermarks (signals ++ [.eof]) = sentWatermarks signals := by
    rw [sentWatermarks, List.filterMap_append]
    exact List.append_nil _
  have above : ∀ earlier watermark later,
      signals ++ [.eof] = earlier ++ .watermark watermark :: later →
        ∀ envelope ∈ sentData later,
          watermark < envelope.canonicalKey.timestampMs := by
    intro earlier watermark later split envelope mem
    obtain ⟨others, inside, rfl⟩ := split_of_eof split
    apply announced.above (sorted.imp And.right) inside
    rw [sentData, List.filterMap_append] at mem
    exact (List.mem_append.mp mem).resolve_right (by simp)
  have rising : (sentWatermarks (signals ++ [.eof])).Pairwise (· < ·) := by
    rw [marks]
    exact announced.rising.1
  have ends : ∃ earlier, signals ++ [.eof] =
      earlier ++ [.watermark query.toTime.timestampMillis, .eof] := by
    obtain ⟨earlier, rfl⟩ := announced.ends
      (fun envelope mem => (sound envelope mem).2)
      (fun prev none => by cases none)
    exact ⟨earlier, List.append_assoc _ _ _⟩
  refine ⟨books, fun window market selected outcome =>
    (books window market selected outcome).first, ?_, ?_, above, rising, ends,
    ?_⟩
  · rw [whole]
    exact fun envelope mem => (sound envelope mem).1
  · rw [whole]
    exact sorted.imp And.left
  · intro name format events interleaved
    refine (MergedFeed.forward_of_interleaved (fun _ => rfl)
      (legal_of_signals above rising ends ?_ ?_) interleaved).1
    · rw [whole]
      exact fun envelope mem => (sound envelope mem).2.le
    · intro replayEnd isEnd
      cases isEnd
      exact le_refl _

/-- What a replay sends keeps all promises. -/
theorem replay_replays
    (source : OrbscanHistoricalDataSource)
    (order : ∀ n, IterationOrder (Fin n × SourceEnvelope Decimal)) (fuel : Nat)
    (query : ResearchQuery) (sent : List (SourceSignal Decimal))
    (accepted : source.replay order fuel query = some ⟨sent, .ok ()⟩) :
    source.Replays query sent := by
  obtain ⟨⟨signals, result⟩, inner, finished⟩ :=
    Option.map_eq_some_iff.mp accepted
  cases result with
  | error error => cases finished
  | ok =>
      cases finished
      unfold replayInner at inner
      split at inner
      · cases inner
      · simp only at inner
        split at inner
        · rename_i empty
          cases inner
          refine replays_of_announced (.ended fun previous none => by cases none)
            (fun window => absurd empty (not_le.mpr window)) ?_ .nil
          intro envelope member
          cases member
        · rename_i window
          rw [not_le] at window
          split at inner
          · cases inner
          · rename_i selected streams opening
            obtain ⟨openedMarkets, all⟩ := openMarkets_opened
              ⟨fun replay member => (by cases member),
                fun market member => (by cases member), .nil⟩ opening
            split at inner
            · cases inner
            · cases inner
            · rename_i pending primed priming
              obtain ⟨found, rfl, started⟩ := primeStreams_primed
                (List.nodup_finRange _) priming (by
                  intro stream _ found after asked
                  obtain ⟨first, same, _⟩ := openedMarkets.sends window
                    (List.get_mem streams stream) asked
                  exact ⟨first, same⟩)
              obtain ⟨merged, signals, merges, rfl, announced⟩ :=
                merge_announced inner fun _ watermark given => by cases given
              have sends := merged_sends openedMarkets window started merges
              apply replays_of_announced announced
              · intro _ market selected' outcome
                apply reconstructs_of_sends openedMarkets sends
                · rw [sentData, List.filterMap_append]
                  exact (List.append_nil _).trans announced.data_eq
                · exact (all market).mpr (.inl selected')
              · intro envelope member
                obtain ⟨entry, inside, rfl⟩ := List.mem_map.mp member
                obtain ⟨⟨metadata, rawFrame, market, selected', sound⟩,
                  before⟩ := (sends entry.1).sound (mem_outOf inside)
                have queried : market ∈ query.markets := by
                  simpa using (all market).mp selected'
                exact ⟨⟨metadata, rawFrame, market, queried, sound⟩, before⟩
              · exact (merged_sorted openedMarkets window started merges).map
                  Prod.snd fun earlier later before =>
                    ⟨PendingEvent.key_le before,
                      PendingEvent.timestampMs_le before⟩

end OrbscanHistoricalDataSource

namespace OrbscanSample

def fromStrExact : String → Option Decimal
  | "0.40" => some (2 / 5)
  | "0.60" => some (3 / 5)
  | "0.5" => some (1 / 2)
  | "10" => some 10
  | "5" => some 5
  | "7" => some 7
  | "2" => some 2
  | "0" => some 0
  | _ => none

def quoted (text : String) : String :=
  "\"" ++ text ++ "\""

def optional (text : Option String) : String :=
  (text.map quoted).getD "null"

def levels (levels : Option (List (String × String))) : String :=
  (levels.map fun levels => "[" ++ ",".intercalate (levels.map fun level =>
    "[" ++ quoted level.1 ++ "," ++ quoted level.2 ++ "]") ++ "]").getD "null"

def eventText (event : OrbscanEvent) : String :=
  "\x7b" ++ ",".intercalate
    ["\"cursor\":" ++ quoted event.cursor,
      "\"marketId\":" ++ quoted event.marketId,
      "\"conditionId\":" ++ quoted event.conditionId,
      "\"tokenId\":" ++ quoted event.tokenId,
      "\"outcome\":" ++ optional event.outcome,
      "\"eventType\":" ++ quoted event.eventType,
      "\"timestamp\":" ++ toString event.timestamp.1,
      "\"indexedTimestamp\":" ++ toString event.indexedTimestamp.1,
      "\"side\":" ++ optional event.side,
      "\"price\":" ++ optional event.price,
      "\"sizeAfter\":" ++ optional event.sizeAfter,
      "\"bids\":" ++ levels event.bids,
      "\"asks\":" ++ levels event.asks,
      "\"sourceHash\":" ++ optional event.sourceHash] ++ "\x7d"

def snapshot (cursor tokenId : String) (timestamp : I64)
    (bids asks : List (String × String)) : OrbscanEvent where
  cursor := cursor
  marketId := "1"
  conditionId := "0xab"
  tokenId := tokenId
  outcome := none
  eventType := "book"
  timestamp := timestamp
  indexedTimestamp := timestamp
  side := none
  price := none
  sizeAfter := none
  bids := some bids
  asks := some asks
  sourceHash := none

def change (cursor : String) (timestamp : I64) (side price size : String) :
    OrbscanEvent where
  cursor := cursor
  marketId := "1"
  conditionId := "0xab"
  tokenId := "11"
  outcome := none
  eventType := "price_change"
  timestamp := timestamp
  indexedTimestamp := timestamp
  side := some side
  price := some price
  sizeAfter := some size
  bids := none
  asks := none
  sourceHash := none

/-- The changes of the first token come on two pages, one of them before the
start; the second token has none. -/
def eventPage (request : EventRequest) : EventPage :=
  match request.eventType, request.tokenId, request.cursor with
  | "book", "11", _ =>
      ⟨[snapshot "s1" "11" 900 [("0.40", "10")] [("0.60", "5")]], none⟩
  | "book", _, _ => ⟨[snapshot "t1" "22" 1000 [] []], none⟩
  | _, "11", some "s1" =>
      ⟨[change "c1" 950 "BUY" "0.40" "0", change "c2" 1000 "SELL" "0.60" "7"],
        some "p2"⟩
  | _, "11", _ => ⟨[change "c3" 1500 "BUY" "0.5" "2"], none⟩
  | _, _, _ => ⟨[], none⟩

def source : OrbscanHistoricalDataSource where
  client :=
    { eventPage := fun request => .ok (eventPage request)
      fromStrExact := fromStrExact
      toVec := fun event => some (eventText event).toUTF8.data.toList }
  mappings :=
    [{ market := ⟨"sol-hour", by decide⟩
       orbscanMarketId := "1"
       conditionId := "0xAB"
       up := ⟨"Up", "11"⟩
       down := ⟨"Down", "22"⟩ }]

def query : ResearchQuery where
  fromTime := ⟨1, 0, by decide, DateTime.whole⟩
  toTime := ⟨2, 0, by decide, DateTime.whole⟩
  markets := source.mappings.map OrbscanMarketMapping.market
  evidence := .allowSingleSource

def replayed : Option (Replayed Decimal) :=
  source.replay (fun _ => .stored _) 20 query

def sent : List (SourceSignal Decimal) :=
  (replayed.map Replayed.sent).getD []

/-- The updates of both tokens are merged, with a watermark behind each time. -/
example : sentWatermarks sent = [999, 1499, 2000] := by
  decide +kernel

theorem accepted : replayed = some ⟨sent, .ok ()⟩ := by
  have finished : replayed.map Replayed.result = some (.ok ()) := by
    decide +kernel
  obtain ⟨⟨signals, result⟩, found, same⟩ := Option.map_eq_some_iff.mp finished
  cases same
  rw [sent, found]
  rfl

end OrbscanSample

theorem OrbscanHistoricalDataSource.sample_replays :
    OrbscanSample.source.Replays OrbscanSample.query OrbscanSample.sent :=
  replay_replays OrbscanSample.source (fun _ => .stored _) 20
    OrbscanSample.query OrbscanSample.sent OrbscanSample.accepted

end Pmkit
