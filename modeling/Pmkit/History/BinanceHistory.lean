import Pmkit.Feed.Historical
import Pmkit.Feed.Interleaving
import Pmkit.Library.Instants

/-!
# Binance history

The window of a replay is turned into whole days, and every trade of the
archives of these days is sent.  A first or last day that lies only partly in
the window brings trades from outside of it.
-/

namespace Pmkit

open MachineInt

/-- The window of a replay request, the only part that this source reads. -/
structure ReplayWindow where
  fromTime : DateTime
  toTime : DateTime

/-- The trades of the window, from its start and before its end. -/
def ReplayWindow.Contains (window : ReplayWindow) (timestampMs : I64) : Prop :=
  window.fromTime.notAfter timestampMs = true ∧
    window.toTime.notAfter timestampMs = false

def daysFrom (date : Int) : Nat → List Int
  | 0 => []
  | count + 1 => date :: daysFrom (date + 1) count

/-- `archive_dates`. -/
def archiveDates (window : ReplayWindow) : List Int :=
  let date := window.fromTime.dateNaive
  let finish := window.toTime.dateNaive
  let dates := daysFrom date (finish - date).toNat
  if date ≤ finish ∧ window.fromTime.before window.toTime = true ∧
      window.toTime.isMidnight = false then
    dates ++ [finish]
  else
    dates

/-- `reference_trade_identity`. -/
def referenceTradeIdentity {D : Type} (fact : CexReferenceEvent D) :
    Except DataSourceError (I64 × UInt64) :=
  if fact.aggregateTradeId.toNat < 9223372036854775808 then
    .ok (I64.clamp fact.aggregateTradeId.toNat, fact.aggregateTradeId)
  else
    .error (.replayGap "Binance aggregate trade ID exceeds frame range")

/-- A historical source of one asset over the archive cache. -/
structure BinanceVisionHistory (D : Type) where
  cache : Asset → Int → Except DataSourceError (List (CexReferenceEvent D))
  asset : Asset
  dateText : Int → String

namespace BinanceVisionHistory

variable {D : Type} (source : BinanceVisionHistory D)

def tradeEnvelope (date : Int) (frameSequence : I64) (ingestSequence : UInt64)
    (fact : CexReferenceEvent D) : SourceEnvelope D :=
  .cexReference
    { metadata :=
        { schemaVersion := 1
          sourceId := "binance:aggTrade"
          sourceTimeMs := fact.timestampMs
          canonicalSourceRank := 1
          receiptTimeMs := fact.timestampMs
          connectionId := source.dateText date
          connectionEpoch := 0
          frameSequence
          ingestSequence }
      fact }

/-- What the loop over the trades of a day does with one: it goes on with the
signals sent so far, or it returns. -/
def sendTrade (date : Int) (sent : List (SourceSignal D))
    (fact : CexReferenceEvent D) :
    Except (Replayed D) (List (SourceSignal D)) :=
  match referenceTradeIdentity fact with
  | .error error => .error ⟨sent, .error error⟩
  | .ok (frameSequence, ingestSequence) =>
      .ok (sent ++
        [.data (source.tradeEnvelope date frameSequence ingestSequence fact)])

def sendDay (sent : List (SourceSignal D)) (date : Int) :
    Except (Replayed D) (List (SourceSignal D)) :=
  match source.cache source.asset date with
  | .error error => .error ⟨sent, .error error⟩
  | .ok facts => facts.foldlM (source.sendTrade date) sent

/-- `replay` while the merge takes its signals. -/
def replay (window : ReplayWindow) : Replayed D :=
  match (archiveDates window).foldlM source.sendDay [] with
  | .error returned => returned
  | .ok sent =>
      ⟨sent ++ [.watermark window.toTime.timestampMillis, .eof], .ok ()⟩

end BinanceVisionHistory

def sentTrades {D : Type} (signals : List (SourceSignal D)) :
    List (CexReferenceEvent D) :=
  signals.filterMap fun
    | .data (.cexReference envelope) => some envelope.fact
    | _ => none

/-- The archives of all days: each day's trades, sorted by time, with distinct
identifiers that fit a frame sequence. -/
structure ArchivedDays {D : Type}
    (archive : Int → List (CexReferenceEvent D)) : Prop where
  inside : ∀ date, ∀ fact ∈ archive date,
    date * 86400000 ≤ fact.timestampMs.1 ∧
      fact.timestampMs.1 < (date + 1) * 86400000
  sorted : ∀ date, (archive date).Pairwise
    fun earlier later => earlier.timestampMs ≤ later.timestampMs
  distinct : ∀ date,
    ((archive date).map CexReferenceEvent.aggregateTradeId).Nodup
  identifiers : ∀ date, ∀ fact ∈ archive date,
    fact.aggregateTradeId.toNat < 9223372036854775808

def windowFeed {D : Type} (window : ReplayWindow) (format : EventFormat D) :
    MergedFeed D where
  mode := .backtest
  replayEndMs := some window.toTime.timestampMillis
  format := format
  sink := fun _ => true

/-- A replay sends the archived trades of the window, each once and in the
order of time, and the merge of a backtest accepts it. -/
structure BinanceVisionHistory.Replays {D : Type}
    (source : BinanceVisionHistory D) (window : ReplayWindow)
    (archive : Int → List (CexReferenceEvent D)) : Prop where
  returned : (source.replay window).result = .ok ()
  exactly : ∀ fact, fact ∈ sentTrades (source.replay window).sent ↔
    (∃ date, fact ∈ archive date) ∧ window.Contains fact.timestampMs
  once : (sentTrades (source.replay window).sent).Nodup
  ordered : (sentTrades (source.replay window).sent).Pairwise
    fun earlier later => earlier.timestampMs ≤ later.timestampMs
  merged : ∀ (name : String) (format : EventFormat D)
    (events : List (MergeEvent D)),
    MergedFeed.Interleaved [⟨name, (source.replay window).sent⟩] events →
      ((windowFeed window format).forward [name] events).result =
        some (.ok ())

section Days

variable {window : ReplayWindow} {date first : Int} {count : Nat}

theorem mem_daysFrom :
    date ∈ daysFrom first count ↔ first ≤ date ∧ date < first + count := by
  induction count generalizing first with
  | zero =>
      simp only [daysFrom, List.not_mem_nil, false_iff]
      omega
  | succ count ih =>
      rw [daysFrom, List.mem_cons, ih]
      push_cast
      omega

theorem daysFrom_rising : (daysFrom first count).Pairwise (· < ·) := by
  induction count generalizing first with
  | zero => exact .nil
  | succ count ih =>
      refine List.pairwise_cons.mpr ⟨?_, ih⟩
      intro date mem
      have bounds := mem_daysFrom.mp mem
      omega

theorem archiveDates_rising (window : ReplayWindow) :
    (archiveDates window).Pairwise (· < ·) := by
  unfold archiveDates
  dsimp only
  split
  · refine List.pairwise_append.mpr ⟨daysFrom_rising,
      List.pairwise_singleton _ _, ?_⟩
    intro date mem other last
    rw [List.mem_singleton.mp last]
    have bounds := mem_daysFrom.mp mem
    omega
  · exact daysFrom_rising

/-- The day of a trade in the window is among the days replayed. -/
theorem mem_archiveDates (ordered : window.fromTime.before window.toTime = true)
    {timestampMs : I64} (contained : window.Contains timestampMs)
    (start : date * 86400000 ≤ timestampMs.1)
    (finish : timestampMs.1 < (date + 1) * 86400000) :
    date ∈ archiveDates window := by
  have first := DateTime.seconds_le_of_notAfter contained.1
  have last := DateTime.le_seconds_of_not_notAfter contained.2
  have low : window.fromTime.dateNaive ≤ date := by
    unfold DateTime.dateNaive
    omega
  have high : date ≤ window.toTime.dateNaive := by
    unfold DateTime.dateNaive
    omega
  unfold archiveDates
  dsimp only
  by_cases earlier : date < window.toTime.dateNaive
  · have mem : date ∈ daysFrom window.fromTime.dateNaive
        (window.toTime.dateNaive - window.fromTime.dateNaive).toNat :=
      mem_daysFrom.mpr ⟨low, by omega⟩
    split
    · exact List.mem_append_left _ mem
    · exact mem
  · -- a last day that begins at midnight has no trades in the window
    have partly : window.toTime.isMidnight = false := by
      unfold DateTime.isMidnight DateTime.dateNaive at *
      rw [Bool.and_eq_false_iff, decide_eq_false_iff_not,
        decide_eq_false_iff_not]
      omega
    rw [if_pos ⟨by omega, ordered, partly⟩]
    have same : date = window.toTime.dateNaive := by omega
    rw [same]
    exact List.mem_append_right _ List.mem_cons_self

end Days

/-! ## What a replay sends -/

section Sending

variable {D : Type} {source : BinanceVisionHistory D} {window : ReplayWindow}
  {archive : Int → List (CexReferenceEvent D)}

def BinanceVisionHistory.daySignals (source : BinanceVisionHistory D)
    (date : Int) (facts : List (CexReferenceEvent D)) :
    List (SourceSignal D) :=
  facts.map fun fact => .data (source.tradeEnvelope date
    (I64.clamp fact.aggregateTradeId.toNat) fact.aggregateTradeId fact)

theorem sendTrades (date : Int) {facts : List (CexReferenceEvent D)}
    (identifiers : ∀ fact ∈ facts,
      fact.aggregateTradeId.toNat < 9223372036854775808)
    (sent : List (SourceSignal D)) :
    facts.foldlM (source.sendTrade date) sent =
      .ok (sent ++ source.daySignals date facts) := by
  induction facts generalizing sent with
  | nil =>
      simp [BinanceVisionHistory.daySignals, pure, Except.pure]
  | cons fact rest ih =>
      obtain ⟨fits, others⟩ := List.forall_mem_cons.mp identifiers
      have first : source.sendTrade date sent fact =
          .ok (sent ++ source.daySignals date [fact]) := by
        unfold BinanceVisionHistory.sendTrade referenceTradeIdentity
        rw [if_pos fits]
        rfl
      rw [List.foldlM_cons, first]
      refine (ih others _).trans ?_
      simp [BinanceVisionHistory.daySignals]

variable {dates : List Int}

theorem sendDays (days : ArchivedDays archive)
    (served : ∀ date ∈ dates,
      source.cache source.asset date = .ok (archive date))
    (sent : List (SourceSignal D)) :
    dates.foldlM source.sendDay sent =
      .ok (sent ++ dates.flatMap fun date =>
        source.daySignals date (archive date)) := by
  induction dates generalizing sent with
  | nil =>
      simp [pure, Except.pure]
  | cons date rest ih =>
      obtain ⟨available, others⟩ := List.forall_mem_cons.mp served
      have first : source.sendDay sent date =
          .ok (sent ++ source.daySignals date (archive date)) := by
        unfold BinanceVisionHistory.sendDay
        rw [available]
        exact sendTrades date (days.identifiers date) sent
      rw [List.foldlM_cons, first]
      refine (ih others _).trans ?_
      simp

/-- A replay sends every trade of its days, and then the end of the window. -/
theorem replay_eq (days : ArchivedDays archive)
    (served : ∀ date ∈ archiveDates window,
      source.cache source.asset date = .ok (archive date)) :
    source.replay window =
      ⟨((archiveDates window).flatMap fun date =>
          source.daySignals date (archive date)) ++
        [.watermark window.toTime.timestampMillis, .eof], .ok ()⟩ := by
  unfold BinanceVisionHistory.replay
  rw [sendDays days served, List.nil_append]

theorem sentTrades_daySignals (date : Int)
    (facts : List (CexReferenceEvent D)) :
    sentTrades (source.daySignals date facts) = facts := by
  simp [sentTrades, BinanceVisionHistory.daySignals,
    BinanceVisionHistory.tradeEnvelope]

theorem sentTrades_replay (days : ArchivedDays archive)
    (served : ∀ date ∈ archiveDates window,
      source.cache source.asset date = .ok (archive date)) :
    sentTrades (source.replay window).sent =
      (archiveDates window).flatMap archive := by
  rw [replay_eq days served]
  unfold sentTrades
  rw [List.filterMap_append, List.filterMap_flatMap]
  have same : ((archiveDates window).flatMap fun date =>
      sentTrades (source.daySignals date (archive date))) =
        (archiveDates window).flatMap archive :=
    List.flatMap_congr fun date _ => sentTrades_daySignals date _
  exact (List.append_nil _).trans same

/-- Trades of an earlier day come before those of a later one. -/
theorem archived_lt (days : ArchivedDays archive) {date other : Int}
    (earlier : date < other) {fact later : CexReferenceEvent D}
    (mem : fact ∈ archive date) (laterMem : later ∈ archive other) :
    fact.timestampMs < later.timestampMs := by
  have first := days.inside date fact mem
  have second := days.inside other later laterMem
  change fact.timestampMs.1 < later.timestampMs.1
  omega

theorem archived_ordered (days : ArchivedDays archive)
    (rising : dates.Pairwise (· < ·)) :
    (dates.flatMap archive).Pairwise
      fun earlier later => earlier.timestampMs ≤ later.timestampMs := by
  rw [List.flatMap_def, List.pairwise_flatten]
  refine ⟨?_, List.pairwise_map.mpr (rising.imp ?_)⟩
  · intro facts mem
    obtain ⟨date, _, rfl⟩ := List.mem_map.mp mem
    exact days.sorted date
  · intro date other earlier fact mem later laterMem
    exact (archived_lt days earlier mem laterMem).le

theorem archived_nodup (days : ArchivedDays archive)
    (rising : dates.Pairwise (· < ·)) : (dates.flatMap archive).Nodup := by
  rw [List.flatMap_def, List.Nodup, List.pairwise_flatten]
  refine ⟨?_, List.pairwise_map.mpr (rising.imp ?_)⟩
  · intro facts mem
    obtain ⟨date, _, rfl⟩ := List.mem_map.mp mem
    exact (days.distinct date).of_map
  · rintro date other earlier fact mem _ laterMem rfl
    exact lt_irrefl _ (archived_lt days earlier mem laterMem)

end Sending

/-! ## Merging what was sent -/

section Merging

variable {D : Type} {source : BinanceVisionHistory D} {window : ReplayWindow}
  {archive : Int → List (CexReferenceEvent D)}

variable {signals : List (SourceSignal D)}

theorem lastWatermark_of_data
    (data : ∀ signal ∈ signals, ∃ envelope, signal = .data envelope) :
    lastWatermark signals = none := by
  induction signals with
  | nil => rfl
  | cons signal rest ih =>
      obtain ⟨⟨envelope, rfl⟩, others⟩ := List.forall_mem_cons.mp data
      exact ih others

theorem legal_of_data {feed : MergedFeed D} {name : String} {last : I64}
    (data : ∀ signal ∈ signals, ∃ envelope, signal = .data envelope ∧
      envelope.canonicalKey.timestampMs ≤ last)
    (ends : ∀ replayEnd, feed.replayEndMs = some replayEnd → replayEnd ≤ last) :
    feed.Legal [⟨name, signals ++ [.watermark last, .eof]⟩] := by
  have unmarked : ∀ {earlier signal later},
      signals ++ [.watermark last, .eof] = earlier ++ signal :: later →
        signal ≠ .eof → lastWatermark earlier = none := by
    intro earlier signal later split notEof
    have inside : earlier <+: signals := by
      apply List.prefix_of_prefix_length_le ⟨_, split.symm⟩
        (List.prefix_append signals _)
      have lengths := congrArg List.length split
      simp only [List.length_append, List.length_cons, List.length_nil]
        at lengths
      by_contra longer
      have none : later = [] := List.length_eq_zero_iff.mp (by omega)
      have lasts := congrArg List.getLast? split
      rw [none] at lasts
      simp at lasts
      exact notEof lasts.symm
    apply lastWatermark_of_data
    intro other mem
    obtain ⟨envelope, same, _⟩ := data other (inside.subset mem)
    exact ⟨envelope, same⟩
  constructor
  · exact List.nodup_singleton _
  · intro definition mem earlier envelope later split watermark marked
    rw [List.mem_singleton.mp mem] at split
    rw [unmarked split (by simp)] at marked
    cases marked
  · intro definition mem earlier watermark later split prev marked
    rw [List.mem_singleton.mp mem] at split
    rw [unmarked split (by simp)] at marked
    cases marked
  · intro definition mem
    rw [List.mem_singleton.mp mem]
    refine ⟨last, ?_, ?_, fun _ => ends⟩
    · rw [lastWatermark_append]
      rfl
    · intro other otherMem fact isFact
      rw [List.mem_singleton.mp otherMem] at isFact
      unfold SourceDefinition.facts SourceDefinition.inputs at isFact
      obtain ⟨input, inputMem, found⟩ := List.mem_filterMap.mp isFact
      simp only [List.map_append, List.map_cons, List.map_nil,
        List.append_assoc, List.mem_append, List.mem_map, List.mem_cons,
        List.not_mem_nil, or_false] at inputMem
      rcases inputMem with ⟨signal, inside, rfl⟩ | rest
      · obtain ⟨envelope, rfl, bound⟩ := data signal inside
        cases found
        exact bound
      · rcases rest with (rfl | rfl) | rfl <;> cases found
  · intro definition mem
    rw [List.mem_singleton.mp mem]
    simp

theorem replay_merged (days : ArchivedDays archive)
    (served : ∀ date ∈ archiveDates window,
      source.cache source.asset date = .ok (archive date))
    (within : ∀ date ∈ archiveDates window, ∀ fact ∈ archive date,
      window.Contains fact.timestampMs)
    (name : String) (format : EventFormat D) (events : List (MergeEvent D))
    (interleaved : MergedFeed.Interleaved
      [⟨name, (source.replay window).sent⟩] events) :
    ((windowFeed window format).forward [name] events).result =
      some (.ok ()) := by
  rw [replay_eq days served] at interleaved
  refine (MergedFeed.forward_of_interleaved (fun _ => rfl)
    (legal_of_data ?_ ?_) interleaved).1
  · intro signal mem
    obtain ⟨date, inside, isSignal⟩ := List.mem_flatMap.mp mem
    obtain ⟨fact, stored, rfl⟩ := List.mem_map.mp isSignal
    exact ⟨_, rfl, DateTime.le_timestampMillis (within date inside fact stored).2⟩
  · intro replayEnd isEnd
    cases isEnd
    exact le_refl _

end Merging

namespace BinanceSample

def hour (hours : Int) (inside : -1000 ≤ hours ∧ hours ≤ 1000) : DateTime where
  seconds := 1767225600 + hours * 3600
  nanosecond := 0
  year := by omega
  leap := DateTime.whole

def trade : CexReferenceEvent Decimal where
  asset := .btc
  exchange := .binance
  aggregateTradeId := 7
  price := 88000
  qty := 1
  isBuyerMaker := false
  timestampMs := 1767247200000

def archive (date : Int) : List (CexReferenceEvent Decimal) :=
  if date = 20454 then [trade] else []

def source : BinanceVisionHistory Decimal where
  cache _ date := .ok (archive date)
  asset := .btc
  dateText date := if date = 20454 then "2026-01-01" else ""

def day : ReplayWindow where
  fromTime := hour 0 (by decide)
  toTime := hour 24 (by decide)

def afternoon : ReplayWindow where
  fromTime := hour 12 (by decide)
  toTime := hour 18 (by decide)

theorem archive_days : ArchivedDays archive := by
  constructor
  · intro date fact mem
    unfold archive at mem
    split at mem
    · rename_i same
      rw [List.mem_singleton.mp mem, same]
      decide
    · cases mem
  · intro date
    unfold archive
    split
    · exact List.pairwise_singleton _ _
    · exact .nil
  · intro date
    unfold archive
    split
    · exact List.nodup_singleton _
    · exact List.nodup_nil
  · intro date fact mem
    unfold archive at mem
    split at mem
    · rw [List.mem_singleton.mp mem]
      decide
    · cases mem

end BinanceSample

open BinanceSample

end Pmkit
