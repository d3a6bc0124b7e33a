import Pmkit.Export.Codec

/-!
# Gaps and what is exported

A gap names a market and the start of a UTC day; the exporter reads the number
as the start of a minute.  A gap therefore stops only the export of the first
minute of its day, and one whose partition cannot be read stops none.

Once the records of a scope are grouped, an export fails for two reasons only:
a gap that the exporter takes for one of its groups, and a row that no part can
hold.
-/

namespace Pmkit

open MachineInt JsonValue

/-! ## Groups that can be written -/

/-- What every group has: bounds in order, and rows with a time. -/
structure SegmentRows.IsComplete (segment : SegmentRows) : Prop where
  bounds : segment.metadata.openTimeMs ≤ segment.metadata.closeTimeMs
  times : ∀ row ∈ segment.rows, ∃ time, rowTime row = some time

variable {metadata : MarketMetadata} {manifest : SealedClosedDayManifest}

theorem MarketMetadata.openTimeMs_le (valid : metadata.isValid = true) :
    metadata.openTimeMs ≤ metadata.closeTimeMs := by
  simp only [MarketMetadata.isValid, Bool.and_eq_true] at valid
  simpa using valid.1.2

/-- The metadata that an envelope is grouped under has its bounds in order. -/
theorem marketMetadata_bounds {normalized : JsonValue} {marketId : String}
    {legacyCoverage : Bool}
    (found : marketMetadata normalized marketId = .ok (metadata, legacyCoverage))
    (accepted : ¬(legacyCoverage = false ∧ metadata.isValid = false)) :
    metadata.openTimeMs ≤ metadata.closeTimeMs := by
  unfold marketMetadata at found
  split at found
  · cases found
    show (0 : Int) ≤ I64.maxValue.1
    decide
  · split at found
    · cases found
    · cases found
      apply MarketMetadata.openTimeMs_le
      simpa using accepted

theorem rowTime_exportRow (envelope : PmEnvelope) :
    rowTime (exportRow envelope) = some envelope.sourceTimestampMs.1 := by
  have ordinalFirst : compare "event_ordinal" "event_time_ms" = .lt := by
    decide
  have payloadLater : compare "payload" "event_time_ms" = .gt := by
    decide
  have payloadLast : compare "payload" "event_ordinal" = .gt := by
    decide
  have otherField : ("event_time_ms" == "event_ordinal") = false := by
    decide
  obtain ⟨above, below⟩ := envelope.sourceTimestampMs.2
  have inRange : -(2 ^ 63) ≤ envelope.sourceTimestampMs.1 ∧
      envelope.sourceTimestampMs.1 < 2 ^ 63 := by
    omega
  simp only [rowTime, exportRow, ofFields, List.foldl_cons, List.foldl_nil,
    insertField, ordinalFirst, payloadLater, payloadLast, JsonValue.get,
    List.lookup_cons, otherField, beq_self_eq_true, Option.bind_some, asI64,
    if_pos inRange]

namespace SegmentMap

theorem pushRow_complete
    {partition : SegmentPartition} {metadata : MarketMetadata}
    {legacyCoverage : Bool} {row : JsonValue} {time : Int}
    (bounds : metadata.openTimeMs ≤ metadata.closeTimeMs)
    (timed : rowTime row = some time) {segments : SegmentMap}
    (complete : ∀ entry ∈ segments, entry.2.IsComplete) :
    ∀ entry ∈ segments.pushRow partition metadata legacyCoverage row,
      entry.2.IsComplete := by
  have opened : SegmentRows.IsComplete ⟨metadata, legacyCoverage, [row]⟩ := by
    refine ⟨bounds, ?_⟩
    intro other mem
    rw [List.mem_singleton] at mem
    exact ⟨time, by rw [mem, timed]⟩
  induction segments with
  | nil =>
      intro entry mem
      rw [pushRow, List.mem_singleton] at mem
      rw [mem]
      exact opened
  | cons head rest ih =>
      have headComplete := complete head List.mem_cons_self
      have restComplete := fun entry mem =>
        complete entry (List.mem_cons_of_mem _ mem)
      intro entry mem
      unfold pushRow at mem
      split at mem
      · rcases List.mem_cons.mp mem with rfl | stored
        · exact opened
        · exact complete entry stored
      · rcases List.mem_cons.mp mem with rfl | later
        · refine ⟨headComplete.bounds, ?_⟩
          intro other inside
          rcases List.mem_append.mp inside with before | last
          · exact headComplete.times other before
          · rw [List.mem_singleton] at last
            exact ⟨time, by rw [last, timed]⟩
        · exact restComplete entry later
      · rcases List.mem_cons.mp mem with rfl | later
        · exact headComplete
        · exact ih restComplete entry later

end SegmentMap

theorem materializeItem_complete {text : PortableText}
    {segments next : SegmentMap} {item : ReplayItem}
    (complete : ∀ entry ∈ segments, entry.2.IsComplete)
    (handled : materializeItem text manifest segments item = .ok next) :
    ∀ entry ∈ next, entry.2.IsComplete := by
  cases item with
  | gap gap =>
      simp only [materializeItem] at handled
      split at handled
      · cases handled
      · cases handled
        exact complete
  | envelope envelope =>
      simp only [materializeItem, materializeEnvelope] at handled
      split at handled
      · cases handled
      · split at handled
        · cases handled
        · split at handled
          · cases handled
          · split at handled
            · cases handled
            · cases handled
              rename_i found accepted
              exact SegmentMap.pushRow_complete
                (marketMetadata_bounds found accepted)
                (rowTime_exportRow envelope) complete

/-- Every group of an export is complete. -/
theorem collectSegments_complete
    {text : PortableText} {store : MarketStore} {scope : OwnerScope}
    {segments : SegmentMap}
    (collected : collectSegments text store scope manifest = .ok segments) :
    ∀ entry ∈ segments, entry.2.IsComplete := by
  rw [collectSegments, EnvelopeTable.forAll_eq (by decide)] at collected
  have start : ∀ entry ∈ ([] : SegmentMap), entry.2.IsComplete := by
    simp
  generalize ([] : SegmentMap) = first at collected start
  generalize (store.envelopes.scopeRows scope).map
    (decodeRow text.toStoreText) = items at collected
  induction items generalizing first with
  | nil =>
      cases collected
      exact start
  | cons item rest ih =>
      rw [List.foldlM_cons] at collected
      cases handled : materializeItem text manifest first item with
      | error error =>
          rw [handled] at collected
          cases collected
      | ok next =>
          rw [handled] at collected
          exact ih next
            (materializeItem_complete start handled) collected

/-! ## Rows that fit -/

def SegmentMap.Fits (text : PortableText) (segments : SegmentMap) : Prop :=
  ∀ entry ∈ segments, ∀ row ∈ entry.2.rows,
    lineBytes text row ≤ maxLogicalSegmentBytes

section Parts

variable {text : PortableText}

theorem rollFrom_eq_ok {byteLimit partBytes : Nat} {part rows : List JsonValue}
    (fit : ∀ row ∈ rows, lineBytes text row ≤ byteLimit) :
    ∃ parts, rollFrom text byteLimit part partBytes rows = .ok parts ∧
      ∀ rolled ∈ parts, rolled ≠ [] ∧
        ∀ row ∈ rolled, row ∈ part ∨ row ∈ rows := by
  induction rows generalizing part partBytes with
  | nil =>
      refine ⟨_, rfl, ?_⟩
      intro rolled mem
      by_cases empty : part = []
      · simp [empty] at mem
      · rw [if_neg empty, List.mem_singleton] at mem
        rw [mem]
        exact ⟨empty, fun row inside => .inl inside⟩
  | cons row rest ih =>
      have short := fit row List.mem_cons_self
      have restFit := fun other mem =>
        fit other (List.mem_cons_of_mem _ mem)
      rw [rollFrom, if_neg (by omega)]
      by_cases full : part ≠ [] ∧ byteLimit < partBytes + lineBytes text row
      · obtain ⟨parts, rolledRest, nonempty⟩ :=
          @ih (lineBytes text row) [row] restFit
        refine ⟨part :: parts, by rw [if_pos full, rolledRest]; rfl, ?_⟩
        intro rolled mem
        rcases List.mem_cons.mp mem with rfl | later
        · exact ⟨full.1, fun other inside => .inl inside⟩
        · obtain ⟨filled, inside⟩ := nonempty rolled later
          refine ⟨filled, fun other mem => .inr ?_⟩
          rcases inside other mem with same | behind
          · rw [List.mem_singleton] at same
            exact same ▸ List.mem_cons_self
          · exact List.mem_cons_of_mem _ behind
      · obtain ⟨parts, rolledRest, nonempty⟩ :=
          @ih (partBytes + lineBytes text row) (part ++ [row])
            restFit
        refine ⟨parts, by rw [if_neg full, rolledRest], ?_⟩
        intro rolled mem
        obtain ⟨filled, inside⟩ := nonempty rolled mem
        refine ⟨filled, fun other mem => ?_⟩
        rcases inside other mem with before | behind
        · rcases List.mem_append.mp before with old | same
          · exact .inl old
          · rw [List.mem_singleton] at same
            exact .inr (same ▸ List.mem_cons_self)
        · exact .inr (List.mem_cons_of_mem _ behind)

/-- A row that does not fit stops the cutting. -/
theorem rollFrom_fits {byteLimit partBytes : Nat} {part rows : List JsonValue}
    {parts : List (List JsonValue)}
    (rolled : rollFrom text byteLimit part partBytes rows = .ok parts) :
    ∀ row ∈ rows, lineBytes text row ≤ byteLimit := by
  induction rows generalizing part partBytes parts with
  | nil =>
      simp
  | cons row rest ih =>
      unfold rollFrom at rolled
      split at rolled
      · cases rolled
      · intro other mem
        rcases List.mem_cons.mp mem with rfl | later
        · omega
        · split at rolled
          · cases restRolled : rollFrom text byteLimit [row]
              (lineBytes text row) rest with
            | error error =>
                rw [restRolled] at rolled
                cases rolled
            | ok restParts =>
                exact ih restRolled other later
          · exact ih rolled other later

/-- A part of a complete group is written. -/
theorem materializeSegment_eq_ok
    {partition : SegmentPartition} {sourceManifestSha256 : String}
    {segment : SegmentRows} (complete : segment.IsComplete)
    {rows : List JsonValue} (filled : rows ≠ [])
    (inside : ∀ row ∈ rows, row ∈ segment.rows) (subpartOrdinal : Nat) :
    ∃ part, materializeSegment text partition sourceManifestSha256 segment rows
      subpartOrdinal = .ok part := by
  obtain ⟨first, firstTime⟩ := complete.times _
    (inside _ (List.head_mem filled))
  obtain ⟨last, lastTime⟩ := complete.times _
    (inside _ (List.getLast_mem filled))
  have bounds := complete.bounds
  unfold materializeSegment
  rw [if_neg (by omega), List.head?_eq_some_head filled,
    List.getLast?_eq_some_getLast filled]
  simp only [Option.bind_some, firstTime, lastTime]
  exact ⟨_, rfl⟩

theorem materializeParts_eq_ok
    {partition : SegmentPartition} {sourceManifestSha256 : String}
    {segment : SegmentRows} (complete : segment.IsComplete)
    {parts : List (List JsonValue)}
    (filled : ∀ rows ∈ parts, rows ≠ [] ∧ ∀ row ∈ rows, row ∈ segment.rows)
    (ordinal : Nat) :
    ∃ written, materializeParts text partition sourceManifestSha256 segment
      ordinal parts = .ok written := by
  induction parts generalizing ordinal with
  | nil =>
      exact ⟨[], rfl⟩
  | cons rows rest ih =>
      obtain ⟨nonempty, inside⟩ := filled rows List.mem_cons_self
      obtain ⟨part, first⟩ := @materializeSegment_eq_ok text partition
        sourceManifestSha256 segment complete rows nonempty inside ordinal
      obtain ⟨written, later⟩ := ih
        (fun other mem => filled other (List.mem_cons_of_mem _ mem))
        (ordinal + 1)
      refine ⟨part :: written, ?_⟩
      rw [materializeParts, first, later]
      rfl

theorem materializeGroups_eq_ok_iff
    {sourceManifestSha256 : String} {segments : SegmentMap}
    (complete : ∀ entry ∈ segments, entry.2.IsComplete) :
    (∃ written, materializeGroups text sourceManifestSha256 segments =
      .ok written) ↔ segments.Fits text := by
  induction segments with
  | nil =>
      simp [SegmentMap.Fits, materializeGroups]
  | cons entry rest ih =>
      have restIff := ih fun other mem =>
        complete other (List.mem_cons_of_mem _ mem)
      constructor
      · rintro ⟨written, grouped⟩
        unfold materializeGroups at grouped
        split at grouped
        · cases grouped
        · rename_i parts rolled
          split at grouped
          · cases grouped
          · cases later : materializeGroups text sourceManifestSha256 rest with
            | error error =>
                rw [later] at grouped
                cases grouped
            | ok laterWritten =>
                have restFits := restIff.mp ⟨_, later⟩
                intro other mem
                rcases List.mem_cons.mp mem with rfl | behind
                · exact rollFrom_fits rolled
                · exact restFits other behind
      · intro fits
        have restFits : SegmentMap.Fits text rest := fun other mem =>
          fits other (List.mem_cons_of_mem _ mem)
        obtain ⟨later, restWritten⟩ := restIff.mpr restFits
        obtain ⟨parts, rolled, filled⟩ := @rollFrom_eq_ok text
          maxLogicalSegmentBytes 0 [] entry.2.rows
          (fits entry List.mem_cons_self)
        obtain ⟨first, written⟩ := @materializeParts_eq_ok text entry.1
          sourceManifestSha256 entry.2 (complete entry List.mem_cons_self) parts
          (fun rows mem =>
            ⟨(filled rows mem).1, fun row inside =>
              ((filled rows mem).2 row inside).resolve_left
                List.not_mem_nil⟩) 0
        refine ⟨first ++ later, ?_⟩
        rw [materializeGroups, rollRows, rolled]
        simp only [written, restWritten]
        rfl

end Parts

/-! ## What a gap must stop -/

/-- The partition of a gap as its producers document it: a market with the
start of a UTC day, or every market. -/
def ReplayGapInterval.NamesMarket (gap : ReplayGapInterval)
    (marketId : String) : Prop :=
  gap.partition = "all_subscribed" ∨
    ∃ utcDayStartMs : I64, utcDayMs ∣ utcDayStartMs.1 ∧
      gap.partition = marketId ++ ":" ++ toString utcDayStartMs.1

def SnapshotsAgree (left right : Option String) : Prop :=
  ∀ leftSnapshot ∈ left, ∀ rightSnapshot ∈ right,
    leftSnapshot = rightSnapshot

/-- A gap in a market minute that the export has records of. -/
def ReplayGapInterval.TouchesSegment (gap : ReplayGapInterval)
    (partition : SegmentPartition) : Prop :=
  gap.NamesMarket partition.marketId ∧
    SnapshotsAgree gap.discoverySnapshotSha256
      partition.discoverySnapshotSha256 ∧
    intervalsIntersect partition.minuteStartMs
      (partition.minuteStartMs + utcMinuteMs - 1) gap = true

/-- A gap that an export of the day must not pass over: it touches a minute
that is exported, or it meets the day and nobody knows what it names. -/
def ReplayGapInterval.Touches (gap : ReplayGapInterval)
    (manifest : SealedClosedDayManifest) (segments : SegmentMap) : Prop :=
  (∃ entry ∈ segments, gap.TouchesSegment entry.1) ∨
    replayGapPartition gap.partition = .unknown ∧
      intervalsIntersect manifest.startTimeMs.1 manifest.endTimeMs.1 gap = true

def GapsBlock (text : PortableText) (store : MarketStore) (scope : OwnerScope)
    (manifest : SealedClosedDayManifest) : Prop :=
  ∀ gap, .ofGap gap ∈ store.gaps.rows → gap.scope = scope →
    ∀ segments, collectSegments text store scope manifest = .ok segments →
      gap.Touches manifest segments →
      ∀ materialized, exportMarketSegmentsWithArtifacts text store scope
        manifest ≠ .ok materialized

/-- Grouped records are exported if and only if no gap is taken for one of the
groups and their rows fit. -/
theorem exportMarketSegments_eq_ok_iff
    {text : PortableText} {store : MarketStore} {scope : OwnerScope}
    {segments : SegmentMap}
    (collected : collectSegments text store scope manifest = .ok segments) :
    (∃ materialized, exportMarketSegmentsWithArtifacts text store scope
      manifest = .ok materialized) ↔
      (∀ entry ∈ segments, ∀ gap ∈ store.gaps.readReplayGaps scope,
        gapBlocks gap entry = false) ∧ segments.Fits text := by
  have written := @materializeGroups_eq_ok_iff text
    (digestJson text manifest.document) segments
    (collectSegments_complete collected)
  rw [← written]
  simp only [exportMarketSegmentsWithArtifacts, collected,
    ensureGapFreeSegments]
  by_cases blocked : (segments.any fun entry =>
      (store.gaps.readReplayGaps scope).any fun gap => gapBlocks gap entry) =
        true
  · rw [if_pos blocked]
    simp only [List.any_eq_true] at blocked
    obtain ⟨entry, mem, gap, stored, blocks⟩ := blocked
    constructor
    · rintro ⟨materialized, exported⟩
      cases exported
    · rintro ⟨free, _⟩
      rw [free entry mem gap stored] at blocks
      cases blocks
  · rw [if_neg blocked]
    have free : ∀ entry ∈ segments, ∀ gap ∈ store.gaps.readReplayGaps scope,
        gapBlocks gap entry = false := by
      simpa using blocked
    constructor
    · rintro ⟨materialized, exported⟩
      refine ⟨free, ?_⟩
      simp only at exported
      split at exported
      · cases exported
      · exact ⟨_, ‹_›⟩
    · rintro ⟨_, groups, grouped⟩
      simp only [grouped]
      exact ⟨_, rfl⟩

namespace CoverageSample

open ExportSample (value record document documentDigest sealedDay scope)

def normalized : JsonValue :=
  .object
    [("canonical_market_id", .string "market-01"),
      ("payload", .object [("price", .string "0.42")])]

/-- A record in the second minute of the day. -/
def envelope : PmEnvelope where
  schemaVersion := pmEnvelopeVersion
  scope := scope
  venueId := "venue"
  configHash := "config"
  sourceId := "observer"
  connectionId := "connection"
  sourceTimestampMs := 61000
  canonicalSourceRank := 0
  connectionEpoch := 0
  frameSequence := 0
  receiptTimestampMs := 61001
  ingestSequence := 1
  rawFrame := []
  normalized := normalized

def segmentId : String :=
  "1fb08f985eb6200c0806448164d235e8967981d39a82e39bde4e5d23111818cc"

def bodyDigest : String :=
  "776360d486eafd724a6736be8169a6ed8cd70625d93be6bd5ad5bd5d00d31b5b"

def declaration : JsonValue :=
  .ofFields
    [("segment_id", .string segmentId), ("series_id", .string "market-01"),
      ("asset", .null), ("duration_seconds", .null),
      ("market_id", .string "market-01"),
      ("condition_id", .string "market-01"), ("outcome_tokens", .array []),
      ("market_open_time_ms", .number 0),
      ("market_close_time_ms", .number 9223372036854775807),
      ("partition_start_time_ms", .number 60000),
      ("partition_end_time_ms", .number 119999), ("subpart_ordinal", .number 0),
      ("from_time_ms", .number 61000), ("to_time_ms", .number 61000),
      ("from_ts_ms", .number 61000), ("to_ts_ms", .number 61000),
      ("rows", .number 1), ("bytes", .number 69), ("sha256", .string bodyDigest),
      ("source_manifest_sha256", .string documentDigest),
      ("artifact_key", .string
        ("portable-market-export-v1/" ++ segmentId ++ ".jsonl"))]

/-- The texts that the store and the export hash, with their digests. -/
def digests : List (String × String) :=
  [("", "e3b0c44298fc1c149afbf4c8996fb92427ae41e4649b934ca495991b7852b855"),
    (value normalized,
      "1ed0aeca8ce13a6e632ddd8b11c8caaa36b71581e7aa933c7d0ca5ee168ae2c9"),
    (value document, documentDigest),
    (documentDigest ++ "\nmarket-01\nmarket-01\n60000\n0", segmentId),
    (value (exportRow envelope) ++ "\n", bodyDigest),
    (value (exportContent documentDigest [declaration]),
      "1722413ce59ac2e1deaf7ffa2d44ace8ab650dcb9bc5fcbd40228299c7185f46")]

def text : PortableText where
  sha256Hex := fun bytes =>
    ((digests.find? fun entry => textBytes entry.1 = bytes).map
      Prod.snd).getD ""
  writeJson := value
  parseJson := fun written =>
    if written = value normalized then some normalized else none
  toLowercase := String.toLower
  toLowercase_display := toLower_display
  writeRecord := record
  readJson := fun _ => none

def gap (named : String) : ReplayGapInterval where
  scope := scope
  partition := named
  discoverySnapshotSha256 := none
  startTimeMs := 60000
  endTimeMs := some 119999
  reason := "disconnect"

def store (named : String) : MarketStore where
  envelopes :=
    { rows := [.ofEnvelope text.toStoreText envelope]
      separated := List.pairwise_singleton _ _ }
  gaps := ReplayGapTable.empty.storeReplayGap (gap named)

def segmentPartition : SegmentPartition where
  marketId := "market-01"
  minuteStartMs := 60000
  discoverySnapshotSha256 := none

def segments : SegmentMap :=
  [(segmentPartition,
    { metadata := .legacy "market-01"
      legacyCoverage := true
      rows := [exportRow envelope] })]

theorem collected (named : String) :
    collectSegments text (store named) scope sealedDay = .ok segments := by
  have rows : (store named).envelopes.scopeRows scope =
      [.ofEnvelope text.toStoreText envelope] :=
    rfl
  have readBack : text.parseJson (text.writeJson envelope.normalized) =
      some envelope.normalized := by
    show text.parseJson (value normalized) = some normalized
    simp only [text, if_true]
  have decoded := @EnvelopeTable.decodeRow_ofEnvelope text.toStoreText envelope
    rfl readBack rfl
  rw [collectSegments, EnvelopeTable.forAll_eq (by decide), rows, List.map_cons,
    decoded]
  rfl

/-- The row of the envelope fits into a part. -/
theorem fits : segments.Fits text := by
  intro entry mem row inside
  rw [segments, List.mem_singleton] at mem
  rw [mem, List.mem_singleton] at inside
  rw [inside]
  show (textBytes (value (exportRow envelope))).length + 1 ≤
    maxLogicalSegmentBytes
  decide +kernel

/-- A gap that the exporter reads as another minute, or not at all, lets the
export go on. -/
theorem not_gapsBlock
    {named : String} (touches : (gap named).Touches sealedDay segments)
    (missed : ∀ entry ∈ segments, gapBlocks (gap named) entry = false) :
    ¬ GapsBlock text (store named) scope sealedDay := by
  have read : (store named).gaps.readReplayGaps scope = [gap named] := by
    rfl
  intro blocks
  have passes : ∀ entry ∈ segments,
      ∀ other ∈ (store named).gaps.readReplayGaps scope,
        gapBlocks other entry = false := by
    intro entry mem other inside
    rw [read, List.mem_singleton] at inside
    rw [inside]
    exact missed entry mem
  obtain ⟨materialized, exported⟩ :=
    (exportMarketSegments_eq_ok_iff (collected named)).mpr ⟨passes, fits⟩
  exact blocks (gap named) List.mem_cons_self rfl segments (collected named)
    touches materialized exported

end CoverageSample

end Pmkit
