import Pmkit.Export.Portable
import Pmkit.Store.Gaps

/-!
# Exporting a sealed day

The export reads every envelope of a scope, groups the rows by market, minute
and discovery snapshot, refuses to go on when a replay gap meets a group, cuts
each group into parts of bounded size, and declares every part in a manifest
with a digest over itself.

Sizes and counts of rows in memory are naturals: their checked additions stay
below a machine word.
-/

namespace Pmkit

open MachineInt JsonValue

/-- `UTC_MINUTE_MS`. -/
def utcMinuteMs : Int := 60000

/-- `UTC_DAY_MS`. -/
def utcDayMs : Int := 86400000

/-- `MAX_LOGICAL_SEGMENT_BYTES`. -/
def maxLogicalSegmentBytes : Nat := 32 * 1024 * 1024

/-- `EXPORT_PAGE_SIZE`. -/
def exportPageSize : ℕ+ := 512

/-- A manifest of a completed UTC day, as it was decoded. -/
structure SealedClosedDayManifest where
  document : JsonValue
  schemaVersion : UInt16
  closedDay : String
  startTimeMs : I64
  endTimeMs : I64

/-- `contains`. -/
def SealedClosedDayManifest.contains (manifest : SealedClosedDayManifest)
    (timestampMs : I64) : Bool :=
  manifest.startTimeMs ≤ timestampMs ∧ timestampMs ≤ manifest.endTimeMs

structure MarketStore where
  envelopes : EnvelopeTable
  gaps : ReplayGapTable

/-- Why an export failed: the store's own error, or a message. -/
inductive ExportError where
  | store (source : TapeStoreError)
  | message (text : String)
  deriving DecidableEq

structure OutcomeToken where
  outcome : String
  tokenId : String
  deriving DecidableEq

structure MarketMetadata where
  seriesId : String
  asset : Option String
  durationSeconds : Option Nat
  marketId : String
  conditionId : String
  outcomeTokens : List OutcomeToken
  openTimeMs : Int
  closeTimeMs : Int
  deriving DecidableEq

def OutcomeToken.read (value : JsonValue) : Option OutcomeToken := do
  let fields ← value.recordFields ["outcome", "token_id"]
  return {
    outcome := ← required fields "outcome" asStr
    tokenId := ← required fields "token_id" asStr }

def MarketMetadata.read (value : JsonValue) : Option MarketMetadata := do
  let fields ← value.recordFields ["series_id", "asset", "duration_seconds",
    "market_id", "condition_id", "outcome_tokens", "open_time_ms",
    "close_time_ms"]
  return {
    seriesId := ← required fields "series_id" asStr
    asset := ← optional fields "asset" asStr
    durationSeconds := ← optional fields "duration_seconds" (asUnsigned 64)
    marketId := ← required fields "market_id" asStr
    conditionId := ← required fields "condition_id" asStr
    outcomeTokens := ← required fields "outcome_tokens" fun tokens =>
      tokens.asArray.bind (·.mapM OutcomeToken.read)
    openTimeMs := ← required fields "open_time_ms" asI64
    closeTimeMs := ← required fields "close_time_ms" asI64 }

/-- The metadata of an envelope that has none: the market stands for its series
and its condition. -/
def MarketMetadata.legacy (marketId : String) : MarketMetadata where
  seriesId := marketId
  asset := none
  durationSeconds := none
  marketId := marketId
  conditionId := marketId
  outcomeTokens := []
  openTimeMs := 0
  closeTimeMs := I64.maxValue.1

/-- `market_metadata`: with whether the coverage is legacy. -/
def marketMetadata (normalized : JsonValue) (marketId : String) :
    Except ExportError (MarketMetadata × Bool) :=
  match normalized.get "portable_market" with
  | none => .ok (.legacy marketId, true)
  | some value =>
      match MarketMetadata.read value with
      | none => .error (.message "portable market metadata is malformed")
      | some metadata => .ok (metadata, false)

/-- `metadata_is_valid`. -/
def MarketMetadata.isValid (metadata : MarketMetadata) : Bool :=
  metadata.seriesId ≠ "" && metadata.marketId ≠ "" &&
    metadata.conditionId ≠ "" &&
    (metadata.durationSeconds.all fun duration => 0 < duration) &&
    metadata.outcomeTokens ≠ [] &&
    metadata.openTimeMs ≤ metadata.closeTimeMs &&
    metadata.outcomeTokens.all fun mapping =>
      mapping.outcome ≠ "" && mapping.tokenId ≠ ""

/-! ## Groups -/

structure SegmentPartition where
  marketId : String
  minuteStartMs : Int
  discoverySnapshotSha256 : Option String
  deriving DecidableEq

/-- The order of optional digests: none stands first. -/
def compareSnapshot : Option String → Option String → Ordering
  | none, none => .eq
  | none, some _ => .lt
  | some _, none => .gt
  | some left, some right => compare left right

def SegmentPartition.cmp (left right : SegmentPartition) : Ordering :=
  (compare left.marketId right.marketId).then
    ((compare left.minuteStartMs right.minuteStartMs).then
      (compareSnapshot left.discoverySnapshotSha256
        right.discoverySnapshotSha256))

structure SegmentRows where
  metadata : MarketMetadata
  legacyCoverage : Bool
  rows : List JsonValue

/-- The groups, in the order of their partitions. -/
abbrev SegmentMap : Type :=
  List (SegmentPartition × SegmentRows)

/-- `entry(partition).or_insert_with(..).rows.push(row)`. -/
def SegmentMap.pushRow (partition : SegmentPartition)
    (metadata : MarketMetadata) (legacyCoverage : Bool) (row : JsonValue) :
    SegmentMap → SegmentMap
  | [] => [(partition, ⟨metadata, legacyCoverage, [row]⟩)]
  | entry :: rest =>
      match partition.cmp entry.1 with
      | .lt => (partition, ⟨metadata, legacyCoverage, [row]⟩) :: entry :: rest
      | .eq =>
          (entry.1, { entry.2 with rows := entry.2.rows ++ [row] }) :: rest
      | .gt =>
          entry :: pushRow partition metadata legacyCoverage row rest

/-- `envelope_discovery_snapshot`.  Of two fields of one name in a frame the
later one counts. -/
def envelopeDiscoverySnapshot (text : PortableText) (envelope : PmEnvelope) :
    Option String :=
  match text.readJson envelope.rawFrame with
  | some (.object fields) =>
      match fields.reverse.lookup "discovery_snapshot_sha256" with
      | some (.string snapshot) =>
          if isSha256 snapshot then some snapshot else none
      | _ => none
  | _ => none

def minuteStart (timestampMs : Int) : Int :=
  timestampMs / utcMinuteMs * utcMinuteMs

def exportRow (envelope : PmEnvelope) : JsonValue :=
  .ofFields
    [("event_time_ms", .number envelope.sourceTimestampMs.1),
      ("event_ordinal", .number envelope.canonicalSourceRank.1),
      ("payload", (envelope.normalized.get "payload").getD .null)]

/-- `materialize_envelope`. -/
def materializeEnvelope (text : PortableText)
    (manifest : SealedClosedDayManifest) (segments : SegmentMap)
    (envelope : PmEnvelope) : Except ExportError SegmentMap :=
  if manifest.contains envelope.sourceTimestampMs = false ∨
      envelope.sourceTimestampMs.1 < 0 then
    .error (.message
      "portable market export envelope is outside the sealed day")
  else if envelope.canonicalMarketId = "" then
    .error (.message "portable market export envelope has no market identity")
  else
    match marketMetadata envelope.normalized envelope.canonicalMarketId with
    | .error error => .error error
    | .ok (metadata, legacyCoverage) =>
        if legacyCoverage = false ∧ metadata.isValid = false then
          .error (.message "portable market metadata is malformed")
        else
          .ok (segments.pushRow
            { marketId := metadata.marketId
              minuteStartMs := minuteStart envelope.sourceTimestampMs.1
              discoverySnapshotSha256 :=
                envelopeDiscoverySnapshot text envelope }
            metadata legacyCoverage (exportRow envelope))

def materializeItem (text : PortableText) (manifest : SealedClosedDayManifest)
    (segments : SegmentMap) : ReplayItem → Except ExportError SegmentMap
  | .envelope envelope => materializeEnvelope text manifest segments envelope
  | .gap gap =>
      if manifest.contains gap.sourceTimestampMs then
        .error (.message
          "portable market export contains an observed replay gap")
      else
        .ok segments

def collectSegments (text : PortableText) (store : MarketStore)
    (scope : OwnerScope) (manifest : SealedClosedDayManifest) :
    Except ExportError SegmentMap :=
  store.envelopes.forAll text.toStoreText scope exportPageSize
    (fun _ => .store)
    (materializeItem text manifest) []

/-- `gap_matches_segment`. -/
def gapMatchesSegment (gap : ReplayGapInterval) (partition : SegmentPartition) :
    Bool :=
  (match replayGapPartition gap.partition with
    | .allSubscribed => true
    | .marketMinute marketId minuteStartMs =>
        marketId = partition.marketId ∧
          minuteStartMs = partition.minuteStartMs
    | .unknown => false) &&
    match gap.discoverySnapshotSha256, partition.discoverySnapshotSha256 with
    | some gapSnapshot, some segmentSnapshot => gapSnapshot = segmentSnapshot
    | _, _ => true

/-- The last millisecond that a gap must not meet: the end of the minute, or
of the day when the metadata is legacy. -/
def segmentEnd (partition : SegmentPartition) (segment : SegmentRows) : Int :=
  if segment.legacyCoverage then
    partition.minuteStartMs / utcDayMs * utcDayMs + utcDayMs - 1
  else
    partition.minuteStartMs + utcMinuteMs - 1

def gapBlocks (gap : ReplayGapInterval)
    (entry : SegmentPartition × SegmentRows) : Bool :=
  gapMatchesSegment gap entry.1 &&
    intervalsIntersect entry.1.minuteStartMs (segmentEnd entry.1 entry.2) gap

/-- `ensure_gap_free_segments`. -/
def ensureGapFreeSegments (store : MarketStore) (scope : OwnerScope)
    (segments : SegmentMap) : Except ExportError Unit :=
  let gaps := store.gaps.readReplayGaps scope
  if segments.any fun entry => gaps.any fun gap => gapBlocks gap entry then
    .error (.message "portable market export intersects a replay gap")
  else
    .ok ()

/-! ## Parts -/

def lineBytes (text : PortableText) (row : JsonValue) : Nat :=
  (textBytes (text.writeJson row)).length + 1

/-- The loop of `roll_rows`: the part that is open, its length, and the rows
still to come. -/
def rollFrom (text : PortableText) (byteLimit : Nat) (part : List JsonValue)
    (partBytes : Nat) : List JsonValue → Except ExportError (List (List JsonValue))
  | [] => .ok (if part = [] then [] else [part])
  | row :: rest =>
      if byteLimit < lineBytes text row then
        .error (.message "portable row exceeds the segment byte limit")
      else if part ≠ [] ∧ byteLimit < partBytes + lineBytes text row then
        (rollFrom text byteLimit [row] (lineBytes text row) rest).map
          (part :: ·)
      else
        rollFrom text byteLimit (part ++ [row])
          (partBytes + lineBytes text row) rest

/-- `roll_rows`. -/
def rollRows (text : PortableText) (rows : List JsonValue) (byteLimit : Nat) :
    Except ExportError (List (List JsonValue)) :=
  rollFrom text byteLimit [] 0 rows

/-- `encode_rows`. -/
def encodeRows (text : PortableText) (rows : List JsonValue) : List UInt8 :=
  rows.flatMap fun row => textBytes (text.writeJson row) ++ [10]

/-- `digest_json`. -/
def digestJson (text : PortableText) (value : JsonValue) : String :=
  text.sha256Hex (textBytes (text.writeJson value))

/-- `segment_id`. -/
def segmentIdOf (text : PortableText) (sourceManifestSha256 seriesId : String)
    (partition : SegmentPartition) (subpartOrdinal : Nat) : String :=
  let identity := sourceManifestSha256 ++ "\n" ++ seriesId ++ "\n" ++
    partition.marketId ++ "\n" ++ toString partition.minuteStartMs ++ "\n" ++
    toString subpartOrdinal
  text.sha256Hex (textBytes (match partition.discoverySnapshotSha256 with
    | none => identity
    | some snapshot => identity ++ "\n" ++ snapshot))

def rowTime (row : JsonValue) : Option Int :=
  (row.get "event_time_ms").bind asI64

/-- `materialize_segment`: the declaration of a part and its body. -/
def materializeSegment (text : PortableText) (partition : SegmentPartition)
    (sourceManifestSha256 : String) (segment : SegmentRows)
    (rows : List JsonValue) (subpartOrdinal : Nat) :
    Except ExportError (JsonValue × List UInt8) :=
  if segment.metadata.closeTimeMs < segment.metadata.openTimeMs then
    .error (.message "portable market bounds are malformed")
  else
    let content := encodeRows text rows
    match rows.head?.bind rowTime with
    | none => .error (.message "portable segment has no lower bound")
    | some fromTimeMs =>
        match rows.getLast?.bind rowTime with
        | none => .error (.message "portable segment has no upper bound")
        | some toTimeMs =>
            let segmentId := segmentIdOf text sourceManifestSha256
              segment.metadata.seriesId partition subpartOrdinal
            let declaration := JsonValue.ofFields
              [("segment_id", .string segmentId),
                ("series_id", .string segment.metadata.seriesId),
                ("asset", orNull (segment.metadata.asset.map .string)),
                ("duration_seconds", orNull
                  (segment.metadata.durationSeconds.map
                    fun seconds => .number seconds)),
                ("market_id", .string partition.marketId),
                ("condition_id", .string segment.metadata.conditionId),
                ("outcome_tokens", .array
                  (segment.metadata.outcomeTokens.map fun mapping =>
                    .ofFields [("outcome", .string mapping.outcome),
                      ("token_id", .string mapping.tokenId)])),
                ("market_open_time_ms", .number segment.metadata.openTimeMs),
                ("market_close_time_ms", .number segment.metadata.closeTimeMs),
                ("partition_start_time_ms", .number partition.minuteStartMs),
                ("partition_end_time_ms",
                  .number (partition.minuteStartMs + utcMinuteMs - 1)),
                ("subpart_ordinal", .number subpartOrdinal),
                ("from_time_ms", .number fromTimeMs),
                ("to_time_ms", .number toTimeMs),
                ("from_ts_ms", .number fromTimeMs),
                ("to_ts_ms", .number toTimeMs),
                ("rows", .number rows.length),
                ("bytes", .number content.length),
                ("sha256", .string (text.sha256Hex content)),
                ("source_manifest_sha256", .string sourceManifestSha256),
                ("artifact_key", .string
                  ("portable-market-export-v1/" ++ segmentId ++ ".jsonl"))]
            .ok (match partition.discoverySnapshotSha256 with
              | none => declaration
              | some snapshot =>
                  declaration.insert "discovery_snapshot_sha256"
                    (.string snapshot), content)

def materializeParts (text : PortableText) (partition : SegmentPartition)
    (sourceManifestSha256 : String) (segment : SegmentRows) :
    Nat → List (List JsonValue) →
      Except ExportError (List (JsonValue × List UInt8))
  | _, [] => .ok []
  | ordinal, rows :: rest =>
      match materializeSegment text partition sourceManifestSha256 segment rows
          ordinal with
      | .error error => .error error
      | .ok part =>
          (materializeParts text partition sourceManifestSha256 segment
            (ordinal + 1) rest).map (part :: ·)

def materializeGroups (text : PortableText) (sourceManifestSha256 : String) :
    SegmentMap → Except ExportError (List (JsonValue × List UInt8))
  | [] => .ok []
  | entry :: rest =>
      match rollRows text entry.2.rows maxLogicalSegmentBytes with
      | .error error => .error error
      | .ok parts =>
          match materializeParts text entry.1 sourceManifestSha256 entry.2 0
              parts with
          | .error error => .error error
          | .ok first =>
              (materializeGroups text sourceManifestSha256 rest).map (first ++ ·)

structure MaterializedMarketSegments where
  manifest : JsonValue
  segments : List (JsonValue × List UInt8)
  deriving DecidableEq

def exportContent (sourceManifestSha256 : String)
    (declared : List JsonValue) : JsonValue :=
  .ofFields
    [("schema_version", .number portableMarketExportVersion),
      ("coverage", .string "observed"),
      ("source_manifest_sha256", .string sourceManifestSha256),
      ("segments", .array declared)]

/-- `with_artifact_sha256`. -/
def withArtifactSha256 (text : PortableText) (artifact : JsonValue) :
    JsonValue :=
  artifact.insert "artifact_sha256" (.string (digestJson text artifact))

/-- `export_market_segments_with_artifacts`. -/
def exportMarketSegmentsWithArtifacts (text : PortableText)
    (store : MarketStore) (scope : OwnerScope)
    (manifest : SealedClosedDayManifest) :
    Except ExportError MaterializedMarketSegments :=
  match collectSegments text store scope manifest with
  | .error error => .error error
  | .ok segments =>
      match ensureGapFreeSegments store scope segments with
      | .error error => .error error
      | .ok () =>
          let sourceManifestSha256 := digestJson text manifest.document
          match materializeGroups text sourceManifestSha256 segments with
          | .error error => .error error
          | .ok materialized =>
              .ok
                { manifest := withArtifactSha256 text
                    (exportContent sourceManifestSha256
                      (materialized.map Prod.fst))
                  segments := materialized }

end Pmkit
