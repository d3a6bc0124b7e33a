import Mathlib.Data.List.Dedup
import Pmkit.Store.Envelopes

/-!
# Portable market exports

The manifest of an export as its readers know it: typed declarations, a digest
over the content without itself, and the checks of a decoded manifest and of
the bodies it declares.
-/

namespace Pmkit

open JsonValue

def textBytes (text : String) : List UInt8 :=
  text.toUTF8.data.toList

theorem textBytes_injective {left right : String}
    (same : textBytes left = textBytes right) : left = right := by
  have bytes : left.toByteArray = right.toByteArray := by
    have data := Array.toList_inj.mp same
    cases left' : left.toByteArray
    cases right' : right.toByteArray
    simp_all [String.toUTF8]
  exact String.toByteArray_inj.mp bytes

/-- The JSON library beside a value's own text: the text of a record, whose
fields stand as they are declared, and the fields that a text has, in its
order. -/
structure PortableText extends StoreText where
  writeRecord : JsonValue → String
  readJson : List UInt8 → Option JsonValue

/-- The letters of a field name that the library writes as they are. -/
def isPlainName (name : String) : Bool :=
  name.toList.all fun letter => letter.isAlphanum || letter = '_'

/-- How the library orders fields: those of a value by name, those of a record
as they are declared. -/
structure PortableText.OrdersFields (text : PortableText) : Prop where
  value : ∀ name value rest, isPlainName name = true →
    (∀ other ∈ rest, compare name other.1 = .lt) →
    ∃ more, text.writeJson (.object ((name, value) :: rest)) =
      "\x7b\"" ++ name ++ "\":" ++ more
  record : ∀ name value rest, isPlainName name = true →
    ∃ more, text.writeRecord (.object ((name, value) :: rest)) =
      "\x7b\"" ++ name ++ "\":" ++ more

/-- `is_sha256`. -/
def isSha256 (value : String) : Bool :=
  value.utf8ByteSize = 64 ∧
    value.toList.all fun digit =>
      digit.isDigit || ('a' ≤ digit && digit ≤ 'f')

/-- `PORTABLE_MARKET_EXPORT_VERSION`. -/
def portableMarketExportVersion : Nat := 1

structure PortableOutcomeToken where
  outcome : String
  tokenId : String
  deriving DecidableEq

structure PortableMarketSegment where
  segmentId : String
  seriesId : String
  asset : Option String
  durationSeconds : Option Nat
  marketId : String
  discoverySnapshotSha256 : Option String
  conditionId : String
  outcomeTokens : List PortableOutcomeToken
  marketOpenTimeMs : Int
  marketCloseTimeMs : Int
  partitionStartTimeMs : Int
  partitionEndTimeMs : Int
  subpartOrdinal : Nat
  fromTimeMs : Int
  toTimeMs : Int
  fromTsMs : Option Int
  toTsMs : Option Int
  rows : Nat
  bytes : Nat
  sha256 : String
  sourceManifestSha256 : String
  artifactKey : String
  deriving DecidableEq

/-- The manifest.  Its coverage has one value, `observed`. -/
structure PortableMarketExport where
  schemaVersion : Nat
  sourceManifestSha256 : String
  segments : List PortableMarketSegment
  artifactSha256 : String
  deriving DecidableEq

structure PortableMarketArtifact where
  segmentId : String
  bytes : List UInt8
  deriving DecidableEq

inductive PortableMarketExportError where
  | malformedJson
  | unsupportedSchemaVersion (schemaVersion : Nat)
  | malformedDeclaration
  | duplicateSegmentId
  | invalidDigest
  | digestMismatch
  | artifactIdentityMismatch
  | artifactLengthMismatch
  | artifactDigestMismatch
  deriving DecidableEq

/-! ## Records as JSON -/

section Writing

def skipNone (name : String) (value : Option JsonValue) :
    List (String × JsonValue) :=
  match value with
  | none => []
  | some value => [(name, value)]

def orNull (value : Option JsonValue) : JsonValue :=
  value.getD .null

def PortableOutcomeToken.json (token : PortableOutcomeToken) : JsonValue :=
  .object [("outcome", .string token.outcome),
    ("token_id", .string token.tokenId)]

/-- The derived serializer of a segment, field by field. -/
def PortableMarketSegment.json (segment : PortableMarketSegment) : JsonValue :=
  .object
    ([("segment_id", .string segment.segmentId),
      ("series_id", .string segment.seriesId),
      ("asset", orNull (segment.asset.map .string)),
      ("duration_seconds",
        orNull (segment.durationSeconds.map fun seconds => .number seconds)),
      ("market_id", .string segment.marketId)] ++
    skipNone "discovery_snapshot_sha256"
      (segment.discoverySnapshotSha256.map .string) ++
    [("condition_id", .string segment.conditionId),
      ("outcome_tokens",
        .array (segment.outcomeTokens.map PortableOutcomeToken.json)),
      ("market_open_time_ms", .number segment.marketOpenTimeMs),
      ("market_close_time_ms", .number segment.marketCloseTimeMs),
      ("partition_start_time_ms", .number segment.partitionStartTimeMs),
      ("partition_end_time_ms", .number segment.partitionEndTimeMs),
      ("subpart_ordinal", .number segment.subpartOrdinal),
      ("from_time_ms", .number segment.fromTimeMs),
      ("to_time_ms", .number segment.toTimeMs)] ++
    skipNone "from_ts_ms" (segment.fromTsMs.map .number) ++
    skipNone "to_ts_ms" (segment.toTsMs.map .number) ++
    [("rows", .number segment.rows),
      ("bytes", .number segment.bytes),
      ("sha256", .string segment.sha256),
      ("source_manifest_sha256", .string segment.sourceManifestSha256),
      ("artifact_key", .string segment.artifactKey)])

/-- `ExportContent`: the manifest without its own digest. -/
def PortableMarketExport.content (manifest : PortableMarketExport) :
    JsonValue :=
  .object
    [("schema_version", .number manifest.schemaVersion),
      ("coverage", .string "observed"),
      ("source_manifest_sha256", .string manifest.sourceManifestSha256),
      ("segments", .array (manifest.segments.map PortableMarketSegment.json))]

/-- `EncodedExport`: the content, then its digest. -/
def PortableMarketExport.encoded (manifest : PortableMarketExport)
    (artifactSha256 : String) : JsonValue :=
  .object
    [("schema_version", .number manifest.schemaVersion),
      ("coverage", .string "observed"),
      ("source_manifest_sha256", .string manifest.sourceManifestSha256),
      ("segments", .array (manifest.segments.map PortableMarketSegment.json)),
      ("artifact_sha256", .string artifactSha256)]

/-- `encoded_content`. -/
def encodedContent (text : PortableText) (manifest : PortableMarketExport) :
    List UInt8 :=
  textBytes (text.writeRecord manifest.content)

end Writing

section Reading

/-- The only coverage, as the name of a variant or as a variant without
content. -/
def readCoverage : JsonValue → Option Unit
  | .string "observed" => some ()
  | .object [("observed", .null)] => some ()
  | _ => none

def PortableOutcomeToken.read (value : JsonValue) :
    Option PortableOutcomeToken := do
  let fields ← value.recordFields ["outcome", "token_id"]
  return {
    outcome := ← required fields "outcome" asStr
    tokenId := ← required fields "token_id" asStr }

def segmentFieldNames : List String :=
  ["segment_id", "series_id", "asset", "duration_seconds", "market_id",
    "discovery_snapshot_sha256", "condition_id", "outcome_tokens",
    "market_open_time_ms", "market_close_time_ms", "partition_start_time_ms",
    "partition_end_time_ms", "subpart_ordinal", "from_time_ms", "to_time_ms",
    "from_ts_ms", "to_ts_ms", "rows", "bytes", "sha256",
    "source_manifest_sha256", "artifact_key"]

def PortableMarketSegment.read (value : JsonValue) :
    Option PortableMarketSegment := do
  let fields ← value.recordFields segmentFieldNames
  return {
    segmentId := ← required fields "segment_id" asStr
    seriesId := ← required fields "series_id" asStr
    asset := ← optional fields "asset" asStr
    durationSeconds := ← optional fields "duration_seconds" (asUnsigned 64)
    marketId := ← required fields "market_id" asStr
    discoverySnapshotSha256 :=
      ← optional fields "discovery_snapshot_sha256" asStr
    conditionId := ← required fields "condition_id" asStr
    outcomeTokens := ← required fields "outcome_tokens" fun tokens =>
      tokens.asArray.bind (·.mapM PortableOutcomeToken.read)
    marketOpenTimeMs := ← required fields "market_open_time_ms" asI64
    marketCloseTimeMs := ← required fields "market_close_time_ms" asI64
    partitionStartTimeMs := ← required fields "partition_start_time_ms" asI64
    partitionEndTimeMs := ← required fields "partition_end_time_ms" asI64
    subpartOrdinal := ← required fields "subpart_ordinal" (asUnsigned 64)
    fromTimeMs := ← required fields "from_time_ms" asI64
    toTimeMs := ← required fields "to_time_ms" asI64
    fromTsMs := ← optional fields "from_ts_ms" asI64
    toTsMs := ← optional fields "to_ts_ms" asI64
    rows := ← required fields "rows" (asUnsigned 64)
    bytes := ← required fields "bytes" (asUnsigned 64)
    sha256 := ← required fields "sha256" asStr
    sourceManifestSha256 := ← required fields "source_manifest_sha256" asStr
    artifactKey := ← required fields "artifact_key" asStr }

def PortableMarketExport.read (value : JsonValue) :
    Option PortableMarketExport := do
  let fields ← value.recordFields ["schema_version", "coverage",
    "source_manifest_sha256", "segments", "artifact_sha256"]
  let _ ← required fields "coverage" readCoverage
  return {
    schemaVersion := ← required fields "schema_version" (asUnsigned 16)
    sourceManifestSha256 := ← required fields "source_manifest_sha256" asStr
    segments := ← required fields "segments" fun segments =>
      segments.asArray.bind (·.mapM PortableMarketSegment.read)
    artifactSha256 := ← required fields "artifact_sha256" asStr }

end Reading

/-- `valid_segment`. -/
def PortableMarketSegment.isValid (segment : PortableMarketSegment) : Bool :=
  ([segment.segmentId, segment.seriesId, segment.marketId, segment.conditionId,
      segment.artifactKey].all fun value => value ≠ "") &&
    (segment.durationSeconds.all fun duration => 0 < duration) &&
    segment.discoverySnapshotSha256.all isSha256 &&
    segment.marketOpenTimeMs ≤ segment.marketCloseTimeMs &&
    segment.partitionStartTimeMs ≤ segment.partitionEndTimeMs &&
    segment.fromTimeMs ≤ segment.toTimeMs &&
    segment.partitionStartTimeMs ≤ segment.fromTimeMs &&
    segment.toTimeMs ≤ segment.partitionEndTimeMs &&
    (segment.fromTsMs.all fun value => value = segment.fromTimeMs) &&
    (segment.toTsMs.all fun value => value = segment.toTimeMs) &&
    segment.outcomeTokens.all fun mapping =>
      mapping.outcome ≠ "" && mapping.tokenId ≠ ""

/-- The loop of `validate_content` over the segments. -/
def validateSegments (seen : List String) :
    List PortableMarketSegment → Except PortableMarketExportError Unit
  | [] => .ok ()
  | segment :: rest =>
      if segment.segmentId ∈ seen then
        .error .duplicateSegmentId
      else if isSha256 segment.sha256 = false ∨
          isSha256 segment.sourceManifestSha256 = false then
        .error .invalidDigest
      else if segment.isValid = false then
        .error .malformedDeclaration
      else
        validateSegments (segment.segmentId :: seen) rest

/-- `validate_content`. -/
def validateContent (manifest : PortableMarketExport) :
    Except PortableMarketExportError Unit :=
  if manifest.schemaVersion ≠ portableMarketExportVersion then
    .error (.unsupportedSchemaVersion manifest.schemaVersion)
  else if isSha256 manifest.sourceManifestSha256 = false then
    .error .invalidDigest
  else
    validateSegments [] manifest.segments

/-- `encode_portable_market_export`. -/
def encodePortableMarketExport (text : PortableText)
    (manifest : PortableMarketExport) :
    Except PortableMarketExportError (List UInt8) :=
  match validateContent manifest with
  | .error error => .error error
  | .ok () =>
      .ok (textBytes (text.writeRecord (manifest.encoded
        (text.sha256Hex (encodedContent text manifest)))))

/-- `decode_portable_market_export`. -/
def decodePortableMarketExport (text : PortableText) (bytes : List UInt8) :
    Except PortableMarketExportError PortableMarketExport :=
  match (text.readJson bytes).bind PortableMarketExport.read with
  | none => .error .malformedJson
  | some manifest =>
      match validateContent manifest with
      | .error error => .error error
      | .ok () =>
          if isSha256 manifest.artifactSha256 = false then
            .error .invalidDigest
          else if text.sha256Hex (encodedContent text manifest) ≠
              manifest.artifactSha256 then
            .error .digestMismatch
          else
            .ok manifest

/-- The segment that a body belongs to: of two declared under one id, the
later one. -/
def PortableMarketExport.declared (manifest : PortableMarketExport)
    (segmentId : String) : Option PortableMarketSegment :=
  manifest.segments.reverse.find? fun segment => segment.segmentId = segmentId

/-- The loop of `validate_portable_market_export_artifacts`. -/
def validateArtifacts (text : PortableText) (manifest : PortableMarketExport)
    (seen : List String) :
    List PortableMarketArtifact → Except PortableMarketExportError Unit
  | [] => .ok ()
  | artifact :: rest =>
      match manifest.declared artifact.segmentId with
      | none => .error .artifactIdentityMismatch
      | some segment =>
          if artifact.segmentId ∈ seen then
            .error .artifactIdentityMismatch
          else if artifact.bytes.length ≠ segment.bytes then
            .error .artifactLengthMismatch
          else if text.sha256Hex artifact.bytes ≠ segment.sha256 then
            .error .artifactDigestMismatch
          else
            validateArtifacts text manifest (artifact.segmentId :: seen) rest

/-- `validate_portable_market_export_artifacts`. -/
def validatePortableMarketExportArtifacts (text : PortableText)
    (manifest : PortableMarketExport)
    (artifacts : List PortableMarketArtifact) :
    Except PortableMarketExportError Unit :=
  if (manifest.segments.map PortableMarketSegment.segmentId).dedup.length ≠
      artifacts.length then
    .error .artifactIdentityMismatch
  else
    validateArtifacts text manifest [] artifacts

end Pmkit
