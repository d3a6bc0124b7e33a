import Pmkit.Domain
import Pmkit.Library.Fallible
import Pmkit.Library.JsonScan
import Pmkit.Library.JsonText

/-!
# Records of the raw spool

A chunk is one UTC minute of one replica and shard; a record is a frame with
the identity of its chunk, one JSON object a line.
-/

namespace Pmkit

open MachineInt JsonValue

/-- `RAW_SPOOL_SCHEMA_VERSION`. -/
def rawSpoolSchemaVersion : UInt16 := 1

structure SpoolPath where
  replica : String
  shard : String
  fileName : String
  deriving DecidableEq

/-- What an operation of the file system fails with. -/
inductive IoError where
  | notFound
  | alreadyExists
  | other (message : String)
  deriving DecidableEq

inductive SpoolError where
  | invalidIdentifier (field value : String)
  | minuteNotAligned (minuteStartMs : I64)
  | recordOutsideChunk (receiptTimeMs minuteStartMs : I64)
  | invalidDiscoveryDigest
  | closedChunkExists (path : SpoolPath)
  | io (error : IoError)
  | malformedRecord (message : String)
  | unsupportedSchemaVersion (found : UInt16)
  | incompleteClosedChunk (path : SpoolPath)
  | missingChecksum (path : SpoolPath)
  | checksumMismatch (path : SpoolPath)
  | malformedChunkName (name : String)
  deriving DecidableEq

def isIdentifierLetter (letter : Char) : Bool :=
  letter.isAlphanum || letter = '-' || letter = '_'

/-- What `validate_identifier` accepts. -/
def isIdentifier (value : String) : Bool :=
  value ≠ "" && value.toList.all isIdentifierLetter

def isAligned (minuteStartMs : I64) : Bool :=
  minuteStartMs.1 % 60000 = 0

/-- `SpoolChunk`: portable identifiers and an aligned minute. -/
structure SpoolChunk where
  replicaId : String
  shardId : String
  minuteStartMs : I64
  replicaValid : isIdentifier replicaId = true
  shardValid : isIdentifier shardId = true
  aligned : isAligned minuteStartMs = true
  deriving DecidableEq

/-- What a file of a chunk is for. -/
inductive SpoolRole where
  | «open»
  | closed
  | checksum
  | temporaryChecksum
  deriving DecidableEq

def SpoolRole.suffix : SpoolRole → String
  | .open => ".open"
  | .closed => ".jsonl"
  | .checksum => ".jsonl.sha256"
  | .temporaryChecksum => ".jsonl.sha256.open"

namespace SpoolChunk

/-- `SpoolChunk::new`. -/
def new (replicaId shardId : String) (minuteStartMs : I64) :
    Except SpoolError SpoolChunk :=
  if replicaValid : isIdentifier replicaId = true then
    if shardValid : isIdentifier shardId = true then
      if aligned : isAligned minuteStartMs = true then
        .ok { replicaId, shardId, minuteStartMs, replicaValid, shardValid,
              aligned }
      else .error (.minuteNotAligned minuteStartMs)
    else .error (.invalidIdentifier "shard_id" shardId)
  else .error (.invalidIdentifier "replica_id" replicaId)

theorem new_self (chunk : SpoolChunk) :
    new chunk.replicaId chunk.shardId chunk.minuteStartMs = .ok chunk := by
  unfold new
  rw [dif_pos chunk.replicaValid, dif_pos chunk.shardValid,
    dif_pos chunk.aligned]

/-- `stem`. -/
def stem (chunk : SpoolChunk) : String :=
  "minute-" ++ toString chunk.minuteStartMs.1

def path (chunk : SpoolChunk) (suffix : String) : SpoolPath where
  replica := chunk.replicaId
  shard := chunk.shardId
  fileName := chunk.stem ++ suffix

def file (chunk : SpoolChunk) (role : SpoolRole) : SpoolPath :=
  chunk.path role.suffix

/-- `open_path`. -/
def openPath (chunk : SpoolChunk) : SpoolPath :=
  chunk.file .open

/-- `closed_path`. -/
def closedPath (chunk : SpoolChunk) : SpoolPath :=
  chunk.file .closed

/-- `checksum_path`. -/
def checksumPath (chunk : SpoolChunk) : SpoolPath :=
  chunk.file .checksum

/-- `temporary_checksum_path`. -/
def temporaryChecksumPath (chunk : SpoolChunk) : SpoolPath :=
  chunk.file .temporaryChecksum

end SpoolChunk

/-- `strip_prefix`. -/
def stripPrefix (start text : List Char) : Option (List Char) :=
  if start.isPrefixOf text then some (text.drop start.length) else none

/-- `strip_suffix`. -/
def stripSuffix (ending text : List Char) : Option (List Char) :=
  if ending.isSuffixOf text then
    some (text.take (text.length - ending.length))
  else none

def I64.ofInt (value : Int) : Option I64 :=
  if (I64.clamp value).1 = value then some (I64.clamp value) else none

theorem I64.ofInt_val (value : I64) : I64.ofInt value.1 = some value := by
  rw [I64.ofInt, MachineInt.I64.clamp_val, if_pos rfl]

theorem I64.ofInt_eq_some {value : Int} {word : I64} :
    I64.ofInt value = some word ↔ word.1 = value := by
  constructor
  · intro found
    unfold I64.ofInt at found
    split at found
    · cases found
      assumption
    · cases found
  · rintro rfl
    exact I64.ofInt_val word

/-- `from_filename`. -/
def SpoolChunk.fromFilename (replicaId shardId name : String) :
    Except SpoolError SpoolChunk :=
  match (stripSuffix ".jsonl".toList name.toList).bind
      (stripPrefix "minute-".toList) |>.bind parseI64 |>.bind I64.ofInt with
  | none => .error (.malformedChunkName name)
  | some minuteStartMs => SpoolChunk.new replicaId shardId minuteStartMs

/-! ## Records -/

/-- One original frame with its provenance. -/
structure SpoolFrame where
  connectionEpoch : UInt64
  frameSequence : UInt64
  receiptTimeMs : I64
  discoverySnapshotSha256 : String
  rawBytes : List UInt8
  deriving DecidableEq

structure WireSpoolFrame where
  schemaVersion : UInt16
  replicaId : String
  shardId : String
  minuteStartMs : I64
  connectionEpoch : UInt64
  frameSequence : UInt64
  receiptTimeMs : I64
  discoverySnapshotSha256 : String
  rawBytes : List UInt8
  deriving DecidableEq

/-- The JSON object of a record; the map of `json!` orders its fields by
name. -/
def WireSpoolFrame.json (wire : WireSpoolFrame) : JsonValue :=
  object [
    ("connection_epoch", number wire.connectionEpoch.toNat),
    ("discovery_snapshot_sha256", string wire.discoverySnapshotSha256),
    ("frame_sequence", number wire.frameSequence.toNat),
    ("minute_start_ms", number wire.minuteStartMs.1),
    ("raw_bytes", array (wire.rawBytes.map fun byte => number byte.toNat)),
    ("receipt_time_ms", number wire.receiptTimeMs.1),
    ("replica_id", string wire.replicaId),
    ("schema_version", number wire.schemaVersion.toNat),
    ("shard_id", string wire.shardId)]

/-- The characters of a record's line, without its newline. -/
def WireSpoolFrame.characters (wire : WireSpoolFrame) : List Char :=
  JsonValue.characters (fun _ => "") id wire.json

def WireSpoolFrame.bytes (wire : WireSpoolFrame) : List UInt8 :=
  Ascii.bytes (String.ofList wire.characters)

/-- `is_sha256_hex`. -/
def isSha256Hex (value : String) : Bool :=
  value.utf8ByteSize = 64 &&
    value.toList.all fun digit =>
      digit.isDigit || ('a' ≤ digit && digit ≤ 'f')

/-- `validate_frame`. -/
def validateFrame (chunk : SpoolChunk) (frame : SpoolFrame) :
    Except SpoolError Unit :=
  if frame.receiptTimeMs.1 / 60000 ≠ chunk.minuteStartMs.1 / 60000 then
    .error (.recordOutsideChunk frame.receiptTimeMs chunk.minuteStartMs)
  else if isSha256Hex frame.discoverySnapshotSha256 then .ok ()
  else .error .invalidDiscoveryDigest

def SpoolFrame.wire (chunk : SpoolChunk) (frame : SpoolFrame) :
    WireSpoolFrame where
  schemaVersion := rawSpoolSchemaVersion
  replicaId := chunk.replicaId
  shardId := chunk.shardId
  minuteStartMs := chunk.minuteStartMs
  connectionEpoch := frame.connectionEpoch
  frameSequence := frame.frameSequence
  receiptTimeMs := frame.receiptTimeMs
  discoverySnapshotSha256 := frame.discoverySnapshotSha256
  rawBytes := frame.rawBytes

/-- `encode_record`. -/
def encodeRecord (chunk : SpoolChunk) (frame : SpoolFrame) :
    Except SpoolError (List UInt8) :=
  (validateFrame chunk frame).map fun _ => (frame.wire chunk).bytes

def newline : UInt8 := 10

structure ChecksumSidecar where
  schemaVersion : UInt16
  replicaId : String
  shardId : String
  minuteStartMs : I64
  byteLength : Nat
  sha256Hex : String
  deriving DecidableEq

def ChecksumSidecar.json (sidecar : ChecksumSidecar) : JsonValue :=
  object [
    ("schema_version", number sidecar.schemaVersion.toNat),
    ("replica_id", string sidecar.replicaId),
    ("shard_id", string sidecar.shardId),
    ("minute_start_ms", number sidecar.minuteStartMs.1),
    ("byte_length", number sidecar.byteLength),
    ("sha256_hex", string sidecar.sha256Hex)]

def ChecksumSidecar.characters (sidecar : ChecksumSidecar) : List Char :=
  JsonValue.characters (fun _ => "") id sidecar.json

def ChecksumSidecar.bytes (sidecar : ChecksumSidecar) : List UInt8 :=
  Ascii.bytes (String.ofList sidecar.characters)

def SpoolChunk.sidecar (chunk : SpoolChunk) (byteLength : Nat)
    (sha256Hex : String) : ChecksumSidecar where
  schemaVersion := rawSpoolSchemaVersion
  replicaId := chunk.replicaId
  shardId := chunk.shardId
  minuteStartMs := chunk.minuteStartMs
  byteLength := byteLength
  sha256Hex := sha256Hex

/-- The digest and the JSON reader the spool rests on.  A record that passes
its checks is read back from its line, and so is the sidecar of a chunk; what
is read as a record is the text of a JSON container. -/
structure SpoolText where
  checksumHex : List UInt8 → String
  readRecord : List UInt8 → Except String WireSpoolFrame
  readSidecar : List UInt8 → Option ChecksumSidecar
  isSha256Hex_checksumHex : ∀ bytes, isSha256Hex (checksumHex bytes) = true
  readRecord_bytes : ∀ chunk frame, validateFrame chunk frame = .ok () →
    readRecord ((frame.wire chunk).bytes ++ [newline]) =
      .ok (frame.wire chunk)
  accepts_of_readRecord : ∀ line wire, readRecord line = .ok wire →
    JsonScan.Accepts line
  readSidecar_bytes : ∀ chunk byteLength sha256Hex,
    isSha256Hex sha256Hex = true →
    readSidecar ((SpoolChunk.sidecar chunk byteLength sha256Hex).bytes ++
        [newline]) =
      some (chunk.sidecar byteLength sha256Hex)

/-- `decode_record`. -/
def decodeRecord (text : SpoolText) (line : List UInt8) :
    Except SpoolError (SpoolChunk × SpoolFrame) :=
  if line.getLast? ≠ some newline then
    .error (.malformedRecord "record has no trailing newline")
  else
    match text.readRecord line with
    | .error message => .error (.malformedRecord message)
    | .ok wire =>
        if wire.schemaVersion ≠ rawSpoolSchemaVersion then
          .error (.unsupportedSchemaVersion wire.schemaVersion)
        else do
          let chunk ← SpoolChunk.new wire.replicaId wire.shardId
            wire.minuteStartMs
          let frame : SpoolFrame := {
            connectionEpoch := wire.connectionEpoch
            frameSequence := wire.frameSequence
            receiptTimeMs := wire.receiptTimeMs
            discoverySnapshotSha256 := wire.discoverySnapshotSha256
            rawBytes := wire.rawBytes }
          validateFrame chunk frame
          return (chunk, frame)

theorem decodeRecord_bytes
    (text : SpoolText) {chunk : SpoolChunk} {frame : SpoolFrame}
    (valid : validateFrame chunk frame = .ok ()) :
    decodeRecord text ((frame.wire chunk).bytes ++ [newline]) =
      .ok (chunk, frame) := by
  unfold decodeRecord
  rw [if_neg (by simp), text.readRecord_bytes chunk frame valid]
  simp only [SpoolFrame.wire, ne_eq, not_true_eq_false, if_false,
    SpoolChunk.new_self]
  show (validateFrame chunk frame >>= fun _ => _) = _
  rw [valid]
  rfl

end Pmkit
