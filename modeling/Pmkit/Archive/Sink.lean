import Mathlib.Data.PNat.Defs
import Pmkit.Archive.ObjectStore

/-!
# The durable sink

The sink buffers raw records, uploads a full buffer as one segment in parts,
and commits the segment by writing a manifest that names it.  Its own manifest
and buffer change only once that write has answered.
-/

namespace Pmkit

open Faults FsObjectStore

/-- `RetryPolicy`, without the delay. -/
structure RetryPolicy where
  maxAttempts : ℕ+

structure DurableSinkConfig where
  recordsPerSegment : ℕ+
  partSizeBytes : ℕ+
  retry : RetryPolicy

/-- Why an operation of the sink failed. -/
inductive DurableSinkError where
  | store (source : ObjectStoreError)
  | corrupt (message : String)
  deriving DecidableEq

structure DurableRawSink where
  config : DurableSinkConfig
  manifest : Manifest
  buffer : List UInt8
  bufferedRecords : Nat

def ObjectStoreError.isTransient : ObjectStoreError → Bool
  | transient _ => true
  | permanent _ => false

/-- `retry`. -/
def RetryPolicy.retry {A : Type} (policy : RetryPolicy)
    (operation : StoreProgram ObjectStoreError A) :
    StoreProgram DurableSinkError A :=
  (operation.retrying ObjectStoreError.isTransient
    (policy.maxAttempts - 1 : Nat)).mapError .store

/-- The object key of a segment: its index with at least eight digits. -/
def segmentKey (index : Nat) : String :=
  "segments/segment-" ++
    String.ofList (List.leftpad 8 '0' (Nat.toDigits 10 index)) ++ ".jsonl"

/-- `chunks`: pieces of a size, the last one possibly shorter. -/
def chunksFrom (size : ℕ+) : (limit : Nat) → List UInt8 → List (List UInt8)
  | 0, _ => []
  | _ + 1, [] => []
  | limit + 1, bytes =>
      bytes.take size :: chunksFrom size limit (bytes.drop size)

def chunks (size : ℕ+) (bytes : List UInt8) : List (List UInt8) :=
  chunksFrom size bytes.length bytes

def sinkCorrupt {A : Type} (message : String) : StoreProgram DurableSinkError A :=
  Program.answer (.error (.corrupt message))

def verifySegments (text : ArchiveText) :
    List SegmentRef → StoreProgram DurableSinkError Unit
  | [] => pure ()
  | segment :: rest => do
      let found ← (get segment.key).mapError .store
      match found with
      | none =>
          sinkCorrupt s!"committed segment {segment.key} is missing"
      | some stored =>
          if text.sha256Hex stored ≠ segment.sha256Hex then
            sinkCorrupt s!"committed segment {segment.key} failed its checksum"
          else verifySegments text rest

def verifyManifest (text : ArchiveText) (bytes : List UInt8) :
    StoreProgram DurableSinkError Manifest :=
  match text.fromSlice bytes with
  | .error failure => sinkCorrupt s!"manifest decode failed: {failure}"
  | .ok manifest =>
      if manifest.schemaVersion ≠ manifestSchemaVersion then
        sinkCorrupt
          s!"unsupported manifest schema version {manifest.schemaVersion}"
      else do
        verifySegments text manifest.segments
        pure manifest

def abortUploads :
    List PendingUpload → StoreProgram DurableSinkError Unit
  | [] => pure ()
  | pending :: rest => do
      (abortMultipart pending.uploadId).mapError .store
      abortUploads rest

def readManifest (text : ArchiveText) :
    StoreProgram DurableSinkError Manifest := do
  let found ← (get manifestKey).mapError .store
  match found with
  | none => pure default
  | some bytes => verifyManifest text bytes

/-- `recover`. -/
def recover (text : ArchiveText) : StoreProgram DurableSinkError Manifest := do
  let manifest ← readManifest text
  let pending ← listPendingUploads.mapError .store
  abortUploads pending
  pure manifest

/-! ## The sink -/

namespace DurableRawSink

/-- `open`. -/
def openSink (text : ArchiveText) (config : DurableSinkConfig) :
    StoreProgram DurableSinkError DurableRawSink := do
  let manifest ← recover text
  pure { config, manifest, buffer := [], bufferedRecords := 0 }

def uploadParts (text : ArchiveText) (policy : RetryPolicy) (uploadId : Nat) :
    (offset : Nat) → List (List UInt8) →
      StoreProgram DurableSinkError (List PartId)
  | _, [] => pure []
  | offset, chunk :: rest =>
      if UInt32.size ≤ offset + 1 then
        sinkCorrupt "segment exceeds the multipart part limit"
      else do
        let part ← policy.retry
          (uploadPart text uploadId (UInt32.ofNat (offset + 1)) chunk)
        let parts ← uploadParts text policy uploadId (offset + 1) rest
        pure (part :: parts)

def nextKey (sink : DurableRawSink) : String :=
  segmentKey sink.manifest.segments.length

def fillUpload (text : ArchiveText) (sink : DurableRawSink)
    (uploadId : Nat) : StoreProgram DurableSinkError Unit := do
  let parts ← uploadParts text sink.config.retry uploadId 0
    (chunks sink.config.partSizeBytes sink.buffer)
  sink.config.retry.retry
    (completeMultipart text sink.nextKey uploadId parts)

/-- The first half of `flush_segment`: the buffer becomes an object. -/
def uploadSegment (text : ArchiveText) (sink : DurableRawSink) :
    StoreProgram DurableSinkError Unit := do
  let uploadId ← sink.config.retry.retry (createMultipart sink.nextKey)
  fillUpload text sink uploadId

def nextManifest (text : ArchiveText) (sink : DurableRawSink) : Manifest :=
  { sink.manifest with
    segments := sink.manifest.segments ++ [{
      key := sink.nextKey
      sha256Hex := text.sha256Hex sink.buffer
      records := sink.bufferedRecords }] }

def flushed (text : ArchiveText) (sink : DurableRawSink) : DurableRawSink :=
  { sink with
    manifest := sink.nextManifest text
    buffer := []
    bufferedRecords := 0 }

/-- `flush_segment`: what it leaves of the sink, which it changes only when it
succeeds. -/
def flushSegment (text : ArchiveText) (sink : DurableRawSink) :
    StoreProgram DurableSinkError DurableRawSink :=
  if sink.buffer = [] then pure sink
  else do
    uploadSegment text sink
    -- The segment counts only once the manifest lands.
    sink.config.retry.retry
      (put manifestKey (text.toVec (sink.nextManifest text)))
    pure (sink.flushed text)

def buffered (sink : DurableRawSink) (record : List UInt8) : DurableRawSink :=
  { sink with
    buffer := sink.buffer ++ record
    bufferedRecords := sink.bufferedRecords + 1 }

/-- A buffer that has reached the size of a segment. -/
def isFull (sink : DurableRawSink) : Bool :=
  (sink.config.recordsPerSegment : Nat) ≤ sink.bufferedRecords

/-- `append_record`: its result, with what it leaves of the sink. -/
def appendRecord (text : ArchiveText) (sink : DurableRawSink)
    (record : List UInt8) :
    StoreProgram DurableSinkError
      (Except DurableSinkError Unit × DurableRawSink) :=
  let sink := sink.buffered record
  if sink.isFull then do
    let flushed ← (flushSegment text sink).attempt
    match flushed with
    | .ok flushed => pure (.ok (), flushed)
    | .error failure => pure (.error failure, sink)
  else pure (.ok (), sink)

/-- `close`: the sink is gone afterwards, whatever the result. -/
def close (text : ArchiveText) (sink : DurableRawSink) :
    StoreProgram DurableSinkError Manifest := do
  let flushed ← flushSegment text sink
  pure flushed.manifest

end DurableRawSink

/-- A call on the archive, with what happens to the calls it makes. -/
inductive ArchiveCall where
  | open (config : DurableSinkConfig) (faults : List (Fault ObjectStoreError))
  | append (record : List UInt8) (faults : List (Fault ObjectStoreError))
  | close (faults : List (Fault ObjectStoreError))
  | recover (faults : List (Fault ObjectStoreError))
  | crash

/-- The store and the sink that is open over it, if any. -/
structure Archive where
  store : FsObjectStore
  sink : Option DurableRawSink

instance : Inhabited Archive where
  default := { store := default, sink := none }

namespace Archive

def step (text : ArchiveText) (archive : Archive) : ArchiveCall → Archive
  | .open config faults =>
      let ending := DurableRawSink.openSink text config archive.store faults
      match ending.outcome with
      | .returned (.ok sink) => { store := ending.state, sink := some sink }
      | _ => { store := ending.state, sink := none }
  | .append record faults =>
      match archive.sink with
      | none => archive
      | some sink =>
          let ending := sink.appendRecord text record archive.store faults
          match ending.outcome with
          | .returned (.ok (_, sink)) =>
              { store := ending.state, sink := some sink }
          | _ => { store := ending.state, sink := none }
  | .close faults =>
      match archive.sink with
      | none => archive
      | some sink =>
          { store := (sink.close text archive.store faults).state
            sink := none }
  | .recover faults =>
      { archive with store := (Pmkit.recover text archive.store faults).state }
  | .crash => { archive with sink := none }

end Archive

end Pmkit
