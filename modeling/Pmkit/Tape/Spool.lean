import Pmkit.Library.Lines
import Pmkit.Tape.SpoolFiles

/-!
# The raw spool

A writer appends lines to the open file of a chunk.  To close a chunk it writes
the sidecar, links the open file to the closed name and removes the open name.
To open one again it cuts the open file after its last complete line.  A reader
takes closed files only, with their sidecars.
-/

namespace Pmkit

open Faults Program SpoolFiles MachineInt

/-- `Display` of an I/O error. -/
def IoError.display : IoError → String
  | .notFound => "No such file or directory (os error 2)"
  | .alreadyExists => "File exists (os error 17)"
  | .other message => message

/-- `?` on an I/O error. -/
def io {A : Type} (program : SpoolProgram IoError A) :
    SpoolProgram SpoolError A :=
  program.mapError .io

inductive RecoveryUncertainty where
  | interruptedFinalLine (discardedBytes : Nat)
  deriving DecidableEq

structure TailRecovery where
  validBytes : Nat
  uncertainty : Option RecoveryUncertainty
  deriving DecidableEq

/-- `validated_prefix` over the lines of a file. -/
def validatedPrefix (text : SpoolText) :
    List (List UInt8) → Except SpoolError Nat
  | [] => .ok 0
  | line :: rest =>
      if line.getLast? ≠ some newline then .ok 0
      else do
        let _ ← decodeRecord text line
        let offset ← validatedPrefix text rest
        return line.length + offset

/-- `recover_open_chunk`. -/
def recoverOpenChunk (text : SpoolText) (path : SpoolPath) :
    SpoolProgram SpoolError TailRecovery := do
  let bytes ← io (read path)
  let validBytes ← answer
    (validatedPrefix text (Lines.splitInclusive newline bytes))
  if validBytes = bytes.length then
    return { validBytes, uncertainty := none }
  else
    let file ← io (openFile path)
    io (setLen file validBytes)
    io syncAll
    return {
      validBytes
      uncertainty := some (.interruptedFinalLine (bytes.length - validBytes)) }

def removal : Except IoError Unit → Except SpoolError Unit
  | .ok _ => .ok ()
  | .error .notFound => .ok ()
  | .error failure => .error (.io failure)

/-- `remove_if_present`. -/
def removeIfPresent (path : SpoolPath) : SpoolProgram SpoolError Unit :=
  handle (removeFile path) fun result => answer (removal result)

def afterLink (source destination : SpoolPath) :
    Except IoError Unit → SpoolProgram SpoolError Unit
  | .ok _ => io (removeFile source)
  | .error .alreadyExists => answer (.error (.closedChunkExists destination))
  | .error failure => answer (.error (.io failure))

/-- `publish_without_replacing`. -/
def publishWithoutReplacing (source destination : SpoolPath) :
    SpoolProgram SpoolError Unit :=
  handle (hardLink source destination) (afterLink source destination)

/-- `write_checksum_sidecar`. -/
def writeChecksumSidecar (text : SpoolText) (chunk : SpoolChunk)
    (bytes : List UInt8) : SpoolProgram SpoolError Unit := do
  let sidecar := chunk.sidecar bytes.length (text.checksumHex bytes)
  removeIfPresent chunk.temporaryChecksumPath
  let file ← io (createNew chunk.temporaryChecksumPath)
  (writeAll file sidecar.bytes).mapError fun failure =>
    .malformedRecord failure.display
  io (writeAll file [newline])
  io syncAll
  publishWithoutReplacing chunk.temporaryChecksumPath chunk.checksumPath

/-- `RawSpoolWriter`: its chunk and its open file.  The paths it keeps are
those of its chunk. -/
structure RawSpoolWriter where
  chunk : SpoolChunk
  file : Nat
  deriving DecidableEq

namespace RawSpoolWriter

/-- `open`. -/
def «open» (text : SpoolText) (chunk : SpoolChunk) :
    SpoolProgram SpoolError RawSpoolWriter := do
  if ← pathExists chunk.closedPath then
    answer (.error (.closedChunkExists chunk.closedPath))
  else if ← pathExists chunk.openPath then
    let _ ← recoverOpenChunk text chunk.openPath
    removeIfPresent chunk.checksumPath
    removeIfPresent chunk.temporaryChecksumPath
    let file ← io (openFile chunk.openPath)
    return { chunk, file }
  else
    let file ← io (createNew chunk.openPath)
    return { chunk, file }

/-- `append`: the line and its newline are two writes. -/
def append (writer : RawSpoolWriter) (frame : SpoolFrame) :
    SpoolProgram SpoolError Unit := do
  let line ← answer (encodeRecord writer.chunk frame)
  io (writeAll writer.file line)
  io (writeAll writer.file [newline])

/-- `close`. -/
def close (text : SpoolText) (writer : RawSpoolWriter) :
    SpoolProgram SpoolError Unit := do
  if ← pathExists writer.chunk.closedPath then
    answer (.error (.closedChunkExists writer.chunk.closedPath))
  else
    io syncAll
    let bytes ← io (read writer.chunk.openPath)
    writeChecksumSidecar text writer.chunk bytes
    publishWithoutReplacing writer.chunk.openPath writer.chunk.closedPath
    io syncAll

end RawSpoolWriter

structure VerifiedSpoolChunk where
  chunk : SpoolChunk
  path : SpoolPath
  byteLength : Nat
  sha256Hex : String
  deriving DecidableEq

def SpoolFiles.bytesAt (files : SpoolFiles) (path : SpoolPath) :
    Option (List UInt8) :=
  (files.names.lookup path).map files.contents

/-- The loop of `records` over the lines of a closed file. -/
def decodeLines (text : SpoolText) (chunk : SpoolChunk) (path : SpoolPath) :
    List (List UInt8) → Except SpoolError (List SpoolFrame)
  | [] => .ok []
  | line :: rest =>
      if line.getLast? ≠ some newline then
        .error (.incompleteClosedChunk path)
      else do
        let (found, frame) ← decodeRecord text line
        if found ≠ chunk then
          .error (.checksumMismatch path)
        else
          let frames ← decodeLines text chunk path rest
          return frame :: frames

/-- `VerifiedSpoolChunk::records`. -/
def VerifiedSpoolChunk.records (text : SpoolText) (files : SpoolFiles)
    (verified : VerifiedSpoolChunk) : Except SpoolError (List SpoolFrame) :=
  match files.bytesAt verified.path with
  | none => .error (.io .notFound)
  | some bytes =>
      if bytes.length ≠ verified.byteLength ∨
          text.checksumHex bytes ≠ verified.sha256Hex then
        .error (.checksumMismatch verified.path)
      else
        decodeLines text verified.chunk verified.path
          (Lines.splitInclusive newline bytes)

/-- `verify_closed_chunk`. -/
def verifyClosedChunk (text : SpoolText) (files : SpoolFiles)
    (chunk : SpoolChunk) : Except SpoolError VerifiedSpoolChunk :=
  match files.bytesAt chunk.checksumPath with
  | none => .error (.missingChecksum chunk.checksumPath)
  | some sidecarBytes =>
      match text.readSidecar sidecarBytes with
      | none => .error (.checksumMismatch chunk.checksumPath)
      | some sidecar =>
          match files.bytesAt chunk.closedPath with
          | none => .error (.io .notFound)
          | some bytes =>
              if sidecar.schemaVersion ≠ rawSpoolSchemaVersion ∨
                  sidecar.replicaId ≠ chunk.replicaId ∨
                  sidecar.shardId ≠ chunk.shardId ∨
                  sidecar.minuteStartMs ≠ chunk.minuteStartMs ∨
                  sidecar.byteLength ≠ bytes.length ∨
                  sidecar.sha256Hex ≠ text.checksumHex bytes then
                .error (.checksumMismatch chunk.closedPath)
              else
                let verified : VerifiedSpoolChunk := {
                  chunk
                  path := chunk.closedPath
                  byteLength := sidecar.byteLength
                  sha256Hex := sidecar.sha256Hex }
                (verified.records text files).map fun _ => verified

def SpoolPath.le (left right : SpoolPath) : Bool :=
  (compareLex (compareOn SpoolPath.replica)
    (compareLex (compareOn SpoolPath.shard) (compareOn SpoolPath.fileName))
    left right).isLE

/-- `enumerate_closed_chunks`.  The directories are read in an order that is
not fixed. -/
def enumerateClosedChunks (text : SpoolText) (order : IterationOrder SpoolPath)
    (files : SpoolFiles) : Except SpoolError (List VerifiedSpoolChunk) :=
  let closed := (order.arrange files.names.keys).filter fun path =>
    (stripSuffix ".jsonl".toList path.fileName.toList).isSome
  let verified := closed.mapM fun path => do
    let chunk ← SpoolChunk.fromFilename path.replica path.shard path.fileName
    verifyClosedChunk text files chunk
  verified.map fun chunks =>
    chunks.mergeSort fun left right => left.path.le right.path

end Pmkit
