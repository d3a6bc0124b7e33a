import Pmkit.Tape.SpoolRecovery

/-!
# Verification of closed chunks

A closed file with the sidecar of its bytes is read line by line.  The reader
of a root takes every closed file or none: one that is not verified fails the
whole enumeration.
-/

namespace Pmkit

open Faults Program SpoolFiles

theorem bytesAt_file
    {files : SpoolFiles} {chunk : SpoolChunk} {role : SpoolRole} {file : Nat}
    (found : files.view chunk role = some file) :
    files.bytesAt (chunk.file role) = some (files.contents file) := by
  unfold SpoolFiles.view at found
  rw [SpoolFiles.bytesAt, found]
  rfl

theorem bytesAt_none
    {files : SpoolFiles} {chunk : SpoolChunk} {role : SpoolRole}
    (absent : files.view chunk role = none) :
    files.bytesAt (chunk.file role) = none := by
  unfold SpoolFiles.view at absent
  rw [SpoolFiles.bytesAt, absent]
  rfl

def SpoolChunk.verified (text : SpoolText) (chunk : SpoolChunk)
    (content : List UInt8) : VerifiedSpoolChunk where
  chunk := chunk
  path := chunk.closedPath
  byteLength := content.length
  sha256Hex := text.checksumHex content

section Verify

variable {text : SpoolText} {files : SpoolFiles} {chunk : SpoolChunk}
  {file : Nat} {content : List UInt8}

theorem records_verified (closed : ClosedWith text files chunk file content) :
    (chunk.verified text content).records text files =
      decodeLines text chunk chunk.closedPath
        (Lines.splitInclusive newline content) := by
  have bytes := bytesAt_file closed.isClosed
  rw [closed.bytes] at bytes
  unfold VerifiedSpoolChunk.records
  rw [show (chunk.verified text content).path = chunk.file .closed from rfl,
    bytes]
  simp [SpoolChunk.verified, SpoolChunk.closedPath]

theorem verifyClosedChunk_closed
    (closed : ClosedWith text files chunk file content) :
    verifyClosedChunk text files chunk =
      ((chunk.verified text content).records text files).map
        fun _ => chunk.verified text content := by
  obtain ⟨side, found, sidecar⟩ := closed.sidecar
  have sideBytes := bytesAt_file found
  rw [sidecar] at sideBytes
  have bytes := bytesAt_file closed.isClosed
  rw [closed.bytes] at bytes
  unfold verifyClosedChunk SpoolChunk.checksumPath SpoolChunk.closedPath
  rw [sideBytes]
  dsimp only
  rw [text.readSidecar_bytes chunk _ _ (text.isSha256Hex_checksumHex content)]
  dsimp only
  rw [bytes]
  simp [SpoolChunk.sidecar, SpoolChunk.verified, SpoolChunk.closedPath]

theorem chunk_of_verified {verified : VerifiedSpoolChunk}
    (isVerified : verifyClosedChunk text files chunk = .ok verified) :
    verified.chunk = chunk := by
  have ofMap : ∀ (read : Except SpoolError (List SpoolFrame))
      (found : VerifiedSpoolChunk),
      read.map (fun _ => found) = .ok verified → verified = found := by
    intro read found mapped
    cases read with
    | error failure => cases mapped
    | ok frames =>
        cases mapped
        rfl
  unfold verifyClosedChunk at isVerified
  repeat' split at isVerified
  · cases isVerified
  · cases isVerified
  · cases isVerified
  · cases isVerified
  · rw [ofMap _ _ isVerified]

end Verify

/-- The closed files are verified together, in whatever order they are found,
and one of them is the chunk with these records. -/
def EnumeratesRecords (text : SpoolText) (files : SpoolFiles)
    (chunk : SpoolChunk) (frames : List SpoolFrame) : Prop :=
  ∀ order : IterationOrder SpoolPath, ∃ chunks,
    enumerateClosedChunks text order files = .ok chunks ∧
      ∃ verified ∈ chunks, verified.chunk = chunk ∧
        verified.records text files = .ok frames

/-- Every closed chunk has a sidecar and lines that are read. -/
def AllVerified (text : SpoolText) (files : SpoolFiles) : Prop :=
  ∀ chunk file, files.view chunk .closed = some file →
    ∃ verified, verifyClosedChunk text files chunk = .ok verified

section Enumerate

variable {text : SpoolText} {files : SpoolFiles}

def readClosed (text : SpoolText) (files : SpoolFiles) (path : SpoolPath) :
    Except SpoolError VerifiedSpoolChunk := do
  let chunk ← SpoolChunk.fromFilename path.replica path.shard path.fileName
  verifyClosedChunk text files chunk

theorem readClosed_closedPath (chunk : SpoolChunk) :
    readClosed text files chunk.closedPath =
      verifyClosedChunk text files chunk := by
  unfold readClosed
  rw [show chunk.closedPath.replica = chunk.replicaId from rfl,
    show chunk.closedPath.shard = chunk.shardId from rfl,
    fromFilename_closedPath]
  rfl

theorem mem_closedFiles
    (named : files.WellNamed) {order : IterationOrder SpoolPath}
    {path : SpoolPath} :
    path ∈ (order.arrange files.names.keys).filter (fun path =>
        (stripSuffix ".jsonl".toList path.fileName.toList).isSome) ↔
      ∃ chunk file, path = chunk.closedPath ∧
        files.view chunk .closed = some file := by
  rw [List.mem_filter, (order.perm files.names.keys).mem_iff]
  constructor
  · rintro ⟨mem, isClosed⟩
    obtain ⟨chunk, role, rfl⟩ := named.known path mem
    rw [isClosed_file, decide_eq_true_eq] at isClosed
    subst isClosed
    rw [← AList.mem_keys, ← AList.lookup_isSome] at mem
    obtain ⟨file, found⟩ := Option.isSome_iff_exists.mp mem
    exact ⟨chunk, file, rfl, found⟩
  · rintro ⟨chunk, file, rfl, found⟩
    refine ⟨KeyedMap.mem_keys_of_lookup found, ?_⟩
    show (stripSuffix _ (chunk.file .closed).fileName.toList).isSome = true
    rw [isClosed_file]
    rfl

theorem enumerateClosedChunks_ok
    (named : files.WellNamed) (all : AllVerified text files)
    (order : IterationOrder SpoolPath) :
    ∃ chunks, enumerateClosedChunks text order files = .ok chunks ∧
      (∀ chunk file verified, files.view chunk .closed = some file →
        verifyClosedChunk text files chunk = .ok verified → verified ∈ chunks) ∧
      ∀ verified ∈ chunks, ∃ chunk,
        verifyClosedChunk text files chunk = .ok verified := by
  obtain ⟨values, loop, reads, source⟩ := @Fallible.mapM_reads _ _ _
    (readClosed text files) ((order.arrange files.names.keys).filter
      fun path => (stripSuffix ".jsonl".toList path.fileName.toList).isSome)
    (by
      intro path mem
      obtain ⟨chunk, file, rfl, found⟩ := (mem_closedFiles named).mp mem
      rw [readClosed_closedPath]
      exact all chunk file found)
  refine ⟨_, congrArg (Except.map _) loop, ?_, ?_⟩
  · intro chunk file verified found isVerified
    apply List.mem_mergeSort.mpr
    apply reads chunk.closedPath ((mem_closedFiles named).mpr
      ⟨chunk, file, rfl, found⟩)
    rw [readClosed_closedPath, isVerified]
  · intro verified mem
    obtain ⟨path, inside, read⟩ :=
      source verified (List.mem_mergeSort.mp mem)
    obtain ⟨chunk, file, rfl, found⟩ := (mem_closedFiles named).mp inside
    rw [readClosed_closedPath] at read
    exact ⟨chunk, read⟩

theorem enumerateClosedChunks_fails
    (named : files.WellNamed) {chunk : SpoolChunk} {file : Nat}
    (found : files.view chunk .closed = some file)
    (fails : ∀ verified, verifyClosedChunk text files chunk ≠ .ok verified)
    (order : IterationOrder SpoolPath) (chunks : List VerifiedSpoolChunk) :
    enumerateClosedChunks text order files ≠ .ok chunks := by
  have stops := @Fallible.mapM_fails _ _ _ (readClosed text files) _
    chunk.closedPath ((@mem_closedFiles files named order _).mpr
      ⟨chunk, file, rfl, found⟩)
    (by
      intro verified
      rw [readClosed_closedPath]
      exact fails verified)
  intro isOk
  change Except.map _ (List.mapM (readClosed text files) _) = .ok chunks
    at isOk
  cases loop : List.mapM (readClosed text files)
      ((order.arrange files.names.keys).filter fun path =>
        (stripSuffix ".jsonl".toList path.fileName.toList).isSome) with
  | ok values => exact stops values loop
  | error failure =>
      rw [loop] at isOk
      cases isOk

end Enumerate

end Pmkit
