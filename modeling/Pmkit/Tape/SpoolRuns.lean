import Pmkit.Library.Trace
import Pmkit.Tape.SpoolReader
import Pmkit.Tape.SpoolVerify

/-!
# Runs of the raw spool

A process holds writers and opens, appends to and closes chunks; a crash in a
call or between two calls ends every writer.  In a run without I/O errors the
complete lines of each chunk are what was written to it, and a closed chunk is
what its reader gets.
-/

namespace Pmkit

open Faults Program SpoolFiles

/-- A root with the writers a process holds.  `written` and `published` are kept
for the proofs only: the frames whose lines have reached the file of a chunk,
newline included, and the bytes of a closed file when it was first there. -/
structure SpoolRun where
  files : SpoolFiles
  writers : Nat → Option RawSpoolWriter
  written : SpoolChunk → List SpoolFrame
  published : SpoolChunk → Option (List UInt8)

instance : Inhabited SpoolRun where
  default := {
    files := default
    writers := fun _ => none
    written := fun _ => []
    published := fun _ => none }

/-- A call with the faults it meets; a writer is held under a number.  A crash
may also come between two calls. -/
inductive SpoolCall where
  | «open» (handle : Nat) (chunk : SpoolChunk) (faults : List (Fault IoError))
  | append (handle : Nat) (frame : SpoolFrame) (faults : List (Fault IoError))
  | close (handle : Nat) (faults : List (Fault IoError))
  | crash

namespace SpoolRun

def after (run : SpoolRun) (files : SpoolFiles)
    (writers : Nat → Option RawSpoolWriter)
    (written : SpoolChunk → List SpoolFrame) : SpoolRun where
  files := files
  writers := writers
  written := written
  published := fun chunk =>
    match run.published chunk with
    | some bytes => some bytes
    | none => files.bytesAt chunk.closedPath

def openedWriters (writers : Nat → Option RawSpoolWriter) (handle : Nat) :
    Faults.Outcome SpoolError RawSpoolWriter → Nat → Option RawSpoolWriter
  | .returned (.ok writer) => Function.update writers handle (some writer)
  | .returned (.error _) => writers
  | .crashed => fun _ => none

def keptWriters (writers : Nat → Option RawSpoolWriter) :
    Faults.Outcome SpoolError Unit → Nat → Option RawSpoolWriter
  | .returned _ => writers
  | .crashed => fun _ => none

/-- The frames written after an append: this one, once its whole line is in the
file. -/
def writtenAfter (run : SpoolRun) (writer : RawSpoolWriter)
    (frame : SpoolFrame) (files : SpoolFiles) :
    SpoolChunk → List SpoolFrame :=
  if files.contents writer.file =
      run.files.contents writer.file ++ recordLine writer.chunk frame then
    Function.update run.written writer.chunk
      (run.written writer.chunk ++ [frame])
  else run.written

def step (text : SpoolText) (run : SpoolRun) : SpoolCall → SpoolRun
  | .open handle chunk faults =>
      let ending := RawSpoolWriter.open text chunk run.files faults
      run.after ending.state (openedWriters run.writers handle ending.outcome)
        run.written
  | .append handle frame faults =>
      match run.writers handle with
      | none => run
      | some writer =>
          let ending := writer.append frame run.files faults
          run.after ending.state (keptWriters run.writers ending.outcome)
            (run.writtenAfter writer frame ending.state)
  | .close handle faults =>
      match run.writers handle with
      | none => run
      | some writer =>
          let ending := writer.close text run.files faults
          run.after ending.state
            (keptWriters (Function.update run.writers handle none)
              ending.outcome) run.written
  | .crash => run.after run.files (fun _ => none) run.written

end SpoolRun

def CrashFault (fault : Fault IoError) : Prop :=
  ∀ failure count, fault ≠ .error failure count

theorem not_mayFail_crashFault : ¬ MayFail CrashFault := by
  rintro ⟨failure, count, isCrash⟩
  exact isCrash failure count rfl

def SpoolCall.CrashesOnly : SpoolCall → Prop
  | .open _ _ faults | .append _ _ faults | .close _ faults =>
      ∀ fault ∈ faults, CrashFault fault
  | .crash => True

/-- A writer appends a valid frame to a chunk whose closed file is there, and a
byte of the line is written. -/
def LateAppend (run : SpoolRun) : SpoolCall → Prop
  | .append handle frame faults =>
      ∃ writer, run.writers handle = some writer ∧
        run.files.view writer.chunk .closed ≠ none ∧
        validateFrame writer.chunk frame = .ok () ∧
        faults.head? ≠ some (.crash 0)
  | _ => False

/-! ## The invariant -/

def ChunkSound (text : SpoolText) (files : SpoolFiles) (chunk : SpoolChunk)
    (frames : List SpoolFrame) : Prop :=
  ((∀ role, files.view chunk role = none) ∧ frames = []) ∨
  (∃ file tail, newline ∉ tail ∧
    OpenWith files chunk file (recordLines chunk frames ++ tail)) ∨
  (∃ file, ClosedWith text files chunk file (recordLines chunk frames))

/-- A writer is at the end of the complete lines, or its chunk is closed. -/
def WriterSound (files : SpoolFiles) (writer : RawSpoolWriter)
    (frames : List SpoolFrame) : Prop :=
  OpenWith files writer.chunk writer.file (recordLines writer.chunk frames) ∨
    files.view writer.chunk .closed = some writer.file

structure SpoolSound (text : SpoolText) (run : SpoolRun) : Prop where
  named : run.files.WellNamed
  valid : ∀ chunk, AllValid chunk (run.written chunk)
  chunks : ∀ chunk, ChunkSound text run.files chunk (run.written chunk)
  writers : ∀ handle writer, run.writers handle = some writer →
    WriterSound run.files writer (run.written writer.chunk)
  published : ∀ chunk,
    run.published chunk = run.files.bytesAt chunk.closedPath

section Frame

variable {text : SpoolText} {chunk other : SpoolChunk}
  {before after : SpoolFiles} {file : Nat} {content : List UInt8}

theorem OpenWith.of_other (opened : OpenWith before other file content)
    (only : OnlyChunk chunk before after) (ne : other ≠ chunk) :
    OpenWith after other file content where
  isOpen := (only.views other _ ne).trans opened.isOpen
  notClosed := (only.views other _ ne).trans opened.notClosed
  bytes := (only.contents other _ file ne opened.isOpen).trans
    opened.bytes

theorem ClosedWith.of_other (closed : ClosedWith text before other file content)
    (only : OnlyChunk chunk before after) (ne : other ≠ chunk) :
    ClosedWith text after other file content where
  isClosed := (only.views other _ ne).trans closed.isClosed
  isOpen := by
    rw [only.views other _ ne]
    exact closed.isOpen
  bytes := (only.contents other _ file ne closed.isClosed).trans
    closed.bytes
  sidecar := by
    obtain ⟨side, found, bytes⟩ := closed.sidecar
    exact ⟨side, (only.views other _ ne).trans found,
      (only.contents other _ side ne found).trans bytes⟩

variable {frames : List SpoolFrame}

theorem ChunkSound.of_other (sound : ChunkSound text before other frames)
    (only : OnlyChunk chunk before after) (ne : other ≠ chunk) :
    ChunkSound text after other frames := by
  rcases sound with ⟨untouched, none⟩ | ⟨file, tail, plain, opened⟩ |
    ⟨file, closed⟩
  · exact .inl ⟨fun role =>
      (only.views other role ne).trans (untouched role), none⟩
  · exact .inr (Or.inl ⟨file, tail, plain, opened.of_other only ne⟩)
  · exact .inr (Or.inr ⟨file, closed.of_other only ne⟩)

theorem WriterSound.of_other {writer : RawSpoolWriter}
    (sound : WriterSound before writer frames)
    (only : OnlyChunk chunk before after) (ne : writer.chunk ≠ chunk) :
    WriterSound after writer frames := by
  rcases sound with opened | closed
  · exact .inl (opened.of_other only ne)
  · exact .inr ((only.views _ _ ne).trans closed)

/-- The closed file of another chunk keeps its bytes. -/
theorem bytesAt_other
    (only : OnlyChunk chunk before after) (ne : other ≠ chunk) :
    after.bytesAt other.closedPath = before.bytesAt other.closedPath := by
  unfold SpoolChunk.closedPath
  cases found : before.view other .closed with
  | none =>
      rw [bytesAt_none found, bytesAt_none ((only.views _ _ ne).trans found)]
  | some file =>
      rw [bytesAt_file found, bytesAt_file ((only.views _ _ ne).trans found),
        only.contents other _ file ne found]

end Frame

namespace SpoolSound

variable {text : SpoolText} {run : SpoolRun}

theorem initial (text : SpoolText) : SpoolSound text default where
  named := {
    known := fun path mem => absurd mem List.not_mem_nil
    below := fun _ _ _ found => absurd found (by simp [SpoolFiles.view, default])
    apart := fun _ _ _ _ _ found =>
      absurd found (by simp [SpoolFiles.view, default]) }
  valid := fun _ _ mem => absurd mem List.not_mem_nil
  chunks := fun _ => .inl ⟨fun _ => rfl, rfl⟩
  writers := fun _ _ found => absurd found (by simp [default])
  published := fun _ => rfl

variable {files : SpoolFiles} {writers : Nat → Option RawSpoolWriter}
  {writer : RawSpoolWriter} {faults : List (Fault IoError)}

/-- A call that concerns one chunk keeps the invariant when the files of this
chunk, and the writers that are left on it, are as they should be. -/
theorem afterCall (sound : SpoolSound text run) {chunk : SpoolChunk}
    {written : SpoolChunk → List SpoolFrame}
    (only : OnlyChunk chunk run.files files)
    (others : ∀ other, other ≠ chunk → written other = run.written other)
    (valid : AllValid chunk (written chunk))
    (files_sound : ChunkSound text files chunk (written chunk))
    (kept : ∀ bytes, run.files.bytesAt chunk.closedPath = some bytes →
      files.bytesAt chunk.closedPath = some bytes)
    (live : ∀ handle writer, writers handle = some writer →
      (run.writers handle = some writer ∧ writer.chunk ≠ chunk) ∨
        WriterSound files writer (written writer.chunk)) :
    SpoolSound text (run.after files writers written) where
  named := only.named
  valid := by
    intro other
    by_cases same : other = chunk
    · subst same
      exact valid
    · show AllValid other (written other)
      rw [others other same]
      exact sound.valid other
  chunks := by
    intro other
    by_cases same : other = chunk
    · subst same
      exact files_sound
    · show ChunkSound text files other (written other)
      rw [others other same]
      exact (sound.chunks other).of_other only same
  writers := by
    intro handle writer found
    rcases live handle writer found with ⟨earlier, ne⟩ | isSound
    · show WriterSound files writer (written writer.chunk)
      rw [others _ ne]
      exact (sound.writers handle writer earlier).of_other only ne
    · exact isSound
  published := by
    intro other
    have before := sound.published other
    simp only [SpoolRun.after]
    split
    · rename_i bytes isPublished
      rw [isPublished] at before
      by_cases same : other = chunk
      · subst same
        exact (kept bytes before.symm).symm
      · rw [bytesAt_other only same]
        exact before
    · rfl

/-- A call that changes no file. -/
theorem unchanged (sound : SpoolSound text run)
    (fewer : ∀ handle writer, writers handle = some writer →
      run.writers handle = some writer) :
    SpoolSound text (run.after run.files writers run.written) where
  named := sound.named
  valid := sound.valid
  chunks := sound.chunks
  writers := fun handle writer found =>
    sound.writers handle writer (fewer handle writer found)
  published := by
    intro chunk
    simp only [SpoolRun.after]
    split
    · rename_i bytes isPublished
      rw [← isPublished]
      exact sound.published chunk
    · rfl

theorem writer_file (sound : SpoolSound text run) {handle : Nat}
    (found : run.writers handle = some writer)
    {file : Nat} {content : List UInt8}
    (opened : OpenWith run.files writer.chunk file content) :
    writer.file = file := by
  rcases sound.writers handle writer found with own | closed
  · exact Option.some.inj (own.isOpen.symm.trans opened.isOpen)
  · rw [opened.notClosed] at closed
    cases closed

theorem not_closed {chunk : SpoolChunk} {bytes : List UInt8}
    (absent : files.view chunk .closed = none)
    (found : files.bytesAt chunk.closedPath = some bytes) : False := by
  rw [SpoolChunk.closedPath, bytesAt_none absent] at found
  cases found

theorem opened (sound : SpoolSound text run) {chunk : SpoolChunk}
    {handle file : Nat} {tail : List UInt8} (plain : newline ∉ tail)
    (notClosed : run.files.view chunk .closed = none)
    (same : ∀ handle writer, run.writers handle = some writer →
      writer.chunk = chunk → writer.file = file)
    {outcome : Faults.Outcome SpoolError RawSpoolWriter}
    (reached : OpenReached chunk file (run.written chunk) tail run.files
      outcome files) :
    SpoolSound text (run.after files
      (SpoolRun.openedWriters run.writers handle outcome) run.written) := by
  rcases reached with ⟨rfl, left, isLeft, lines⟩ | ⟨rfl, lines, _, _⟩
  · refine sound.afterCall lines.only (fun _ _ => rfl) (sound.valid chunk)
      (Or.inr (Or.inl ⟨file, left, ?_, lines.opened⟩))
      (fun _ found => (not_closed notClosed found).elim)
      (fun _ _ found => absurd found (by simp [SpoolRun.openedWriters]))
    rcases isLeft with rfl | rfl
    · exact plain
    · exact List.not_mem_nil
  · have whole := lines.opened
    rw [List.append_nil] at whole
    refine sound.afterCall lines.only (fun _ _ => rfl) (sound.valid chunk)
      (Or.inr (Or.inl ⟨file, [], List.not_mem_nil, lines.opened⟩))
      (fun _ found => (not_closed notClosed found).elim) ?_
    intro other writer found
    by_cases here : writer.chunk = chunk
    · right
      left
      have isFile : writer.file = file := by
        simp only [SpoolRun.openedWriters, Function.update_apply] at found
        split at found
        · cases found
          rfl
        · exact same other writer found here
      rw [here, isFile]
      exact whole
    · left
      refine ⟨?_, here⟩
      simp only [SpoolRun.openedWriters, Function.update_apply] at found
      split at found
      · cases found
        exact absurd rfl here
      · exact found

theorem step_open (sound : SpoolSound text run) (handle : Nat)
    (chunk : SpoolChunk)
    (crashes : ∀ fault ∈ faults, CrashFault fault) :
    SpoolSound text (run.step text (.open handle chunk faults)) := by
  have noErrors := not_mayFail_crashFault
  rcases sound.chunks chunk with ⟨untouched, none⟩ |
    ⟨file, tail, plain, opened⟩ | ⟨file, closed⟩
  · have noWriter : ∀ handle writer, run.writers handle = some writer →
        writer.chunk = chunk → writer.file = run.files.next := by
      intro other writer found here
      rcases sound.writers other writer found with own | closed
      · have isOpen := own.isOpen
        rw [here, untouched] at isOpen
        cases isOpen
      · rw [here, untouched] at closed
        cases closed
    rcases ((@ensures_open_creates _ text _ _ noErrors sound.named untouched)
      faults crashes).1 with ⟨outcome, same⟩ | reached
    · simp only [SpoolRun.step]
      rw [outcome, same]
      exact sound.unchanged fun _ _ found =>
        absurd found (by simp [SpoolRun.openedWriters])
    · rw [← none] at reached
      exact sound.opened List.not_mem_nil (untouched _) noWriter reached
  · exact sound.opened plain opened.notClosed
      (fun other writer found here => by
        subst here
        exact sound.writer_file found opened)
      ((ensures_open_recovers noErrors sound.named (sound.valid chunk) plain
        opened) faults crashes).1
  · obtain ⟨same, outcome⟩ :=
      ((@ensures_open_closed _ text _ _ _ noErrors closed.isClosed)
        faults crashes).1
    simp only [SpoolRun.step]
    rw [same]
    apply sound.unchanged
    intro other writer found
    rcases outcome with crashed | refused
    · rw [crashed] at found
      cases found
    · rw [refused] at found
      exact found

/-! ### Appending -/

/-- Some first bytes of a line that are not the whole line hold no newline. -/
theorem newline_notMem_take {chunk : SpoolChunk} {frame : SpoolFrame}
    (valid : validateFrame chunk frame = .ok ()) {count : Nat}
    (part : (recordLine chunk frame).take count ≠ recordLine chunk frame) :
    newline ∉ (recordLine chunk frame).take count := by
  have plain := WireSpoolFrame.newline_notMem (plain_of_valid valid)
  have length : (recordLine chunk frame).length =
      (frame.wire chunk).bytes.length + 1 := by
    simp [recordLine, Lines.terminated]
  have short : count ≤ (frame.wire chunk).bytes.length := by
    by_contra long
    exact part (List.take_of_length_le (by omega))
  intro mem
  rw [recordLine, Lines.terminated, List.take_append_of_le_length short]
    at mem
  exact plain (List.mem_of_mem_take mem)

theorem recordLine_ne_nil (chunk : SpoolChunk) (frame : SpoolFrame) :
    recordLine chunk frame ≠ [] := by
  simp [recordLine, Lines.terminated]

/-- Without I/O errors an append returns with its whole line in the file, or the
process crashes. -/
theorem appendOutcome_crashes (length : Nat)
    (crashes : ∀ fault ∈ faults, CrashFault fault) :
    (appendOutcome faults = .returned (.ok ()) ∧
        appendedBytes length faults = length + 1) ∨
      appendOutcome faults = .crashed := by
  match faults with
  | [] => exact .inl ⟨rfl, rfl⟩
  | .error failure count :: _ =>
      exact absurd rfl (crashes _ List.mem_cons_self failure count)
  | .crash _ :: _ => exact .inr rfl
  | [.none] => exact .inl ⟨rfl, rfl⟩
  | .none :: .none :: _ => exact .inl ⟨rfl, rfl⟩
  | .none :: .error failure count :: _ =>
      exact absurd rfl (crashes _
        (List.mem_cons_of_mem _ List.mem_cons_self) failure count)
  | .none :: .crash _ :: _ => exact .inr rfl

theorem contents_extend (files : SpoolFiles) (file : Nat) (bytes : List UInt8) :
    (files.extend file bytes).contents file = files.contents file ++ bytes :=
  Function.update_self ..

theorem appended (sound : SpoolSound text run) {handle : Nat}
    (_found : run.writers handle = some writer)
    (opened : OpenWith run.files writer.chunk writer.file
      (recordLines writer.chunk (run.written writer.chunk)))
    {frame : SpoolFrame} (valid : validateFrame writer.chunk frame = .ok ())
    {outcome : Faults.Outcome SpoolError Unit} {count : Nat}
    (whole : outcome ≠ .crashed → (recordLine writer.chunk frame).take count =
        recordLine writer.chunk frame) :
    SpoolSound text (run.after (run.files.extend writer.file
        ((recordLine writer.chunk frame).take count))
      (SpoolRun.keptWriters run.writers outcome)
      (run.writtenAfter writer frame (run.files.extend writer.file
        ((recordLine writer.chunk frame).take count)))) := by
  have only := @onlyChunk_setContents writer.chunk _ sound.named _ _
    opened.isOpen (run.files.contents writer.file ++
      (recordLine writer.chunk frame).take count)
  by_cases complete : (recordLine writer.chunk frame).take count =
      recordLine writer.chunk frame
  · have written : run.writtenAfter writer frame (run.files.extend writer.file
        ((recordLine writer.chunk frame).take count)) =
          Function.update run.written writer.chunk
            (run.written writer.chunk ++ [frame]) := by
      rw [SpoolRun.writtenAfter, contents_extend, complete, if_pos rfl]
    have now : OpenWith (run.files.extend writer.file
        ((recordLine writer.chunk frame).take count)) writer.chunk writer.file
        (recordLines writer.chunk (run.written writer.chunk ++ [frame])) := by
      refine ⟨opened.isOpen, opened.notClosed, ?_⟩
      rw [contents_extend, complete, opened.bytes, recordLines_concat]
    rw [written]
    refine sound.afterCall only
      (fun other ne => Function.update_of_ne ne _ _) ?_ ?_
      (fun _ found => (not_closed opened.notClosed found).elim) ?_
    · rw [Function.update_self]
      exact (sound.valid writer.chunk).concat valid
    · rw [Function.update_self]
      refine Or.inr (Or.inl ⟨writer.file, [], List.not_mem_nil, ?_⟩)
      rw [List.append_nil]
      exact now
    · intro other kept isKept
      have earlier : run.writers other = some kept := by
        cases outcome with
        | returned result => exact isKept
        | crashed => cases isKept
      by_cases here : kept.chunk = writer.chunk
      · right
        left
        have file := sound.writer_file earlier (here ▸ opened)
        rw [here, file, Function.update_self]
        exact now
      · exact .inl ⟨earlier, here⟩
  · have crashed : outcome = .crashed := by
      by_contra notCrashed
      exact complete (whole notCrashed)
    have written : run.writtenAfter writer frame (run.files.extend writer.file
        ((recordLine writer.chunk frame).take count)) = run.written := by
      rw [SpoolRun.writtenAfter, contents_extend, if_neg]
      intro same
      exact complete (List.append_cancel_left same)
    rw [written, crashed]
    refine sound.afterCall only (fun _ _ => rfl) (sound.valid _)
      (Or.inr (Or.inl ⟨writer.file, _, newline_notMem_take valid complete,
        opened.isOpen, opened.notClosed, ?_⟩))
      (fun _ found => (not_closed opened.notClosed found).elim)
      (fun _ _ found => absurd found (by simp [SpoolRun.keptWriters]))
    rw [contents_extend, opened.bytes]

theorem step_append (sound : SpoolSound text run) (handle : Nat)
    (frame : SpoolFrame)
    (crashes : ∀ fault ∈ faults, CrashFault fault)
    (notLate : ¬ LateAppend run (.append handle frame faults)) :
    SpoolSound text (run.step text (.append handle frame faults)) := by
  cases found : run.writers handle with
  | none =>
      simp only [SpoolRun.step, found]
      exact sound
  | some writer =>
      simp only [SpoolRun.step, found]
      have untouched : run.writtenAfter writer frame run.files =
          run.written := by
        rw [SpoolRun.writtenAfter, if_neg]
        intro same
        exact recordLine_ne_nil writer.chunk frame
          (List.append_cancel_left (same.symm.trans (List.append_nil _).symm))
      cases checked : validateFrame writer.chunk frame with
      | error failure =>
          rw [append_invalid checked faults]
          dsimp only
          rw [untouched]
          exact sound.unchanged fun _ _ kept => kept
      | ok _ =>
          obtain ⟨outcome, state⟩ :=
            append_valid checked run.files faults
          rw [outcome, state]
          rcases sound.writers handle writer found with opened | closed
          · apply sound.appended found opened checked
            intro notCrashed
            rcases appendOutcome_crashes
              (frame.wire writer.chunk).bytes.length crashes with
              ⟨_, whole⟩ | crashed
            · rw [whole]
              apply List.take_of_length_le
              simp [recordLine, Lines.terminated]
            · exact absurd crashed notCrashed
          · -- The process crashed before the first byte.
            have first : faults.head? = some (.crash 0) := by
              by_contra wrote
              exact notLate ⟨writer, found, by simp [closed], checked, wrote⟩
            obtain ⟨rest, rfl⟩ := List.head?_eq_some_iff.mp first
            have nothing : appendedBytes
                (frame.wire writer.chunk).bytes.length
                (.crash 0 :: rest) = 0 := Nat.zero_min _
            rw [nothing, List.take_zero, extend_nil, untouched]
            exact sound.unchanged fun _ _ kept =>
              absurd kept (by simp [SpoolRun.keptWriters, appendOutcome])

theorem step_close (sound : SpoolSound text run) (handle : Nat)
    (crashes : ∀ fault ∈ faults, CrashFault fault) :
    SpoolSound text (run.step text (.close handle faults)) := by
  cases found : run.writers handle with
  | none =>
      simp only [SpoolRun.step, found]
      exact sound
  | some writer =>
      simp only [SpoolRun.step, found]
      -- The writers that are left were there before.
      have fewer : ∀ (outcome : Faults.Outcome SpoolError Unit) other kept,
          SpoolRun.keptWriters (Function.update run.writers handle none)
            outcome other = some kept → run.writers other = some kept := by
        intro outcome other kept isKept
        cases outcome with
        | returned result =>
            simp only [SpoolRun.keptWriters, Function.update_apply] at isKept
            split at isKept
            · cases isKept
            · exact isKept
        | crashed => cases isKept
      rcases sound.writers handle writer found with opened | closed
      · obtain ⟨only, reached⟩ :=
          (@ensures_close text writer _ _ _ sound.named opened).at faults
        have noBytes : ∀ bytes,
            run.files.bytesAt writer.chunk.closedPath ≠ some bytes :=
          fun _ found => not_closed opened.notClosed found
        rcases reached with ⟨stillOpen, _⟩ | isClosed
        · refine sound.afterCall only (fun _ _ => rfl) (sound.valid _)
            (Or.inr (Or.inl ⟨writer.file, [], List.not_mem_nil, ?_⟩))
            (fun _ found => absurd found (noBytes _)) ?_
          · rw [List.append_nil]
            exact stillOpen
          · intro other kept isKept
            have earlier := fewer _ other kept isKept
            by_cases here : kept.chunk = writer.chunk
            · right
              left
              rw [here, sound.writer_file earlier (here ▸ opened)]
              exact stillOpen
            · exact .inl ⟨earlier, here⟩
        · refine sound.afterCall only (fun _ _ => rfl) (sound.valid _)
            (Or.inr (Or.inr ⟨writer.file, isClosed⟩))
            (fun _ found => absurd found (noBytes _)) ?_
          intro other kept isKept
          have earlier := fewer _ other kept isKept
          by_cases here : kept.chunk = writer.chunk
          · right
            right
            rw [here, sound.writer_file earlier (here ▸ opened)]
            exact isClosed.isClosed
          · exact .inl ⟨earlier, here⟩
      · obtain ⟨same, _⟩ := ((@ensures_close_late text writer _ _ _
          not_mayFail_crashFault closed) faults crashes).1
        rw [same]
        exact sound.unchanged fun other kept isKept =>
          fewer _ other kept isKept

theorem step (sound : SpoolSound text run) (call : SpoolCall)
    (crashes : call.CrashesOnly) (notLate : ¬ LateAppend run call) :
    SpoolSound text (run.step text call) := by
  cases call with
  | «open» handle chunk faults => exact sound.step_open handle chunk crashes
  | append handle frame faults =>
      exact sound.step_append handle frame crashes notLate
  | close handle faults => exact sound.step_close handle crashes
  | crash =>
      apply sound.unchanged
      intro handle writer found
      cases found

end SpoolSound

/-! ## Crash safety -/

structure CrashSafe (text : SpoolText) (run : SpoolRun) : Prop where
  /-- A chunk that is not closed is opened, unless the process crashes, and its
  file is then the lines written to it. -/
  reopens : ∀ chunk faults, run.files.view chunk .closed = none →
    (∀ fault ∈ faults, CrashFault fault) →
    (RawSpoolWriter.open text chunk run.files faults).outcome = .crashed ∨
      ∃ writer,
        (RawSpoolWriter.open text chunk run.files faults).outcome =
          .returned (.ok writer) ∧
        (RawSpoolWriter.open text chunk run.files faults).state.bytesAt
          chunk.openPath = some (recordLines chunk (run.written chunk))
  /-- The open file has these lines, and no newline follows them. -/
  discards : ∀ chunk bytes, run.files.view chunk .closed = none →
    run.files.bytesAt chunk.openPath = some bytes →
    ∃ tail, newline ∉ tail ∧
      bytes = recordLines chunk (run.written chunk) ++ tail
  /-- A closed file keeps the bytes it had when it was first there. -/
  immutable : ∀ chunk bytes, run.published chunk = some bytes →
    run.files.bytesAt chunk.closedPath = some bytes
  verified : ∀ chunk, run.files.view chunk .closed ≠ none →
    EnumeratesRecords text run.files chunk (run.written chunk)

namespace SpoolSound

variable {text : SpoolText} {run : SpoolRun}

theorem verified_records (sound : SpoolSound text run) {chunk : SpoolChunk}
    {file : Nat} (found : run.files.view chunk .closed = some file) :
    verifyClosedChunk text run.files chunk =
        .ok (chunk.verified text (recordLines chunk (run.written chunk))) ∧
      (chunk.verified text
          (recordLines chunk (run.written chunk))).records text run.files =
        .ok (run.written chunk) := by
  rcases sound.chunks chunk with ⟨untouched, _⟩ | ⟨_, _, _, opened⟩ |
    ⟨_, closed⟩
  · rw [untouched] at found
    cases found
  · rw [opened.notClosed] at found
    cases found
  · have records := records_verified closed
    rw [decodeLines_recordLines (sound.valid chunk)] at records
    rw [verifyClosedChunk_closed closed, records]
    exact ⟨rfl, rfl⟩

theorem allVerified (sound : SpoolSound text run) :
    AllVerified text run.files := fun _ _ found =>
  ⟨_, (sound.verified_records found).1⟩

theorem crashSafe (sound : SpoolSound text run) : CrashSafe text run where
  reopens := by
    intro chunk faults notClosed crashes
    have noErrors := not_mayFail_crashFault
    have fromReached : ∀ file tail, OpenReached chunk file
        (run.written chunk) tail run.files
        (RawSpoolWriter.open text chunk run.files faults).outcome
        (RawSpoolWriter.open text chunk run.files faults).state →
        (RawSpoolWriter.open text chunk run.files faults).outcome =
            .crashed ∨
          ∃ writer,
            (RawSpoolWriter.open text chunk run.files faults).outcome =
              .returned (.ok writer) ∧
            (RawSpoolWriter.open text chunk run.files faults).state.bytesAt
              chunk.openPath =
                some (recordLines chunk (run.written chunk)) := by
      rintro file tail (⟨crashed, _⟩ | ⟨returned, lines, _, _⟩)
      · exact .inl crashed
      · have bytes := bytesAt_file lines.opened.isOpen
        rw [lines.opened.bytes, List.append_nil] at bytes
        exact .inr ⟨_, returned, bytes⟩
    rcases sound.chunks chunk with ⟨untouched, none⟩ |
      ⟨file, tail, plain, opened⟩ | ⟨file, closed⟩
    · rcases ((@ensures_open_creates _ text _ _ noErrors sound.named
        untouched) faults crashes).1 with ⟨crashed, _⟩ | reached
      · exact .inl crashed
      · rw [← none] at reached
        exact fromReached _ _ reached
    · exact fromReached _ _ ((ensures_open_recovers noErrors sound.named
        (sound.valid chunk) plain opened) faults crashes).1
    · rw [closed.isClosed] at notClosed
      cases notClosed
  discards := by
    intro chunk bytes notClosed found
    rcases sound.chunks chunk with ⟨untouched, _⟩ |
      ⟨file, tail, plain, opened⟩ | ⟨file, closed⟩
    · rw [SpoolChunk.openPath, bytesAt_none (untouched .open)] at found
      cases found
    · rw [SpoolChunk.openPath, bytesAt_file opened.isOpen, opened.bytes]
        at found
      exact ⟨tail, plain, (Option.some.inj found).symm⟩
    · rw [closed.isClosed] at notClosed
      cases notClosed
  immutable := by
    intro chunk bytes isPublished
    rw [← sound.published chunk]
    exact isPublished
  verified := by
    intro chunk isClosed order
    obtain ⟨file, found⟩ := Option.ne_none_iff_exists'.mp isClosed
    obtain ⟨chunks, enumerated, all, _⟩ :=
      enumerateClosedChunks_ok sound.named sound.allVerified order
    obtain ⟨verified, records⟩ := sound.verified_records found
    exact ⟨chunks, enumerated, _, all chunk file _ found verified, rfl, records⟩

/-- Unless the process crashes first, an append brings a byte into the file. -/
theorem appendedBytes_pos
    {length : Nat} (positive : 0 < length) {faults : List (Fault IoError)}
    (crashes : ∀ fault ∈ faults, CrashFault fault)
    (wrote : faults.head? ≠ some (.crash 0)) :
    0 < appendedBytes length faults := by
  match faults with
  | [] => exact Nat.succ_pos _
  | .error failure count :: _ =>
      exact absurd rfl (crashes _ List.mem_cons_self failure count)
  | .crash 0 :: _ => exact absurd rfl wrote
  | .crash (count + 1) :: _ =>
      exact Nat.lt_min.mpr ⟨Nat.succ_pos count, positive⟩
  | [.none] => exact Nat.succ_pos _
  | .none :: .none :: _ => exact Nat.succ_pos _
  | .none :: .error _ _ :: _ => exact Nat.add_pos_left positive _
  | .none :: .crash _ :: _ => exact Nat.add_pos_left positive _

/-- A late append changes the closed file. -/
theorem lateAppend (sound : SpoolSound text run) {call : SpoolCall}
    (crashes : call.CrashesOnly) (late : LateAppend run call) :
    ¬ CrashSafe text (run.step text call) := by
  intro safe
  cases call with
  | «open» handle chunk faults => exact late
  | close handle faults => exact late
  | crash => exact late
  | append handle frame faults =>
      obtain ⟨writer, found, isClosed, valid, wrote⟩ := late
      have closed : run.files.view writer.chunk .closed =
          some writer.file := by
        rcases sound.writers handle writer found with opened | closed
        · exact absurd opened.notClosed isClosed
        · exact closed
      have published : run.published writer.chunk =
          some (run.files.contents writer.file) := by
        rw [sound.published, SpoolChunk.closedPath, bytesAt_file closed]
      obtain ⟨_, state⟩ := append_valid valid run.files faults
      have after := safe.immutable writer.chunk
        (run.files.contents writer.file) (by
          simp only [SpoolRun.step, found, SpoolRun.after, published])
      simp only [SpoolRun.step, found, SpoolRun.after] at after
      rw [state] at after
      have now := @bytesAt_file (run.files.extend writer.file
        ((recordLine writer.chunk frame).take (appendedBytes
          (frame.wire writer.chunk).bytes.length faults))) writer.chunk
        .closed writer.file closed
      rw [contents_extend] at now
      have nothing : (recordLine writer.chunk frame).take (appendedBytes
          (frame.wire writer.chunk).bytes.length faults) = [] := by
        have same := Option.some.inj (now.symm.trans after)
        exact List.append_cancel_left (same.trans (List.append_nil _).symm)
      obtain ⟨rest, head⟩ := WireSpoolFrame.bytes_head (plain_of_valid valid)
      have length : 0 < (frame.wire writer.chunk).bytes.length := by
        rw [head]
        exact Nat.succ_pos _
      have positive := appendedBytes_pos length crashes wrote
      rcases List.take_eq_nil_iff.mp nothing with zero | empty
      · omega
      · exact recordLine_ne_nil _ _ empty

end SpoolSound

/-- In every run without I/O errors, the chunks are crash safe in every state
just when no writer appends to a chunk that is closed. -/
theorem spool_crashSafe_iff
    (text : SpoolText) {calls : List SpoolCall}
    (crashes : ∀ call ∈ calls, call.CrashesOnly) :
    Trace.EveryState (SpoolRun.step text) (CrashSafe text) default calls ↔
      Trace.EveryStep (SpoolRun.step text)
        (fun run call => ¬ LateAppend run call) default calls := by
  apply Trace.everyState_iff_everyStep_of (SpoolSound text)
  · exact fun _ sound => sound.crashSafe
  · exact fun _ call given sound notLate => sound.step call given notLate
  · exact fun _ _ given sound safe late => sound.lateAppend given late safe
  · exact crashes
  · exact SpoolSound.initial text

namespace SpoolSample

def chunk : SpoolChunk where
  replicaId := "replica-a"
  shardId := "shard-1"
  minuteStartMs := ⟨60000, by decide⟩
  replicaValid := by decide
  shardValid := by decide
  aligned := by decide

def frame (sequence : UInt64) (byte : UInt8) : SpoolFrame where
  connectionEpoch := 1
  frameSequence := sequence
  receiptTimeMs := ⟨60000, by decide⟩
  discoverySnapshotSha256 :=
    "87428fc522803d31065e7bce3cf03fe475096631e5e07bbd7a0fde60c4cf25c7"
  rawBytes := [byte]

def first : SpoolFrame := frame 1 97

def second : SpoolFrame := frame 2 98

theorem first_valid : validateFrame chunk first = .ok () := by
  decide +kernel

/-- The digests of the contents that the runs below meet: nothing, the first
byte of a line, and the first frame's line.  No other content is digested. -/
def checksumHex (bytes : List UInt8) : String :=
  if bytes = [] then
    "e3b0c44298fc1c149afbf4c8996fb92427ae41e4649b934ca495991b7852b855"
  else if bytes = [123] then
    "021fb596db81e6d02bf3d2586ee3981fe519f275c0ac9ca76bbcf2ebb4097d96"
  else
    "8621808827556a30c6ce7fa6f83c55da343363efb0689c5cabed3d330423b31e"

theorem isSha256Hex_checksumHex (bytes : List UInt8) :
    isSha256Hex (checksumHex bytes) = true := by
  unfold checksumHex
  split
  · decide +kernel
  · split <;> decide +kernel

def text : SpoolText := SpoolReader.text checksumHex isSha256Hex_checksumHex

def lateCalls : List SpoolCall := [.open 0 chunk [], .open 1 chunk [],
  .close 0 [], .append 1 first []]

/-- The process dies in the newline of a line, opens the chunk again, and dies
when the closed name is linked and the open name is still there. -/
def crashedCalls : List SpoolCall := [.open 0 chunk [], .append 0 first [],
  .append 0 second [.none, .crash 0], .open 0 chunk [],
  .close 0 [.none, .none, .none, .none, .none, .none, .none, .none, .none,
    .none, .none, .crash 0], .open 0 chunk []]

end SpoolSample

/-- The append of the second writer changes the closed file. -/
theorem lateAppend_changesClosed :
    (∀ call ∈ SpoolSample.lateCalls, call.CrashesOnly) ∧
      ¬ Trace.EveryState (SpoolRun.step SpoolSample.text)
        (CrashSafe SpoolSample.text) default SpoolSample.lateCalls := by
  have crashes : ∀ call ∈ SpoolSample.lateCalls, call.CrashesOnly := by
    simp [SpoolSample.lateCalls, SpoolCall.CrashesOnly]
  refine ⟨crashes, ?_⟩
  intro safe
  unfold SpoolSample.lateCalls at safe
  simp only [Trace.EveryState] at safe
  obtain ⟨-, -, -, -, last⟩ := safe
  have opened := (SpoolSound.initial SpoolSample.text).step
    (.open 0 SpoolSample.chunk []) (by simp [SpoolCall.CrashesOnly]) id
  have both := opened.step (.open 1 SpoolSample.chunk [])
    (by simp [SpoolCall.CrashesOnly]) id
  have closed := both.step (.close 0 []) (by simp [SpoolCall.CrashesOnly]) id
  refine closed.lateAppend (by simp [SpoolCall.CrashesOnly]) ?_ last
  have late : (SpoolRun.step SpoolSample.text (SpoolRun.step SpoolSample.text
      (SpoolRun.step SpoolSample.text default
        (.open 0 SpoolSample.chunk [])) (.open 1 SpoolSample.chunk []))
          (.close 0 [])).writers 1 = some ⟨SpoolSample.chunk, 0⟩ ∧
      (SpoolRun.step SpoolSample.text (SpoolRun.step SpoolSample.text
        (SpoolRun.step SpoolSample.text default
          (.open 0 SpoolSample.chunk [])) (.open 1 SpoolSample.chunk []))
            (.close 0 [])).files.view SpoolSample.chunk .closed ≠ none := by
    decide +kernel
  exact ⟨⟨SpoolSample.chunk, 0⟩, late.1, late.2, SpoolSample.first_valid,
    by decide⟩

theorem spool_crashSafe_crashed :
    (∀ call ∈ SpoolSample.crashedCalls, call.CrashesOnly) ∧
      (Trace.EveryState (SpoolRun.step SpoolSample.text)
          (CrashSafe SpoolSample.text) default SpoolSample.crashedCalls ↔
        Trace.EveryStep (SpoolRun.step SpoolSample.text)
          (fun run call => ¬ LateAppend run call) default
          SpoolSample.crashedCalls) := by
  have crashes : ∀ call ∈ SpoolSample.crashedCalls, call.CrashesOnly := by
    simp [SpoolSample.crashedCalls, SpoolCall.CrashesOnly, CrashFault]
  exact ⟨crashes, spool_crashSafe_iff SpoolSample.text crashes⟩

end Pmkit
