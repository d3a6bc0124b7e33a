import Pmkit.Tape.SpoolCalls

/-!
# Recovery and verification of a chunk

The complete lines of an open file are what recovery keeps, and what a reader
gets back once the file is closed.
-/

namespace Pmkit

open Faults Program SpoolFiles

def recordLines (chunk : SpoolChunk) (frames : List SpoolFrame) :
    List UInt8 :=
  Lines.join newline (frames.map fun frame => (frame.wire chunk).bytes)

@[simp]
theorem recordLines_nil (chunk : SpoolChunk) : recordLines chunk [] = [] := rfl

theorem recordLines_cons
    (chunk : SpoolChunk) (frame : SpoolFrame) (frames : List SpoolFrame) :
    recordLines chunk (frame :: frames) =
      recordLine chunk frame ++ recordLines chunk frames := rfl

theorem recordLines_concat
    (chunk : SpoolChunk) (frames : List SpoolFrame) (frame : SpoolFrame) :
    recordLines chunk (frames ++ [frame]) =
      recordLines chunk frames ++ recordLine chunk frame := by
  unfold recordLines
  rw [List.map_append]
  exact Lines.join_concat newline _ _

def AllValid (chunk : SpoolChunk) (frames : List SpoolFrame) : Prop :=
  ∀ frame ∈ frames, validateFrame chunk frame = .ok ()

theorem AllValid.concat
    {chunk : SpoolChunk} {frames : List SpoolFrame} {frame : SpoolFrame}
    (all : AllValid chunk frames)
    (valid : validateFrame chunk frame = .ok ()) :
    AllValid chunk (frames ++ [frame]) := by
  intro other mem
  rcases List.mem_append.mp mem with earlier | last
  · exact all other earlier
  · cases List.mem_singleton.mp last
    exact valid

section Lines

variable {text : SpoolText} {chunk : SpoolChunk} {frames : List SpoolFrame}

/-- The lines of a file: the records, then what is left of one. -/
theorem splitInclusive_recordLines
    (all : AllValid chunk frames) (rest : List UInt8) :
    Lines.splitInclusive newline (recordLines chunk frames ++ rest) =
      frames.map (recordLine chunk) ++
        Lines.splitInclusive newline rest := by
  unfold recordLines
  rw [Lines.splitInclusive_join, List.map_map]
  · rfl
  · intro line mem
    obtain ⟨frame, inside, rfl⟩ := List.mem_map.mp mem
    exact WireSpoolFrame.newline_notMem (plain_of_valid (all frame inside))

theorem getLast_recordLine (chunk : SpoolChunk) (frame : SpoolFrame) :
    (recordLine chunk frame).getLast? = some newline := by
  simp [recordLine, Lines.terminated]

theorem decodeRecord_recordLine
    {frame : SpoolFrame} (valid : validateFrame chunk frame = .ok ()) :
    decodeRecord text (recordLine chunk frame) = .ok (chunk, frame) :=
  decodeRecord_bytes text valid

/-- The last byte of an unterminated line is no newline. -/
theorem getLast_tail {tail : List UInt8} (plain : newline ∉ tail) :
    tail.getLast? ≠ some newline := by
  intro last
  exact plain (List.mem_of_getLast? last)

theorem validatedPrefix_recordLines
    (all : AllValid chunk frames) {tail : List UInt8}
    (plain : newline ∉ tail) :
    validatedPrefix text
        (Lines.splitInclusive newline (recordLines chunk frames ++ tail)) =
      .ok (recordLines chunk frames).length := by
  rw [splitInclusive_recordLines all]
  induction frames with
  | nil =>
      by_cases empty : tail = []
      · subst empty
        rfl
      · rw [Lines.splitInclusive_tail plain empty]
        show validatedPrefix text [tail] = _
        rw [validatedPrefix, if_pos (getLast_tail plain)]
        rfl
  | cons frame frames ih =>
      have later := ih fun other mem =>
        all other (List.mem_cons_of_mem frame mem)
      rw [List.map_cons, List.cons_append, validatedPrefix,
        if_neg (by simp [getLast_recordLine]),
        decodeRecord_recordLine (all frame List.mem_cons_self), later,
        recordLines_cons, List.length_append]
      rfl

theorem decodeLines_recordLines
    (all : AllValid chunk frames) (path : SpoolPath) :
    decodeLines text chunk path
        (Lines.splitInclusive newline (recordLines chunk frames)) =
      .ok frames := by
  have lines := splitInclusive_recordLines all []
  rw [List.append_nil] at lines
  rw [lines]
  show decodeLines text chunk path (_ ++ []) = _
  rw [List.append_nil]
  clear lines
  induction frames with
  | nil => rfl
  | cons frame frames ih =>
      have later := ih fun other mem =>
        all other (List.mem_cons_of_mem frame mem)
      rw [List.map_cons, decodeLines, if_neg (by simp [getLast_recordLine]),
        decodeRecord_recordLine (all frame List.mem_cons_self)]
      show (if chunk ≠ chunk then _ else _) = _
      rw [if_neg (by simp), later]
      rfl

end Lines

/-! ## Opening a chunk -/

section Open

variable {allowed : Fault IoError → Prop} {text : SpoolText}
  {chunk : SpoolChunk} {frames : List SpoolFrame} {tail : List UInt8}
  {file : Nat} {files : SpoolFiles}

/-- An open file with complete lines and what is left of one. -/
structure OpenLines (chunk : SpoolChunk) (file : Nat)
    (frames : List SpoolFrame) (tail : List UInt8) (before after : SpoolFiles) :
    Prop where
  only : OnlyChunk chunk before after
  opened : OpenWith after chunk file (recordLines chunk frames ++ tail)

theorem ensures_recoverOpenChunk
    (noErrors : ¬ MayFail allowed) (named : files.WellNamed)
    (all : AllValid chunk frames) (plain : newline ∉ tail)
    (opened : OpenWith files chunk file (recordLines chunk frames ++ tail)) :
    Ensures allowed (recoverOpenChunk text chunk.openPath) files
      fun outcome after =>
        (outcome = .crashed ∧ ∃ left, (left = tail ∨ left = []) ∧
          OpenLines chunk file frames left files after) ∨
        (∃ recovery, outcome = .returned (.ok recovery) ∧
          recovery.validBytes = (recordLines chunk frames).length ∧
          OpenLines chunk file frames [] files after) := by
  have start : OpenLines chunk file frames tail files files :=
    ⟨.refl named, opened⟩
  have cut : OpenLines chunk file frames [] files
      (files.truncate file (recordLines chunk frames).length) := by
    refine ⟨onlyChunk_setContents named opened.isOpen _, opened.isOpen,
      opened.notClosed, ?_⟩
    show Function.update files.contents file _ file = _
    rw [Function.update_self, opened.bytes, List.take_left, List.append_nil]
  apply ensures_bind
  apply ensures_read opened.isOpen
  · rw [opened.bytes]
    apply ensures_bind
    apply ensures_answer
    rw [validatedPrefix_recordLines all plain]
    dsimp only
    split
    · -- There is no tail to cut.
      rename_i whole
      have none : tail = [] := by
        rw [List.length_append] at whole
        exact List.length_eq_zero_iff.mp (by omega)
      subst none
      exact ensures_answer (Or.inr ⟨_, rfl, rfl, start⟩)
    · apply ensures_bind
      apply ensures_openFile opened.isOpen
      · apply ensures_bind
        apply ensures_mapError
        apply ensures_effect rfl
        · apply ensures_bind
          apply ensures_syncAll
          · exact ensures_answer (Or.inr ⟨_, rfl, rfl, cut⟩)
          · intro mayFail
            exact absurd mayFail noErrors
          · exact .inl ⟨rfl, [], Or.inr rfl, cut⟩
        · intro failure count isAllowed
          exact absurd ⟨failure, count, isAllowed⟩ noErrors
        · rintro after (rfl | rfl)
          · exact .inl ⟨rfl, tail, Or.inl rfl, start⟩
          · exact .inl ⟨rfl, [], Or.inr rfl, cut⟩
      · intro mayFail
        exact absurd mayFail noErrors
      · exact .inl ⟨rfl, tail, Or.inl rfl, start⟩
  · intro mayFail
    exact absurd mayFail noErrors
  · exact .inl ⟨rfl, tail, Or.inl rfl, start⟩

/-- What an open that meets no error comes to: a crash that leaves the complete
lines, or a writer with exactly these and no sidecar. -/
def OpenReached (chunk : SpoolChunk) (file : Nat) (frames : List SpoolFrame)
    (tail : List UInt8) (before : SpoolFiles)
    (outcome : Faults.Outcome SpoolError RawSpoolWriter)
    (after : SpoolFiles) : Prop :=
  (outcome = .crashed ∧ ∃ left, (left = tail ∨ left = []) ∧
    OpenLines chunk file frames left before after) ∨
  (outcome = .returned (.ok ⟨chunk, file⟩) ∧
    OpenLines chunk file frames [] before after ∧
    after.view chunk .checksum = none ∧
    after.view chunk .temporaryChecksum = none)

theorem OpenLines.unlink
    {before : SpoolFiles} (lines : OpenLines chunk file frames tail before files)
    {role : SpoolRole} (sidecar : role.isData = false) {after : SpoolFiles}
    (reached : after = files ∨ after = files.unlink (chunk.file role)) :
    OpenLines chunk file frames tail before after := by
  rcases reached with rfl | rfl
  · exact lines
  · have stays : StaysOpen chunk file (recordLines chunk frames ++ tail)
        before files := ⟨lines.only, lines.opened⟩
    exact ⟨(stays.unlink sidecar).only, (stays.unlink sidecar).opened⟩

theorem ensures_open_recovers
    (noErrors : ¬ MayFail allowed) (named : files.WellNamed)
    (all : AllValid chunk frames) (plain : newline ∉ tail)
    (opened : OpenWith files chunk file (recordLines chunk frames ++ tail)) :
    Ensures allowed (RawSpoolWriter.open text chunk) files
      (OpenReached chunk file frames tail files) := by
  have start : OpenLines chunk file frames tail files files :=
    ⟨.refl named, opened⟩
  have crashed : ∀ after, OpenLines chunk file frames [] files after →
      OpenReached chunk file frames tail files .crashed after :=
    fun after lines => .inl ⟨rfl, [], Or.inr rfl, lines⟩
  apply ensures_bind
  apply @ensures_pathExists _ _ _ chunk .closed
  · rw [opened.notClosed]
    apply ensures_bind
    apply @ensures_pathExists _ _ _ chunk .open
    · rw [opened.isOpen]
      apply ensures_bind
      apply (ensures_recoverOpenChunk noErrors named all plain opened).weaken
      rintro outcome middle
        (⟨rfl, left, isLeft, lines⟩ | ⟨recovery, rfl, _, lines⟩)
      · exact .inl ⟨rfl, left, isLeft, lines⟩
      · apply ensures_bind
        apply @ensures_removeIfPresent _ _ chunk .checksum
        · intro cleared reached isGone
          have kept := lines.unlink rfl reached
          have gone := isGone.resolve_left noErrors
          apply ensures_bind
          apply @ensures_removeIfPresent _ _ chunk .temporaryChecksum
          · intro last reached isGone
            have keptLast := kept.unlink rfl reached
            apply ensures_bind
            apply ensures_openFile keptLast.opened.isOpen
            · refine ensures_answer (Or.inr ⟨rfl, keptLast, ?_,
                isGone.resolve_left noErrors⟩)
              rcases reached with rfl | rfl
              · exact gone
              · rw [view_unlink, if_neg (by simp)]
                exact gone
            · intro mayFail
              exact absurd mayFail noErrors
            · exact crashed _ keptLast
          · intro mayFail
            exact absurd mayFail noErrors
          · intro after reached
            exact crashed _ (kept.unlink rfl reached)
        · intro mayFail
          exact absurd mayFail noErrors
        · intro after reached
          exact crashed _ (lines.unlink rfl reached)
    · intro mayFail
      exact absurd mayFail noErrors
    · exact .inl ⟨rfl, tail, Or.inl rfl, start⟩
  · intro mayFail
    exact absurd mayFail noErrors
  · exact .inl ⟨rfl, tail, Or.inl rfl, start⟩

theorem ensures_open_creates
    (noErrors : ¬ MayFail allowed) (named : files.WellNamed)
    (untouched : ∀ role, files.view chunk role = none) :
    Ensures allowed (RawSpoolWriter.open text chunk) files
      fun outcome after =>
        (outcome = .crashed ∧ after = files) ∨
          OpenReached chunk files.next [] [] files outcome after := by
  have created : OpenLines chunk files.next [] [] files
      (files.create (chunk.file .open)) := by
    refine ⟨onlyChunk_create named chunk .open, ?_, ?_, ?_⟩
    · rw [view_create, if_pos ⟨rfl, rfl⟩]
    · rw [view_create, if_neg (by simp)]
      exact untouched .closed
    · exact Function.update_self ..
  have absent : ∀ role : SpoolRole, role ≠ .open →
      (files.create (chunk.file .open)).view chunk role = none := by
    intro role ne
    rw [view_create, if_neg (by simp [ne])]
    exact untouched role
  apply ensures_bind
  apply @ensures_pathExists _ _ _ chunk .closed
  · rw [untouched .closed]
    apply ensures_bind
    apply @ensures_pathExists _ _ _ chunk .open
    · rw [untouched .open]
      apply ensures_bind
      apply @ensures_createNew _ _ chunk .open
      · intro _
        exact ensures_answer (Or.inr (Or.inr ⟨rfl, created,
          absent .checksum (by simp), absent .temporaryChecksum (by simp)⟩))
      · rintro (present | mayFail)
        · exact absurd (untouched .open) present
        · exact absurd mayFail noErrors
      · rintro after (rfl | ⟨_, rfl⟩)
        · exact .inl ⟨rfl, rfl⟩
        · exact .inr (Or.inl ⟨rfl, [], Or.inr rfl, created⟩)
    · intro mayFail
      exact absurd mayFail noErrors
    · exact .inl ⟨rfl, rfl⟩
  · intro mayFail
    exact absurd mayFail noErrors
  · exact .inl ⟨rfl, rfl⟩

theorem ensures_open_closed (noErrors : ¬ MayFail allowed)
    (closed : files.view chunk .closed = some file) :
    Ensures allowed (RawSpoolWriter.open text chunk) files
      fun outcome after =>
        after = files ∧ (outcome = .crashed ∨ outcome =
            .returned (.error (.closedChunkExists chunk.closedPath))) := by
  apply ensures_bind
  apply @ensures_pathExists _ _ _ chunk .closed
  · rw [closed]
    exact ensures_answer ⟨rfl, Or.inr rfl⟩
  · intro mayFail
    exact absurd mayFail noErrors
  · exact ⟨rfl, Or.inl rfl⟩

end Open

end Pmkit
