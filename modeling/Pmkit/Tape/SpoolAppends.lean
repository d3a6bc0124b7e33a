import Pmkit.Tape.SpoolRuns

/-!
# Appends that fail

A writer goes on after an append that failed with an I/O error, and closes.
The line and its newline are two writes and nothing is taken back, so a failed
append that wrote a byte leaves it in the chunk: what follows on that line is
not a record, and a line that was complete is one although its append failed.
-/

namespace Pmkit

open Faults Program SpoolFiles

/-- The files with the frames whose appends have returned. -/
structure Appending where
  files : SpoolFiles
  accepted : List SpoolFrame

structure AppendCall where
  frame : SpoolFrame
  faults : List (Fault IoError)

def AppendCall.ErrorsOnly (call : AppendCall) : Prop :=
  ∀ fault ∈ call.faults, ∀ count, fault ≠ .crash count

def ErrorAfterByte : List (Fault IoError) → Prop
  | .error _ count :: _ => 0 < count
  | .none :: .error _ _ :: _ => True
  | _ => False

/-- A valid frame meets an I/O error after some byte of its line. -/
def AppendCall.LeavesBytes (writer : RawSpoolWriter) (call : AppendCall) :
    Prop :=
  validateFrame writer.chunk call.frame = .ok () ∧ ErrorAfterByte call.faults

def Appending.step (writer : RawSpoolWriter) (state : Appending)
    (call : AppendCall) : Appending :=
  let ending := writer.append call.frame state.files call.faults
  { files := ending.state
    accepted :=
      if ending.outcome = .returned (.ok ()) then
        state.accepted ++ [call.frame]
      else state.accepted }

/-! ## What the file holds -/

/-- A line was begun and is not a record: nothing follows it, or a whole line
follows on it. -/
structure Ruined (chunk : SpoolChunk) (content : List UInt8) : Prop where
  parts : ∃ frames beginning rest, AllValid chunk frames ∧
    content = recordLines chunk frames ++ (beginning ++ rest) ∧
    beginning ≠ [] ∧ newline ∉ beginning ∧
    (JsonScan.Scan.start.after beginning).Entered ∧
    (rest = [] ∨ ∃ frame more, validateFrame chunk frame = .ok () ∧
      rest = recordLine chunk frame ++ more)

/-- More complete lines than frames that were accepted. -/
def Overfull (chunk : SpoolChunk) (content : List UInt8)
    (expected : List SpoolFrame) : Prop :=
  ∃ frames, AllValid chunk frames ∧ content = recordLines chunk frames ∧
    expected.length < frames.length

section Content

variable {chunk : SpoolChunk} {content : List UInt8} {frame : SpoolFrame}
  {expected : List SpoolFrame}

variable {count : Nat} {frames : List SpoolFrame}

/-- A line starts with a bracket, so a text that starts with some of it has been
begun. -/
theorem entered_take (valid : validateFrame chunk frame = .ok ())
    (positive : 0 < count) :
    (JsonScan.Scan.start.after
      ((recordLine chunk frame).take count)).Entered := by
  obtain ⟨rest, head⟩ := WireSpoolFrame.bytes_head (plain_of_valid valid)
  obtain ⟨count, rfl⟩ := Nat.exists_eq_succ_of_ne_zero
    (Nat.ne_of_gt positive)
  rw [recordLine, Lines.terminated, head, List.cons_append,
    List.take_succ_cons, JsonScan.Scan.after_cons]
  apply JsonScan.Scan.Entered.after
  exact Nat.one_pos

/-- A ruined file stays so. -/
theorem Ruined.append (ruined : Ruined chunk content)
    (valid : validateFrame chunk frame = .ok ()) (count : Nat) :
    Ruined chunk (content ++ (recordLine chunk frame).take count) := by
  obtain ⟨frames, beginning, rest, all, rfl, some, plain, entered, follows⟩ :=
    ruined.parts
  rcases follows with isEmpty | ⟨other, more, isValid, isRest⟩
  · subst isEmpty
    by_cases whole : (recordLine chunk frame).take count =
        recordLine chunk frame
    · refine ⟨frames, beginning, recordLine chunk frame, all, ?_, some, plain,
        entered, Or.inr ⟨frame, [], valid, (List.append_nil _).symm⟩⟩
      rw [whole, List.append_nil, List.append_assoc]
    · refine ⟨frames, beginning ++ (recordLine chunk frame).take count, [],
        all, ?_, ?_, ?_, ?_, Or.inl rfl⟩
      · simp
      · simp [some]
      · rw [List.mem_append, not_or]
        exact ⟨plain, SpoolSound.newline_notMem_take valid whole⟩
      · rw [JsonScan.Scan.after_append]
        exact entered.after _
  · rw [isRest]
    refine ⟨frames, beginning, _, all, ?_, some, plain, entered,
      Or.inr ⟨other, more ++ (recordLine chunk frame).take count, isValid, rfl⟩⟩
    simp

/-- Some first bytes of a line after complete lines. -/
theorem ruined_of_part (all : AllValid chunk frames)
    (valid : validateFrame chunk frame = .ok ())
    (positive : 0 < count)
    (part : (recordLine chunk frame).take count ≠ recordLine chunk frame) :
    Ruined chunk (recordLines chunk frames ++
      (recordLine chunk frame).take count) := by
  refine ⟨frames, (recordLine chunk frame).take count, [], all, ?_, ?_,
    SpoolSound.newline_notMem_take valid part, entered_take valid positive,
    Or.inl rfl⟩
  · rw [List.append_nil]
  · rw [Ne, List.take_eq_nil_iff, not_or]
    exact ⟨Nat.ne_of_gt positive, SpoolSound.recordLine_ne_nil chunk frame⟩

/-- What is in the file is not what was accepted. -/
def Damaged (chunk : SpoolChunk) (content : List UInt8)
    (expected : List SpoolFrame) : Prop :=
  Ruined chunk content ∨ Overfull chunk content expected

/-- Complete lines, of the accepted frames or of more, and some first bytes of
another. -/
theorem damaged_append (all : AllValid chunk frames)
    (enough : expected.length ≤ frames.length)
    (valid : validateFrame chunk frame = .ok ())
    (positive : 0 < count) :
    Damaged chunk (recordLines chunk frames ++
      (recordLine chunk frame).take count) expected := by
  by_cases whole : (recordLine chunk frame).take count =
      recordLine chunk frame
  · right
    refine ⟨frames ++ [frame], all.concat valid, ?_, ?_⟩
    · rw [whole, recordLines_concat]
    · rw [List.length_append]
      exact Nat.lt_succ_of_le enough
  · exact .inl (ruined_of_part all valid positive whole)

theorem Damaged.append (damaged : Damaged chunk content expected)
    (valid : validateFrame chunk frame = .ok ()) (count : Nat) :
    Damaged chunk (content ++ (recordLine chunk frame).take count)
      expected := by
  rcases damaged with ruined | ⟨frames, all, rfl, more⟩
  · exact .inl (ruined.append valid count)
  · cases count with
    | zero =>
        rw [List.take_zero, List.append_nil]
        exact .inr ⟨frames, all, rfl, more⟩
    | succ count =>
        exact damaged_append all (Nat.le_of_lt more) valid
          (Nat.succ_pos count)

/-- A whole line for an accepted frame does not repair the file. -/
theorem Damaged.accept (damaged : Damaged chunk content expected)
    (valid : validateFrame chunk frame = .ok ()) :
    Damaged chunk (content ++ recordLine chunk frame)
      (expected ++ [frame]) := by
  rcases damaged with ruined | ⟨frames, all, rfl, more⟩
  · have next := ruined.append valid (recordLine chunk frame).length
    rw [List.take_length] at next
    exact .inl next
  · refine Or.inr ⟨frames ++ [frame], all.concat valid, ?_, ?_⟩
    · rw [recordLines_concat]
    · rw [List.length_append, List.length_append]
      exact Nat.add_lt_add_right more 1

theorem accepts_of_newline {line : List UInt8}
    (accepts : JsonScan.Accepts (line ++ [newline])) :
    JsonScan.Accepts line := by
  unfold JsonScan.Accepts at accepts ⊢
  rw [JsonScan.Scan.after_append] at accepts
  generalize JsonScan.Scan.start.after line = scan at accepts ⊢
  cases scan with
  | finished => rfl
  | rejected => cases accepts
  | between depth afterValue => cases accepts
  | inString depth escaped => cases escaped <;> cases accepts

/-- A line that fails makes the whole file fail. -/
theorem decodeLines_fails {text : SpoolText}
    (all : AllValid chunk frames) {path : SpoolPath}
    {rest : List (List UInt8)}
    (fails : ∀ read, decodeLines text chunk path rest ≠ .ok read)
    (read : List SpoolFrame) :
    decodeLines text chunk path
      (frames.map (recordLine chunk) ++ rest) ≠ .ok read := by
  induction frames generalizing read with
  | nil => exact fails read
  | cons frame frames ih =>
      rw [List.map_cons, List.cons_append, decodeLines,
        if_neg (by simp [getLast_recordLine]),
        decodeRecord_recordLine (all frame List.mem_cons_self)]
      show (if chunk ≠ chunk then _ else _) ≠ _
      rw [if_neg (by simp)]
      intro isOk
      obtain ⟨others, isRest, _⟩ := Fallible.bind_eq_ok.mp isOk
      exact ih (fun other mem =>
        all other (List.mem_cons_of_mem frame mem)) others isRest

theorem Ruined.fails
    (ruined : Ruined chunk content) (text : SpoolText) (path : SpoolPath)
    (read : List SpoolFrame) :
    decodeLines text chunk path
      (Lines.splitInclusive newline content) ≠ .ok read := by
  obtain ⟨frames, beginning, rest, all, rfl, some, plain, entered, follows⟩ :=
    ruined.parts
  rw [splitInclusive_recordLines all]
  apply decodeLines_fails all
  intro others
  rcases follows with isEmpty | ⟨frame, more, valid, isRest⟩
  · subst isEmpty
    rw [List.append_nil, Lines.splitInclusive_tail plain some, decodeLines,
      if_pos (getLast_tail plain)]
    simp
  · rw [isRest]
    have isPlain := plain_of_valid valid
    have line : newline ∉ beginning ++ (frame.wire chunk).bytes := by
      rw [List.mem_append, not_or]
      exact ⟨plain, WireSpoolFrame.newline_notMem isPlain⟩
    have shape : beginning ++ (recordLine chunk frame ++ more) =
        beginning ++ (frame.wire chunk).bytes ++ newline :: more := by
      simp [recordLine, Lines.terminated]
    rw [shape, Lines.splitInclusive_line line, decodeLines,
      if_neg (by simp [Lines.terminated])]
    intro isOk
    obtain ⟨⟨found, record⟩, decoded, _⟩ := Fallible.bind_eq_ok.mp isOk
    -- The text of this line is not that of an object.
    obtain ⟨tail, head⟩ := WireSpoolFrame.bytes_head isPlain
    have accepted := accepts_of_newline (text.accepts_of_readRecord _ _
      (text.readRecord_bytes chunk frame valid))
    unfold decodeRecord at decoded
    rw [if_neg (by simp [Lines.terminated])] at decoded
    cases readLine : text.readRecord
        (Lines.terminated newline (beginning ++ (frame.wire chunk).bytes)) with
    | error message =>
        rw [readLine] at decoded
        cases decoded
    | ok wire =>
        have accepts := text.accepts_of_readRecord _ _ readLine
        rw [head] at accepted
        rw [Lines.terminated, head] at accepts
        have blank : ∀ byte ∈ [newline], JsonScan.isBlank byte = true := by
          intro byte mem
          rw [List.mem_singleton.mp mem]
          rfl
        exact JsonScan.not_accepts_of_entered entered accepted rfl
          [newline] blank accepts

end Content

/-! ## Runs of appends -/

/-- The writer's file is open with these bytes, and only its chunk has
changed. -/
structure AppendsTo (writer : RawSpoolWriter) (before : SpoolFiles)
    (state : Appending) (content : List UInt8) : Prop where
  only : OnlyChunk writer.chunk before state.files
  opened : OpenWith state.files writer.chunk writer.file content

section Runs

variable {writer : RawSpoolWriter} {before : SpoolFiles} {state : Appending}
  {content : List UInt8} {earlier : List SpoolFrame}

theorem AppendsTo.extend
    (appends : AppendsTo writer before state content) (bytes : List UInt8)
    (accepted : List SpoolFrame) :
    AppendsTo writer before {
      files := state.files.extend writer.file bytes
      accepted := accepted } (content ++ bytes) where
  only := appends.only.trans (onlyChunk_setContents appends.only.named
    appends.opened.isOpen _)
  opened := {
    isOpen := appends.opened.isOpen
    notClosed := appends.opened.notClosed
    bytes := by
      rw [SpoolSound.contents_extend, appends.opened.bytes] }

def Faithful (writer : RawSpoolWriter) (before : SpoolFiles)
    (earlier : List SpoolFrame) (state : Appending) : Prop :=
  AllValid writer.chunk (earlier ++ state.accepted) ∧
    AppendsTo writer before state
      (recordLines writer.chunk (earlier ++ state.accepted))

def Unfaithful (writer : RawSpoolWriter) (before : SpoolFiles)
    (earlier : List SpoolFrame) (state : Appending) : Prop :=
  ∃ content, AppendsTo writer before state content ∧
    Damaged writer.chunk content (earlier ++ state.accepted)

/-- An append of a valid frame without crashes: it returns with its line in the
file, or it fails with an error. -/
theorem appendOutcome_errors (length : Nat) {faults : List (Fault IoError)}
    (errors : ∀ fault ∈ faults, ∀ count, fault ≠ .crash count) :
    (appendOutcome faults = .returned (.ok ()) ∧
        appendedBytes length faults = length + 1 ∧ ¬ ErrorAfterByte faults) ∨
      (appendOutcome faults ≠ .returned (.ok ()) ∧
        ((¬ ErrorAfterByte faults ∧ appendedBytes length faults = 0) ∨
          (ErrorAfterByte faults ∧
            (0 < length → 0 < appendedBytes length faults)))) := by
  match faults with
  | [] => exact .inl ⟨rfl, rfl, id⟩
  | .crash count :: _ =>
      exact absurd rfl (errors _ List.mem_cons_self count)
  | .error failure 0 :: _ =>
      exact .inr ⟨by simp [appendOutcome],
        Or.inl ⟨Nat.lt_irrefl 0, Nat.zero_min length⟩⟩
  | .error failure (count + 1) :: _ =>
      exact .inr ⟨by simp [appendOutcome], Or.inr ⟨Nat.succ_pos count,
        fun positive => Nat.lt_min.mpr ⟨Nat.succ_pos count, positive⟩⟩⟩
  | [.none] => exact .inl ⟨rfl, rfl, id⟩
  | .none :: .none :: _ => exact .inl ⟨rfl, rfl, id⟩
  | .none :: .error failure count :: _ =>
      exact .inr ⟨by simp [appendOutcome], Or.inr ⟨trivial,
        fun positive => Nat.add_pos_left positive _⟩⟩
  | .none :: .crash count :: _ =>
      exact absurd rfl (errors _
        (List.mem_cons_of_mem _ List.mem_cons_self) count)

/-- The three ways of an append: refused or failed with nothing written, whole,
or failed with bytes of its line left. -/
theorem Appending.step_cases
    (state : Appending) {call : AppendCall} (errors : call.ErrorsOnly) :
    (state.step writer call = state ∧ ¬ call.LeavesBytes writer) ∨
    (validateFrame writer.chunk call.frame = .ok () ∧ state.step writer call = {
        files := state.files.extend writer.file
          (recordLine writer.chunk call.frame)
        accepted := state.accepted ++ [call.frame] } ∧
      ¬ call.LeavesBytes writer) ∨
    (call.LeavesBytes writer ∧ ∃ count, 0 < count ∧ state.step writer call = {
        files := state.files.extend writer.file
          ((recordLine writer.chunk call.frame).take count)
        accepted := state.accepted }) := by
  unfold Appending.step
  cases checked : validateFrame writer.chunk call.frame with
  | error failure =>
      refine Or.inl ⟨?_, ?_⟩
      · rw [append_invalid checked]
        simp
      · rintro ⟨valid, _⟩
        rw [checked] at valid
        cases valid
  | ok _ =>
      obtain ⟨outcome, files⟩ := append_valid checked state.files call.faults
      obtain ⟨rest, head⟩ :=
        WireSpoolFrame.bytes_head (plain_of_valid checked)
      have length : 0 < (call.frame.wire writer.chunk).bytes.length := by
        rw [head]
        exact Nat.succ_pos _
      dsimp only
      rw [outcome, files]
      rcases appendOutcome_errors
        (call.frame.wire writer.chunk).bytes.length errors with
        ⟨ok, whole, clean⟩ | ⟨failed, ⟨clean, nothing⟩ | ⟨torn, some⟩⟩
      · refine Or.inr (Or.inl ⟨rfl, ?_, fun leaves => clean leaves.2⟩)
        rw [if_pos ok, whole, List.take_of_length_le]
        simp [recordLine, Lines.terminated]
      · refine Or.inl ⟨?_, fun leaves => clean leaves.2⟩
        rw [if_neg failed, nothing, List.take_zero, extend_nil]
      · refine Or.inr (Or.inr ⟨⟨checked, torn⟩, _, some length, ?_⟩)
        rw [if_neg failed]

theorem Faithful.step
    (faithful : Faithful writer before earlier state) {call : AppendCall}
    (errors : call.ErrorsOnly) :
    (¬ call.LeavesBytes writer →
        Faithful writer before earlier (state.step writer call)) ∧
      (call.LeavesBytes writer →
        Unfaithful writer before earlier (state.step writer call)) := by
  obtain ⟨all, appends⟩ := faithful
  rcases state.step_cases errors with ⟨same, clean⟩ |
    ⟨valid, whole, clean⟩ | ⟨leaves, count, positive, part⟩
  · rw [same]
    exact ⟨fun _ => ⟨all, appends⟩, fun leaves => absurd leaves clean⟩
  · rw [whole]
    refine ⟨fun _ => ⟨?_, ?_⟩, fun leaves => absurd leaves clean⟩
    · rw [← List.append_assoc]
      exact all.concat valid
    · have next := appends.extend (recordLine writer.chunk call.frame)
        (state.accepted ++ [call.frame])
      rw [← recordLines_concat, List.append_assoc] at next
      exact next
  · rw [part]
    exact ⟨fun clean => absurd leaves clean, fun _ =>
      ⟨_, appends.extend _ _, damaged_append all (Nat.le_refl _) leaves.1
        positive⟩⟩

theorem Unfaithful.step
    (unfaithful : Unfaithful writer before earlier state) {call : AppendCall}
    (errors : call.ErrorsOnly) :
    Unfaithful writer before earlier (state.step writer call) := by
  obtain ⟨content, appends, damaged⟩ := unfaithful
  rcases state.step_cases errors with ⟨same, _⟩ | ⟨valid, whole, _⟩ |
    ⟨leaves, count, _, part⟩
  · rw [same]
    exact ⟨content, appends, damaged⟩
  · rw [whole]
    refine ⟨_, appends.extend _ _, ?_⟩
    rw [← List.append_assoc]
    exact damaged.accept valid
  · rw [part]
    exact ⟨_, appends.extend _ _, damaged.append leaves.1 count⟩

/-- Over a run of appends the file is what was accepted just when none of them
left bytes of a line. -/
theorem Faithful.run
    {calls : List AppendCall} (faithful : Faithful writer before earlier state)
    (errors : ∀ call ∈ calls, call.ErrorsOnly) :
    ((∀ call ∈ calls, ¬ call.LeavesBytes writer) →
        Faithful writer before earlier
          (Trace.run (Appending.step writer) state calls)) ∧
      ((∃ call ∈ calls, call.LeavesBytes writer) →
        Unfaithful writer before earlier
          (Trace.run (Appending.step writer) state calls)) := by
  induction calls generalizing state with
  | nil => exact ⟨fun _ => faithful, fun ⟨_, mem, _⟩ => nomatch mem⟩
  | cons call rest ih =>
      have now := errors call List.mem_cons_self
      have later : ∀ other ∈ rest, other.ErrorsOnly := fun other mem =>
        errors other (List.mem_cons_of_mem call mem)
      by_cases leaves : call.LeavesBytes writer
      · have broken := (faithful.step now).2 leaves
        have stays := @Trace.run_preserves _ _ (Appending.step writer)
          (Unfaithful writer before earlier)
          (fun _ other => other.ErrorsOnly)
          (fun _ _ holds isError => holds.step isError) _ _ broken
          (Trace.everyStep_of_forall later)
        exact ⟨fun clean => absurd leaves (clean call List.mem_cons_self),
          fun _ => stays⟩
      · obtain ⟨clean, torn⟩ :=
          ih ((faithful.step now).1 leaves) later
        refine ⟨fun all => clean fun other mem =>
          all other (List.mem_cons_of_mem call mem), ?_⟩
        rintro ⟨other, mem, isTorn⟩
        rcases List.mem_cons.mp mem with rfl | inRest
        · exact absurd isTorn leaves
        · exact torn ⟨other, inRest, isTorn⟩

end Runs

/-! ## The closed chunk -/

/-- A state of a run without I/O errors and without late appends. -/
def SpoolReachable (text : SpoolText) (run : SpoolRun) : Prop :=
  ∃ calls : List SpoolCall, (∀ call ∈ calls, call.CrashesOnly) ∧
    Trace.EveryStep (SpoolRun.step text)
      (fun run call => ¬ LateAppend run call) default calls ∧
    run = Trace.run (SpoolRun.step text) default calls

theorem SpoolReachable.sound
    {text : SpoolText} {run : SpoolRun} (reachable : SpoolReachable text run) :
    SpoolSound text run := by
  obtain ⟨calls, crashes, early, rfl⟩ := reachable
  exact Trace.run_preserves
    (fun _ call sound good => sound.step call good.1 good.2)
    (SpoolSound.initial text) ((Trace.everyStep_of_forall crashes).and early)

section Closed

variable {text : SpoolText} {files : SpoolFiles} {chunk : SpoolChunk}
  {file : Nat} {content : List UInt8}

/-- The enumeration gives the records of a closed file when its lines are
read and the other closed chunks are verified. -/
theorem enumeratesRecords_iff (named : files.WellNamed)
    (closed : ClosedWith text files chunk file content)
    (others : ∀ other otherFile, other ≠ chunk →
      files.view other .closed = some otherFile →
      ∃ verified, verifyClosedChunk text files other = .ok verified)
    (frames : List SpoolFrame) :
    EnumeratesRecords text files chunk frames ↔
      decodeLines text chunk chunk.closedPath
        (Lines.splitInclusive newline content) = .ok frames := by
  have records := records_verified closed
  have verifies := verifyClosedChunk_closed closed
  constructor
  · intro enumerates
    obtain ⟨chunks, enumerated, verified, mem, isChunk, isRead⟩ :=
      enumerates (IterationOrder.stored SpoolPath)
    have isVerified : ∃ found,
        verifyClosedChunk text files chunk = .ok found := by
      by_contra none
      exact enumerateClosedChunks_fails named closed.isClosed
        (fun found isOk => none ⟨found, isOk⟩) _ chunks enumerated
    have all : AllVerified text files := by
      intro other otherFile found
      by_cases same : other = chunk
      · subst same
        exact isVerified
      · exact others other otherFile same found
    obtain ⟨again, same, _, source⟩ := enumerateClosedChunks_ok named all
      (IterationOrder.stored SpoolPath)
    rw [enumerated] at same
    cases same
    obtain ⟨other, fromOther⟩ := source verified mem
    have isSame : verified = chunk.verified text content := by
      rw [← chunk_of_verified fromOther, isChunk, verifies] at fromOther
      cases read : (chunk.verified text content).records text files with
      | error failure =>
          rw [read] at fromOther
          cases fromOther
      | ok frames =>
          rw [read] at fromOther
          cases fromOther
          rfl
    rw [← records, ← isSame, isRead]
  · intro read order
    rw [records, read] at verifies
    rw [read] at records
    have all : AllVerified text files := by
      intro other otherFile found
      by_cases same : other = chunk
      · subst same
        exact ⟨_, verifies⟩
      · exact others other otherFile same found
    obtain ⟨chunks, enumerated, mem, _⟩ :=
      enumerateClosedChunks_ok named all order
    exact ⟨chunks, enumerated, _,
      mem chunk file _ closed.isClosed verifies, rfl, records⟩

end Closed

section Appended

variable {text : SpoolText} {run : SpoolRun} {writer : RawSpoolWriter}
  {state : Appending} {content : List UInt8} {faults : List (Fault IoError)}

/-- A close that returns leaves the chunk closed with what was in its file, and
the enumeration is decided by the lines of this chunk. -/
theorem enumerates_closed_iff (sound : SpoolSound text run)
    (appends : AppendsTo writer run.files state content)
    (closed : (writer.close text state.files faults).outcome =
      .returned (.ok ())) (frames : List SpoolFrame) :
    EnumeratesRecords text (writer.close text state.files faults).state
        writer.chunk frames ↔
      decodeLines text writer.chunk writer.chunk.closedPath
        (Lines.splitInclusive newline content) = .ok frames := by
  obtain ⟨only, reached⟩ := (@ensures_close text writer _ _ _
    appends.only.named appends.opened).at faults
  have isClosed := reached.resolve_left fun stillOpen => stillOpen.2 closed
  have whole := appends.only.trans only
  apply enumeratesRecords_iff whole.named isClosed
  intro other otherFile ne found
  rw [whole.views other _ ne] at found
  have records := (sound.verified_records found).2
  rcases sound.chunks other with ⟨untouched, _⟩ | ⟨_, _, _, opened⟩ |
    ⟨_, otherClosed⟩
  · rw [untouched] at found
    cases found
  · rw [opened.notClosed] at found
    cases found
  · have later := otherClosed.of_other whole ne
    have read := records_verified later
    rw [decodeLines_recordLines (sound.valid other)] at read
    exact ⟨_, by rw [verifyClosedChunk_closed later, read]; rfl⟩

theorem Unfaithful.not_enumerates
    (sound : SpoolSound text run) {earlier : List SpoolFrame}
    (unfaithful : Unfaithful writer run.files earlier state)
    (closed : (writer.close text state.files faults).outcome =
      .returned (.ok ())) :
    ¬ EnumeratesRecords text (writer.close text state.files faults).state
      writer.chunk (earlier ++ state.accepted) := by
  obtain ⟨content, appends, damaged⟩ := unfaithful
  rw [enumerates_closed_iff sound appends closed]
  rcases damaged with ruined | ⟨frames, all, rfl, more⟩
  · exact ruined.fails text _ _
  · rw [decodeLines_recordLines all]
    intro same
    cases same
    exact Nat.lt_irrefl _ more

/-- A writer that has appended nothing yet. -/
theorem SpoolSound.faithful (sound : SpoolSound text run) {handle : Nat}
    (found : run.writers handle = some writer)
    (notClosed : run.files.view writer.chunk .closed = none) :
    Faithful writer run.files (run.written writer.chunk)
      { files := run.files, accepted := [] } := by
  have opened : OpenWith run.files writer.chunk writer.file
      (recordLines writer.chunk (run.written writer.chunk)) := by
    rcases sound.writers handle writer found with opened | closed
    · exact opened
    · rw [notClosed] at closed
      cases closed
  unfold Faithful
  rw [List.append_nil]
  exact ⟨sound.valid writer.chunk, .refl sound.named, opened⟩

end Appended

/-- After appends of which any may fail and a close that returns, the reader
gets the accepted frames just when no failed append has left a byte. -/
theorem closedRecords_accepted_iff
    {text : SpoolText} {run : SpoolRun} (reachable : SpoolReachable text run)
    {handle : Nat} {writer : RawSpoolWriter}
    (found : run.writers handle = some writer)
    (notClosed : run.files.view writer.chunk .closed = none)
    {calls : List AppendCall} (errors : ∀ call ∈ calls, call.ErrorsOnly)
    {faults : List (Fault IoError)}
    (closed : (writer.close text (Trace.run (Appending.step writer)
      { files := run.files, accepted := [] } calls).files faults).outcome =
        .returned (.ok ())) :
    EnumeratesRecords text (writer.close text
        (Trace.run (Appending.step writer)
          { files := run.files, accepted := [] } calls).files faults).state
        writer.chunk (run.written writer.chunk ++
          (Trace.run (Appending.step writer)
            { files := run.files, accepted := [] } calls).accepted) ↔
      ∀ call ∈ calls, ¬ call.LeavesBytes writer := by
  have sound := reachable.sound
  obtain ⟨clean, torn⟩ := (sound.faithful found notClosed).run errors
  constructor
  · intro enumerates call member leaves
    exact (torn ⟨call, member, leaves⟩).not_enumerates sound closed enumerates
  · intro all
    obtain ⟨valid, appends⟩ := clean all
    rw [enumerates_closed_iff sound appends closed]
    exact decodeLines_recordLines valid _

namespace SpoolSample

def opened : SpoolRun :=
  SpoolRun.step text default (.open 0 chunk [])

def writer : RawSpoolWriter where
  chunk := chunk
  file := 0

def fullDisk (count : Nat) : List AppendCall := [{
  frame := first
  faults := [.error (.other "No space left on device (os error 28)") count] }]

theorem opened_reachable : SpoolReachable text opened :=
  ⟨[.open 0 chunk []], by simp [SpoolCall.CrashesOnly], ⟨id, trivial⟩, rfl⟩

theorem opened_writer : opened.writers 0 = some writer := by
  decide +kernel

theorem opened_notClosed : opened.files.view writer.chunk .closed = none := by
  decide +kernel

theorem fullDisk_errors (count : Nat) :
    ∀ call ∈ fullDisk count, call.ErrorsOnly := by
  simp [fullDisk, AppendCall.ErrorsOnly]

def closing (count : Nat) : Ending SpoolFiles (Fault IoError) SpoolError Unit :=
  writer.close text (Trace.run (Appending.step writer)
    { files := opened.files, accepted := [] } (fullDisk count)).files []

end SpoolSample

/-- The byte that a failed append has left makes the closed chunk unreadable. -/
theorem failedAppend_ruins :
    (SpoolSample.closing 1).outcome = .returned (.ok ()) ∧
      ¬ EnumeratesRecords SpoolSample.text (SpoolSample.closing 1).state
        SpoolSample.chunk (SpoolSample.opened.written SpoolSample.chunk ++
          (Trace.run (Appending.step SpoolSample.writer)
            { files := SpoolSample.opened.files, accepted := [] }
            (SpoolSample.fullDisk 1)).accepted) := by
  have sound := SpoolSample.opened_reachable.sound
  have closed : (SpoolSample.closing 1).outcome = .returned (.ok ()) := by
    decide +kernel
  have torn := (sound.faithful SpoolSample.opened_writer
    SpoolSample.opened_notClosed).run (SpoolSample.fullDisk_errors 1)
  refine ⟨closed, (torn.2 ⟨_, List.mem_singleton.mpr rfl, ?_⟩).not_enumerates
    sound closed⟩
  exact ⟨SpoolSample.first_valid, Nat.one_pos⟩

theorem closedRecords_accepted_fullDisk :
    (SpoolSample.closing 0).outcome = .returned (.ok ()) ∧
      (EnumeratesRecords SpoolSample.text (SpoolSample.closing 0).state
          SpoolSample.chunk (SpoolSample.opened.written SpoolSample.chunk ++
            (Trace.run (Appending.step SpoolSample.writer)
              { files := SpoolSample.opened.files, accepted := [] }
              (SpoolSample.fullDisk 0)).accepted) ↔
        ∀ call ∈ SpoolSample.fullDisk 0,
          ¬ call.LeavesBytes SpoolSample.writer) := by
  have closed : (SpoolSample.closing 0).outcome = .returned (.ok ()) := by
    decide +kernel
  exact ⟨closed, closedRecords_accepted_iff SpoolSample.opened_reachable
    SpoolSample.opened_writer SpoolSample.opened_notClosed
    (SpoolSample.fullDisk_errors 0) closed⟩

end Pmkit
