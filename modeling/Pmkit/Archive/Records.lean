import Pmkit.Archive.Evidence

/-!
# Records under clean failures

When a failed call has no effect, the stored manifest is the one the sink
holds.  The records appended so far then split into the groups of the
committed segments and the records still in the buffer.
-/

namespace Pmkit

open Faults FsObjectStore

def CleanFault (fault : Fault ObjectStoreError) : Prop :=
  ∀ failure count, fault = .error failure count → count = 0

theorem clean_cleanFault : Clean CleanFault :=
  fun failure count isClean => isClean failure count rfl

def ArchiveCall.IsClean : ArchiveCall → Prop
  | .open _ faults => ∀ fault ∈ faults, CleanFault fault
  | .append record faults =>
      record ≠ [] ∧ ∀ fault ∈ faults, CleanFault fault
  | .close faults => ∀ fault ∈ faults, CleanFault fault
  | .recover faults => ∀ fault ∈ faults, CleanFault fault
  | .crash => True

/-- An archive with the records that were handed to it and not lost. -/
structure RecordRun where
  archive : Archive
  appended : List (List UInt8)

instance : Inhabited RecordRun where
  default := { archive := default, appended := [] }

def Manifest.recordCount (manifest : Manifest) : Nat :=
  manifest.segments.foldr (fun segment count => segment.records + count) 0

/-- One call.  A process that opens the archive goes on after the records that
the manifest counts. -/
def RecordRun.step (text : ArchiveText) (run : RecordRun)
    (call : ArchiveCall) : RecordRun where
  archive := run.archive.step text call
  appended :=
    match call with
    | .append record _ =>
        if run.archive.sink.isSome then run.appended ++ [record]
        else run.appended
    | .open _ _ =>
        match (run.archive.step text call).sink with
        | some sink => run.appended.take sink.manifest.recordCount
        | none => run.appended
    | _ => run.appended

/-- A segment holds a group of records: their bytes, their number and their
digest. -/
structure SegmentHolds (text : ArchiveText) (objects : Objects)
    (segment : SegmentRef) (group : List (List UInt8)) : Prop where
  bytes : objects segment.key = some group.flatten
  records : segment.records = group.length
  digest : segment.sha256Hex = text.sha256Hex group.flatten

/-- The segments of the stored manifest hold these groups, in order. -/
def Committed (text : ArchiveText) (objects : Objects)
    (groups : List (List (List UInt8))) : Prop :=
  List.Forall₂ (SegmentHolds text objects)
    (storedManifest text objects).segments groups

/-- The concatenation of the committed segments in manifest order. -/
def committedBytes (text : ArchiveText) (objects : Objects) :
    Option (List UInt8) :=
  ((storedManifest text objects).segments.mapM fun segment =>
    objects segment.key).map List.flatten

section Groups

variable {text : ArchiveText} {objects : Objects}
  {groups : List (List (List UInt8))}

theorem committedBytes_eq (committed : Committed text objects groups) :
    committedBytes text objects = some groups.flatten.flatten := by
  unfold Committed at committed
  unfold committedBytes
  generalize (storedManifest text objects).segments = segments at committed
  have each : (segments.mapM fun segment => objects segment.key) =
      some (groups.map List.flatten) := by
    induction committed with
    | nil => rfl
    | cons holds _ ih =>
        rw [List.mapM_cons, holds.bytes, ih]
        rfl
  rw [each, Option.map_some, List.flatten_flatten]

theorem recordCount_eq (committed : Committed text objects groups) :
    (storedManifest text objects).recordCount = groups.flatten.length := by
  unfold Committed at committed
  unfold Manifest.recordCount
  generalize (storedManifest text objects).segments = segments at committed
  induction committed with
  | nil => rfl
  | cons holds _ ih =>
      simp [holds.records, ih]

end Groups

section Flush

variable {text : ArchiveText} {sink : DurableRawSink}
  {before after : FsObjectStore} {groups : List (List (List UInt8))}

theorem not_conflicts
    (current : sink.manifest = storedManifest text before.objects) :
    ¬ Conflicts text before sink := by
  rintro ⟨behind, _⟩
  rw [current] at behind
  exact Nat.lt_irrefl _ behind

theorem follows_of_current (recorded : Recorded text before)
    (current : sink.manifest = storedManifest text before.objects) :
    Follows text before sink := by
  refine ⟨?_, ?_, ?_⟩
  · rw [current]
    exact recorded.readable.version
  · rw [current]
  · rw [current]
    exact Nat.le_succ _

theorem segmentHolds_congr {segments : List SegmentRef}
    (holds : List.Forall₂ (SegmentHolds text before.objects) segments groups)
    (same : ∀ segment ∈ segments,
      after.objects segment.key = before.objects segment.key) :
    List.Forall₂ (SegmentHolds text after.objects) segments groups := by
  induction holds with
  | nil => exact .nil
  | cons first _ ih =>
      refine .cons ⟨?_, first.records, first.digest⟩ (ih
        fun segment mem => same segment (List.mem_cons_of_mem _ mem))
      rw [same _ List.mem_cons_self]
      exact first.bytes

def FlushStage.groupsAfter (earlier : List (List (List UInt8)))
    (pending : List (List UInt8)) : FlushStage → List (List (List UInt8))
  | committed => earlier ++ [pending]
  | _ => earlier

def FlushStage.manifestAfter (text : ArchiveText) (sink : DurableRawSink) :
    FlushStage → Manifest
  | committed => sink.nextManifest text
  | _ => sink.manifest

theorem Committed.flush (recorded : Recorded text before)
    (committed : Committed text before.objects groups)
    (current : sink.manifest = storedManifest text before.objects)
    {pending : List (List UInt8)} (buffer : sink.buffer = pending.flatten)
    (counted : sink.bufferedRecords = pending.length)
    {stage : FlushStage} (reached : stage.Reached text sink before after) :
    Committed text after.objects (stage.groupsAfter groups pending) ∧
      storedManifest text after.objects = stage.manifestAfter text sink := by
  have agrees := not_conflicts current
  have kept : ∀ segment ∈ (storedManifest text before.objects).segments,
      Function.update before.objects sink.nextKey (some sink.buffer)
          segment.key = before.objects segment.key :=
    fun segment mem =>
      update_nextKey agrees recorded.numbered (Nat.le_refl _) mem
  match stage, reached with
  | .untouched, same =>
      unfold Committed
      rw [same.1]
      exact ⟨committed, current.symm⟩
  | .replaced, replaced =>
      have manifest := (recorded.replace agrees replaced).2
      unfold Committed
      rw [manifest]
      refine ⟨segmentHolds_congr committed ?_, current.symm⟩
      intro segment mem
      rw [replaced.1]
      exact kept segment mem
  | .committed, reached =>
      have follows := follows_of_current recorded current
      have manifest := (recorded.commit follows agrees reached).2
      have objects : ∀ segment ∈ (sink.nextManifest text).segments,
          after.objects segment.key =
            Function.update before.objects sink.nextKey (some sink.buffer)
              segment.key := by
        intro segment mem
        obtain ⟨index, found⟩ := List.mem_iff_getElem?.mp mem
        rw [Manifest.Numbered.next recorded follows index segment found,
          reached.1, Function.update_of_ne (segmentKey_ne_manifestKey index)]
      refine ⟨?_, manifest⟩
      unfold Committed
      rw [manifest]
      apply List.rel_append
      · rw [current]
        apply segmentHolds_congr committed
        intro segment mem
        rw [objects segment (by
          rw [DurableRawSink.nextManifest, current]
          exact List.mem_append_left _ mem)]
        exact kept segment mem
      · refine .cons ⟨?_, counted, by rw [buffer]⟩ .nil
        rw [objects _ (List.mem_append_right _ (List.mem_singleton.mpr rfl)),
          Function.update_self, buffer]

end Flush

/-! ## The records of a run -/

/-- An open sink holds the stored manifest, and its buffer the records that
follow the committed groups. -/
structure Buffered (text : ArchiveText) (objects : Objects)
    (sink : DurableRawSink) (groups : List (List (List UInt8)))
    (appended : List (List UInt8)) : Prop where
  current : sink.manifest = storedManifest text objects
  pending : ∃ pending, appended = groups.flatten ++ pending ∧
    sink.buffer = pending.flatten ∧ sink.bufferedRecords = pending.length ∧
    ∀ record ∈ pending, record ≠ []

variable {text : ArchiveText} {groups : List (List (List UInt8))}
  {appended : List (List UInt8)} {faults : List (Fault ObjectStoreError)}

theorem Buffered.push {objects : Objects} {sink : DurableRawSink}
    (buffered : Buffered text objects sink groups appended)
    {record : List UInt8} (some : record ≠ []) :
    Buffered text objects (sink.buffered record) groups
      (appended ++ [record]) := by
  obtain ⟨current, pending, whole, buffer, counted, all⟩ := buffered
  refine ⟨current, pending ++ [record], ?_, ?_, ?_, ?_⟩
  · rw [whole, List.append_assoc]
  · simp [DurableRawSink.buffered, buffer]
  · simp [DurableRawSink.buffered, counted]
  · intro other mem
    rcases List.mem_append.mp mem with earlier | last
    · exact all other earlier
    · cases List.mem_singleton.mp last
      exact some

/-- What a clean flush does with the records in the buffer. -/
structure FlushesRecords (text : ArchiveText) (sink : DurableRawSink)
    (appended : List (List UInt8)) (before : FsObjectStore)
    (ending : Ending FsObjectStore (Fault ObjectStoreError) DurableSinkError
      DurableRawSink)
    (groups : List (List (List UInt8))) : Prop where
  recorded : Recorded text ending.state
  committed : Committed text ending.state.objects groups
  isPrefix : groups.flatten <+: appended
  ok : ∀ next, ending.outcome = .returned (.ok next) →
    groups.flatten = appended ∧
      Buffered text ending.state.objects next groups appended
  error : ∀ failure, ending.outcome = .returned (.error failure) →
    Buffered text ending.state.objects sink groups appended
  grows : (storedManifest text before.objects).segments <+:
    (storedManifest text ending.state.objects).segments

theorem flatten_eq_nil {pending : List (List UInt8)}
    (some : ∀ record ∈ pending, record ≠ [])
    (empty : pending.flatten = []) : pending = [] := by
  rw [List.flatten_eq_nil_iff] at empty
  cases pending with
  | nil => rfl
  | cons record rest =>
      exact absurd (empty record List.mem_cons_self)
        (some record List.mem_cons_self)

theorem flushSegment_records {store : FsObjectStore} {sink : DurableRawSink}
    (recorded : Recorded text store)
    (committed : Committed text store.objects groups)
    (buffered : Buffered text store.objects sink groups appended)
    (clean : ∀ fault ∈ faults, CleanFault fault) :
    ∃ groups, FlushesRecords text sink appended store
      (sink.flushSegment text store faults) groups := by
  obtain ⟨current, pending, whole, buffer, counted, some⟩ := buffered
  obtain ⟨stage, reached, empty, ok, error⟩ :=
    (@ensures_flushSegment text _ sink store faults clean).1
  obtain ⟨holds, manifest⟩ :=
    committed.flush recorded current buffer counted reached
  have kept := (recorded.flush (follows_of_current recorded current)
    (not_conflicts current) reached).1
  have isPrefix : (stage.groupsAfter groups pending).flatten <+: appended := by
    rw [whole]
    cases stage with
    | untouched => exact List.prefix_append _ _
    | replaced => exact List.prefix_append _ _
    | committed => simp [FlushStage.groupsAfter]
  have grows : (storedManifest text store.objects).segments <+:
      (stage.manifestAfter text sink).segments := by
    rw [← current]
    cases stage with
    | untouched => exact List.prefix_rfl
    | replaced => exact List.prefix_rfl
    | committed => exact List.prefix_append _ _
  rw [← manifest] at grows
  refine ⟨_, kept, holds, isPrefix, ?_, ?_, grows⟩
  · intro next returned
    rcases ok next returned with ⟨none, rfl⟩ | ⟨_, rfl, isCommitted⟩
    · have nothing : pending = [] := flatten_eq_nil some (buffer ▸ none)
      have untouched := empty none
      subst untouched
      subst nothing
      exact ⟨by rw [whole]; simp [FlushStage.groupsAfter],
        ⟨manifest.symm, [], whole, buffer, counted, some⟩⟩
    · subst isCommitted
      have all : (FlushStage.committed.groupsAfter groups pending).flatten =
          appended := by
        rw [whole]
        simp [FlushStage.groupsAfter]
      exact ⟨all, manifest.symm, [], by rw [all, List.append_nil], rfl, rfl,
        by simp⟩
  · intro failure returned
    have notCommitted := error clean_cleanFault failure returned
    cases stage with
    | untouched =>
        exact ⟨manifest.symm, pending, whole, buffer, counted, some⟩
    | replaced =>
        exact ⟨manifest.symm, pending, whole, buffer, counted, some⟩
    | committed => exact absurd rfl notCommitted

/-- A new sink starts with the stored manifest and nothing in its buffer. -/
theorem Archive.opened {archive : Archive}
    (readable : Readable text archive.store.objects)
    (config : DurableSinkConfig)
    (clean : ∀ fault ∈ faults, CleanFault fault) :
    SameObjects archive.store
        (archive.step text (.open config faults)).store ∧
      ∀ sink, (archive.step text (.open config faults)).sink = some sink →
        sink = {
          config
          manifest := storedManifest text archive.store.objects
          buffer := []
          bufferedRecords := 0 } := by
  obtain ⟨same, opened⟩ :=
    ((@ensures_openSink text CleanFault _ readable config) faults clean).1
  rw [Archive.step_open]
  refine ⟨same, ?_⟩
  intro sink found
  simp only [Archive.afterFlush] at found
  split at found
  · rename_i ended
    cases found
    exact opened sink ended
  · cases found
  · cases found

/-- The invariant of a clean run. -/
structure Logged (text : ArchiveText) (run : RecordRun) : Prop where
  recorded : Recorded text run.archive.store
  groups : ∃ groups, Committed text run.archive.store.objects groups ∧
    groups.flatten <+: run.appended ∧
    ∀ sink, run.archive.sink = some sink →
      Buffered text run.archive.store.objects sink groups run.appended

/-- What a clean run promises in each of its states. -/
structure LosesNothing (text : ArchiveText) (run : RecordRun) : Prop where
  /-- Each committed segment holds whole records, with their number and their
  digest, and together they are the first records appended. -/
  segments : ∃ groups, Committed text run.archive.store.objects groups ∧
    groups.flatten <+: run.appended
  bytes : ∃ kept, kept <+: run.appended ∧
    committedBytes text run.archive.store.objects = some kept.flatten
  closes : ∀ sink faults manifest, run.archive.sink = some sink →
    (∀ fault ∈ faults, CleanFault fault) →
    (sink.close text run.archive.store faults).outcome =
      .returned (.ok manifest) →
    committedBytes text
        (run.archive.step text (.close faults)).store.objects =
      some run.appended.flatten
  /-- A crash and a new sink keep the committed bytes, and the new sink goes on
  after them. -/
  reopens : ∀ config faults sink, (∀ fault ∈ faults, CleanFault fault) →
    (run.archive.step text .crash |>.step text (.open config faults)).sink =
      some sink →
    sink.manifest = storedManifest text run.archive.store.objects ∧
      sink.buffer = [] ∧
      committedBytes text
          (run.archive.step text .crash
            |>.step text (.open config faults)).store.objects =
        committedBytes text run.archive.store.objects
  /-- No call takes a committed segment back. -/
  grows : ∀ call : ArchiveCall, call.IsClean →
    (storedManifest text run.archive.store.objects).segments <+:
      (storedManifest text
        (run.archive.step text call).store.objects).segments

namespace Logged

variable {text : ArchiveText} {run : RecordRun}

theorem initial (text : ArchiveText) : Logged text default where
  recorded := (Archive.Sound.initial text).recorded
  groups := ⟨[], .nil, List.prefix_rfl, fun _ found => nomatch found⟩

theorem of_same (logged : Logged text run) {archive : Archive}
    (same : SameObjects run.archive.store archive.store)
    (sinks : ∀ sink, archive.sink = some sink → run.archive.sink = some sink) :
    Logged text { archive, appended := run.appended } := by
  obtain ⟨recorded, groups, committed, isPrefix, buffered⟩ := logged
  refine ⟨recorded.of_same same, groups, ?_, isPrefix, ?_⟩
  · rw [same.1]
    exact committed
  · intro sink found
    rw [same.1]
    exact buffered sink (sinks sink found)

theorem afterFlush {sink : DurableRawSink} {appended : List (List UInt8)}
    {before : FsObjectStore}
    {ending : Ending FsObjectStore (Fault ObjectStoreError) DurableSinkError
      DurableRawSink}
    {groups : List (List (List UInt8))}
    (flushed : FlushesRecords text sink appended before ending groups) :
    Logged text {
      archive := Archive.afterFlush (some sink) ending
      appended } := by
  refine ⟨flushed.recorded, groups, flushed.committed, flushed.isPrefix, ?_⟩
  intro other found
  simp only [Archive.afterFlush] at found
  split at found
  · rename_i next ended
    cases found
    exact (flushed.ok other ended).2
  · rename_i failure ended
    cases found
    exact flushed.error failure ended
  · cases found

variable {faults : List (Fault ObjectStoreError)}

theorem step_open (logged : Logged text run) (config : DurableSinkConfig)
    (clean : ∀ fault ∈ faults, CleanFault fault) :
    Logged text (run.step text (.open config faults)) := by
  obtain ⟨same, opened⟩ :=
    Archive.opened logged.recorded.readable config clean
  cases found : (run.archive.step text (.open config faults)).sink with
  | none =>
      simp only [RecordRun.step, found]
      exact logged.of_same same (by simp [found])
  | some sink =>
      have fresh := opened sink found
      obtain ⟨recorded, groups, committed, isPrefix, _⟩ := logged
      have taken : run.appended.take sink.manifest.recordCount =
          groups.flatten := by
        rw [fresh, recordCount_eq committed]
        exact (List.prefix_iff_eq_take.mp isPrefix).symm
      simp only [RecordRun.step, found, taken]
      refine ⟨recorded.of_same same, groups, ?_, List.prefix_rfl, ?_⟩
      · rw [same.1]
        exact committed
      · intro other isOther
        rw [found] at isOther
        cases isOther
        refine ⟨?_, [], (List.append_nil _).symm, ?_, ?_, by simp⟩
        · rw [fresh, same.1]
        · rw [fresh]
          rfl
        · rw [fresh]
          rfl

theorem step
    (logged : Logged text run) (call : ArchiveCall) (clean : call.IsClean) :
    Logged text (run.step text call) := by
  cases call with
  | «open» config faults => exact logged.step_open config clean
  | append record faults =>
      obtain ⟨some, clean⟩ := clean
      cases found : run.archive.sink with
      | none =>
          simp only [RecordRun.step, Archive.step, found]
          exact logged
      | some sink =>
          obtain ⟨recorded, groups, committed, isPrefix, buffered⟩ := logged
          have next := (buffered sink found).push some
          simp only [RecordRun.step, found, Archive.step_append found]
          by_cases full : (sink.buffered record).isFull = true
          · rw [if_pos full]
            obtain ⟨_, flushed⟩ :=
              flushSegment_records recorded committed next clean
            exact afterFlush flushed
          · rw [if_neg full]
            refine ⟨recorded, groups, committed,
              isPrefix.trans (List.prefix_append _ _), ?_⟩
            intro other same
            cases same
            exact next
  | close faults =>
      cases found : run.archive.sink with
      | none =>
          simp only [RecordRun.step, Archive.step, found]
          exact logged
      | some sink =>
          obtain ⟨recorded, groups, committed, _, buffered⟩ := logged
          obtain ⟨_, flushed⟩ := flushSegment_records recorded committed
            (buffered sink found) clean
          simp only [RecordRun.step, Archive.step_close found]
          exact ⟨flushed.recorded, _, flushed.committed, flushed.isPrefix,
            by simp⟩
  | recover faults =>
      have same := ((@ensures_recover text CleanFault _
        logged.recorded.readable) faults clean).1.1
      exact logged.of_same same fun sink found => found
  | crash =>
      refine logged.of_same (.refl _) ?_
      intro sink found
      cases found

theorem flushed_of_close {sink : DurableRawSink} {store : FsObjectStore}
    {manifest : Manifest}
    (closed : (sink.close text store faults).outcome =
      .returned (.ok manifest)) :
    ∃ next, (sink.flushSegment text store faults).outcome =
      .returned (.ok next) := by
  have same : (sink.close text store faults).passed =
      (sink.flushSegment text store faults).passed :=
    passed_bind_pure _ _ store faults
  have passed : (sink.close text store faults).passed =
      some (sink.close text store faults).faults := by
    simp [Ending.passed, closed, Faults.Outcome.isOk]
  rw [same] at passed
  obtain ⟨next, after, ran⟩ := Ending.passed_eq_some.mp passed
  exact ⟨next, by rw [ran]⟩

theorem grows
    (logged : Logged text run) (call : ArchiveCall) (clean : call.IsClean) :
    (storedManifest text run.archive.store.objects).segments <+:
      (storedManifest text
        (run.archive.step text call).store.objects).segments := by
  obtain ⟨recorded, groups, committed, _, buffered⟩ := logged
  cases call with
  | «open» config faults =>
      rw [(Archive.opened recorded.readable config clean).1.1]
  | append record faults =>
      obtain ⟨some, clean⟩ := clean
      cases found : run.archive.sink with
      | none => simp only [Archive.step, found, List.prefix_rfl]
      | some sink =>
          rw [Archive.step_append found]
          by_cases full : (sink.buffered record).isFull = true
          · rw [if_pos full]
            obtain ⟨_, flushed⟩ := flushSegment_records recorded committed
              ((buffered sink found).push some) clean
            exact flushed.grows
          · rw [if_neg full]
  | close faults =>
      cases found : run.archive.sink with
      | none => simp only [Archive.step, found, List.prefix_rfl]
      | some sink =>
          rw [Archive.step_close found]
          obtain ⟨_, flushed⟩ := flushSegment_records recorded committed
            (buffered sink found) clean
          exact flushed.grows
  | recover faults =>
      have same := ((@ensures_recover text CleanFault _ recorded.readable)
        faults clean).1.1
      simp only [Archive.step]
      rw [same.1]
  | crash => exact List.prefix_rfl

theorem losesNothing (logged : Logged text run) : LosesNothing text run := by
  obtain ⟨recorded, groups, committed, isPrefix, buffered⟩ := id logged
  refine ⟨⟨groups, committed, isPrefix⟩,
    ⟨groups.flatten, isPrefix, committedBytes_eq committed⟩, ?_, ?_,
    logged.grows⟩
  · intro sink faults manifest found clean closed
    obtain ⟨next, returned⟩ := flushed_of_close closed
    obtain ⟨after, flushed⟩ := flushSegment_records recorded committed
      (buffered sink found) clean
    rw [Archive.step_close found, committedBytes_eq flushed.committed,
      (flushed.ok next returned).1]
  · intro config faults sink clean found
    have crashed : Readable text
        (run.archive.step text .crash).store.objects := recorded.readable
    obtain ⟨same, opened⟩ := Archive.opened crashed config clean
    have fresh := opened sink found
    refine ⟨by rw [fresh]; rfl, by rw [fresh], ?_⟩
    rw [same.1]
    rfl

end Logged

/-- In every clean run from an empty store, no record is lost or written
twice. -/
theorem archive_losesNothing
    (text : ArchiveText) {calls : List ArchiveCall}
    (clean : ∀ call ∈ calls, call.IsClean) :
    Trace.EveryState (RecordRun.step text) (LosesNothing text) default
      calls := by
  have logged := @Trace.everyState_of_everyStep _ _ (RecordRun.step text)
    (Logged text) (fun _ call => call.IsClean)
    (fun _ call logged isClean => logged.step call isClean) _ _
    (Logged.initial text) (Trace.everyStep_of_forall clean)
  exact logged.imp fun _ => Logged.losesNothing

/-- The first manifest put is throttled, the next flush commits both records,
and the process dies. -/
def ArchiveSample.throttledCalls : List ArchiveCall := [
  .open ArchiveSample.config [], .append ArchiveSample.recordA
    [.none, .none, .none, .error (.transient "temporarily throttled") 0],
  .append ArchiveSample.recordB [], .crash, .open ArchiveSample.config []]

theorem archive_losesNothing_throttled :
    (∀ call ∈ ArchiveSample.throttledCalls, call.IsClean) ∧
      Trace.EveryState (RecordRun.step ArchiveSample.text)
        (LosesNothing ArchiveSample.text) default
        ArchiveSample.throttledCalls := by
  have clean : ∀ call ∈ ArchiveSample.throttledCalls, call.IsClean := by
    have some : ArchiveSample.recordA ≠ [] ∧ ArchiveSample.recordB ≠ [] := by
      decide +kernel
    simp [ArchiveSample.throttledCalls, ArchiveCall.IsClean, CleanFault, some]
  exact ⟨clean, archive_losesNothing ArchiveSample.text clean⟩

end Pmkit
