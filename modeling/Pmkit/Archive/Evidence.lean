import Mathlib.Logic.Equiv.List
import Pmkit.Archive.Landing
import Pmkit.Archive.Recovery
import Pmkit.Library.Trace

/-!
# Evidence that a manifest names

A manifest put may take effect and still answer with an error.  The sink then
goes on with a manifest that is behind the stored one, and its next flush uses
the key of a segment that is already named.  The evidence is kept just as long
as no such flush brings other bytes.
-/

namespace Pmkit

open Faults FsObjectStore

/-! ## The stored manifest -/

@[simp]
theorem storedManifest_put
    (text : ArchiveText) (objects : Objects) (manifest : Manifest) :
    storedManifest text
        (Function.update objects manifestKey (some (text.toVec manifest))) =
      manifest := by
  simp [storedManifest, text.fromSlice_toVec]

@[simp]
theorem storedManifest_replace
    (text : ArchiveText) (objects : Objects) (index : Nat)
    (bytes : Option (List UInt8)) :
    storedManifest text
        (Function.update objects (segmentKey index) bytes) =
      storedManifest text objects := by
  unfold storedManifest
  rw [Function.update_of_ne (segmentKey_ne_manifestKey index).symm]

/-- The segments of a manifest have the keys of their positions. -/
def Manifest.Numbered (manifest : Manifest) : Prop :=
  ∀ index segment, manifest.segments[index]? = some segment →
    segment.key = segmentKey index

structure Recorded (text : ArchiveText) (store : FsObjectStore) : Prop where
  readable : Readable text store.objects
  numbered : (storedManifest text store.objects).Numbered
  kept : ∀ snapshot ∈ store.commits,
    (storedManifest text snapshot).Numbered ∧
      (storedManifest text snapshot).segments.length ≤
        (storedManifest text store.objects).segments.length ∧
      ∀ segment ∈ (storedManifest text snapshot).segments,
        store.objects segment.key = snapshot segment.key
  held : (storedManifest text store.objects).segments = [] ∨
    ∃ snapshot ∈ store.commits,
      storedManifest text snapshot = storedManifest text store.objects

/-- The manifest of a sink is the stored one, or one segment behind it. -/
structure Follows (text : ArchiveText) (store : FsObjectStore)
    (sink : DurableRawSink) : Prop where
  version : sink.manifest.schemaVersion = manifestSchemaVersion
  isPrefix : sink.manifest.segments <+:
    (storedManifest text store.objects).segments
  near : (storedManifest text store.objects).segments.length ≤
    sink.manifest.segments.length + 1

/-- The next segment of the sink is already named, with other bytes. -/
def Conflicts (text : ArchiveText) (store : FsObjectStore)
    (sink : DurableRawSink) : Prop :=
  sink.manifest.segments.length <
      (storedManifest text store.objects).segments.length ∧
    store.objects sink.nextKey ≠ some sink.buffer

section Flush

variable {text : ArchiveText} {sink : DurableRawSink}
  {before after : FsObjectStore}

theorem Recorded.of_same
    (recorded : Recorded text before) (same : SameObjects before after) :
    Recorded text after := by
  obtain ⟨readable, numbered, kept, held⟩ := recorded
  rw [← same.1] at readable numbered kept held
  rw [← same.2] at kept held
  exact ⟨readable, numbered, kept, held⟩

theorem Follows.of_same
    (follows : Follows text before sink) (same : SameObjects before after) :
    Follows text after sink := by
  obtain ⟨version, isPrefix, near⟩ := follows
  rw [← same.1] at isPrefix near
  exact ⟨version, isPrefix, near⟩

/-- Writing the next segment changes no named object unless it conflicts. -/
theorem update_nextKey
    (agrees : ¬ Conflicts text before sink) {manifest : Manifest}
    (numbered : manifest.Numbered)
    (length : manifest.segments.length ≤
      (storedManifest text before.objects).segments.length)
    {segment : SegmentRef} (mem : segment ∈ manifest.segments) :
    Function.update before.objects sink.nextKey (some sink.buffer)
        segment.key = before.objects segment.key := by
  obtain ⟨index, found⟩ := List.mem_iff_getElem?.mp mem
  have bounded := (List.getElem?_eq_some_iff.mp found).1
  rw [numbered index segment found]
  by_cases next : index = sink.manifest.segments.length
  · have unchanged : before.objects sink.nextKey = some sink.buffer := by
      by_contra ne
      exact agrees ⟨by omega, ne⟩
    have key : segmentKey index = sink.nextKey := congrArg segmentKey next
    rw [key, Function.update_self, unchanged]
  · apply Function.update_of_ne
    intro same
    exact next (segmentKey_injective same)

theorem Recorded.replace
    (recorded : Recorded text before) (agrees : ¬ Conflicts text before sink)
    (replaced : Replaced sink.nextKey sink.buffer before after) :
    Recorded text after ∧
      storedManifest text after.objects =
        storedManifest text before.objects := by
  have manifest : storedManifest text after.objects =
      storedManifest text before.objects := by
    rw [replaced.1]
    exact storedManifest_replace text before.objects _ _
  refine ⟨⟨⟨?_, ?_, ?_⟩, ?_, ?_, ?_⟩, manifest⟩
  · intro bytes found
    rw [replaced.1,
      Function.update_of_ne sink.nextKey_ne_manifestKey.symm] at found
    exact recorded.readable.decodes bytes found
  · rw [manifest]
    exact recorded.readable.version
  · intro segment mem
    rw [manifest] at mem
    rw [replaced.1, update_nextKey agrees recorded.numbered (Nat.le_refl _) mem]
    exact recorded.readable.intact segment mem
  · rw [manifest]
    exact recorded.numbered
  · intro snapshot mem
    rw [replaced.2] at mem
    obtain ⟨numbered, length, same⟩ := recorded.kept snapshot mem
    rw [manifest]
    refine ⟨numbered, length, ?_⟩
    intro segment named
    rw [replaced.1, update_nextKey agrees numbered length named]
    exact same segment named
  · rw [manifest, replaced.2]
    exact recorded.held

theorem Manifest.Numbered.next
    (recorded : Recorded text before) (follows : Follows text before sink) :
    (sink.nextManifest text).Numbered := by
  intro index segment found
  simp only [DurableRawSink.nextManifest] at found
  rcases Nat.lt_trichotomy index sink.manifest.segments.length with
    below | at_ | above
  · rw [List.getElem?_append_left below] at found
    obtain ⟨rest, whole⟩ := follows.isPrefix
    apply recorded.numbered index
    rw [← whole, List.getElem?_append_left below]
    exact found
  · rw [at_, List.getElem?_concat_length] at found
    cases found
    rw [at_]
    rfl
  · rw [List.getElem?_eq_none (by simp; omega)] at found
    cases found

/-- The manifest written after an agreeing replacement names only what is
there. -/
theorem Recorded.commit
    (recorded : Recorded text before) (follows : Follows text before sink)
    (agrees : ¬ Conflicts text before sink)
    (reached : FlushStage.committed.Reached text sink before after) :
    Recorded text after ∧
      storedManifest text after.objects = sink.nextManifest text := by
  obtain ⟨objects, commits⟩ := reached
  have manifest : storedManifest text after.objects =
      sink.nextManifest text := by
    rw [objects, storedManifest_put]
  have others : ∀ index, after.objects (segmentKey index) =
      Function.update before.objects sink.nextKey (some sink.buffer)
        (segmentKey index) := by
    intro index
    rw [objects, Function.update_of_ne (segmentKey_ne_manifestKey index)]
  have numbered := Manifest.Numbered.next recorded follows
  have longer : (storedManifest text before.objects).segments.length ≤
      (sink.nextManifest text).segments.length := by
    simpa [DurableRawSink.nextManifest] using follows.near
  refine ⟨⟨⟨?_, ?_, ?_⟩, ?_, ?_, ?_⟩, manifest⟩
  · intro bytes found
    rw [objects, Function.update_self] at found
    cases found
    rw [text.fromSlice_toVec]
    rfl
  · rw [manifest]
    exact follows.version
  · intro segment mem
    rw [manifest] at mem
    obtain ⟨index, found⟩ := List.mem_iff_getElem?.mp mem
    rw [numbered index segment found, others]
    simp only [DurableRawSink.nextManifest] at mem
    rcases List.mem_append.mp mem with earlier | last
    · have stored := follows.isPrefix.subset earlier
      rw [← numbered index segment found,
        update_nextKey agrees recorded.numbered (Nat.le_refl _) stored]
      exact recorded.readable.intact segment stored
    · cases List.mem_singleton.mp last
      have key := numbered index _ found
      rw [← key, Function.update_self]
      exact ⟨sink.buffer, rfl, rfl⟩
  · rw [manifest]
    exact numbered
  · intro snapshot mem
    rw [manifest]
    rcases (commits snapshot).mp mem with earlier | now
    · obtain ⟨isNumbered, length, same⟩ := recorded.kept snapshot earlier
      refine ⟨isNumbered, length.trans longer, ?_⟩
      intro segment named
      obtain ⟨index, found⟩ := List.mem_iff_getElem?.mp named
      rw [isNumbered index segment found, others,
        ← isNumbered index segment found,
        update_nextKey agrees isNumbered length named]
      exact same segment named
    · rw [now, manifest]
      exact ⟨numbered, Nat.le_refl _, fun _ _ => rfl⟩
  · exact .inr ⟨after.objects, (commits _).mpr (Or.inr rfl), rfl⟩

/-- A flush that does not conflict keeps the record, and the sink stays at most
one segment behind. -/
theorem Recorded.flush
    (recorded : Recorded text before) (follows : Follows text before sink)
    (agrees : ¬ Conflicts text before sink)
    {stage : FlushStage} (reached : stage.Reached text sink before after) :
    Recorded text after ∧ Follows text after sink ∧
      (stage = .committed → Follows text after (sink.flushed text)) := by
  match stage, reached with
  | .untouched, same =>
      exact ⟨recorded.of_same same, follows.of_same same, by simp⟩
  | .replaced, replaced =>
      obtain ⟨kept, manifest⟩ := recorded.replace agrees replaced
      obtain ⟨version, isPrefix, near⟩ := follows
      rw [← manifest] at isPrefix near
      exact ⟨kept, ⟨version, isPrefix, near⟩, by simp⟩
  | .committed, reached =>
      obtain ⟨kept, manifest⟩ := recorded.commit follows agrees reached
      refine ⟨kept, ⟨follows.version, ?_, ?_⟩,
        fun _ => ⟨follows.version, ?_, ?_⟩⟩
      · rw [manifest]
        exact List.prefix_append _ _
      · rw [manifest]
        simp [DurableRawSink.nextManifest]
      · rw [manifest]
        exact List.prefix_rfl
      · rw [manifest]
        simp [DurableRawSink.flushed]

end Flush

namespace Archive

variable {text : ArchiveText}

/-- The archive after a flush: the sink it leaves, or what was kept for an
error. -/
def afterFlush (kept : Option DurableRawSink)
    (ending : Ending FsObjectStore (Fault ObjectStoreError) DurableSinkError
      DurableRawSink) : Archive where
  store := ending.state
  sink :=
    match ending.outcome with
    | .returned (.ok next) => some next
    | .returned (.error _) => kept
    | .crashed => none

theorem step_open (archive : Archive) (config : DurableSinkConfig)
    (faults : List (Fault ObjectStoreError)) :
    archive.step text (.open config faults) =
      afterFlush none
        (DurableRawSink.openSink text config archive.store faults) := by
  simp only [step, afterFlush]
  cases (DurableRawSink.openSink text config archive.store faults).outcome with
  | crashed => rfl
  | returned answer => cases answer <;> rfl

variable {archive : Archive} {sink : DurableRawSink}
  {faults : List (Fault ObjectStoreError)}

theorem step_append (found : archive.sink = some sink) (record : List UInt8)
    (faults : List (Fault ObjectStoreError)) :
    archive.step text (.append record faults) =
      if (sink.buffered record).isFull then
        afterFlush (some (sink.buffered record))
          ((sink.buffered record).flushSegment text archive.store faults)
      else { archive with sink := some (sink.buffered record) } := by
  by_cases full : (sink.buffered record).isFull = true
  · rw [if_pos full]
    simp only [step, found, DurableRawSink.appendRecord]
    rw [if_pos full]
    rcases ran : (sink.buffered record).flushSegment text archive.store
        faults with ⟨outcome, after, rest⟩
    match outcome with
    | .returned (.ok next) =>
        simp [bind, Program.bind, Program.attempt, Program.handle, ran,
          Program.answer, pure, afterFlush]
    | .returned (.error failure) =>
        simp [bind, Program.bind, Program.attempt, Program.handle, ran,
          Program.answer, pure, afterFlush]
    | .crashed =>
        simp [bind, Program.bind, Program.attempt, Program.handle, ran,
          afterFlush]
  · rw [if_neg full]
    simp only [step, found, DurableRawSink.appendRecord]
    rw [if_neg full]
    rfl

theorem step_close (found : archive.sink = some sink)
    (faults : List (Fault ObjectStoreError)) :
    archive.step text (.close faults) =
      { store := (sink.flushSegment text archive.store faults).state
        sink := none } := by
  simp only [step, found, DurableRawSink.close]
  rcases ran : sink.flushSegment text archive.store faults with
    ⟨outcome, after, rest⟩
  match outcome with
  | .returned (.ok next) =>
      simp [bind, Program.bind, Program.handle, ran, Program.answer, pure]
  | .returned (.error failure) =>
      simp [bind, Program.bind, Program.handle, ran, Program.answer]
  | .crashed => simp [bind, Program.bind, Program.handle, ran]

/-! ### What a run should keep -/

def NeverCorrupt (text : ArchiveText) (archive : Archive) : Prop :=
  ∀ faults message,
    (recover text archive.store faults).outcome ≠
      .returned (.error (.corrupt message))

/-- The bytes of every segment that a manifest ever named are as they were
when that manifest was written. -/
def SegmentsKept (text : ArchiveText) (archive : Archive) : Prop :=
  ∀ snapshot ∈ archive.store.commits,
    ∀ segment ∈ (storedManifest text snapshot).segments,
      archive.store.objects segment.key = snapshot segment.key

def KeepsEvidence (text : ArchiveText) (archive : Archive) : Prop :=
  NeverCorrupt text archive ∧ SegmentsKept text archive

def flushes (archive : Archive) :
    ArchiveCall → Option (DurableRawSink × List (Fault ObjectStoreError))
  | .append record faults =>
      (archive.sink.map (·.buffered record)).bind fun sink =>
        if sink.isFull then some (sink, faults) else none
  | .close faults => archive.sink.map fun sink => (sink, faults)
  | _ => none

/-- A call that puts other bytes under the key of a named segment: the sink is
behind the stored manifest, its buffer is not what the segment holds, and the
faults let the upload land. -/
def Overwrites (text : ArchiveText) (archive : Archive) (call : ArchiveCall) :
    Prop :=
  ∃ sink faults, archive.flushes call = some (sink, faults) ∧
    sink.buffer ≠ [] ∧ Conflicts text archive.store sink ∧
    sink.lands faults = true

/-- The invariant: the record is kept, and an open sink follows it. -/
structure Sound (text : ArchiveText) (archive : Archive) : Prop where
  recorded : Recorded text archive.store
  follows : ∀ sink, archive.sink = some sink →
    Follows text archive.store sink

theorem Sound.initial (text : ArchiveText) : Sound text default where
  recorded := {
    readable := {
      decodes := fun _ found => nomatch found
      version := rfl
      intact := fun _ mem => nomatch mem }
    numbered := fun _ _ found => nomatch found
    kept := fun _ mem => nomatch mem
    held := Or.inl rfl }
  follows := fun _ found => nomatch found

theorem Sound.keepsEvidence (sound : Sound text archive) :
    KeepsEvidence text archive := by
  constructor
  · intro faults message
    exact ((ensures_recover sound.recorded.readable).at faults).2.2 message
  · intro snapshot mem segment named
    exact (sound.recorded.kept snapshot mem).2.2 segment named

/-- One flush, unless it overwrites. -/
theorem Sound.flush {store : FsObjectStore}
    (recorded : Recorded text store) (follows : Follows text store sink)
    (safe : ¬ (sink.buffer ≠ [] ∧ Conflicts text store sink ∧
      sink.lands faults = true)) :
    let ending := sink.flushSegment text store faults
    Recorded text ending.state ∧ Follows text ending.state sink ∧
      ∀ next, ending.outcome = .returned (.ok next) →
        Follows text ending.state next := by
  obtain ⟨stage, reached, empty, ok, _⟩ :=
    (ensures_flushSegment sink store).at faults
  dsimp only
  by_cases some : sink.buffer = []
  · rw [empty some] at reached
    have follow := follows.of_same reached
    refine ⟨recorded.of_same reached, follow, ?_⟩
    intro next returned
    rcases ok next returned with ⟨_, rfl⟩ | ⟨absent, _⟩
    · exact follow
    · exact absurd some absent
  · by_cases conflicts : Conflicts text store sink
    · have misses : sink.lands faults = false := by
        by_contra lands
        exact safe ⟨some, conflicts, by simpa using lands⟩
      obtain ⟨same, stopped⟩ :=
        (@flushSegment_lands text sink some store faults).2 misses
      refine ⟨recorded.of_same same, follows.of_same same, ?_⟩
      intro next returned
      simp [Ending.passed, Faults.Outcome.isOk, returned] at stopped
    · obtain ⟨kept, follow, committed⟩ :=
        recorded.flush follows conflicts reached
      refine ⟨kept, follow, ?_⟩
      intro next returned
      rcases ok next returned with ⟨absent, _⟩ | ⟨_, rfl, isCommitted⟩
      · exact absurd absent some
      · exact committed isCommitted

theorem Sound.afterFlush {kept : Option DurableRawSink}
    {ending : Ending FsObjectStore (Fault ObjectStoreError) DurableSinkError
      DurableRawSink}
    (recorded : Recorded text ending.state)
    (keeps : ∀ sink, kept = some sink → Follows text ending.state sink)
    (follows : ∀ next, ending.outcome = .returned (.ok next) →
      Follows text ending.state next) :
    Sound text (afterFlush kept ending) := by
  refine ⟨recorded, ?_⟩
  intro sink found
  unfold Archive.afterFlush at found ⊢
  dsimp only at found ⊢
  cases ended : ending.outcome with
  | crashed =>
      rw [ended] at found
      cases found
  | returned answer =>
      rw [ended] at found
      cases answer with
      | ok next =>
          cases found
          exact follows sink ended
      | error failure => exact keeps sink found

theorem Sound.step
    {archive : Archive} (sound : Sound text archive) (call : ArchiveCall)
    (safe : ¬ Overwrites text archive call) :
    Sound text (archive.step text call) := by
  obtain ⟨recorded, follows⟩ := sound
  cases call with
  | «open» config faults =>
      obtain ⟨same, opened⟩ :=
        (ensures_openSink recorded.readable config).at faults
      rw [step_open]
      apply Sound.afterFlush (recorded.of_same same) (by simp)
      intro sink returned
      rw [opened sink returned]
      apply Follows.of_same _ same
      exact ⟨recorded.readable.version, List.prefix_rfl, Nat.le_succ _⟩
  | append record faults =>
      cases found : archive.sink with
      | none =>
          simp only [Archive.step, found]
          exact ⟨recorded, follows⟩
      | some sink =>
          have follow := follows sink found
          have buffered : Follows text archive.store (sink.buffered record) :=
            ⟨follow.version, follow.isPrefix, follow.near⟩
          rw [step_append found]
          by_cases full : (sink.buffered record).isFull = true
          · rw [if_pos full]
            obtain ⟨kept, still, next⟩ := Sound.flush recorded buffered
              (fun bad => safe ⟨sink.buffered record, faults,
                by simp [flushes, found, full], bad⟩)
            apply Sound.afterFlush kept _ next
            intro other same
            cases same
            exact still
          · rw [if_neg full]
            refine ⟨recorded, ?_⟩
            intro other same
            cases same
            exact buffered
  | close faults =>
      cases found : archive.sink with
      | none =>
          simp only [Archive.step, found]
          exact ⟨recorded, follows⟩
      | some sink =>
          rw [step_close found]
          refine ⟨?_, by simp⟩
          exact (Sound.flush recorded (follows sink found) (fun bad =>
            safe ⟨sink, faults, by simp [flushes, found], bad⟩)).1
  | recover faults =>
      have same := ((ensures_recover recorded.readable).at faults).1
      exact ⟨recorded.of_same same,
        fun sink found => (follows sink found).of_same same⟩
  | crash => exact ⟨recorded, fun _ found => nomatch found⟩

theorem step_flushes {call : ArchiveCall}
    (flushed : archive.flushes call = some (sink, faults)) :
    (archive.step text call).store =
      (sink.flushSegment text archive.store faults).state := by
  cases call with
  | «open» config faults => cases flushed
  | append record faults =>
      cases found : archive.sink with
      | none =>
          rw [flushes, found] at flushed
          cases flushed
      | some opened =>
          simp only [flushes, found, Option.map_some,
            Option.bind_some] at flushed
          split at flushed
          · rename_i full
            cases flushed
            rw [step_append found, if_pos full]
            rfl
          · cases flushed
  | close faults =>
      cases found : archive.sink with
      | none =>
          rw [flushes, found] at flushed
          cases flushed
      | some opened =>
          rw [flushes, found] at flushed
          cases flushed
          rw [step_close found]
  | recover faults => cases flushed
  | crash => cases flushed

/-- A flush forgets no manifest. -/
theorem mem_commits_flush (sink : DurableRawSink) (store : FsObjectStore)
    (faults : List (Fault ObjectStoreError)) {snapshot : Objects}
    (mem : snapshot ∈ store.commits) :
    snapshot ∈ (sink.flushSegment text store faults).state.commits := by
  obtain ⟨stage, reached, _⟩ :=
    (@ensures_flushSegment text _ sink store).at faults
  match stage, reached with
  | .untouched, same =>
      rw [same.2]
      exact mem
  | .replaced, replaced =>
      rw [replaced.2]
      exact mem
  | .committed, committed => exact (committed.2 snapshot).mpr (Or.inl mem)

/-- A call that overwrites changes a named segment at once. -/
theorem Sound.overwrites (sound : Sound text archive) {call : ArchiveCall}
    (overwrites : Overwrites text archive call) :
    ¬ SegmentsKept text (archive.step text call) := by
  obtain ⟨sink, faults, flushed, some, ⟨behind, ne⟩, lands⟩ := overwrites
  have recorded := sound.recorded
  intro kept
  unfold SegmentsKept at kept
  rw [step_flushes flushed] at kept
  have written :=
    (@flushSegment_lands text sink some archive.store faults).1 lands
  obtain ⟨segment, found⟩ : ∃ segment,
      (storedManifest text archive.store.objects).segments[
        sink.manifest.segments.length]? = Option.some segment :=
    ⟨_, List.getElem?_eq_getElem behind⟩
  have mem := List.mem_of_getElem? found
  have key : segment.key = sink.nextKey :=
    recorded.numbered _ segment found
  rcases recorded.held with none | ⟨snapshot, committed, same⟩
  · rw [none] at behind
    exact absurd behind (Nat.not_lt_zero _)
  · rw [← same] at mem
    have earlier := (recorded.kept snapshot committed).2.2 segment mem
    have now := kept snapshot (mem_commits_flush sink _ faults committed)
      segment mem
    rw [key] at earlier now
    apply ne
    rw [earlier, ← now, written]

/-- In every run from an empty store, the evidence is kept in every state just
when no call overwrites a named segment. -/
theorem keepsEvidence_iff (text : ArchiveText) (calls : List ArchiveCall) :
    Trace.EveryState (Archive.step text) (KeepsEvidence text) default calls ↔
      Trace.EveryStep (Archive.step text)
        (fun archive call => ¬ Overwrites text archive call) default calls :=
  Trace.everyState_iff_everyStep (Sound text)
    (fun _ sound => sound.keepsEvidence)
    (fun _ call sound safe => sound.step call safe)
    (fun _ _ sound keeps overwrites => sound.overwrites overwrites keeps.2)
    (Sound.initial text)

end Archive

/-! ## A manifest that lands and fails -/

namespace ArchiveSample

def numbers (manifest : Manifest) :
    Nat × List (List Nat × List Nat × Nat) :=
  (manifest.schemaVersion.toNat, manifest.segments.map fun segment =>
    (segment.key.toList.map Char.toNat,
      segment.sha256Hex.toList.map Char.toNat, segment.records))

def ofNumbers (numbers : Nat × List (List Nat × List Nat × Nat)) :
    Manifest where
  schemaVersion := UInt16.ofNat numbers.1
  segments := numbers.2.map fun segment => {
    key := String.ofList (segment.1.map Char.ofNat)
    sha256Hex := String.ofList (segment.2.1.map Char.ofNat)
    records := segment.2.2 }

theorem ofNumbers_numbers (manifest : Manifest) :
    ofNumbers (numbers manifest) = manifest := by
  obtain ⟨version, segments⟩ := manifest
  simp [ofNumbers, numbers, Function.comp_def]

def recordA : List UInt8 := "a\n".toUTF8.toList

def recordB : List UInt8 := "b\n".toUTF8.toList

def digestA : String :=
  "87428fc522803d31065e7bce3cf03fe475096631e5e07bbd7a0fde60c4cf25c7"

def digestAB : String :=
  "911169ddaaf146aff539f58c26c489af3b892dff0fe283c1c264c65ae5aa59a2"

def manifestOf (digest : String) (records : Nat) : Manifest where
  schemaVersion := manifestSchemaVersion
  segments := [{
    key := "segments/segment-00000000.jsonl"
    sha256Hex := digest
    records }]

def jsonOf (digest : String) (records : Nat) : List UInt8 :=
  ("\x7b\"schema_version\":1,\"segments\":[\x7b\"key\":" ++
    "\"segments/segment-00000000.jsonl\",\"sha256_hex\":\"" ++ digest ++
    "\",\"records\":" ++ toString records ++ "\x7d]\x7d").toUTF8.toList

/-- The digests of the two buffers and the texts of the two manifests that the
run below meets; any other manifest is written in unary. -/
def text : ArchiveText where
  sha256Hex := fun bytes =>
    if bytes = recordA then digestA
    else if bytes = recordA ++ recordB then digestAB
    else ""
  toVec := fun manifest =>
    if manifest = manifestOf digestA 1 then jsonOf digestA 1
    else if manifest = manifestOf digestAB 2 then jsonOf digestAB 2
    else List.replicate (Encodable.encode (numbers manifest)) 0
  fromSlice := fun bytes =>
    if bytes = jsonOf digestA 1 then .ok (manifestOf digestA 1)
    else if bytes = jsonOf digestAB 2 then .ok (manifestOf digestAB 2)
    else
      match Encodable.decode bytes.length with
      | some found => .ok (ofNumbers found)
      | none => .error "expected value"
  fromSlice_toVec := by
    intro manifest
    by_cases first : manifest = manifestOf digestA 1
    · simp [first]
    by_cases second : manifest = manifestOf digestAB 2
    · have different : jsonOf digestAB 2 ≠ jsonOf digestA 1 := by
        decide +kernel
      simp only [if_neg first, if_pos second, if_neg different, if_pos]
      rw [second]
    · have different : ∀ bytes : List UInt8, 123 ∈ bytes →
          List.replicate (Encodable.encode (numbers manifest)) 0 ≠ bytes := by
        intro bytes brace equal
        rw [← equal] at brace
        exact absurd (List.eq_of_mem_replicate brace) (by decide)
      simp only [if_neg first, if_neg second,
        if_neg (different (jsonOf digestA 1) (by decide +kernel)),
        if_neg (different (jsonOf digestAB 2) (by decide +kernel)),
        List.length_replicate, Encodable.encodek, ofNumbers_numbers]

def config : DurableSinkConfig where
  recordsPerSegment := ⟨1, by decide⟩
  partSizeBytes := ⟨64, by decide⟩
  retry := { maxAttempts := ⟨1, by decide⟩ }

/-- The manifest put of the first record lands and answers with an error; the
process dies before the manifest put of the second. -/
def calls : List ArchiveCall := [.open config [], .append recordA
    [.none, .none, .none, .error (.transient "timeout") 1],
  .append recordB [.none, .none, .none, .crash 0]]

end ArchiveSample

/-- After these calls the named segment holds both records, and a recovery
finds it corrupt. -/
theorem ambiguousPut_corrupts :
    let archive := Trace.run (Archive.step ArchiveSample.text) default
      ArchiveSample.calls
    ¬ Archive.NeverCorrupt ArchiveSample.text archive ∧
      ¬ Archive.SegmentsKept ArchiveSample.text archive := by
  constructor
  · intro sound
    have found :
        (recover ArchiveSample.text
          (Trace.run (Archive.step ArchiveSample.text) default
            ArchiveSample.calls).store []).outcome =
          .returned (.error (.corrupt
            ("committed segment segments/segment-00000000.jsonl " ++
              "failed its checksum"))) := by
      decide +kernel
    exact sound [] _ found
  · intro kept
    have changed :
        ((Trace.run (Archive.step ArchiveSample.text) default
            ArchiveSample.calls).store.commits.any fun snapshot =>
          (storedManifest ArchiveSample.text snapshot).segments.any
            fun segment =>
              (Trace.run (Archive.step ArchiveSample.text) default
                ArchiveSample.calls).store.objects segment.key ≠
                  snapshot segment.key) = true := by
      decide +kernel
    obtain ⟨snapshot, member, found⟩ := List.any_eq_true.mp changed
    obtain ⟨segment, named, different⟩ := List.any_eq_true.mp found
    exact of_decide_eq_true different (kept snapshot member segment named)

end Pmkit
