import Pmkit.Archive.Flush

/-!
# What a recovery can do

A recovery writes nothing, and over a readable archive it answers with the
stored manifest unless a call fails.
-/

namespace Pmkit

open Faults FsObjectStore

section Calls

variable {text : ArchiveText} {allowed : Fault ObjectStoreError → Prop}

def storedManifest (text : ArchiveText) (objects : Objects) : Manifest :=
  match objects manifestKey with
  | none => default
  | some bytes =>
      match text.fromSlice bytes with
      | .ok manifest => manifest
      | .error _ => default

/-- The segments of the stored manifest are all there. -/
structure Readable (text : ArchiveText) (objects : Objects) : Prop where
  decodes : ∀ bytes, objects manifestKey = some bytes →
    (text.fromSlice bytes).isOk = true
  version : (storedManifest text objects).schemaVersion =
    manifestSchemaVersion
  intact : ∀ segment ∈ (storedManifest text objects).segments,
    ∃ bytes, objects segment.key = some bytes ∧
      text.sha256Hex bytes = segment.sha256Hex

theorem ensures_verifySegments
    {segments : List SegmentRef} {store : FsObjectStore}
    (intact : ∀ segment ∈ segments,
      ∃ bytes, store.objects segment.key = some bytes ∧
        text.sha256Hex bytes = segment.sha256Hex) :
    Ensures allowed (verifySegments text segments) store fun outcome after =>
      after = store ∧
        ∀ message, outcome ≠ .returned (.error (.corrupt message)) := by
  induction segments with
  | nil => exact ensures_answer ⟨rfl, by simp⟩
  | cons segment rest ih =>
      obtain ⟨bytes, found, digest⟩ := intact segment List.mem_cons_self
      unfold verifySegments
      apply ensures_bind
      apply ensures_get
      · rw [found]
        dsimp only
        rw [if_neg (by simp [digest])]
        exact ih fun other mem =>
          intact other (List.mem_cons_of_mem segment mem)
      · intro failure
        exact ⟨rfl, by simp⟩
      · exact ⟨rfl, by simp⟩

theorem ensures_readManifest
    {store : FsObjectStore} (readable : Readable text store.objects) :
    Ensures allowed (readManifest text) store fun outcome after =>
      after = store ∧
        (∀ manifest, outcome = .returned (.ok manifest) →
          manifest = storedManifest text store.objects) ∧
        ∀ message, outcome ≠ .returned (.error (.corrupt message)) := by
  apply ensures_bind
  apply ensures_get
  · dsimp only
    cases found : store.objects manifestKey with
    | none =>
        apply ensures_answer
        refine ⟨rfl, ?_, by simp⟩
        intro manifest returned
        cases returned
        simp [storedManifest, found]
    | some bytes =>
        have decodes := readable.decodes bytes found
        dsimp only [verifyManifest]
        cases decoded : text.fromSlice bytes with
        | error failure =>
            rw [decoded] at decodes
            cases decodes
        | ok manifest =>
            have stored : storedManifest text store.objects = manifest := by
              simp [storedManifest, found, decoded]
            have version := readable.version
            have intact := readable.intact
            rw [stored] at version intact
            dsimp only
            rw [if_neg (by simp [version])]
            apply ensures_bind
            apply (ensures_verifySegments intact).weaken
            rintro outcome after ⟨rfl, sound⟩
            match outcome, sound with
            | .returned (.error failure), sound =>
                exact ⟨rfl, by simp, fun message same =>
                  sound message (by cases same; rfl)⟩
            | .crashed, _ => exact ⟨rfl, by simp, by simp⟩
            | .returned (.ok ()), _ =>
                apply ensures_answer
                refine ⟨rfl, ?_, by simp⟩
                intro other returned
                cases returned
                exact stored.symm
  · intro failure
    exact ⟨rfl, by simp, by simp⟩
  · exact ⟨rfl, by simp, by simp⟩

theorem ensures_abortUploads
    (uploads : List PendingUpload) (store : FsObjectStore) :
    Ensures allowed (abortUploads uploads) store fun outcome after =>
      SameObjects store after ∧
        ∀ message, outcome ≠ .returned (.error (.corrupt message)) := by
  induction uploads generalizing store with
  | nil => exact ensures_answer ⟨.refl store, by simp⟩
  | cons pending rest ih =>
      have aborted : ∀ count, SameObjects store
          (applied count [setUpload pending.uploadId none] store) :=
        fun count => applied_preserves (by
          intro effect mem state same
          cases List.mem_singleton.mp mem
          exact same.trans ⟨rfl, rfl⟩) count (.refl store)
      unfold abortUploads
      apply ensures_bind
      apply ensures_mapError
      apply ensures_perform
      · apply (ih _).weaken
        rintro outcome after ⟨same, sound⟩
        exact ⟨(aborted 1).trans same, sound⟩
      · intro failure count _
        exact ⟨aborted count, by simp⟩
      · intro count _
        exact ⟨aborted count, by simp⟩

/-- Over a readable archive a recovery answers with the stored manifest, or a
call fails. -/
theorem ensures_recover
    {store : FsObjectStore} (readable : Readable text store.objects) :
    Ensures allowed (recover text) store fun outcome after =>
      SameObjects store after ∧
        (∀ manifest, outcome = .returned (.ok manifest) →
          manifest = storedManifest text store.objects) ∧
        ∀ message, outcome ≠ .returned (.error (.corrupt message)) := by
  apply ensures_bind
  apply (ensures_readManifest readable).weaken
  rintro outcome after ⟨rfl, stored, sound⟩
  match outcome, stored, sound with
  | .returned (.error failure), _, sound =>
      exact ⟨.refl after, by simp, sound⟩
  | .crashed, _, _ => exact ⟨.refl after, by simp, by simp⟩
  | .returned (.ok manifest), stored, _ =>
      apply ensures_bind
      apply ensures_mapError
      apply ensures_perform
      · apply ensures_bind
        apply (ensures_abortUploads _ _).weaken
        rintro outcome final ⟨same, sound⟩
        match outcome, sound with
        | .returned (.error failure), sound =>
            exact ⟨same, by simp, fun message same =>
              sound message (by cases same; rfl)⟩
        | .crashed, _ => exact ⟨same, by simp, by simp⟩
        | .returned (.ok ()), _ =>
            apply ensures_answer
            refine ⟨same, ?_, by simp⟩
            intro other returned
            cases returned
            exact stored manifest rfl
      · intro failure count _
        rw [applied_nil]
        exact ⟨.refl after, by simp, by simp⟩
      · intro count _
        rw [applied_nil]
        exact ⟨.refl after, by simp, by simp⟩

theorem ensures_openSink
    {store : FsObjectStore} (readable : Readable text store.objects)
    (config : DurableSinkConfig) :
    Ensures allowed (DurableRawSink.openSink text config) store
      fun outcome after =>
        SameObjects store after ∧
          ∀ sink, outcome = .returned (.ok sink) →
            sink = {
              config
              manifest := storedManifest text store.objects
              buffer := []
              bufferedRecords := 0 } := by
  apply ensures_bind
  apply (ensures_recover readable).weaken
  rintro outcome after ⟨same, stored, _⟩
  match outcome, stored with
  | .returned (.error failure), _ => exact ⟨same, by simp⟩
  | .crashed, _ => exact ⟨same, by simp⟩
  | .returned (.ok manifest), stored =>
      apply ensures_answer
      refine ⟨same, ?_⟩
      intro sink returned
      cases returned
      rw [stored manifest rfl]

end Calls

end Pmkit
