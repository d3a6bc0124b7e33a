import Pmkit.Archive.Flush

/-!
# When a flush replaces its object

The faults of a flush and the number of its parts alone decide whether the
object of its segment is replaced: every call before the completion must be
let through, and an attempt of the completion must have its first effect.
-/

namespace Pmkit

open Faults FsObjectStore

def RetryPolicy.further (policy : RetryPolicy) : Nat :=
  (policy.maxAttempts : Nat) - 1

/-- The faults of an open upload let its parts through, and an attempt of its
completion has an effect. -/
def DurableRawSink.fills (sink : DurableRawSink)
    (faults : List (Fault ObjectStoreError)) : Bool :=
  let parts := (chunks sink.config.partSizeBytes sink.buffer).length
  let further := sink.config.retry.further
  match passesAll ObjectStoreError.isTransient further parts faults with
  | none => false
  | some rest =>
      parts < UInt32.size &&
        touches ObjectStoreError.isTransient further rest

/-- The faults let the buffer become the object of its segment. -/
def DurableRawSink.lands (sink : DurableRawSink)
    (faults : List (Fault ObjectStoreError)) : Bool :=
  match passes ObjectStoreError.isTransient sink.config.retry.further
      faults with
  | none => false
  | some rest => sink.fills rest

section Calls

variable {text : ArchiveText}

theorem passed_createMultipart
    (policy : RetryPolicy) (key : String) (store : FsObjectStore)
    (faults : List (Fault ObjectStoreError)) :
    (policy.retry (createMultipart key) store faults).passed =
      passes ObjectStoreError.isTransient policy.further faults := by
  unfold RetryPolicy.retry
  rw [passed_mapError]
  exact passed_retrying (fun _ => True) (fun _ _ => ⟨_, rfl⟩)
    (fun _ _ _ => trivial) _ faults trivial

theorem passed_uploadPart
    (policy : RetryPolicy) {uploadId : Nat} (number : UInt32)
    (chunk : List UInt8) {store : FsObjectStore}
    (present : (store.uploads uploadId).isSome)
    (faults : List (Fault ObjectStoreError)) :
    (policy.retry (uploadPart text uploadId number chunk) store faults).passed =
      passes ObjectStoreError.isTransient policy.further faults := by
  unfold RetryPolicy.retry
  rw [passed_mapError]
  apply passed_retrying (fun store => (store.uploads uploadId).isSome = true)
    _ _ _ faults present
  · intro before isPresent
    obtain ⟨upload, found⟩ := Option.isSome_iff_exists.mp isPresent
    rw [found]
    exact ⟨_, rfl⟩
  · intro before count isPresent
    obtain ⟨upload, found⟩ := Option.isSome_iff_exists.mp isPresent
    rw [found]
    rcases applied_singleton count _ before with kept | set
    · rw [kept]
      exact isPresent
    · rw [set]
      simp

theorem passed_uploadParts
    (policy : RetryPolicy) {uploadId : Nat} {chunks : List (List UInt8)}
    {offset : Nat} (bounded : offset < UInt32.size)
    {store : FsObjectStore} {parts : List PartId} {bytes : List UInt8}
    (staged : Staged text store uploadId parts bytes)
    (numbered : ∀ part ∈ parts, part.partNumber.toNat ≤ offset)
    (faults : List (Fault ObjectStoreError)) :
    (DurableRawSink.uploadParts text policy uploadId offset chunks store
        faults).passed =
      if offset + chunks.length < UInt32.size then
        passesAll ObjectStoreError.isTransient policy.further chunks.length
          faults
      else none := by
  induction chunks generalizing offset store parts bytes faults with
  | nil => simp [DurableRawSink.uploadParts, bounded, passesAll]; rfl
  | cons chunk rest ih =>
      unfold DurableRawSink.uploadParts
      by_cases tooMany : UInt32.size ≤ offset + 1
      · rw [if_pos tooMany, if_neg (by simp only [List.length_cons]; omega)]
        rfl
      · rw [if_neg tooMany]
        have number : (UInt32.ofNat (offset + 1)).toNat = offset + 1 :=
          UInt32.toNat_ofNat_of_lt (by omega)
        have fresh : ∀ part ∈ parts,
            part.partNumber ≠ UInt32.ofNat (offset + 1) := by
          intro part mem same
          have small := numbered part mem
          rw [same, number] at small
          omega
        have first := @passed_uploadPart text policy _
          (UInt32.ofNat (offset + 1)) chunk _ staged.1 faults
        have uploaded := ((@ensures_uploadPart text _ policy _ _ _ _ _ staged
          fresh chunk).at faults).2
        rw [List.length_cons, passesAll]
        cases passed : passes ObjectStoreError.isTransient policy.further
            faults with
        | none =>
            rw [passed] at first
            rw [(bind_of_not_passed first _).2]
            simp
        | some later =>
            rw [passed] at first
            obtain ⟨part, next, ran⟩ := Ending.passed_eq_some.mp first
            rw [bind_of_passed ran]
            rw [ran] at uploaded
            obtain ⟨isNumber, nowStaged⟩ := uploaded part rfl
            have below : offset + 1 < UInt32.size := by omega
            have others := ih below nowStaged (by
              intro other mem
              rcases List.mem_append.mp mem with earlier | last
              · have small := numbered other earlier
                omega
              · cases List.mem_singleton.mp last
                rw [isNumber, number]) later
            rw [passed_bind_pure, others, Option.bind_some,
              Nat.add_right_comm, Nat.add_assoc]

/-- An attempt of the completion with an effect writes the object, and nothing
takes it back. -/
theorem completeMultipart_touches
    {key : String} (notManifest : key ≠ manifestKey)
    {uploadId : Nat} {parts : List PartId} (some : parts ≠ [])
    {body : List UInt8} {store : FsObjectStore}
    (staged : Staged text store uploadId parts body) (further : Nat)
    (faults : List (Fault ObjectStoreError)) :
    let ending := (completeMultipart text key uploadId parts).retrying
      ObjectStoreError.isTransient further store faults
    (touches ObjectStoreError.isTransient further faults = true →
        Replaced key body store ending.state) ∧
      (touches ObjectStoreError.isTransient further faults = false →
        SameObjects store ending.state ∧ ending.passed = none) := by
  have shape := completion_of_staged staged key
  have step := fun count positive =>
    @applied_completion text _ notManifest _ _ _ _ _ (Or.inl (.refl store))
      staged count positive
  have decided := @retrying_touches FsObjectStore ObjectStoreError Unit
    ObjectStoreError.isTransient (completion text key uploadId parts)
    store () (by rw [shape]) (by rw [shape]; simp)
    (Replaced key body store)
    (by
      intro count positive
      rw [shape]
      exact (step count positive).1)
    (by
      intro further count positive
      rw [shape]
      obtain ⟨written, standing⟩ := step count positive
      apply (ensures_completing notManifest some (Replaced key body store)
        (fun _ => .inr) (fun _ => id) further written standing).weaken
      exact fun _ _ kept => kept.1)
    further faults
  refine ⟨decided.1, ?_⟩
  intro untouched
  obtain ⟨same, stopped⟩ := decided.2 untouched
  refine ⟨?_, stopped⟩
  unfold completeMultipart
  rw [same]
  exact .refl store

/-! ## The whole upload -/

theorem fillUpload_fills {sink : DurableRawSink} (some : sink.buffer ≠ [])
    {store : FsObjectStore} {uploadId : Nat}
    (staged : Staged text store uploadId [] [])
    (faults : List (Fault ObjectStoreError)) :
    let ending := sink.fillUpload text uploadId store faults
    (sink.fills faults = true →
        Replaced sink.nextKey sink.buffer store ending.state) ∧
      (sink.fills faults = false →
        SameObjects store ending.state ∧ ending.passed = none) := by
  have counted := @passed_uploadParts text sink.config.retry uploadId
    (chunks sink.config.partSizeBytes sink.buffer) 0 (by decide) _ _ _
    staged (by simp) faults
  have uploaded := (@ensures_uploadParts text _ sink.config.retry uploadId
    (chunks sink.config.partSizeBytes sink.buffer) 0 _ _ _ staged
    (by simp)).at faults
  rw [Nat.zero_add] at counted
  -- What a failed part leaves.
  have stops : (DurableRawSink.uploadParts text sink.config.retry uploadId 0
        (chunks sink.config.partSizeBytes sink.buffer) store faults).passed =
        none →
      SameObjects store (sink.fillUpload text uploadId store faults).state ∧
        (sink.fillUpload text uploadId store faults).passed = none := by
    intro failed
    obtain ⟨state, stopped⟩ := bind_of_not_passed failed fun parts =>
      sink.config.retry.retry
        (completeMultipart text sink.nextKey uploadId parts)
    exact ⟨by rw [← state] at uploaded; exact uploaded.1, stopped⟩
  dsimp only [DurableRawSink.fills]
  cases passed : passesAll ObjectStoreError.isTransient
      sink.config.retry.further
      (chunks sink.config.partSizeBytes sink.buffer).length faults with
  | none =>
      rw [passed, ite_self] at counted
      exact ⟨by simp, fun _ => stops counted⟩
  | some rest =>
      rw [passed] at counted
      by_cases bounded :
          (chunks sink.config.partSizeBytes sink.buffer).length < UInt32.size
      · rw [if_pos bounded] at counted
        obtain ⟨parts, middle, ran⟩ := Ending.passed_eq_some.mp counted
        rw [ran] at uploaded
        obtain ⟨same, all⟩ := uploaded
        obtain ⟨length, nowStaged⟩ := all parts rfl
        rw [flatten_chunks] at nowStaged
        have several : parts ≠ [] := by
          intro empty
          rw [empty] at length
          exact chunks_ne_nil some (List.length_eq_zero_iff.mp length.symm)
        obtain ⟨touched, untouched⟩ := completeMultipart_touches
          sink.nextKey_ne_manifestKey several
          nowStaged sink.config.retry.further rest
        simp only [bounded, decide_true, Bool.true_and]
        unfold DurableRawSink.fillUpload RetryPolicy.retry
        rw [bind_of_passed ran, state_mapError, passed_mapError]
        refine ⟨fun isTouched => same.replaced (touched isTouched), ?_⟩
        intro isUntouched
        obtain ⟨later, stopped⟩ := untouched isUntouched
        exact ⟨same.trans later, stopped⟩
      · rw [if_neg bounded] at counted
        exact ⟨by simp [bounded], fun _ => stops counted⟩

/-- A flush that lands has replaced its object; one that does not has left the
objects as they were. -/
theorem uploadSegment_lands
    {sink : DurableRawSink} (some : sink.buffer ≠ []) (store : FsObjectStore)
    (faults : List (Fault ObjectStoreError)) :
    let ending := sink.uploadSegment text store faults
    (sink.lands faults = true →
        Replaced sink.nextKey sink.buffer store ending.state) ∧
      (sink.lands faults = false →
        SameObjects store ending.state ∧ ending.passed = none) := by
  have opened := passed_createMultipart sink.config.retry sink.nextKey store
    faults
  have created := (@ensures_createMultipart _ sink.config.retry sink.nextKey
    store).at faults
  dsimp only [DurableRawSink.lands]
  cases first : passes ObjectStoreError.isTransient
      sink.config.retry.further faults with
  | none =>
      rw [first] at opened
      obtain ⟨state, stopped⟩ :=
        bind_of_not_passed opened (sink.fillUpload text)
      rw [← state] at created
      exact ⟨by simp, fun _ => ⟨created.1, stopped⟩⟩
  | some later =>
      rw [first] at opened
      obtain ⟨uploadId, middle, ran⟩ := Ending.passed_eq_some.mp opened
      rw [ran] at created
      obtain ⟨same, present⟩ := created
      obtain ⟨upload, found⟩ := present uploadId rfl
      obtain ⟨filled, unfilled⟩ := @fillUpload_fills text sink some middle
        uploadId ⟨by rw [found]; rfl, rfl⟩ later
      unfold DurableRawSink.uploadSegment
      rw [bind_of_passed ran]
      refine ⟨fun fills => same.replaced (filled fills), ?_⟩
      intro fails
      obtain ⟨kept, stopped⟩ := unfilled fails
      exact ⟨same.trans kept, stopped⟩

/-- The second half of a flush leaves the object of the segment alone. -/
theorem ensures_commit (sink : DurableRawSink) (store : FsObjectStore) :
    Ensures (fun _ => True)
      (do
        sink.config.retry.retry
          (put manifestKey (text.toVec (sink.nextManifest text)))
        pure (sink.flushed text))
      store fun _ after =>
        after.objects sink.nextKey = store.objects sink.nextKey := by
  have others : ∀ after : FsObjectStore,
      (SameObjects store after ∨
        ManifestPut (text.toVec (sink.nextManifest text)) store after) →
      after.objects sink.nextKey = store.objects sink.nextKey := by
    rintro after (same | put)
    · rw [same.1]
    · rw [put.1]
      exact Function.update_of_ne sink.nextKey_ne_manifestKey _ _
  apply ensures_bind
  apply (ensures_putManifest _ store).weaken
  rintro outcome after ⟨put, _⟩
  match outcome with
  | .returned (.error failure) => exact others after put
  | .crashed => exact others after put
  | .returned (.ok ()) => exact ensures_answer (others after put)

/-- The whole flush, by whether it lands. -/
theorem flushSegment_lands
    {sink : DurableRawSink} (some : sink.buffer ≠ []) (store : FsObjectStore)
    (faults : List (Fault ObjectStoreError)) :
    let ending := sink.flushSegment text store faults
    (sink.lands faults = true →
        ending.state.objects sink.nextKey = Option.some sink.buffer) ∧
      (sink.lands faults = false →
        SameObjects store ending.state ∧ ending.passed = none) := by
  obtain ⟨replaced, untouched⟩ :=
    @uploadSegment_lands text sink some store faults
  dsimp only
  unfold DurableRawSink.flushSegment
  rw [if_neg some]
  constructor
  · intro lands
    have written := congrFun (replaced lands).1 sink.nextKey
    rw [Function.update_self] at written
    cases passed : (sink.uploadSegment text store faults).passed with
    | none =>
        rw [(bind_of_not_passed passed _).1]
        exact written
    | some rest =>
        obtain ⟨_, middle, ran⟩ := Ending.passed_eq_some.mp passed
        rw [ran] at written
        rw [bind_of_passed ran, (ensures_commit sink middle).at rest]
        exact written
  · intro misses
    obtain ⟨same, stopped⟩ := untouched misses
    obtain ⟨state, notPassed⟩ := bind_of_not_passed stopped fun _ => do
      sink.config.retry.retry
        (put manifestKey (text.toVec (sink.nextManifest text)))
      pure (sink.flushed text)
    rw [state]
    exact ⟨same, notPassed⟩

end Calls

end Pmkit
