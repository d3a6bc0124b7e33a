import Pmkit.Archive.Sink

/-!
# What a flush can do

A flush leaves the objects as they were, or replaces the object of its segment
by the buffer, or does so and then writes the manifest that names it.  Nothing
else is ever written.
-/

namespace Pmkit

open Faults FsObjectStore

theorem ofDigitChars_leftpad (width value : Nat) :
    Nat.ofDigitChars 10 (List.leftpad width '0' (Nat.toDigits 10 value)) 0 =
      value := by
  rw [List.leftpad, Nat.ofDigitChars_append, Nat.ofDigitChars_replicate_zero,
    Nat.mul_zero, Nat.ofDigitChars_ten_toDigits]

theorem toList_segmentKey (index : Nat) :
    (segmentKey index).toList =
      "segments/segment-".toList ++
        (List.leftpad 8 '0' (Nat.toDigits 10 index) ++ ".jsonl".toList) := by
  have inner :=
    @String.toList_ofList (List.leftpad 8 '0' (Nat.toDigits 10 index))
  unfold segmentKey
  rw [String.toList_append, String.toList_append, inner, List.append_assoc]

theorem segmentKey_injective {left right : Nat}
    (same : segmentKey left = segmentKey right) : left = right := by
  have lists := congrArg String.toList same
  rw [toList_segmentKey, toList_segmentKey] at lists
  have digits :=
    List.append_cancel_right (List.append_cancel_left lists)
  have numbers := congrArg (Nat.ofDigitChars 10 · 0) digits
  simpa only [ofDigitChars_leftpad] using numbers

theorem segmentKey_ne_manifestKey (index : Nat) :
    segmentKey index ≠ manifestKey := by
  intro same
  have heads := congrArg (fun key => key.toList.head?) same
  rw [toList_segmentKey, List.head?_append_of_ne_nil _ (by decide)] at heads
  exact absurd heads (by decide)

theorem DurableRawSink.nextKey_ne_manifestKey (sink : DurableRawSink) :
    sink.nextKey ≠ manifestKey :=
  segmentKey_ne_manifestKey sink.manifest.segments.length

theorem flatten_chunksFrom (size : ℕ+) {limit : Nat} {bytes : List UInt8}
    (enough : bytes.length ≤ limit) :
    (chunksFrom size limit bytes).flatten = bytes := by
  induction limit generalizing bytes with
  | zero =>
      have empty : bytes = [] := by
        simpa using enough
      simp [chunksFrom, empty]
  | succ limit ih =>
      cases bytes with
      | nil => rfl
      | cons byte rest =>
          have positive := size.pos
          simp only [chunksFrom, List.flatten_cons]
          rw [ih (by
            simp only [List.length_drop, List.length_cons] at enough ⊢
            omega)]
          exact List.take_append_drop _ _

theorem flatten_chunks (size : ℕ+) (bytes : List UInt8) :
    (chunks size bytes).flatten = bytes :=
  flatten_chunksFrom size (Nat.le_refl _)

theorem chunks_ne_nil {size : ℕ+} {bytes : List UInt8} (some : bytes ≠ []) :
    chunks size bytes ≠ [] := by
  intro empty
  have flat := flatten_chunks size bytes
  rw [empty] at flat
  exact some flat.symm

/-- Neither the objects nor the manifests written so far are touched. -/
def SameObjects (before after : FsObjectStore) : Prop :=
  after.objects = before.objects ∧ after.commits = before.commits

theorem SameObjects.refl (store : FsObjectStore) : SameObjects store store :=
  ⟨rfl, rfl⟩

theorem SameObjects.trans {first second third : FsObjectStore}
    (earlier : SameObjects first second) (later : SameObjects second third) :
    SameObjects first third :=
  ⟨later.1.trans earlier.1, later.2.trans earlier.2⟩

@[simp]
theorem setUpload_uploads
    (uploadId : Nat) (upload : Option Upload) (store : FsObjectStore) :
    (store.setUpload uploadId upload).uploads uploadId = upload := by
  simp [setUpload]

section Calls

variable {text : ArchiveText} {allowed : Fault ObjectStoreError → Prop}

variable {policy : RetryPolicy} {store : FsObjectStore} {key : String}
  {parts : List PartId} {bytes body : List UInt8} {uploadId : Nat}

/-- A retried call keeps what one attempt keeps. -/
theorem ensures_retry {A : Type} {operation : StoreProgram ObjectStoreError A}
    (invariant : FsObjectStore → Prop)
    {post : Faults.Outcome DurableSinkError A → FsObjectStore → Prop}
    (each : ∀ store, invariant store →
      Ensures allowed operation store fun outcome after =>
        match outcome with
        | .returned (.ok value) => post (.returned (.ok value)) after
        | .returned (.error failure) =>
            post (.returned (.error (.store failure))) after ∧ invariant after
        | .crashed => post .crashed after)
    (holds : invariant store) :
    Ensures allowed (policy.retry operation) store post := by
  apply ensures_mapError
  apply ensures_retrying invariant _ _ holds
  intro before kept
  apply (each before kept).weaken
  intro outcome after reached
  match outcome, reached with
  | .returned (.ok value), reached => exact ⟨reached, by simp⟩
  | .returned (.error failure), reached =>
      exact ⟨reached.1, fun _ _ => reached.2⟩
  | .crashed, reached => exact ⟨reached, by simp⟩

/-- A read leaves the store alone. -/
theorem ensures_get
    {post : Faults.Outcome DurableSinkError (Option (List UInt8)) →
      FsObjectStore → Prop}
    (found : post (.returned (.ok (store.objects key))) store)
    (failed : ∀ failure, post (.returned (.error (.store failure))) store)
    (crashed : post .crashed store) :
    Ensures allowed ((get key).mapError .store) store post := by
  apply ensures_mapError
  apply ensures_perform
  · exact found
  · intro failure count _
    rw [applied_nil]
    exact failed failure
  · intro count _
    rw [applied_nil]
    exact crashed

theorem ensures_createMultipart
    {policy : RetryPolicy} {key : String} (store : FsObjectStore) :
    Ensures allowed (policy.retry (createMultipart key)) store
      fun outcome after =>
        SameObjects store after ∧
          ∀ uploadId, outcome = .returned (.ok uploadId) →
            ∃ upload, after.uploads uploadId = some upload := by
  apply ensures_retry (SameObjects store) _ (.refl store)
  intro before same
  have kept : ∀ count,
      SameObjects store (applied count [createUpload key] before) :=
    fun count => applied_preserves (by
      intro effect mem state same
      cases List.mem_singleton.mp mem
      exact same.trans ⟨rfl, rfl⟩) count same
  apply ensures_perform
  · refine ⟨kept _, ?_⟩
    intro uploadId created
    cases created
    exact ⟨_, setUpload_uploads before.counter _ before⟩
  · intro failure count _
    exact ⟨⟨kept count, by simp⟩, kept count⟩
  · intro count _
    exact ⟨kept count, by simp⟩

/-! ### Parts -/

def Staged (text : ArchiveText) (store : FsObjectStore) (uploadId : Nat)
    (parts : List PartId) (bytes : List UInt8) : Prop :=
  (store.uploads uploadId).isSome ∧
    assemble text (store.uploads uploadId) parts = .ok bytes

theorem assemble_congr {left right : Option Upload}
    (same : ∀ part ∈ parts, left.bind (·.parts part.partNumber) =
      right.bind (·.parts part.partNumber)) :
    assemble text left parts = assemble text right parts := by
  induction parts with
  | nil => rfl
  | cons part rest ih =>
      unfold assemble
      rw [same part List.mem_cons_self, ih fun other mem =>
          same other (List.mem_cons_of_mem part mem)]

theorem assemble_append {upload : Option Upload} {first second : List PartId}
    {rest : List UInt8}
    (assembled : assemble text upload first = .ok bytes)
    (others : assemble text upload second = .ok rest) :
    assemble text upload (first ++ second) = .ok (bytes ++ rest) := by
  induction first generalizing bytes with
  | nil =>
      cases assembled
      exact others
  | cons part first ih =>
      unfold assemble at assembled
      rw [List.cons_append]
      unfold assemble
      cases found : upload.bind (·.parts part.partNumber) with
      | none =>
          rw [found] at assembled
          cases assembled
      | some chunk =>
          rw [found] at assembled
          dsimp only at assembled ⊢
          split at assembled
          · cases assembled
          · rename_i checked
            rw [if_neg checked]
            cases tail : assemble text upload first with
            | error failure =>
                rw [tail] at assembled
                cases assembled
            | ok middle =>
                rw [tail] at assembled
                cases assembled
                rw [ih tail]
                simp [Except.map]

/-- A part under a new number leaves the earlier ones as they are. -/
theorem Staged.setPart {upload : Upload}
    (found : store.uploads uploadId = some upload)
    (staged : Staged text store uploadId parts bytes)
    {number : UInt32} (fresh : ∀ part ∈ parts, part.partNumber ≠ number)
    (chunk : List UInt8) :
    Staged text (store.setUpload uploadId (some { upload with
      parts := Function.update upload.parts number (some chunk) }))
      uploadId parts bytes := by
  refine ⟨by simp, ?_⟩
  rw [← staged.2, setUpload_uploads]
  apply assemble_congr
  intro part mem
  rw [found]
  exact Function.update_of_ne (fresh part mem) _ _

/-- The bytes just written under a number follow the earlier parts. -/
theorem Staged.push {upload : Upload}
    (found : store.uploads uploadId = some upload)
    (staged : Staged text store uploadId parts bytes)
    {number : UInt32} (fresh : ∀ part ∈ parts, part.partNumber ≠ number)
    (chunk : List UInt8) :
    Staged text (store.setUpload uploadId (some { upload with
      parts := Function.update upload.parts number (some chunk) }))
      uploadId
      (parts ++ [{ partNumber := number, sha256Hex := text.sha256Hex chunk }])
      (bytes ++ chunk) := by
  have earlier := staged.setPart found fresh chunk
  refine ⟨earlier.1, assemble_append earlier.2 ?_⟩
  simp [assemble, Except.map]

theorem ensures_uploadPart
    {policy : RetryPolicy} {uploadId : Nat} {number : UInt32}
    {store : FsObjectStore} {parts : List PartId} {bytes : List UInt8}
    (staged : Staged text store uploadId parts bytes)
    (fresh : ∀ part ∈ parts, part.partNumber ≠ number)
    (chunk : List UInt8) :
    Ensures allowed (policy.retry (uploadPart text uploadId number chunk))
      store fun outcome after =>
        SameObjects store after ∧
          ∀ part, outcome = .returned (.ok part) →
            part.partNumber = number ∧
              Staged text after uploadId (parts ++ [part])
                (bytes ++ chunk) := by
  apply ensures_retry
    (fun middle => SameObjects store middle ∧
      Staged text middle uploadId parts bytes) _ ⟨.refl store, staged⟩
  rintro before ⟨same, stillStaged⟩
  obtain ⟨upload, found⟩ := Option.isSome_iff_exists.mp stillStaged.1
  have next : ∀ count,
      SameObjects store (applied count [setUpload uploadId (some { upload with
        parts := Function.update upload.parts number (some chunk) })] before) ∧
        Staged text (applied count [setUpload uploadId (some { upload with
          parts := Function.update upload.parts number (some chunk) })]
            before) uploadId parts bytes := by
    intro count
    rcases applied_singleton count _ before with kept | set
    · rw [kept]
      exact ⟨same, stillStaged⟩
    · rw [set]
      exact ⟨same.trans ⟨rfl, rfl⟩, stillStaged.setPart found fresh chunk⟩
  apply ensures_perform
  · rw [found]
    refine ⟨(next 1).1, ?_⟩
    intro part uploaded
    cases uploaded
    exact ⟨rfl, stillStaged.push found fresh chunk⟩
  · intro failure count _
    rw [found]
    exact ⟨⟨(next count).1, by simp⟩, next count⟩
  · intro count _
    rw [found]
    exact ⟨(next count).1, by simp⟩

theorem ensures_uploadParts
    {policy : RetryPolicy} {uploadId : Nat} {chunks : List (List UInt8)}
    {offset : Nat} {store : FsObjectStore} {parts : List PartId}
    {bytes : List UInt8}
    (staged : Staged text store uploadId parts bytes)
    (numbered : ∀ part ∈ parts, part.partNumber.toNat ≤ offset) :
    Ensures allowed
      (DurableRawSink.uploadParts text policy uploadId offset chunks) store
      fun outcome after =>
        SameObjects store after ∧
          ∀ uploaded, outcome = .returned (.ok uploaded) →
            uploaded.length = chunks.length ∧
              Staged text after uploadId (parts ++ uploaded)
                (bytes ++ chunks.flatten) := by
  induction chunks generalizing offset store parts bytes with
  | nil =>
      apply ensures_answer
      refine ⟨.refl store, ?_⟩
      intro uploaded returned
      cases returned
      simpa using staged
  | cons chunk rest ih =>
      unfold DurableRawSink.uploadParts
      split
      · exact ensures_answer ⟨.refl store, by simp⟩
      · rename_i bounded
        have number : (UInt32.ofNat (offset + 1)).toNat = offset + 1 :=
          UInt32.toNat_ofNat_of_lt (by omega)
        have fresh : ∀ part ∈ parts,
            part.partNumber ≠ UInt32.ofNat (offset + 1) := by
          intro part mem same
          have small := numbered part mem
          rw [same, number] at small
          omega
        apply ensures_bind
        apply (ensures_uploadPart staged fresh chunk).weaken
        rintro outcome middle ⟨same, pushed⟩
        match outcome, pushed with
        | .returned (.error failure), _ => exact ⟨same, by simp⟩
        | .crashed, _ => exact ⟨same, by simp⟩
        | .returned (.ok part), pushed =>
            obtain ⟨isNumber, nowStaged⟩ := pushed part rfl
            apply ensures_bind
            apply (ih nowStaged (by
              intro other mem
              rcases List.mem_append.mp mem with earlier | last
              · have small := numbered other earlier
                omega
              · cases List.mem_singleton.mp last
                rw [isNumber, number])).weaken
            rintro outcome after ⟨later, staged⟩
            match outcome, staged with
            | .returned (.error failure), _ =>
                exact ⟨same.trans later, by simp⟩
            | .crashed, _ => exact ⟨same.trans later, by simp⟩
            | .returned (.ok uploaded), staged =>
                apply ensures_answer
                refine ⟨same.trans later, ?_⟩
                intro all returned
                cases returned
                obtain ⟨length, assembled⟩ := staged uploaded rfl
                exact ⟨by simp [length], by simpa using assembled⟩

/-! ### Completion -/

/-- One object now has the given bytes, and no manifest was written. -/
def Replaced (key : String) (body : List UInt8)
    (before after : FsObjectStore) : Prop :=
  after.objects = Function.update before.objects key (some body) ∧
    after.commits = before.commits

theorem SameObjects.replaced {before middle after : FsObjectStore}
    (same : SameObjects before middle)
    (replaced : Replaced key body middle after) :
    Replaced key body before after :=
  ⟨by rw [replaced.1, same.1], replaced.2.trans same.2⟩

theorem replaced_write (notManifest : key ≠ manifestKey)
    (body : List UInt8) {before middle : FsObjectStore}
    (kept : SameObjects before middle ∨ Replaced key body before middle) :
    Replaced key body before (middle.write key body) := by
  unfold Replaced
  rw [write_objects, write_commits notManifest]
  rcases kept with same | replaced
  · exact ⟨by rw [same.1], same.2⟩
  · exact ⟨by rw [replaced.1, Function.update_idem], replaced.2⟩

/-- Where a completion stands between two attempts: the upload is still there,
or it was cleared after its object was written. -/
def Completing (text : ArchiveText) (key : String) (uploadId : Nat)
    (parts : List PartId) (body : List UInt8)
    (before middle : FsObjectStore) : Prop :=
  Staged text middle uploadId parts body ∨
    (middle.uploads uploadId = none ∧ Replaced key body before middle)

theorem completion_of_staged (staged : Staged text store uploadId parts body)
    (key : String) :
    completion text key uploadId parts store =
      { effects := [write key body, setUpload uploadId none]
        answer := .ok () } := by
  unfold completion
  rw [staged.2]
  dsimp only
  rw [if_pos staged.1]

theorem completion_of_cleared
    (some : parts ≠ []) (cleared : store.uploads uploadId = none)
    (key : String) :
    completion text key uploadId parts store =
      { effects := []
        answer := .error (.permanent "read part for completion") } := by
  obtain ⟨part, rest, rfl⟩ := List.exists_cons_of_ne_nil some
  unfold completion
  rw [cleared]
  rfl

theorem applied_completion {key : String} (notManifest : key ≠ manifestKey)
    {uploadId : Nat} {parts : List PartId} {body : List UInt8}
    {store middle : FsObjectStore}
    (kept : SameObjects store middle ∨ Replaced key body store middle)
    (staged : Staged text middle uploadId parts body)
    {count : Nat} (positive : 0 < count) :
    Replaced key body store
        (applied count [write key body, setUpload uploadId none] middle) ∧
      Completing text key uploadId parts body store
        (applied count [write key body, setUpload uploadId none] middle) := by
  have written := replaced_write notManifest body kept
  match count with
  | 1 => exact ⟨written, Or.inl ⟨staged.1, staged.2⟩⟩
  | count + 2 =>
      rw [applied_succ_cons, applied_succ_cons, applied_nil]
      exact ⟨written, Or.inr ⟨setUpload_uploads _ _ _, written⟩⟩

/-- The attempts of a completion keep whatever a written object keeps. -/
theorem ensures_completing (notManifest : key ≠ manifestKey) (some : parts ≠ [])
    (kept : FsObjectStore → Prop)
    (known : ∀ middle, kept middle →
      SameObjects store middle ∨ Replaced key body store middle)
    (closed : ∀ middle, Replaced key body store middle → kept middle)
    (further : Nat) {middle : FsObjectStore} (holds : kept middle)
    (completing : Completing text key uploadId parts body store middle) :
    Ensures allowed
      ((completeMultipart text key uploadId parts).retrying
        ObjectStoreError.isTransient further) middle
      fun outcome after =>
        kept after ∧
          (outcome = .returned (.ok ()) → Replaced key body store after) := by
  apply ensures_retrying
    (fun middle => kept middle ∧
      Completing text key uploadId parts body store middle)
    _ _ ⟨holds, completing⟩
  rintro before ⟨holds, staged | ⟨cleared, replaced⟩⟩
  · have step := fun count positive =>
      @applied_completion text _ notManifest _ _ _ _ _ (known before holds)
        staged count positive
    have reached : ∀ count,
        kept (applied count [write key body, setUpload uploadId none] before) ∧
          Completing text key uploadId parts body store
            (applied count [write key body, setUpload uploadId none]
              before) := by
      intro count
      cases count with
      | zero => exact ⟨holds, Or.inl staged⟩
      | succ count =>
          obtain ⟨written, standing⟩ := step (count + 1) (Nat.succ_pos count)
          exact ⟨closed _ written, standing⟩
    have finished := (step 2 (by decide)).1
    apply ensures_perform
    · rw [completion_of_staged staged]
      exact ⟨⟨closed _ finished, fun _ => finished⟩, by simp⟩
    · intro failure count _
      rw [completion_of_staged staged]
      exact ⟨⟨(reached count).1, by simp⟩, fun _ _ => reached count⟩
    · intro count _
      rw [completion_of_staged staged]
      exact ⟨⟨(reached count).1, by simp⟩, by simp⟩
  · have standing : kept before ∧
        Completing text key uploadId parts body store before :=
      ⟨holds, Or.inr ⟨cleared, replaced⟩⟩
    apply ensures_perform
    · rw [completion_of_cleared some cleared]
      exact ⟨⟨holds, by simp⟩, fun _ _ => standing⟩
    · intro failure count _
      rw [completion_of_cleared some cleared, applied_nil]
      exact ⟨⟨holds, by simp⟩, fun _ _ => standing⟩
    · intro count _
      rw [completion_of_cleared some cleared, applied_nil]
      exact ⟨⟨holds, by simp⟩, by simp⟩

theorem ensures_completeMultipart (notManifest : key ≠ manifestKey)
    (some : parts ≠ [])
    (staged : Staged text store uploadId parts body) :
    Ensures allowed (policy.retry (completeMultipart text key uploadId parts))
      store fun outcome after =>
        (SameObjects store after ∨ Replaced key body store after) ∧
          (outcome = .returned (.ok ()) → Replaced key body store after) := by
  apply ensures_mapError
  apply (ensures_completing notManifest some
    (fun middle => SameObjects store middle ∨ Replaced key body store middle)
    (fun _ => id) (fun _ => .inr) _ (Or.inl (.refl store))
    (Or.inl staged)).weaken
  rintro outcome after ⟨kept, completed⟩
  match outcome, completed with
  | .returned (.ok ()), completed => exact ⟨kept, fun _ => completed rfl⟩
  | .returned (.error failure), _ => exact ⟨kept, by simp [Except.mapError]⟩
  | .crashed, _ => exact ⟨kept, by simp⟩

theorem ensures_uploadSegment {sink : DurableRawSink} (some : sink.buffer ≠ [])
    (store : FsObjectStore) :
    Ensures allowed (sink.uploadSegment text) store fun outcome after =>
      (SameObjects store after ∨
          Replaced sink.nextKey sink.buffer store after) ∧
        (outcome = .returned (.ok ()) →
          Replaced sink.nextKey sink.buffer store after) := by
  apply ensures_bind
  apply (ensures_createMultipart store).weaken
  rintro outcome created ⟨same, present⟩
  match outcome, present with
  | .returned (.error failure), _ => exact ⟨Or.inl same, by simp⟩
  | .crashed, _ => exact ⟨Or.inl same, by simp⟩
  | .returned (.ok uploadId), present =>
      obtain ⟨upload, found⟩ := present uploadId rfl
      have staged : Staged text created uploadId [] [] :=
        ⟨by rw [found]; rfl, rfl⟩
      unfold DurableRawSink.fillUpload
      apply ensures_bind
      apply (ensures_uploadParts staged (by simp)).weaken
      rintro outcome uploaded ⟨later, all⟩
      match outcome, all with
      | .returned (.error failure), _ =>
          exact ⟨Or.inl (same.trans later), by simp⟩
      | .crashed, _ => exact ⟨Or.inl (same.trans later), by simp⟩
      | .returned (.ok parts), all =>
          obtain ⟨length, staged⟩ := all parts rfl
          rw [flatten_chunks] at staged
          have several : parts ≠ [] := by
            intro empty
            rw [empty] at length
            exact chunks_ne_nil some
              (List.length_eq_zero_iff.mp length.symm)
          apply (ensures_completeMultipart sink.nextKey_ne_manifestKey
            several staged).weaken
          have unchanged := same.trans later
          rintro outcome after ⟨kept, completed⟩
          exact ⟨kept.imp unchanged.trans unchanged.replaced,
            fun ok => unchanged.replaced (completed ok)⟩

/-! ## Commits -/

def ManifestPut (body : List UInt8) (before after : FsObjectStore) : Prop :=
  after.objects = Function.update before.objects manifestKey (some body) ∧
    ∀ snapshot, snapshot ∈ after.commits ↔
      snapshot ∈ before.commits ∨ snapshot = after.objects

theorem manifestPut_write (body : List UInt8) {before middle : FsObjectStore}
    (kept : SameObjects before middle ∨ ManifestPut body before middle) :
    ManifestPut body before (middle.write manifestKey body) := by
  have objects : (middle.write manifestKey body).objects =
      Function.update before.objects manifestKey (some body) := by
    rw [write_objects]
    rcases kept with same | put
    · rw [same.1]
    · rw [put.1, Function.update_idem]
  refine ⟨objects, ?_⟩
  intro snapshot
  rw [write_commits_manifest, List.mem_append, List.mem_singleton,
    ← write_objects, objects]
  rcases kept with same | put
  · rw [same.2]
  · rw [put.2, put.1, or_assoc, or_self]

def Clean (allowed : Fault ObjectStoreError → Prop) : Prop :=
  ∀ failure count, allowed (.error failure count) → count = 0

theorem ensures_putManifest (body : List UInt8) (store : FsObjectStore) :
    Ensures allowed (policy.retry (put manifestKey body)) store
      fun outcome after =>
        (SameObjects store after ∨ ManifestPut body store after) ∧
          (outcome = .returned (.ok ()) → ManifestPut body store after) ∧
          (Clean allowed → ∀ failure, outcome = .returned (.error failure) →
              SameObjects store after) := by
  apply ensures_retry
    (fun middle =>
      (SameObjects store middle ∨ ManifestPut body store middle) ∧
        (Clean allowed → SameObjects store middle)) _
    ⟨Or.inl (.refl store), fun _ => .refl store⟩
  rintro before ⟨kept, cleanly⟩
  have written := manifestPut_write body kept
  have reached : ∀ count,
      SameObjects store (applied count [write manifestKey body] before) ∨
        ManifestPut body store
          (applied count [write manifestKey body] before) := by
    intro count
    rcases applied_singleton count (write manifestKey body) before with
      same | put
    · rw [same]
      exact kept
    · rw [put]
      exact .inr written
  apply ensures_perform
  · exact ⟨Or.inr written, fun _ => written, by simp⟩
  · intro failure count isAllowed
    have unchanged : Clean allowed → SameObjects store
        (applied count [write manifestKey body] before) := by
      intro clean
      rw [clean failure count isAllowed]
      exact cleanly clean
    exact ⟨⟨reached count, by simp, fun clean _ _ => unchanged clean⟩,
      reached count, unchanged⟩
  · intro count _
    exact ⟨reached count, by simp, by simp⟩

/-- How far a flush has come. -/
inductive FlushStage where
  | untouched
  | replaced
  | committed

def FlushStage.Reached (text : ArchiveText) (sink : DurableRawSink)
    (before after : FsObjectStore) : FlushStage → Prop
  | untouched => SameObjects before after
  | replaced => Replaced sink.nextKey sink.buffer before after
  | committed =>
      after.objects =
          Function.update
            (Function.update before.objects sink.nextKey (some sink.buffer))
            manifestKey (some (text.toVec (sink.nextManifest text))) ∧
        ∀ snapshot, snapshot ∈ after.commits ↔
          snapshot ∈ before.commits ∨ snapshot = after.objects

structure Flushes (text : ArchiveText)
    (allowed : Fault ObjectStoreError → Prop) (sink : DurableRawSink)
    (before after : FsObjectStore)
    (outcome : Faults.Outcome DurableSinkError DurableRawSink)
    (stage : FlushStage) : Prop where
  reached : stage.Reached text sink before after
  empty : sink.buffer = [] → stage = .untouched
  ok : ∀ next, outcome = .returned (.ok next) →
    (sink.buffer = [] ∧ next = sink) ∨
      (sink.buffer ≠ [] ∧ next = sink.flushed text ∧ stage = .committed)
  error : Clean allowed → ∀ failure,
    outcome = .returned (.error failure) → stage ≠ .committed

theorem ensures_flushSegment (sink : DurableRawSink) (store : FsObjectStore) :
    Ensures allowed (sink.flushSegment text) store fun outcome after =>
      ∃ stage, Flushes text allowed sink store after outcome stage := by
  unfold DurableRawSink.flushSegment
  split
  · rename_i empty
    apply ensures_answer
    exact ⟨.untouched, .refl store, fun _ => rfl,
      fun next same => .inl ⟨empty, by cases same; rfl⟩, by simp⟩
  · rename_i some
    apply ensures_bind
    apply (ensures_uploadSegment some store).weaken
    rintro outcome uploaded ⟨kept, finished⟩
    have stopped : ∀ outcome : Faults.Outcome DurableSinkError DurableRawSink,
        (∀ next, outcome ≠ .returned (.ok next)) →
          ∃ stage, Flushes text allowed sink store uploaded outcome stage := by
      intro outcome notOk
      rcases kept with same | replaced
      · exact ⟨.untouched, same, fun _ => rfl,
          fun next same => absurd same (notOk next), by simp⟩
      · exact ⟨.replaced, replaced, fun empty => absurd empty some,
          fun next same => absurd same (notOk next), by simp⟩
    match outcome, finished with
    | .returned (.error failure), _ => exact stopped _ (by simp)
    | .crashed, _ => exact stopped _ (by simp)
    | .returned (.ok ()), finished =>
        have replaced := finished rfl
        apply ensures_bind
        apply (ensures_putManifest _ uploaded).weaken
        rintro outcome after ⟨put, answered, cleanly⟩
        have isReplaced : SameObjects uploaded after →
            Replaced sink.nextKey sink.buffer store after := fun same =>
          ⟨same.1.trans replaced.1, same.2.trans replaced.2⟩
        have isCommitted :
            ManifestPut (text.toVec (sink.nextManifest text)) uploaded after →
              FlushStage.committed.Reached text sink store after := by
          intro put
          refine ⟨by rw [put.1, replaced.1], ?_⟩
          intro snapshot
          rw [put.2, replaced.2]
        match outcome, answered, cleanly with
        | .returned (.error failure), _, cleanly =>
            by_cases clean : Clean allowed
            · exact ⟨.replaced, isReplaced (cleanly clean failure rfl),
                fun empty => absurd empty some, by simp, by simp⟩
            · rcases put with same | put
              · exact ⟨.replaced, isReplaced same,
                  fun empty => absurd empty some, by simp, by simp⟩
              · exact ⟨.committed, isCommitted put,
                  fun empty => absurd empty some, by simp,
                  fun isClean => absurd isClean clean⟩
        | .crashed, _, _ =>
            rcases put with same | put
            · exact ⟨.replaced, isReplaced same,
                fun empty => absurd empty some, by simp, by simp⟩
            · exact ⟨.committed, isCommitted put,
                fun empty => absurd empty some, by simp, by simp⟩
        | .returned (.ok ()), answered, _ =>
            apply ensures_answer
            exact ⟨.committed, isCommitted (answered rfl),
              fun empty => absurd empty some,
              fun next same => .inr ⟨some, by cases same; rfl, rfl⟩,
              by simp⟩

end Calls

end Pmkit
