import Pmkit.Tape.Spool

/-!
# What the calls of the spool leave behind

An open file with some bytes stays the open file of its chunk until a close
links it to the closed name, when its sidecar is in place.  This holds whatever
faults the calls of a close or an append meet.
-/

namespace Pmkit

open Faults Program SpoolFiles

section Operations

variable {allowed : Fault IoError → Prop} {files : SpoolFiles}

def MayFail (allowed : Fault IoError → Prop) : Prop :=
  ∃ failure count, allowed (.error failure count)

theorem ensures_observed {A : Type} {look : SpoolFiles → Except IoError A}
    {post : Faults.Outcome SpoolError A → SpoolFiles → Prop}
    (answers : ∀ value, look files = .ok value →
      post (.returned (.ok value)) files)
    (errors : ∀ failure, (look files = .error failure ∨ MayFail allowed) →
      post (.returned (.error (.io failure))) files)
    (crashes : post .crashed files) :
    Ensures allowed (io (observe look)) files post := by
  apply ensures_mapError
  apply ensures_observe
  · cases looked : look files with
    | ok value => exact answers value looked
    | error failure => exact errors failure (Or.inl looked)
  · intro failure count isAllowed
    exact errors failure (Or.inr ⟨failure, count, isAllowed⟩)
  · exact crashes

variable {post : Faults.Outcome SpoolError Unit → SpoolFiles → Prop}
  {file : Nat}

theorem ensures_syncAll (answers : post (.returned (.ok ())) files)
    (errors : MayFail allowed → ∀ failure,
      post (.returned (.error failure)) files)
    (crashes : post .crashed files) :
    Ensures allowed (io syncAll) files post := by
  apply ensures_observed
  · intro _ _
    exact answers
  · rintro failure (no | mayFail)
    · cases no
    · exact errors mayFail _
  · exact crashes

theorem ensures_read {chunk : SpoolChunk} {role : SpoolRole}
    (found : files.view chunk role = some file)
    {post : Faults.Outcome SpoolError (List UInt8) → SpoolFiles → Prop}
    (answers : post (.returned (.ok (files.contents file))) files)
    (errors : MayFail allowed → ∀ failure,
      post (.returned (.error failure)) files)
    (crashes : post .crashed files) :
    Ensures allowed (io (read (chunk.file role))) files post := by
  unfold SpoolFiles.view at found
  apply ensures_observed
  · intro bytes read
    rw [found] at read
    cases read
    exact answers
  · rintro failure (no | mayFail)
    · rw [found] at no
      cases no
    · exact errors mayFail _
  · exact crashes

theorem ensures_openFile {chunk : SpoolChunk} {role : SpoolRole}
    (found : files.view chunk role = some file)
    {post : Faults.Outcome SpoolError Nat → SpoolFiles → Prop}
    (answers : post (.returned (.ok file)) files)
    (errors : MayFail allowed → ∀ failure,
      post (.returned (.error failure)) files)
    (crashes : post .crashed files) :
    Ensures allowed (io (openFile (chunk.file role))) files post := by
  unfold SpoolFiles.view at found
  apply ensures_observed
  · intro opened isOpened
    rw [found] at isOpened
    cases isOpened
    exact answers
  · rintro failure (no | mayFail)
    · rw [found] at no
      cases no
    · exact errors mayFail _
  · exact crashes

theorem ensures_pathExists {E : Type} {chunk : SpoolChunk} {role : SpoolRole}
    {post : Faults.Outcome E Bool → SpoolFiles → Prop}
    (answers : post (.returned (.ok (files.view chunk role).isSome)) files)
    (errors : MayFail allowed → post (.returned (.ok false)) files)
    (crashes : post .crashed files) :
    Ensures allowed (pathExists (chunk.file role)) files post := by
  apply ensures_handle
  apply ensures_observe
  · apply ensures_answer
    unfold SpoolFiles.view at answers
    cases found : files.names.lookup (chunk.file role) with
    | none =>
        rw [found] at answers
        exact answers
    | some file =>
        rw [found] at answers
        exact answers
  · intro failure count isAllowed
    exact ensures_answer (errors ⟨failure, count, isAllowed⟩)
  · exact crashes

theorem ensures_createNew {chunk : SpoolChunk} {role : SpoolRole}
    {post : Faults.Outcome SpoolError Nat → SpoolFiles → Prop}
    (answers : files.view chunk role = none →
      post (.returned (.ok files.next)) (files.create (chunk.file role)))
    (errors : (files.view chunk role ≠ none ∨ MayFail allowed) →
      ∀ failure after, after = files ∨ (files.view chunk role = none ∧
          after = files.create (chunk.file role)) →
        post (.returned (.error failure)) after)
    (crashes : ∀ after, after = files ∨ (files.view chunk role = none ∧
          after = files.create (chunk.file role)) → post .crashed after) :
    Ensures allowed (io (createNew (chunk.file role))) files post := by
  apply ensures_mapError
  cases found : files.view chunk role with
  | some file =>
      have isThere : files.names.lookup (chunk.file role) = some file := found
      have present : files.view chunk role ≠ none := by simp [found]
      apply ensures_refused
      · rw [isThere]
      · intro failure
        exact errors (Or.inl present) _ _ (Or.inl rfl)
      · exact crashes _ (Or.inl rfl)
  | none =>
      have absent : files.names.lookup (chunk.file role) = none := found
      apply ensures_effect
      · rw [absent]
      · exact answers found
      · intro failure count isAllowed after reached
        exact errors (Or.inr ⟨failure, count, isAllowed⟩) _ _
          (reached.imp_right fun created => ⟨found, created⟩)
      · intro after reached
        exact crashes _ (reached.imp_right fun created => ⟨found, created⟩)

theorem ensures_removeIfPresent {chunk : SpoolChunk} {role : SpoolRole}
    {post : Faults.Outcome SpoolError Unit → SpoolFiles → Prop}
    (answers : ∀ after, after = files ∨ after = files.unlink (chunk.file role) →
      (MayFail allowed ∨ after.view chunk role = none) →
      post (.returned (.ok ())) after)
    (errors : MayFail allowed → ∀ failure after, after = files ∨
        after = files.unlink (chunk.file role) →
      post (.returned (.error failure)) after)
    (crashes : ∀ after, after = files ∨ after = files.unlink (chunk.file role) →
      post .crashed after) :
    Ensures allowed (removeIfPresent (chunk.file role)) files post := by
  apply ensures_handle
  -- An error that says the file was not there is no error.
  have failed : MayFail allowed → ∀ failure after, after = files ∨
      after = files.unlink (chunk.file role) →
      Ensures allowed (answer (removal (.error failure))) after post := by
    intro mayFail failure after reached
    cases failure with
    | notFound =>
        exact ensures_answer (answers after reached (Or.inl mayFail))
    | alreadyExists => exact ensures_answer (errors mayFail _ after reached)
    | other message => exact ensures_answer (errors mayFail _ after reached)
  cases found : files.names.lookup (chunk.file role) with
  | none =>
      apply ensures_perform
      · simp only [found, applied_nil]
        exact ensures_answer (answers files (Or.inl rfl) (Or.inr found))
      · intro failure count isAllowed
        simp only [found, applied_nil]
        exact failed ⟨failure, count, isAllowed⟩ failure files (Or.inl rfl)
      · intro count _
        simp only [found, applied_nil]
        exact crashes files (Or.inl rfl)
  | some file =>
      apply ensures_effect
      · rw [found]
      · refine ensures_answer (answers _ (Or.inr rfl) (Or.inr ?_))
        rw [view_unlink, if_pos ⟨rfl, rfl⟩]
      · intro failure count isAllowed after reached
        exact failed ⟨failure, count, isAllowed⟩ failure after reached
      · intro after reached
        exact crashes after reached

theorem ensures_publish
    {chunk : SpoolChunk} {source destination : SpoolRole} {file : Nat}
    (found : files.view chunk source = some file)
    {post : Faults.Outcome SpoolError Unit → SpoolFiles → Prop}
    (answers : post (.returned (.ok ()))
      ((files.link (chunk.file destination) file).unlink (chunk.file source)))
    (others : ∀ outcome after, outcome ≠ .returned (.ok ()) →
      after = files ∨ after = files.link (chunk.file destination) file ∨
        after = (files.link (chunk.file destination) file).unlink
          (chunk.file source) → post outcome after) :
    Ensures allowed
      (publishWithoutReplacing (chunk.file source) (chunk.file destination))
      files post := by
  have isThere : files.names.lookup (chunk.file source) = some file := found
  have notOk : ∀ failure : SpoolError,
      (.returned (.error failure) : Faults.Outcome SpoolError Unit) ≠
        .returned (.ok ()) := by
    intro failure
    simp
  -- A failed link, with or without its effect.
  have failed : ∀ failure after, after = files ∨
      after = files.link (chunk.file destination) file →
      Ensures allowed
        (afterLink (chunk.file source) (chunk.file destination)
          (.error failure)) after post := by
    intro failure after reached
    have stages : after = files ∨
        after = files.link (chunk.file destination) file ∨
        after = (files.link (chunk.file destination) file).unlink
          (chunk.file source) := reached.imp_right Or.inl
    cases failure with
    | notFound => exact ensures_answer (others _ after (notOk _) stages)
    | alreadyExists => exact ensures_answer (others _ after (notOk _) stages)
    | other message => exact ensures_answer (others _ after (notOk _) stages)
  apply ensures_handle
  cases taken : files.names.lookup (chunk.file destination) with
  | some other =>
      apply ensures_perform
      · simp only [isThere, taken, applied_nil]
        exact failed .alreadyExists files (Or.inl rfl)
      · intro failure count _
        simp only [isThere, taken, applied_nil]
        exact failed failure files (Or.inl rfl)
      · intro count _
        simp only [isThere, taken, applied_nil]
        exact others _ files (by simp) (Or.inl rfl)
  | none =>
      have linked : (files.link (chunk.file destination) file).names.lookup
          (chunk.file source) = some file := by
        by_cases same : chunk.file source = chunk.file destination
        · rw [same] at isThere
          rw [isThere] at taken
          cases taken
        · show (AList.insert (chunk.file destination) file
            files.names).lookup (chunk.file source) = some file
          rw [KeyedMap.lookup_insert_eq, if_neg same]
          exact isThere
      apply ensures_effect
      · rw [isThere, taken]
      · apply ensures_mapError
        apply ensures_effect
        · rw [linked]
        · exact answers
        · intro failure count _ after reached
          exact others _ after (notOk _) (Or.inr reached)
        · intro after reached
          exact others _ after (by simp) (Or.inr reached)
      · intro failure count _ after reached
        exact failed failure after reached
      · intro after reached
        exact others _ after (by simp) (reached.imp_right Or.inl)

theorem ensures_write {bytes : List UInt8} {convert : IoError → SpoolError}
    (answers : post (.returned (.ok ())) (files.extend file bytes))
    (errors : ∀ failure count, allowed (.error failure count) →
      post (.returned (.error (convert failure)))
        (files.extend file (bytes.take count)))
    (crashes : ∀ count, post .crashed (files.extend file (bytes.take count))) :
    Ensures allowed ((writeAll file bytes).mapError convert) files post := by
  apply ensures_mapError
  exact ensures_writeAll answers errors crashes

end Operations

/-! ## Closing a chunk -/

/-- The open file of a chunk that is not closed, with its bytes. -/
structure OpenWith (files : SpoolFiles) (chunk : SpoolChunk) (file : Nat)
    (content : List UInt8) : Prop where
  isOpen : files.view chunk .open = some file
  notClosed : files.view chunk .closed = none
  bytes : files.contents file = content

def HasSidecar (text : SpoolText) (files : SpoolFiles) (chunk : SpoolChunk)
    (role : SpoolRole) (content : List UInt8) : Prop :=
  ∃ side, files.view chunk role = some side ∧
    files.contents side =
      (chunk.sidecar content.length (text.checksumHex content)).bytes ++
        [newline]

/-- A closed file with its bytes and its sidecar; the open name may be left. -/
structure ClosedWith (text : SpoolText) (files : SpoolFiles)
    (chunk : SpoolChunk) (file : Nat) (content : List UInt8) : Prop where
  isClosed : files.view chunk .closed = some file
  isOpen : files.view chunk .open = none ∨ files.view chunk .open = some file
  bytes : files.contents file = content
  sidecar : HasSidecar text files chunk .checksum content

/-- From one state to another the open file stays, and only files of its chunk
change. -/
structure StaysOpen (chunk : SpoolChunk) (file : Nat) (content : List UInt8)
    (before after : SpoolFiles) : Prop where
  only : OnlyChunk chunk before after
  opened : OpenWith after chunk file content

section Close

variable {text : SpoolText} {chunk : SpoolChunk} {file : Nat}
  {content : List UInt8} {before files : SpoolFiles}

namespace StaysOpen

theorem refl (named : files.WellNamed)
    (opened : OpenWith files chunk file content) :
    StaysOpen chunk file content files files :=
  ⟨.refl named, opened⟩

variable (stays : StaysOpen chunk file content before files)

include stays

/-- The data files keep their views when a sidecar's name changes. -/
theorem unlink {role : SpoolRole} (sidecar : role.isData = false) :
    StaysOpen chunk file content before (files.unlink (chunk.file role)) := by
  have ne : ∀ data : SpoolRole, data.isData = true →
      ¬ (chunk = chunk ∧ data = role) := by
    rintro data isData ⟨_, rfl⟩
    rw [sidecar] at isData
    cases isData
  refine ⟨stays.only.trans (onlyChunk_unlink stays.only.named chunk role),
    ?_, ?_, stays.opened.bytes⟩
  · rw [view_unlink, if_neg (ne _ rfl)]
    exact stays.opened.isOpen
  · rw [view_unlink, if_neg (ne _ rfl)]
    exact stays.opened.notClosed

theorem create {role : SpoolRole} (sidecar : role.isData = false) :
    StaysOpen chunk file content before (files.create (chunk.file role)) := by
  have ne : ∀ data : SpoolRole, data.isData = true →
      ¬ (chunk = chunk ∧ data = role) := by
    rintro data isData ⟨_, rfl⟩
    rw [sidecar] at isData
    cases isData
  refine ⟨stays.only.trans (onlyChunk_create stays.only.named chunk role),
    ?_, ?_, ?_⟩
  · rw [view_create, if_neg (ne _ rfl)]
    exact stays.opened.isOpen
  · rw [view_create, if_neg (ne _ rfl)]
    exact stays.opened.notClosed
  · rw [← stays.opened.bytes]
    exact Function.update_of_ne (Nat.ne_of_lt
      (stays.only.named.below _ _ _ stays.opened.isOpen)) _ _

theorem link {role source : SpoolRole} (sidecar : role.isData = false)
    (sourceKind : source.isData = false) {side : Nat}
    (found : files.view chunk source = some side) :
    StaysOpen chunk file content before
      (files.link (chunk.file role) side) := by
  have ne : ∀ data : SpoolRole, data.isData = true →
      ¬ (chunk = chunk ∧ data = role) := by
    rintro data isData ⟨_, rfl⟩
    rw [sidecar] at isData
    cases isData
  refine ⟨stays.only.trans (onlyChunk_link stays.only.named found
    (sourceKind.trans sidecar.symm)), ?_, ?_, stays.opened.bytes⟩
  · rw [view_link, if_neg (ne _ rfl)]
    exact stays.opened.isOpen
  · rw [view_link, if_neg (ne _ rfl)]
    exact stays.opened.notClosed

theorem extend {role : SpoolRole} (sidecar : role.isData = false)
    {side : Nat} (found : files.view chunk role = some side)
    (bytes : List UInt8) :
    StaysOpen chunk file content before (files.extend side bytes) := by
  have ne : file ≠ side := by
    rintro rfl
    have kinds := (stays.only.named.apart _ _ _ _ _ stays.opened.isOpen found).2
    rw [sidecar] at kinds
    cases kinds
  refine ⟨stays.only.trans (onlyChunk_setContents stays.only.named found _),
    stays.opened.isOpen, stays.opened.notClosed, ?_⟩
  rw [← stays.opened.bytes]
  exact Function.update_of_ne ne _ _

end StaysOpen

/-- Whatever meets the call, the open file stays; when it returns, the sidecar
is in place. -/
def SidecarWritten (text : SpoolText) (chunk : SpoolChunk) (file : Nat)
    (content : List UInt8) (before : SpoolFiles)
    (outcome : Faults.Outcome SpoolError Unit) (after : SpoolFiles) : Prop :=
  StaysOpen chunk file content before after ∧
    (outcome = .returned (.ok ()) →
      HasSidecar text after chunk .checksum content)

variable {outcome : Faults.Outcome SpoolError Unit}

theorem SidecarWritten.of_not_ok
    (stays : StaysOpen chunk file content before files)
    (notOk : outcome ≠ .returned (.ok ())) :
    SidecarWritten text chunk file content before outcome files :=
  ⟨stays, fun ok => absurd ok notOk⟩

theorem ensures_publishSidecar
    (stays : StaysOpen chunk file content before files)
    (written : HasSidecar text files chunk .temporaryChecksum content) :
    Ensures (fun _ => True)
      (publishWithoutReplacing chunk.temporaryChecksumPath
        chunk.checksumPath) files
      (SidecarWritten text chunk file content before) := by
  obtain ⟨side, found, bytes⟩ := written
  have linked := @StaysOpen.link _ _ _ _ _ stays .checksum
    .temporaryChecksum rfl rfl side found
  have removed := @StaysOpen.unlink _ _ _ _ _ linked .temporaryChecksum rfl
  apply @ensures_publish _ _ chunk .temporaryChecksum .checksum side found
  · refine ⟨removed, fun _ => ⟨side, ?_, bytes⟩⟩
    rw [view_unlink, if_neg (by simp), view_link, if_pos ⟨rfl, rfl⟩]
  · rintro outcome after notOk (rfl | rfl | rfl)
    · exact .of_not_ok stays notOk
    · exact .of_not_ok linked notOk
    · exact .of_not_ok removed notOk

theorem ensures_writeChecksumSidecar
    (named : files.WellNamed) (opened : OpenWith files chunk file content) :
    Ensures (fun _ => True) (writeChecksumSidecar text chunk content) files
      (SidecarWritten text chunk file content files) := by
  have failed : ∀ failure : SpoolError,
      (.returned (.error failure) : Faults.Outcome SpoolError Unit) ≠
        .returned (.ok ()) := by
    intro failure
    simp
  have crashed : (.crashed : Faults.Outcome SpoolError Unit) ≠
      .returned (.ok ()) := by simp
  have start := StaysOpen.refl named opened
  have removed : ∀ after, after = files ∨
      after = files.unlink (chunk.file .temporaryChecksum) →
      StaysOpen chunk file content files after := by
    rintro after (rfl | rfl)
    · exact start
    · exact start.unlink rfl
  apply ensures_bind
  apply ensures_removeIfPresent
  · intro cleared reached _
    have stays := removed cleared reached
    apply ensures_bind
    apply ensures_createNew
    · intro absent
      have created :=
        @StaysOpen.create _ _ _ _ _ stays .temporaryChecksum rfl
      have found : (cleared.create (chunk.file .temporaryChecksum)).view
          chunk .temporaryChecksum = some cleared.next := by
        rw [view_create, if_pos ⟨rfl, rfl⟩]
      have empty : (cleared.create
          (chunk.file .temporaryChecksum)).contents cleared.next = [] :=
        Function.update_self ..
      generalize cleared.create (chunk.file .temporaryChecksum) = fresh
        at created found empty ⊢
      generalize cleared.next = side at found empty ⊢
      apply ensures_bind
      apply ensures_write
      · have half := created.extend rfl found
          (chunk.sidecar content.length (text.checksumHex content)).bytes
        apply ensures_bind
        apply ensures_write
        · have whole := @StaysOpen.extend _ _ _ _ _ half
            .temporaryChecksum rfl _ found [newline]
          apply ensures_bind
          apply ensures_syncAll
          · apply ensures_publishSidecar whole
            refine ⟨side, found, ?_⟩
            simp [SpoolFiles.extend, setContents, empty]
          · intro _ failure
            exact .of_not_ok whole (failed failure)
          · exact .of_not_ok whole crashed
        · intro failure count _
          exact .of_not_ok (half.extend rfl found _) (failed _)
        · intro count
          exact .of_not_ok (half.extend rfl found _) crashed
      · intro failure count _
        exact .of_not_ok (created.extend rfl found _) (failed _)
      · intro count
        exact .of_not_ok (created.extend rfl found _) crashed
    · rintro _ failure after (rfl | ⟨_, rfl⟩)
      · exact .of_not_ok stays (failed failure)
      · exact .of_not_ok (stays.create rfl) (failed failure)
    · rintro after (rfl | ⟨_, rfl⟩)
      · exact .of_not_ok stays crashed
      · exact .of_not_ok (stays.create rfl) crashed
  · intro _ failure after reached
    exact .of_not_ok (removed after reached) (failed failure)
  · intro after reached
    exact .of_not_ok (removed after reached) crashed

/-- Whatever meets a close, the chunk is open as before or closed with its
sidecar, and a close that returns has closed it. -/
def CloseReached (text : SpoolText) (chunk : SpoolChunk) (file : Nat)
    (content : List UInt8) (before : SpoolFiles)
    (outcome : Faults.Outcome SpoolError Unit) (after : SpoolFiles) : Prop :=
  OnlyChunk chunk before after ∧
    ((OpenWith after chunk file content ∧ outcome ≠ .returned (.ok ())) ∨
      ClosedWith text after chunk file content)

theorem StaysOpen.closeReached
    (stays : StaysOpen chunk file content before files)
    (notOk : outcome ≠ .returned (.ok ())) :
    CloseReached text chunk file content before outcome files :=
  ⟨stays.only, Or.inl ⟨stays.opened, notOk⟩⟩

theorem StaysOpen.linkClosed (stays : StaysOpen chunk file content before files)
    (sidecar : HasSidecar text files chunk .checksum content)
    {after : SpoolFiles}
    (reached : after = files.link (chunk.file .closed) file ∨
      after = (files.link (chunk.file .closed) file).unlink
        (chunk.file .open)) :
    OnlyChunk chunk before after ∧
      ClosedWith text after chunk file content := by
  obtain ⟨side, found, bytes⟩ := sidecar
  have linked := stays.only.trans
    (@onlyChunk_link chunk files stays.only.named .closed .open file
      stays.opened.isOpen rfl)
  rcases reached with rfl | rfl
  · refine ⟨linked, ?_, Or.inr ?_, stays.opened.bytes, side, ?_, bytes⟩
    · rw [view_link, if_pos ⟨rfl, rfl⟩]
    · rw [view_link, if_neg (by simp)]
      exact stays.opened.isOpen
    · rw [view_link, if_neg (by simp)]
      exact found
  · refine ⟨linked.trans (onlyChunk_unlink linked.named chunk .open), ?_,
      Or.inl ?_, stays.opened.bytes, side, ?_, bytes⟩
    · rw [view_unlink, if_neg (by simp), view_link, if_pos ⟨rfl, rfl⟩]
    · rw [view_unlink, if_pos ⟨rfl, rfl⟩]
    · rw [view_unlink, if_neg (by simp), view_link, if_neg (by simp)]
      exact found

theorem ensures_publishClosed
    (stays : StaysOpen chunk file content before files)
    (sidecar : HasSidecar text files chunk .checksum content) :
    Ensures (fun _ => True)
      (publishWithoutReplacing chunk.openPath chunk.closedPath) files
      (CloseReached text chunk file content before) := by
  have closed : ∀ outcome after,
      after = files.link (chunk.file .closed) file ∨
        after = (files.link (chunk.file .closed) file).unlink
          (chunk.file .open) →
      CloseReached text chunk file content before outcome after := by
    intro outcome after reached
    obtain ⟨only, isClosed⟩ := stays.linkClosed sidecar reached
    exact ⟨only, Or.inr isClosed⟩
  apply @ensures_publish _ _ chunk .open .closed file stays.opened.isOpen
  · exact closed _ _ (Or.inr rfl)
  · rintro outcome after notOk (rfl | reached)
    · exact stays.closeReached notOk
    · exact closed outcome after reached

end Close

section Writer

variable {text : SpoolText} {writer : RawSpoolWriter} {file : Nat}
  {content : List UInt8} {files : SpoolFiles}

theorem ensures_close (named : files.WellNamed)
    (opened : OpenWith files writer.chunk file content) :
    Ensures (fun _ => True) (writer.close text) files
      (CloseReached text writer.chunk file content files) := by
  have failed : ∀ failure : SpoolError,
      (.returned (.error failure) : Faults.Outcome SpoolError Unit) ≠
        .returned (.ok ()) := by
    intro failure
    simp
  have crashed : (.crashed : Faults.Outcome SpoolError Unit) ≠
      .returned (.ok ()) := by simp
  have start := StaysOpen.refl named opened
  -- The steps after the check of the closed name.
  have rest : Ensures (fun _ => True)
      (do
        io syncAll
        let bytes ← io (read writer.chunk.openPath)
        writeChecksumSidecar text writer.chunk bytes
        publishWithoutReplacing writer.chunk.openPath writer.chunk.closedPath
        io syncAll) files
      (CloseReached text writer.chunk file content files) := by
    apply ensures_bind
    apply ensures_syncAll
    · apply ensures_bind
      apply ensures_read opened.isOpen
      · rw [opened.bytes]
        apply ensures_bind
        apply (ensures_writeChecksumSidecar named opened).weaken
        rintro outcome middle ⟨stays, written⟩
        match outcome with
        | .returned (.ok ()) =>
            apply ensures_bind
            apply (ensures_publishClosed stays (written rfl)).weaken
            intro outcome after reached
            match outcome with
            | .returned (.ok ()) =>
                obtain ⟨only, ⟨_, notOk⟩ | closed⟩ := reached
                · exact absurd rfl notOk
                · apply ensures_syncAll
                  · exact ⟨only, Or.inr closed⟩
                  · intro _ failure
                    exact ⟨only, Or.inr closed⟩
                  · exact ⟨only, Or.inr closed⟩
            | .returned (.error failure) => exact reached
            | .crashed => exact reached
        | .returned (.error failure) =>
            exact stays.closeReached (failed failure)
        | .crashed => exact stays.closeReached crashed
      · intro _ failure
        exact start.closeReached (failed failure)
      · exact start.closeReached crashed
    · intro _ failure
      exact start.closeReached (failed failure)
    · exact start.closeReached crashed
  apply ensures_bind
  apply @ensures_pathExists _ _ _ writer.chunk .closed
  · rw [opened.notClosed]
    exact rest
  · intro _
    exact rest
  · exact start.closeReached crashed

theorem ensures_close_late
    {allowed : Fault IoError → Prop} (noErrors : ¬ MayFail allowed)
    (closed : files.view writer.chunk .closed = some file) :
    Ensures allowed (writer.close text) files fun outcome after =>
      after = files ∧ outcome ≠ .returned (.ok ()) := by
  apply ensures_bind
  apply @ensures_pathExists _ _ _ writer.chunk .closed
  · rw [closed]
    exact ensures_answer ⟨rfl, by simp⟩
  · intro mayFail
    exact absurd mayFail noErrors
  · exact ⟨rfl, by simp⟩

def recordLine (chunk : SpoolChunk) (frame : SpoolFrame) : List UInt8 :=
  Lines.terminated newline (frame.wire chunk).bytes

variable {frame : SpoolFrame}

theorem encodeRecord_valid {chunk : SpoolChunk}
    (valid : validateFrame chunk frame = .ok ()) :
    encodeRecord chunk frame = .ok (frame.wire chunk).bytes := by
  rw [encodeRecord, valid]
  rfl

/-- How many bytes of a record's line an append brings into the file. -/
def appendedBytes (length : Nat) : List (Fault IoError) → Nat
  | .error _ count :: _ => min count length
  | .crash count :: _ => min count length
  | .none :: .error _ count :: _ => length + min count 1
  | .none :: .crash count :: _ => length + min count 1
  | _ => length + 1

def appendOutcome : List (Fault IoError) → Faults.Outcome SpoolError Unit
  | .error failure _ :: _ => .returned (.error (.io failure))
  | .crash _ :: _ => .crashed
  | .none :: .error failure _ :: _ => .returned (.error (.io failure))
  | .none :: .crash _ :: _ => .crashed
  | _ => .returned (.ok ())

/-- A write cut off in the line leaves its first bytes. -/
theorem extend_line (chunk : SpoolChunk) (frame : SpoolFrame) (file count : Nat)
    (files : SpoolFiles) :
    files.extend file ((frame.wire chunk).bytes.take count) =
      files.extend file ((recordLine chunk frame).take
        (min count (frame.wire chunk).bytes.length)) := by
  rw [recordLine, Lines.terminated, List.take_append_of_le_length
    (Nat.min_le_right _ _), ← List.take_eq_take_min]

/-- A write cut off at the newline leaves the line. -/
theorem extend_newline
    (chunk : SpoolChunk) (frame : SpoolFrame) (file count : Nat)
    (files : SpoolFiles) :
    applied count [SpoolFiles.extend file [newline]]
        (files.extend file (frame.wire chunk).bytes) =
      files.extend file ((recordLine chunk frame).take
        ((frame.wire chunk).bytes.length + min count 1)) := by
  have written := applied_extend count file [newline]
    (files.extend file (frame.wire chunk).bytes)
  have one : [newline].take count = [newline].take (min count 1) :=
    List.take_eq_take_min
  rw [List.map_singleton, one] at written
  rw [written, recordLine, Lines.terminated, List.take_length_add_append]
  simp [SpoolFiles.extend, setContents]

theorem append_valid (valid : validateFrame writer.chunk frame = .ok ())
    (files : SpoolFiles) (faults : List (Fault IoError)) :
    (writer.append frame files faults).outcome = appendOutcome faults ∧
      (writer.append frame files faults).state =
        files.extend writer.file
          ((recordLine writer.chunk frame).take
            (appendedBytes (frame.wire writer.chunk).bytes.length faults)) := by
  have whole : (recordLine writer.chunk frame).take
      ((frame.wire writer.chunk).bytes.length + 1) =
        recordLine writer.chunk frame := by
    apply List.take_of_length_le
    simp [recordLine, Lines.terminated]
  have full : (files.extend writer.file
      (frame.wire writer.chunk).bytes).extend writer.file [newline] =
        files.extend writer.file (recordLine writer.chunk frame) := by
    simp [SpoolFiles.extend, setContents, recordLine, Lines.terminated]
  unfold RawSpoolWriter.append
  rw [encodeRecord_valid valid]
  change (Program.handle (Program.answer (.ok _)) _ files faults).outcome =
      _ ∧ (Program.handle (Program.answer (.ok _)) _ files faults).state = _
  rcases faults with _ | ⟨_ | ⟨failure, count⟩ | count,
    _ | ⟨_ | ⟨other, second⟩ | second, rest⟩⟩ <;>
  simp [Program.handle, Program.answer, Program.bind, io, Program.mapError,
    writeAll, perform, applied_extend, appendOutcome, appendedBytes, whole,
    Except.mapError, full, extend_line, extend_newline, Bind.bind]

/-- A frame that does not pass its checks leaves the file alone. -/
theorem append_invalid {failure : SpoolError}
    (invalid : validateFrame writer.chunk frame = .error failure)
    (faults : List (Fault IoError)) :
    writer.append frame files faults =
      ⟨.returned (.error failure), files, faults⟩ := by
  unfold RawSpoolWriter.append encodeRecord
  rw [invalid]
  rfl

end Writer

end Pmkit
