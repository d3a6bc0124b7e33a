import Pmkit.Library.Faults
import Pmkit.Library.KeyedMap
import Pmkit.Tape.SpoolLine

/-!
# The files of the raw spool

A file has a number and its bytes, and a name is a link to it; two names may be
links to one file, and an open file stays the same when its names change.
Every operation is a call that may fail or be cut off by a crash; a write can
stop after any of its bytes.
-/

namespace Pmkit

open Faults

/-- The files beneath the root.  The numbers of files are taken from a
counter. -/
structure SpoolFiles where
  names : KeyedMap SpoolPath Nat
  contents : Nat → List UInt8
  next : Nat

instance : Inhabited SpoolFiles where
  default := { names := ∅, contents := fun _ => [], next := 0 }

/-- A program over the files. -/
abbrev SpoolProgram (E A : Type) : Type :=
  Program SpoolFiles (Fault IoError) E A

namespace SpoolFiles

def link (path : SpoolPath) (file : Nat) (files : SpoolFiles) : SpoolFiles :=
  { files with names := AList.insert path file files.names }

def unlink (path : SpoolPath) (files : SpoolFiles) : SpoolFiles :=
  { files with names := files.names.erase path }

def create (path : SpoolPath) (files : SpoolFiles) : SpoolFiles where
  names := AList.insert path files.next files.names
  contents := Function.update files.contents files.next []
  next := files.next + 1

def setContents (file : Nat) (bytes : List UInt8) (files : SpoolFiles) :
    SpoolFiles :=
  { files with contents := Function.update files.contents file bytes }

def extend (file : Nat) (bytes : List UInt8) (files : SpoolFiles) :
    SpoolFiles :=
  files.setContents file (files.contents file ++ bytes)

def truncate (file length : Nat) (files : SpoolFiles) : SpoolFiles :=
  files.setContents file ((files.contents file).take length)

def observe {A : Type} (look : SpoolFiles → Except IoError A) :
    SpoolProgram IoError A :=
  perform fun files => { effects := [], answer := look files }

/-- `Path::exists`: an error is no. -/
def pathExists {E : Type} (path : SpoolPath) : SpoolProgram E Bool :=
  Program.handle
    (observe fun files =>
      match files.names.lookup path with
      | some _ => .ok ()
      | none => .error .notFound)
    fun result => Program.answer (.ok result.isOk)

/-- `fs::read`. -/
def read (path : SpoolPath) : SpoolProgram IoError (List UInt8) :=
  observe fun files =>
    match files.names.lookup path with
    | some file => .ok (files.contents file)
    | none => .error .notFound

def openFile (path : SpoolPath) : SpoolProgram IoError Nat :=
  observe fun files =>
    match files.names.lookup path with
    | some file => .ok file
    | none => .error .notFound

/-- `sync_all`: the bytes are in the file already. -/
def syncAll : SpoolProgram IoError Unit :=
  observe fun _ => .ok ()

/-- An open with `create_new`. -/
def createNew (path : SpoolPath) : SpoolProgram IoError Nat :=
  perform fun files =>
    match files.names.lookup path with
    | some _ => { effects := [], answer := .error .alreadyExists }
    | none => { effects := [create path], answer := .ok files.next }

/-- `write_all` at the end of a file, byte by byte. -/
def writeAll (file : Nat) (bytes : List UInt8) : SpoolProgram IoError Unit :=
  perform fun _ => {
    effects := bytes.map fun byte => extend file [byte]
    answer := .ok () }

/-- `set_len` to a length that is not greater. -/
def setLen (file length : Nat) : SpoolProgram IoError Unit :=
  perform fun _ => { effects := [truncate file length], answer := .ok () }

/-- `fs::hard_link`. -/
def hardLink (source destination : SpoolPath) : SpoolProgram IoError Unit :=
  perform fun files =>
    match files.names.lookup source, files.names.lookup destination with
    | none, _ => { effects := [], answer := .error .notFound }
    | some _, some _ => { effects := [], answer := .error .alreadyExists }
    | some file, none => {
        effects := [link destination file]
        answer := .ok () }

/-- `fs::remove_file`. -/
def removeFile (path : SpoolPath) : SpoolProgram IoError Unit :=
  perform fun files =>
    match files.names.lookup path with
    | none => { effects := [], answer := .error .notFound }
    | some _ => { effects := [unlink path], answer := .ok () }

/-! ## The files of a chunk -/

def view (files : SpoolFiles) (chunk : SpoolChunk) (role : SpoolRole) :
    Option Nat :=
  files.names.lookup (chunk.file role)

@[simp]
theorem view_setContents (file : Nat) (bytes : List UInt8) (files : SpoolFiles)
    (chunk : SpoolChunk) (role : SpoolRole) :
    (files.setContents file bytes).view chunk role = files.view chunk role :=
  rfl

theorem view_link
    (chunk other : SpoolChunk) (role otherRole : SpoolRole) (file : Nat)
    (files : SpoolFiles) :
    (files.link (chunk.file role) file).view other otherRole =
      if other = chunk ∧ otherRole = role then some file
      else files.view other otherRole := by
  show (AList.insert (chunk.file role) file files.names).lookup _ = _
  rw [KeyedMap.lookup_insert_eq]
  simp only [file_inj]
  rfl

theorem view_create (chunk other : SpoolChunk) (role otherRole : SpoolRole)
    (files : SpoolFiles) :
    (files.create (chunk.file role)).view other otherRole =
      if other = chunk ∧ otherRole = role then some files.next
      else files.view other otherRole :=
  view_link chunk other role otherRole files.next files

theorem view_unlink (chunk other : SpoolChunk) (role otherRole : SpoolRole)
    (files : SpoolFiles) :
    (files.unlink (chunk.file role)).view other otherRole =
      if other = chunk ∧ otherRole = role then none
      else files.view other otherRole := by
  show (files.names.erase (chunk.file role)).lookup _ = _
  rw [KeyedMap.lookup_erase_eq]
  simp only [file_inj]
  rfl

@[simp]
theorem contents_link (path : SpoolPath) (file : Nat) (files : SpoolFiles) :
    (files.link path file).contents = files.contents := rfl

@[simp]
theorem contents_unlink (path : SpoolPath) (files : SpoolFiles) :
    (files.unlink path).contents = files.contents := rfl

/-- The names are those of the files of chunks, and only the two data files of
a chunk or its two sidecars may be one file. -/
structure WellNamed (files : SpoolFiles) : Prop where
  known : ∀ path ∈ files.names.keys, ∃ chunk role,
    path = SpoolChunk.file chunk role
  below : ∀ chunk role file, files.view chunk role = some file →
    file < files.next
  apart : ∀ left right leftRole rightRole file,
    files.view left leftRole = some file →
    files.view right rightRole = some file →
    left = right ∧ leftRole.isData = rightRole.isData

/-- What happened concerns the files of one chunk only. -/
structure OnlyChunk (chunk : SpoolChunk) (before after : SpoolFiles) :
    Prop where
  named : after.WellNamed
  views : ∀ other role, other ≠ chunk →
    after.view other role = before.view other role
  contents : ∀ other role file, other ≠ chunk →
    before.view other role = some file →
    after.contents file = before.contents file

section OnlyChunk

variable {chunk : SpoolChunk} {files middle after : SpoolFiles}

theorem OnlyChunk.refl (named : files.WellNamed) :
    OnlyChunk chunk files files where
  named := named
  views := fun _ _ _ => rfl
  contents := fun _ _ _ _ _ => rfl

theorem OnlyChunk.trans (first : OnlyChunk chunk files middle)
    (second : OnlyChunk chunk middle after) : OnlyChunk chunk files after where
  named := second.named
  views := fun other role ne =>
    (second.views other role ne).trans
      (first.views other role ne)
  contents := fun other role file ne found =>
    (second.contents other role file ne
      ((first.views other role ne).trans found)).trans
      (first.contents other role file ne found)

theorem onlyChunk_unlink
    (named : files.WellNamed) (chunk : SpoolChunk) (role : SpoolRole) :
    OnlyChunk chunk files (files.unlink (chunk.file role)) where
  named := {
    known := fun path mem =>
      named.known path (List.mem_of_mem_erase (by
        simpa [unlink, AList.keys_erase] using mem))
    below := by
      intro other otherRole file found
      rw [view_unlink] at found
      split at found
      · cases found
      · exact named.below other otherRole file found
    apart := by
      intro left right leftRole rightRole file leftFound rightFound
      rw [view_unlink] at leftFound rightFound
      split at leftFound
      · cases leftFound
      · split at rightFound
        · cases rightFound
        · exact named.apart left right leftRole rightRole file leftFound
            rightFound }
  views := fun other otherRole ne => by
    rw [view_unlink, if_neg fun same => ne same.1]
  contents := fun _ _ _ _ _ => rfl

theorem mem_keys_insert {path inserted : SpoolPath} {file : Nat}
    {names : KeyedMap SpoolPath Nat}
    (mem : path ∈ (AList.insert inserted file names).keys) :
    path = inserted ∨ path ∈ names.keys := by
  rw [← AList.mem_keys, AList.mem_insert, AList.mem_keys] at mem
  exact mem

theorem onlyChunk_link
    (named : files.WellNamed) {role source : SpoolRole} {file : Nat}
    (found : files.view chunk source = some file)
    (sameKind : source.isData = role.isData) :
    OnlyChunk chunk files (files.link (chunk.file role) file) where
  named := {
    known := by
      intro path mem
      rcases mem_keys_insert mem with rfl | mem
      · exact ⟨chunk, role, rfl⟩
      · exact named.known path mem
    below := by
      intro other otherRole linked isLinked
      rw [view_link] at isLinked
      split at isLinked
      · cases isLinked
        exact named.below chunk source file found
      · exact named.below other otherRole linked isLinked
    apart := by
      -- The new name belongs where the source does.
      have place : ∀ other otherRole linked,
          (files.link (chunk.file role) file).view other otherRole =
            some linked →
          ∃ stored storedRole, files.view stored storedRole = some linked ∧
            stored = other ∧ storedRole.isData = otherRole.isData := by
        intro other otherRole linked isLinked
        rw [view_link] at isLinked
        split at isLinked
        · rename_i same
          cases isLinked
          exact ⟨chunk, source, found, same.1.symm, by
            rw [same.2, sameKind]⟩
        · exact ⟨other, otherRole, isLinked, rfl, rfl⟩
      intro left right leftRole rightRole linked leftFound rightFound
      obtain ⟨_, leftPlace, isLeft, rfl, leftKind⟩ :=
        place left leftRole linked leftFound
      obtain ⟨_, rightPlace, isRight, rfl, rightKind⟩ :=
        place right rightRole linked rightFound
      obtain ⟨same, kind⟩ := named.apart _ _ _ _ linked isLeft isRight
      exact ⟨same, by rw [← leftKind, ← rightKind, kind]⟩ }
  views := fun other otherRole ne => by
    rw [view_link, if_neg fun same => ne same.1]
  contents := fun _ _ _ _ _ => rfl

theorem onlyChunk_create
    (named : files.WellNamed) (chunk : SpoolChunk) (role : SpoolRole) :
    OnlyChunk chunk files (files.create (chunk.file role)) where
  named := {
    known := by
      intro path mem
      rcases mem_keys_insert mem with rfl | mem
      · exact ⟨chunk, role, rfl⟩
      · exact named.known path mem
    below := by
      intro other otherRole file found
      rw [view_create] at found
      split at found
      · cases found
        exact Nat.lt_succ_self _
      · exact Nat.lt_succ_of_lt (named.below other otherRole file found)
    apart := by
      intro left right leftRole rightRole file leftFound rightFound
      rw [view_create] at leftFound rightFound
      split at leftFound
      · rename_i leftSame
        cases leftFound
        split at rightFound
        · rename_i rightSame
          exact ⟨leftSame.1.trans rightSame.1.symm,
            by rw [leftSame.2, rightSame.2]⟩
        · exact absurd (named.below right rightRole _ rightFound)
            (Nat.lt_irrefl _)
      · split at rightFound
        · cases rightFound
          exact absurd (named.below left leftRole _ leftFound)
            (Nat.lt_irrefl _)
        · exact named.apart left right leftRole rightRole file leftFound
            rightFound }
  views := fun other otherRole ne => by
    rw [view_create, if_neg fun same => ne same.1]
  contents := fun other otherRole file ne found =>
    Function.update_of_ne
      (Nat.ne_of_lt (named.below other otherRole file found)) _ _

theorem onlyChunk_setContents
    (named : files.WellNamed) {role : SpoolRole} {file : Nat}
    (found : files.view chunk role = some file) (bytes : List UInt8) :
    OnlyChunk chunk files (files.setContents file bytes) where
  named := ⟨named.known, named.below, named.apart⟩
  views := fun _ _ _ => rfl
  contents := by
    intro other otherRole otherFile ne otherFound
    apply Function.update_of_ne
    rintro rfl
    exact ne
      (named.apart other chunk otherRole role _ otherFound found).1

end OnlyChunk

@[simp]
theorem extend_nil (file : Nat) (files : SpoolFiles) :
    files.extend file [] = files := by
  simp [extend, setContents]

/-- The first effects of a write are the first bytes in the file. -/
theorem applied_extend
    (count file : Nat) (bytes : List UInt8) (files : SpoolFiles) :
    applied count (bytes.map fun byte => extend file [byte]) files =
      files.extend file (bytes.take count) := by
  induction bytes generalizing count files with
  | nil => simp
  | cons byte rest ih =>
      cases count with
      | zero => simp
      | succ count =>
          rw [List.map_cons, applied_succ_cons, ih, List.take_succ_cons]
          simp [extend, setContents]

section Ensures

variable {allowed : Fault IoError → Prop} {files : SpoolFiles}

theorem ensures_observe {A : Type} {look : SpoolFiles → Except IoError A}
    {post : Faults.Outcome IoError A → SpoolFiles → Prop}
    (answers : post (.returned (look files)) files)
    (errors : ∀ failure count, allowed (.error failure count) →
      post (.returned (.error failure)) files)
    (crashes : post .crashed files) :
    Ensures allowed (observe look) files post :=
  ensures_perform (by simpa using answers)
    (fun failure count isAllowed => by simpa using errors failure count isAllowed)
    (fun _ _ => by simpa using crashes)

theorem ensures_effect
    {A : Type} {operation : SpoolFiles → Operation SpoolFiles IoError A}
    {effect : SpoolFiles → SpoolFiles} {answer : A}
    (does : operation files = { effects := [effect], answer := .ok answer })
    {post : Faults.Outcome IoError A → SpoolFiles → Prop}
    (answers : post (.returned (.ok answer)) (effect files))
    (errors : ∀ failure count, allowed (.error failure count) →
      ∀ after, after = files ∨ after = effect files →
        post (.returned (.error failure)) after)
    (crashes : ∀ after, after = files ∨ after = effect files →
      post .crashed after) :
    Ensures allowed (perform operation) files post := by
  apply ensures_perform
  · simpa [does] using answers
  · intro failure count isAllowed
    rw [does]
    exact errors failure count isAllowed _ (applied_singleton _ _ _)
  · intro count _
    rw [does]
    exact crashes _ (applied_singleton _ _ _)

/-- A call that does nothing. -/
theorem ensures_refused
    {A : Type} {operation : SpoolFiles → Operation SpoolFiles IoError A}
    {failure : IoError}
    (does : operation files = { effects := [], answer := .error failure })
    {post : Faults.Outcome IoError A → SpoolFiles → Prop}
    (errors : ∀ failure, post (.returned (.error failure)) files)
    (crashes : post .crashed files) :
    Ensures allowed (perform operation) files post := by
  apply ensures_perform
  · simpa [does] using errors failure
  · intro other count _
    simpa [does] using errors other
  · intro count _
    simpa [does] using crashes

/-- A write that is let through is whole; else some first bytes are there. -/
theorem ensures_writeAll {file : Nat} {bytes : List UInt8}
    {post : Faults.Outcome IoError Unit → SpoolFiles → Prop}
    (answers : post (.returned (.ok ())) (files.extend file bytes))
    (errors : ∀ failure count, allowed (.error failure count) →
      post (.returned (.error failure)) (files.extend file (bytes.take count)))
    (crashes : ∀ count, post .crashed (files.extend file (bytes.take count))) :
    Ensures allowed (writeAll file bytes) files post := by
  apply ensures_perform
  · rw [applied_extend]
    simpa using answers
  · intro failure count isAllowed
    rw [applied_extend]
    exact errors failure count isAllowed
  · intro count _
    rw [applied_extend]
    exact crashes count

end Ensures

end SpoolFiles

end Pmkit
