import Pmkit.Library.Faults

/-!
# The object store of the archive

An object store holds objects by key and the multipart uploads in progress.
Every operation is a call that may fail or be cut off by a crash, before or
after any of its effects.
-/

namespace Pmkit

open Faults

/-- `MANIFEST_SCHEMA_VERSION`. -/
def manifestSchemaVersion : UInt16 := 1

/-- `MANIFEST_KEY`. -/
def manifestKey : String := "manifest.json"

/-- Why an operation of the store failed. -/
inductive ObjectStoreError where
  | transient (message : String)
  | permanent (message : String)
  deriving DecidableEq

structure SegmentRef where
  key : String
  sha256Hex : String
  records : Nat
  deriving DecidableEq

structure Manifest where
  schemaVersion : UInt16
  segments : List SegmentRef
  deriving DecidableEq

instance : Inhabited Manifest where
  default := { schemaVersion := manifestSchemaVersion, segments := [] }

/-- The digest and the JSON library the archive rests on: a manifest that was
written is read back. -/
structure ArchiveText where
  sha256Hex : List UInt8 → String
  toVec : Manifest → List UInt8
  fromSlice : List UInt8 → Except String Manifest
  fromSlice_toVec : ∀ manifest, fromSlice (toVec manifest) = .ok manifest

structure PartId where
  partNumber : UInt32
  sha256Hex : String

/-- A multipart upload that was never completed. -/
structure PendingUpload where
  key : String
  uploadId : Nat

/-- The objects of a store, by key. -/
abbrev Objects : Type := String → Option (List UInt8)

/-- The staging directory of an upload: its target and its part files. -/
structure Upload where
  target : String
  parts : UInt32 → Option (List UInt8)

/-- A store with the uploads in progress.  Upload identities are taken from a
counter, so a new one is fresh.  `commits` is kept for the proofs only: the
objects as they were after each manifest was written. -/
structure FsObjectStore where
  objects : Objects
  uploads : Nat → Option Upload
  counter : Nat
  commits : List Objects

instance : Inhabited FsObjectStore where
  default := {
    objects := fun _ => none
    uploads := fun _ => none
    counter := 0
    commits := [] }

/-- A program over the store. -/
abbrev StoreProgram (E A : Type) : Type :=
  Program FsObjectStore (Fault ObjectStoreError) E A

namespace FsObjectStore

def write (key : String) (body : List UInt8) (store : FsObjectStore) :
    FsObjectStore :=
  let objects := Function.update store.objects key (some body)
  { store with
    objects
    commits :=
      if key = manifestKey then store.commits ++ [objects]
      else store.commits }

@[simp]
theorem write_objects
    (key : String) (body : List UInt8) (store : FsObjectStore) :
    (store.write key body).objects =
      Function.update store.objects key (some body) := rfl

theorem write_commits {key : String} (notManifest : key ≠ manifestKey)
    (body : List UInt8) (store : FsObjectStore) :
    (store.write key body).commits = store.commits :=
  if_neg notManifest

theorem write_commits_manifest (body : List UInt8) (store : FsObjectStore) :
    (store.write manifestKey body).commits =
      store.commits ++
        [Function.update store.objects manifestKey (some body)] := by
  simp [write]

def setUpload (uploadId : Nat) (upload : Option Upload)
    (store : FsObjectStore) : FsObjectStore :=
  { store with uploads := Function.update store.uploads uploadId upload }

/-- The new staging directory with its target. -/
def createUpload (key : String) (store : FsObjectStore) : FsObjectStore :=
  { store.setUpload store.counter
      (some { target := key, parts := fun _ => none }) with
    counter := store.counter + 1 }

/-- `put`. -/
def put (key : String) (body : List UInt8) :
    StoreProgram ObjectStoreError Unit :=
  perform fun _ => {
    effects := [write key body]
    answer := .ok () }

/-- `get`. -/
def get (key : String) :
    StoreProgram ObjectStoreError (Option (List UInt8)) :=
  perform fun store => {
    effects := []
    answer := .ok (store.objects key) }

/-- `create_multipart`. -/
def createMultipart (key : String) : StoreProgram ObjectStoreError Nat :=
  perform fun store => {
    effects := [createUpload key]
    answer := .ok store.counter }

/-- `upload_part`: writes a file of the staging directory, which must be
there. -/
def uploadPart (text : ArchiveText) (uploadId : Nat) (partNumber : UInt32)
    (body : List UInt8) : StoreProgram ObjectStoreError PartId :=
  perform fun store =>
    match store.uploads uploadId with
    | none => { effects := [], answer := .error (.permanent "write part") }
    | some upload => {
        effects := [setUpload uploadId (some { upload with
          parts := Function.update upload.parts partNumber (some body) })]
        answer := .ok { partNumber, sha256Hex := text.sha256Hex body } }

def assemble (text : ArchiveText) (upload : Option Upload) :
    List PartId → Except ObjectStoreError (List UInt8)
  | [] => .ok []
  | part :: rest =>
      match upload.bind (·.parts part.partNumber) with
      | none => .error (.permanent "read part for completion")
      | some bytes =>
          if text.sha256Hex bytes ≠ part.sha256Hex then
            .error (.permanent s!"part {part.partNumber} failed its checksum")
          else
            (assemble text upload rest).map (bytes ++ ·)

/-- What a completion does: it writes the object, then clears the staging
directory. -/
def completion (text : ArchiveText) (key : String) (uploadId : Nat)
    (parts : List PartId) (store : FsObjectStore) :
    Operation FsObjectStore ObjectStoreError Unit :=
  match assemble text (store.uploads uploadId) parts with
  | .error failure => { effects := [], answer := .error failure }
  | .ok assembled => {
      effects := [write key assembled, setUpload uploadId none]
      answer :=
        if (store.uploads uploadId).isSome then .ok ()
        else .error (.permanent "clear completed upload") }

/-- `complete_multipart`. -/
def completeMultipart (text : ArchiveText) (key : String) (uploadId : Nat)
    (parts : List PartId) : StoreProgram ObjectStoreError Unit :=
  perform (completion text key uploadId parts)

/-- `abort_multipart`: an upload that is not there is no error. -/
def abortMultipart (uploadId : Nat) : StoreProgram ObjectStoreError Unit :=
  perform fun _ => {
    effects := [setUpload uploadId none]
    answer := .ok () }

/-- `list_pending_uploads`. -/
def listPendingUploads :
    StoreProgram ObjectStoreError (List PendingUpload) :=
  perform fun store => {
    effects := []
    answer := .ok ((List.range store.counter).filterMap fun uploadId =>
      (store.uploads uploadId).map fun upload =>
        { key := upload.target, uploadId }) }

end FsObjectStore

end Pmkit
