import Pmkit.Export.Codec
import Pmkit.Export.Declarations
import Pmkit.Library.JsonRead
import Pmkit.Library.Utf8

/-!
# The codec of exports

The encoder hashes the content, the decoder reads the content with its digest
and hashes what it has read.  A manifest has one content, and a content is of
one manifest, so that a digest stays with the fields it was computed from.
-/

namespace Pmkit

open JsonValue

namespace PortableMarketExport

structure Typed (manifest : PortableMarketExport) : Prop where
  schemaVersion : manifest.schemaVersion < 2 ^ 16
  segments : ∀ segment ∈ manifest.segments, segment.Typed

theorem recordFields_encoded (manifest : PortableMarketExport)
    (digest : String) :
    (manifest.encoded digest).recordFields ["schema_version", "coverage",
        "source_manifest_sha256", "segments", "artifact_sha256"] =
      some [("schema_version", .number manifest.schemaVersion),
        ("coverage", .string "observed"),
        ("source_manifest_sha256", .string manifest.sourceManifestSha256),
        ("segments", .array (manifest.segments.map PortableMarketSegment.json)),
        ("artifact_sha256", .string digest)] := by
  rw [encoded, recordFields, if_pos (by simp)]

theorem read_encoded {manifest : PortableMarketExport} (typed : manifest.Typed)
    (digest : String) :
    PortableMarketExport.read (manifest.encoded digest) =
      some { manifest with artifactSha256 := digest } := by
  have coverage : readCoverage (.string "observed") = some () := rfl
  have version : asUnsigned 16 (.number manifest.schemaVersion) =
      some manifest.schemaVersion :=
    asUnsigned_number typed.schemaVersion
  have segments : (manifest.segments.map PortableMarketSegment.json).mapM
      PortableMarketSegment.read = some manifest.segments :=
    (Fallible.mapM_map_eq_some fun segment mem =>
      PortableMarketSegment.read_json (typed.segments segment mem)).trans
        (congrArg some (List.map_id manifest.segments))
  rw [PortableMarketExport.read, recordFields_encoded]
  refine Option.bind_eq_some_iff.mpr ⟨_, rfl, ?_⟩
  refine Option.bind_eq_some_iff.mpr
    ⟨(), by simp [required_cons, coverage], ?_⟩
  refine Option.bind_eq_some_iff.mpr
    ⟨_, by rw [required_cons, if_pos rfl, version], ?_⟩
  refine Option.bind_eq_some_iff.mpr
    ⟨manifest.sourceManifestSha256, by simp [required_cons, asStr], ?_⟩
  refine Option.bind_eq_some_iff.mpr
    ⟨manifest.segments, by simp [required_cons, asArray, segments], ?_⟩
  exact Option.bind_eq_some_iff.mpr
    ⟨digest, by simp [required_cons, asStr], rfl⟩

theorem typed_of_read {value : JsonValue} {manifest : PortableMarketExport}
    (read : PortableMarketExport.read value = some manifest) :
    manifest.Typed := by
  unfold PortableMarketExport.read at read
  obtain ⟨fields, _, read⟩ := Option.bind_eq_some_iff.mp read
  obtain ⟨_, _, read⟩ := Option.bind_eq_some_iff.mp read
  obtain ⟨_, version, read⟩ := Option.bind_eq_some_iff.mp read
  obtain ⟨_, _, read⟩ := Option.bind_eq_some_iff.mp read
  obtain ⟨_, segments, read⟩ := Option.bind_eq_some_iff.mp read
  obtain ⟨_, _, read⟩ := Option.bind_eq_some_iff.mp read
  cases read
  constructor
  · obtain ⟨_, _, isVersion⟩ := Option.bind_eq_some_iff.mp version
    exact PortableMarketSegment.lt_of_asUnsigned isVersion
  · intro segment mem
    obtain ⟨_, _, isArray⟩ := Option.bind_eq_some_iff.mp segments
    obtain ⟨items, _, loop⟩ := Option.bind_eq_some_iff.mp isArray
    have among := List.mem_map_of_mem (f := some) mem
    rw [← Fallible.mapM_eq_some_iff.mp loop] at among
    obtain ⟨item, _, isSegment⟩ := List.mem_map.mp among
    exact PortableMarketSegment.typed_of_read isSegment

theorem eq_of_content
    {left right : PortableMarketExport} (leftTyped : left.Typed)
    (rightTyped : right.Typed) (content : left.content = right.content)
    (digest : left.artifactSha256 = right.artifactSha256) : left = right := by
  have encoded : left.encoded left.artifactSha256 =
      right.encoded right.artifactSha256 := by
    simp only [PortableMarketExport.content, object.injEq, List.cons.injEq,
      Prod.mk.injEq, true_and, and_true] at content
    simp only [PortableMarketExport.encoded, content, digest]
  have read := read_encoded leftTyped left.artifactSha256
  rw [encoded, read_encoded rightTyped right.artifactSha256] at read
  exact (Option.some.inj read).symm

end PortableMarketExport

/-! ## The library -/

/-- What the library has written of an export it reads back. -/
structure PortableText.RoundTripsExports (text : PortableText) : Prop where
  content : ∀ manifest : PortableMarketExport, manifest.Typed →
    text.readJson (textBytes (text.writeRecord manifest.content)) =
      some manifest.content
  encoded : ∀ (manifest : PortableMarketExport) digest, manifest.Typed →
    text.readJson (textBytes (text.writeRecord (manifest.encoded digest))) =
      some (manifest.encoded digest)

/-- The codec is canonical, and no field of an accepted manifest can be changed
under its digest, unless two contents have the same digest. -/
structure PortableText.Canonical (text : PortableText) : Prop where
  /-- An encoded manifest is decoded, and encoded to the same bytes. -/
  encoded : ∀ (manifest : PortableMarketExport) bytes, manifest.Typed →
    encodePortableMarketExport text manifest = .ok bytes →
      decodePortableMarketExport text bytes = .ok { manifest with
        artifactSha256 := text.sha256Hex (encodedContent text manifest) } ∧
      encodePortableMarketExport text { manifest with
        artifactSha256 := text.sha256Hex (encodedContent text manifest) } =
          .ok bytes
  /-- A decoded manifest is encoded, and decoded as the same one. -/
  decoded : ∀ bytes manifest,
    decodePortableMarketExport text bytes = .ok manifest →
      ∃ again, encodePortableMarketExport text manifest = .ok again ∧
        decodePortableMarketExport text again = .ok manifest
  /-- A manifest with other fields and the same digest is refused. -/
  tampered : ∀ bytes manifest (other : PortableMarketExport),
    decodePortableMarketExport text bytes = .ok manifest →
    (text.sha256Hex (encodedContent text other) =
        text.sha256Hex (encodedContent text manifest) →
      encodedContent text other = encodedContent text manifest) →
    other.Typed → other ≠ manifest →
    other.artifactSha256 = manifest.artifactSha256 →
      ∃ error, decodePortableMarketExport text (textBytes (text.writeRecord
        (other.encoded other.artifactSha256))) = .error error

section Codec

variable {text : PortableText}

variable {bytes : List UInt8}

theorem encodePortableMarketExport_eq_ok {manifest : PortableMarketExport} :
    encodePortableMarketExport text manifest = .ok bytes ↔
      validateContent manifest = .ok () ∧
        bytes = textBytes (text.writeRecord (manifest.encoded
          (text.sha256Hex (encodedContent text manifest)))) := by
  unfold encodePortableMarketExport
  cases valid : validateContent manifest with
  | error error => simp
  | ok _ => simp [eq_comm]

theorem decode_encode (reads : text.RoundTripsExports)
    (digests : ∀ bytes, isSha256 (text.sha256Hex bytes) = true)
    {manifest : PortableMarketExport}
    (typed : manifest.Typed)
    (encoded : encodePortableMarketExport text manifest = .ok bytes) :
    decodePortableMarketExport text bytes = .ok { manifest with
      artifactSha256 := text.sha256Hex (encodedContent text manifest) } := by
  obtain ⟨valid, rfl⟩ := encodePortableMarketExport_eq_ok.mp encoded
  refine decodePortableMarketExport_eq_ok.mpr ⟨?_, valid, digests _, rfl⟩
  rw [reads.encoded manifest _ typed, Option.bind_some,
    PortableMarketExport.read_encoded typed]

theorem typed_of_decoded {manifest : PortableMarketExport}
    (decoded : decodePortableMarketExport text bytes = .ok manifest) :
    manifest.Typed := by
  obtain ⟨read, _⟩ := decodePortableMarketExport_eq_ok.mp decoded
  obtain ⟨value, _, isManifest⟩ := Option.bind_eq_some_iff.mp read
  exact PortableMarketExport.typed_of_read isManifest

/-- Contents of the same bytes are of the same manifest. -/
theorem eq_of_encodedContent
    (reads : text.RoundTripsExports) {left right : PortableMarketExport}
    (leftTyped : left.Typed) (rightTyped : right.Typed)
    (same : encodedContent text left = encodedContent text right)
    (digest : left.artifactSha256 = right.artifactSha256) : left = right := by
  have content := reads.content left leftTyped
  rw [← encodedContent, same, encodedContent, reads.content right rightTyped]
    at content
  exact PortableMarketExport.eq_of_content leftTyped rightTyped
    (Option.some.inj content).symm digest

end Codec

namespace CodecSample

open JsonRead

variable {realText : UInt64 → String}
  {arrange : List (String × List Char) → List (String × List Char)}

theorem readableItems_iff {items : List JsonValue} :
    ReadableItems realText arrange items ↔
      ∀ item ∈ items, JsonRead.Readable realText arrange item := by
  induction items with
  | nil => simp [ReadableItems]
  | cons item rest ih =>
      rw [ReadableItems, ih, List.forall_mem_cons]

theorem readableFields_iff {fields : List (String × JsonValue)} :
    ReadableFields realText arrange fields ↔
      ∀ field ∈ fields, JsonRead.Readable realText arrange field.2 := by
  induction fields with
  | nil => simp [ReadableFields]
  | cons field rest ih =>
      rw [ReadableFields, ih, List.forall_mem_cons]

theorem readable_orNull {A : Type} {write : A → JsonValue}
    (each : ∀ item, JsonRead.Readable realText arrange (write item))
    (value : Option A) :
    JsonRead.Readable realText arrange (orNull (value.map write)) := by
  cases value with
  | none => trivial
  | some item => exact each item

theorem readable_skipNone {A : Type} {write : A → JsonValue}
    (each : ∀ item, JsonRead.Readable realText arrange (write item))
    (name : String) (value : Option A) :
    ∀ field ∈ skipNone name (value.map write),
      JsonRead.Readable realText arrange field.2 := by
  intro field mem
  obtain ⟨_, written⟩ := PortableMarketSegment.mem_skipNone.mp mem
  obtain ⟨item, _, same⟩ := Option.map_eq_some_iff.mp written
  exact same ▸ each item

theorem readable_tokens (tokens : List PortableOutcomeToken) :
    JsonRead.Readable realText id
      (.array (tokens.map PortableOutcomeToken.json)) := by
  refine readableItems_iff.mpr ?_
  intro item mem
  obtain ⟨token, _, rfl⟩ := List.mem_map.mp mem
  exact ⟨rfl, trivial, trivial, trivial⟩

theorem readable_segment (segment : PortableMarketSegment) :
    JsonRead.Readable realText id segment.json := by
  refine ⟨rfl, readableFields_iff.mpr ?_⟩
  have text : ∀ value : String, JsonRead.Readable realText id (.string value) :=
    fun _ => trivial
  have number : ∀ value : Int, JsonRead.Readable realText id (.number value) :=
    fun _ => trivial
  simp only [List.forall_mem_append, List.forall_mem_cons, text, number,
    readable_orNull, readable_tokens, implies_true, true_and, and_true,
    List.not_mem_nil, IsEmpty.forall_iff]
  exact ⟨⟨readable_skipNone text _ _, readable_skipNone number _ _⟩,
    readable_skipNone number _ _⟩

theorem readable_manifest (manifest : PortableMarketExport) (digest : String) :
    JsonRead.Readable realText id manifest.content ∧
      JsonRead.Readable realText id (manifest.encoded digest) := by
  have segments : JsonRead.Readable realText id
      (.array (manifest.segments.map PortableMarketSegment.json)) := by
    refine readableItems_iff.mpr ?_
    intro item mem
    obtain ⟨segment, _, rfl⟩ := List.mem_map.mp mem
    exact readable_segment segment
  exact ⟨⟨rfl, trivial, trivial, trivial, segments, trivial⟩,
    ⟨rfl, trivial, trivial, trivial, segments, trivial, trivial⟩⟩

/-- The library of compact texts, with a digest of the right form. -/
def text : PortableText where
  sha256Hex := fun _ =>
    "e3b0c44298fc1c149afbf4c8996fb92427ae41e4649b934ca495991b7852b855"
  writeJson := ExportSample.value
  parseJson := fun _ => none
  toLowercase := String.toLower
  toLowercase_display := toLower_display
  writeRecord := ExportSample.record
  readJson := fun bytes =>
    (Utf8.decode bytes).bind fun text => parse text.toList

theorem readJson_record
    {value : JsonValue} (readable : JsonRead.Readable toString id value) :
    text.readJson (textBytes (ExportSample.record value)) = some value := by
  have bytes : Utf8.decode (textBytes (ExportSample.record value)) =
      some (ExportSample.record value) :=
    Utf8.decode_bytes _
  have read := @parse_characters _ _ _ readable [] (by simp)
  rw [List.append_nil] at read
  simp only [text]
  rw [bytes, Option.bind_some, ExportSample.record, compact,
    String.toList_ofList, read]

theorem roundTrips : text.RoundTripsExports where
  content := fun manifest _ =>
    readJson_record (readable_manifest manifest "").1
  encoded := fun manifest digest _ =>
    readJson_record (readable_manifest manifest digest).2

/-- The manifest of a day without records, as it is declared. -/
def manifest : PortableMarketExport where
  schemaVersion := portableMarketExportVersion
  sourceManifestSha256 := ExportSample.documentDigest
  segments := []
  artifactSha256 := ""

end CodecSample

end Pmkit
