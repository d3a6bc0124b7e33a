import Pmkit.Export.Segments
import Pmkit.Library.JsonText

/-!
# An export and its decoder

The exporter hashes its manifest as a JSON value, whose fields the library
sorts by name; the decoder hashes the same content as a record, whose fields
stand as they are declared.  The two texts already differ in their first field,
so the digest that the exporter stores is never the one the decoder computes.
-/

namespace Pmkit

open JsonValue

/-- The fields of the content, sorted by name. -/
theorem exportContent_eq (sourceManifestSha256 : String)
    (declared : List JsonValue) :
    exportContent sourceManifestSha256 declared =
      .object
        [("coverage", .string "observed"),
          ("schema_version", .number portableMarketExportVersion),
          ("segments", .array declared),
          ("source_manifest_sha256", .string sourceManifestSha256)] := by
  have first : compare "coverage" "schema_version" = .lt := by decide
  have second : compare "source_manifest_sha256" "coverage" = .gt := by decide
  have third : compare "source_manifest_sha256" "schema_version" = .gt := by
    decide
  have fourth : compare "segments" "coverage" = .gt := by decide
  have fifth : compare "segments" "schema_version" = .gt := by decide
  have sixth : compare "segments" "source_manifest_sha256" = .lt := by decide
  simp [exportContent, ofFields, insertField, first, second, third, fourth,
    fifth, sixth]

/-- The manifest has its digest as the first field. -/
theorem withArtifactSha256_exportContent (text : PortableText)
    (sourceManifestSha256 : String) (declared : List JsonValue) :
    ∃ rest, withArtifactSha256 text
        (exportContent sourceManifestSha256 declared) =
      .object (("artifact_sha256", .string (digestJson text
        (exportContent sourceManifestSha256 declared))) :: rest) := by
  have first : compare "artifact_sha256" "coverage" = .lt := by decide
  simp only [withArtifactSha256, exportContent_eq, JsonValue.insert,
    insertField, first]
  exact ⟨_, rfl⟩

theorem PortableMarketExport.artifactSha256_of_read
    {digest : String} {rest : List (String × JsonValue)}
    {manifest : PortableMarketExport}
    (read : PortableMarketExport.read
      (.object (("artifact_sha256", .string digest) :: rest)) =
        some manifest) :
    manifest.artifactSha256 = digest := by
  unfold PortableMarketExport.read at read
  simp only [Option.bind_eq_bind, Option.bind_eq_some_iff] at read
  obtain ⟨fields, named, _, _, _, _, _, _, _, _, found, digestRead, built⟩ := read
  rw [recordFields_object named] at digestRead
  cases built
  simpa [required, asStr] using digestRead.symm

/-- Two texts that start with different plain names differ. -/
theorem firstName_ne {left right : String} {leftRest rightRest : String}
    (ne : left.toList.head? ≠ right.toList.head?)
    (leftFilled : left.toList ≠ []) (rightFilled : right.toList ≠ []) :
    "\x7b\"" ++ left ++ "\":" ++ leftRest ≠
      "\x7b\"" ++ right ++ "\":" ++ rightRest := by
  intro same
  have characters := congrArg String.toList same
  simp only [String.toList_append] at characters
  cases leftText : left.toList with
  | nil => exact leftFilled leftText
  | cons leftHead leftTail =>
      cases rightText : right.toList with
      | nil => exact rightFilled rightText
      | cons rightHead rightTail =>
          rw [leftText, rightText] at characters ne
          simp at characters
          exact ne (by simp [characters.1])

theorem writeJson_ne_writeRecord
    {text : PortableText} (ordered : text.OrdersFields)
    (sourceManifestSha256 : String) (declared : List JsonValue)
    (manifest : PortableMarketExport) :
    text.writeRecord manifest.content ≠
      text.writeJson (exportContent sourceManifestSha256 declared) := by
  intro same
  obtain ⟨recordRest, record⟩ := ordered.record "schema_version"
    (.number manifest.schemaVersion)
    [("coverage", .string "observed"),
      ("source_manifest_sha256", .string manifest.sourceManifestSha256),
      ("segments", .array (manifest.segments.map PortableMarketSegment.json))]
    (by decide)
  obtain ⟨valueRest, value⟩ := ordered.value "coverage" (.string "observed")
    [("schema_version", .number portableMarketExportVersion),
      ("segments", .array declared),
      ("source_manifest_sha256", .string sourceManifestSha256)]
    (by decide) (by
      intro other mem
      simp only [List.mem_cons, List.not_mem_nil, or_false] at mem
      rcases mem with rfl | rfl | rfl
      · show compare "coverage" "schema_version" = .lt
        decide
      · show compare "coverage" "segments" = .lt
        decide
      · show compare "coverage" "source_manifest_sha256" = .lt
        decide)
  rw [exportContent_eq, value, PortableMarketExport.content, record] at same
  exact firstName_ne (by decide) (by decide) (by decide) same

def PortableText.CollisionFreeAt (text : PortableText) (bytes : List UInt8) :
    Prop :=
  ∀ other, text.sha256Hex other = text.sha256Hex bytes → other = bytes

/-- The bodies of an export under the ids of its declarations. -/
def MaterializedMarketSegments.artifacts
    (materialized : MaterializedMarketSegments) :
    List PortableMarketArtifact :=
  materialized.segments.map fun segment =>
    { segmentId := ((segment.1.get "segment_id").bind asStr).getD ""
      bytes := segment.2 }

/-- The decoder takes the manifest, with the declared segments, and the bodies
pass against it. -/
def ReadsBack (text : PortableText)
    (materialized : MaterializedMarketSegments) : Prop :=
  ∃ manifest, decodePortableMarketExport text
      (textBytes (text.writeJson materialized.manifest)) = .ok manifest ∧
    (materialized.segments.map Prod.fst).mapM PortableMarketSegment.read =
      some manifest.segments ∧
    validatePortableMarketExportArtifacts text manifest
      materialized.artifacts = .ok ()

theorem decodePortableMarketExport_eq_ok
    {text : PortableText} {bytes : List UInt8}
    {manifest : PortableMarketExport} :
    decodePortableMarketExport text bytes = .ok manifest ↔
      (text.readJson bytes).bind PortableMarketExport.read = some manifest ∧
        validateContent manifest = .ok () ∧
        isSha256 manifest.artifactSha256 = true ∧
        text.sha256Hex (encodedContent text manifest) =
          manifest.artifactSha256 := by
  constructor
  · intro decoded
    unfold decodePortableMarketExport at decoded
    split at decoded
    · cases decoded
    · rename_i found read
      split at decoded
      · cases decoded
      · rename_i valid
        split at decoded
        · cases decoded
        · rename_i isDigest
          split at decoded
          · cases decoded
          · rename_i same
            cases decoded
            exact ⟨read, valid, eq_true_of_ne_false isDigest, not_not.mp same⟩
  · rintro ⟨read, valid, isDigest, same⟩
    simp [decodePortableMarketExport, read, valid, isDigest, same]

theorem exportMarketSegments_manifest
    {text : PortableText} {store : MarketStore} {scope : OwnerScope}
    {manifest : SealedClosedDayManifest}
    {materialized : MaterializedMarketSegments}
    (exported : exportMarketSegmentsWithArtifacts text store scope manifest =
      .ok materialized) :
    materialized.manifest = withArtifactSha256 text
      (exportContent (digestJson text manifest.document)
        (materialized.segments.map Prod.fst)) := by
  unfold exportMarketSegmentsWithArtifacts at exported
  split at exported
  · cases exported
  · split at exported
    · cases exported
    · simp only at exported
      split at exported
      · cases exported
      · cases exported
        rfl

theorem not_readsBack
    {text : PortableText} {materialized : MaterializedMarketSegments}
    {sourceManifestSha256 : String} {declared : List JsonValue}
    (ordered : text.OrdersFields)
    (collisionFree : text.CollisionFreeAt (textBytes (text.writeJson
      (exportContent sourceManifestSha256 declared))))
    (readBack : text.readJson
        (textBytes (text.writeJson materialized.manifest)) =
      some materialized.manifest)
    (written : materialized.manifest = withArtifactSha256 text
      (exportContent sourceManifestSha256 declared)) :
    ¬ ReadsBack text materialized := by
  rintro ⟨decodedManifest, decoded, _, _⟩
  obtain ⟨read, _, _, digest⟩ :=
    decodePortableMarketExport_eq_ok.mp decoded
  obtain ⟨rest, shape⟩ := withArtifactSha256_exportContent text
    sourceManifestSha256 declared
  rw [readBack, Option.bind_some, written, shape] at read
  rw [PortableMarketExport.artifactSha256_of_read read] at digest
  have bytes := collisionFree _ digest
  exact writeJson_ne_writeRecord ordered _ _ decodedManifest
    (textBytes_injective bytes)

/-- Whatever is exported, the decoder does not take the manifest. -/
theorem export_not_readsBack
    (text : PortableText) (store : MarketStore) (scope : OwnerScope)
    (manifest : SealedClosedDayManifest)
    (materialized : MaterializedMarketSegments)
    (ordered : text.OrdersFields)
    (collisionFree : text.CollisionFreeAt (textBytes (text.writeJson
      (exportContent (digestJson text manifest.document)
        (materialized.segments.map Prod.fst)))))
    (readBack : text.readJson
        (textBytes (text.writeJson materialized.manifest)) =
      some materialized.manifest)
    (exported : exportMarketSegmentsWithArtifacts text store scope manifest =
      .ok materialized) :
    ¬ ReadsBack text materialized :=
  not_readsBack ordered collisionFree readBack
    (exportMarketSegments_manifest exported)

/-! ## A day without records -/

namespace ExportSample

def value (json : JsonValue) : String :=
  compact toString sortFields json

def record (json : JsonValue) : String :=
  compact toString id json

def document : JsonValue :=
  .object
    [("day", .string "1970-01-01"), ("day_seal", .string "sealed"),
      ("version", .number 2)]

def sealedDay : SealedClosedDayManifest where
  document := document
  schemaVersion := 2
  closedDay := "1970-01-01"
  startTimeMs := 0
  endTimeMs := 86399999

def documentDigest : String :=
  "3c5dba19299c305801f1e6e3ddcb519c2abe68f44b2c8699e11b2e4a3d6c3426"

def contentDigest : String :=
  "a65aa1ab26bbebadd58726418dcf30095388bf8dc23f660783ec91b83c5fa1d6"

def content : JsonValue :=
  exportContent documentDigest []

def manifest : JsonValue :=
  content.insert "artifact_sha256" (.string contentDigest)

def text : PortableText where
  sha256Hex := fun bytes =>
    if bytes = textBytes (value content) then
      contentDigest
    else if bytes = textBytes (value document) then
      documentDigest
    else
      ""
  writeJson := value
  parseJson := fun _ => none
  toLowercase := String.toLower
  toLowercase_display := toLower_display
  writeRecord := record
  readJson := fun bytes =>
    if bytes = textBytes (value manifest) then some manifest else none

def scope : OwnerScope where
  portfolioId := ⟨"research", by decide⟩
  runId := ⟨"baseline", by decide⟩

def store : MarketStore where
  envelopes := .empty
  gaps := .empty

def materialized : MaterializedMarketSegments where
  manifest := manifest
  segments := []

theorem text_ordersFields : text.OrdersFields where
  value := by
    intro name value rest plain least
    exact compact_object_of_head
      (fun letter mem => escapeChar_of_plain
        (by simpa using List.all_eq_true.mp plain letter mem))
      (head?_sortFields least)
  record := by
    intro name value rest plain
    exact compact_object_of_head
      (fun letter mem => escapeChar_of_plain
        (by simpa using List.all_eq_true.mp plain letter mem))
      rfl

/-- The sealed day and the content of its export have different texts. -/
theorem value_document_ne : value document ≠ value content := by
  obtain ⟨dayRest, day⟩ := text_ordersFields.value "day"
    (.string "1970-01-01")
    [("day_seal", .string "sealed"), ("version", .number 2)] (by decide)
    (by decide)
  obtain ⟨coverageRest, coverage⟩ := text_ordersFields.value "coverage"
    (.string "observed")
    [("schema_version", .number portableMarketExportVersion),
      ("segments", .array []),
      ("source_manifest_sha256", .string documentDigest)]
    (by decide) (by decide)
  intro same
  rw [content, exportContent_eq] at same
  exact firstName_ne (by decide) (by decide) (by decide)
    (day.symm.trans (same.trans coverage))

theorem sha256Hex_content :
    text.sha256Hex (textBytes (value content)) = contentDigest := by
  simp only [text, if_true]

theorem sha256Hex_document :
    text.sha256Hex (textBytes (value document)) = documentDigest := by
  have ne : textBytes (value document) ≠ textBytes (value content) :=
    fun same => value_document_ne (textBytes_injective same)
  simp only [text, if_neg ne, if_true]

theorem collisionFreeAt_content :
    text.CollisionFreeAt (textBytes (value content)) := by
  intro other same
  rw [sha256Hex_content] at same
  have documentDiffers : documentDigest ≠ contentDigest := by
    decide
  have noneDiffers : "" ≠ contentDigest := by
    decide
  simp only [text] at same
  split at same
  · assumption
  · split at same
    · exact absurd same documentDiffers
    · exact absurd same noneDiffers

theorem readJson_manifest :
    text.readJson (textBytes (value manifest)) = some manifest := by
  simp only [text, if_true]

theorem withArtifactSha256_content :
    withArtifactSha256 text content = manifest := by
  have digest : digestJson text content = contentDigest :=
    sha256Hex_content
  rw [withArtifactSha256, digest, manifest]

theorem export_eq :
    exportMarketSegmentsWithArtifacts text store scope sealedDay =
      .ok materialized := by
  have collected : collectSegments text store scope sealedDay = .ok [] :=
    rfl
  have gapFree : ensureGapFreeSegments store scope [] = .ok () :=
    rfl
  have sealedDigest : digestJson text sealedDay.document = documentDigest :=
    sha256Hex_document
  rw [exportMarketSegmentsWithArtifacts, collected]
  simp only [gapFree, materializeGroups, sealedDigest, List.map_nil]
  rw [← content, withArtifactSha256_content, materialized]

end ExportSample

theorem export_not_readsBack_emptyDay :
    ¬ ReadsBack ExportSample.text ExportSample.materialized := by
  have collisionFree : ExportSample.text.CollisionFreeAt
      (textBytes (ExportSample.text.writeJson (exportContent
        (digestJson ExportSample.text ExportSample.sealedDay.document)
        (ExportSample.materialized.segments.map Prod.fst)))) := by
    have digest : digestJson ExportSample.text
        ExportSample.sealedDay.document = ExportSample.documentDigest :=
      ExportSample.sha256Hex_document
    rw [digest]
    exact ExportSample.collisionFreeAt_content
  exact export_not_readsBack ExportSample.text ExportSample.store
    ExportSample.scope ExportSample.sealedDay ExportSample.materialized
    ExportSample.text_ordersFields collisionFree
    ExportSample.readJson_manifest ExportSample.export_eq

/-- The export of a day without records succeeds, and its manifest is
refused. -/
theorem emptyDay_exported_not_readsBack :
    exportMarketSegmentsWithArtifacts ExportSample.text ExportSample.store
        ExportSample.scope ExportSample.sealedDay =
      .ok ExportSample.materialized ∧
    ¬ ReadsBack ExportSample.text ExportSample.materialized :=
  ⟨ExportSample.export_eq,
    not_readsBack ExportSample.text_ordersFields
      ExportSample.collisionFreeAt_content ExportSample.readJson_manifest
      ExportSample.withArtifactSha256_content.symm⟩

end Pmkit
