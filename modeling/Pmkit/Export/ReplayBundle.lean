import Pmkit.Export.Segments
import Pmkit.Library.Fallible
import Pmkit.Library.JsonText
import Pmkit.Library.KeyedMap

/-!
# Replay bundles

A bundle is one JSON document with every envelope of a scope in replay order
and every causal decision.  An envelope that fails its check, or whose frame is
no text, fails the export.
-/

namespace Pmkit

open MachineInt JsonValue

/-- A row of `causal_decisions`. -/
structure DecisionRow where
  identity : CausalIdentity
  schemaVersion : Int
  payloadJson : String
  deriving DecidableEq

/-- `CAUSAL_DECISION_SCHEMA_VERSION`. -/
def causalDecisionSchemaVersion : Int := 2

inductive BundleError where
  | store (source : TapeStoreError)
  | unsupportedRecordSchemaVersion (recordType : String)
      (schemaVersion maxSupportedVersion : Int)
  deriving DecidableEq

/-- The libraries of an export: the texts of the store, and the message for a
text that is no JSON. -/
structure BundleText extends PortableText where
  jsonError : String → String

namespace DecisionRow

/-- The values `store_decision` binds. -/
def ofDecision (text : StoreText) (decision : CausalDecision JsonValue) :
    DecisionRow where
  identity := decision.identity
  schemaVersion := causalDecisionSchemaVersion
  payloadJson := text.writeJson decision.payload

/-- The loop body of `read_decisions`. -/
def read (text : BundleText) (row : DecisionRow) :
    Except BundleError (CausalDecision JsonValue) :=
  if row.schemaVersion ≠ causalDecisionSchemaVersion then
    .error (.unsupportedRecordSchemaVersion "causal_decisions"
      row.schemaVersion causalDecisionSchemaVersion)
  else
    match text.parseJson row.payloadJson with
    | none => .error (.store (.storage (text.jsonError row.payloadJson)))
    | some payload => .ok ⟨row.identity, payload⟩

/-- The `ORDER BY` of `READ_DECISIONS`. -/
def cmp : DecisionRow → DecisionRow → Ordering :=
  compareLex (compareOn fun row => row.identity.sourceTimestampMs)
    (compareOn fun row => row.identity.ingestSequence)

/-- `read_decisions`.  Rows that tie come in any order. -/
def readAll (text : BundleText) (ties : IterationOrder DecisionRow)
    (rows : List DecisionRow) (scope : OwnerScope) :
    Except BundleError (List (CausalDecision JsonValue)) :=
  (Table.orderBy cmp (ties.arrange
    (rows.filter fun row => row.identity.scope = scope))).mapM (read text)

end DecisionRow

/-! ## Evidence -/

structure BundleStore where
  envelopes : EnvelopeTable
  gaps : ReplayGapTable
  decisions : List DecisionRow

/-- `String::from_utf8`. -/
def frameText (rawFrame : List UInt8) : Option String :=
  String.fromUTF8? ⟨rawFrame.toArray⟩

/-- An entry of `pm_evidence`. -/
def evidenceJson (envelope : PmEnvelope) (rawFrame : String) : JsonValue :=
  .ofFields
    [("source_id", .string envelope.sourceId),
      ("connection_id", .string envelope.connectionId),
      ("source_timestamp_ms", .number envelope.sourceTimestampMs.1),
      ("canonical_source_rank", .number envelope.canonicalSourceRank.1),
      ("connection_epoch", .number envelope.connectionEpoch.1),
      ("frame_sequence", .number envelope.frameSequence.1),
      ("ingest_sequence", .number envelope.ingestSequence.1),
      ("raw_frame", .string rawFrame),
      ("normalized", envelope.normalized)]

def bundleItem : ReplayItem → Except BundleError JsonValue
  | .envelope envelope =>
      match frameText envelope.rawFrame with
      | none =>
          .error (.store (.storage
            "replay bundle raw frame is not valid UTF-8"))
      | some rawFrame => .ok (evidenceJson envelope rawFrame)
  | .gap gap =>
      .error (.store (.storage
        ("replay bundle evidence gap at source_timestamp_ms " ++
          toString gap.sourceTimestampMs.1 ++ " ingest_sequence " ++
          toString gap.ingestSequence.1 ++ ": " ++ gap.reason.debug)))

/-- An entry of `decisions`. -/
def decisionJson (decision : CausalDecision JsonValue) : JsonValue :=
  .ofFields
    [("correlation_id", .string decision.identity.correlationId),
      ("source_timestamp_ms", .number decision.identity.sourceTimestampMs.1),
      ("ingest_sequence", .number decision.identity.ingestSequence.1),
      ("payload", decision.payload)]

structure CacheChecksum where
  key : String
  sha256Hex : String
  deriving DecidableEq

def checksumJson (checksum : CacheChecksum) : JsonValue :=
  .ofFields
    [("key", .string checksum.key),
      ("sha256_hex", .string checksum.sha256Hex)]

/-- `REPLAY_BUNDLE_VERSION`. -/
def replayBundleVersion : UInt16 := 1

def bundleContent (scope : OwnerScope) (manifest : JsonValue)
    (evidence : List JsonValue) (decisions : List (CausalDecision JsonValue))
    (cacheChecksums : List CacheChecksum) : JsonValue :=
  .ofFields
    [("schema_version", .number replayBundleVersion.toNat),
      ("coverage", .string "observed"),
      ("scope", .ofFields
        [("portfolio", .string scope.portfolioId.value),
          ("run", .string scope.runId.value)]),
      ("manifest", manifest),
      ("pm_evidence", .array evidence),
      ("decisions", .array (decisions.map decisionJson)),
      ("cache_checksums", .array (cacheChecksums.map checksumJson))]

/-- The loop over the pages. -/
def collectEvidence (text : BundleText) (store : BundleStore)
    (scope : OwnerScope) : Except BundleError (List JsonValue) :=
  store.envelopes.forAll text.toStoreText scope exportPageSize
    (fun _ => .store)
    (fun evidence item =>
      (bundleItem item).map fun entry => evidence ++ [entry]) []

/-- `export_replay_bundle`. -/
def exportReplayBundle (text : BundleText) (ties : IterationOrder DecisionRow)
    (store : BundleStore) (scope : OwnerScope) (manifest : JsonValue)
    (cacheChecksums : List CacheChecksum) : Except BundleError JsonValue :=
  match collectEvidence text store scope with
  | .error error => .error error
  | .ok evidence =>
      match DecisionRow.readAll text ties store.decisions scope with
      | .error error => .error error
      | .ok decisions =>
          .ok (withArtifactSha256 text.toPortableText
            (bundleContent scope manifest evidence decisions cacheChecksums))

def EnvelopeRow.Exports (text : StoreText) (row : EnvelopeRow) : Prop :=
  ∃ envelope, decodeRow text row = .envelope envelope ∧
    ∃ rawFrame, frameText envelope.rawFrame = some rawFrame

/-- Every envelope and every decision of the scope is in the bundle once, the
envelopes in replay order. -/
structure ListsAll (text : BundleText) (store : BundleStore)
    (scope : OwnerScope) (decisions : List (CausalDecision JsonValue))
    (bundle : JsonValue) : Prop where
  evidence : ∃ (rows : List EnvelopeRow) (entries : List JsonValue),
    rows.Perm (store.envelopes.rows.filter fun row => row.scope = scope) ∧
    (rows.Pairwise fun left right =>
      ReplayKey.cmp left.key right.key = .lt) ∧
    List.Forall₂ (fun row entry =>
      bundleItem (decodeRow text.toStoreText row) = .ok entry) rows entries ∧
    bundle.get "pm_evidence" = some (.array entries)
  decisions : ∃ listed : List (CausalDecision JsonValue),
    listed.Perm (decisions.filter fun decision =>
      decision.identity.scope = scope) ∧
    bundle.get "decisions" = some (.array (listed.map decisionJson))

/-- An export succeeds just when no gap interval is stored and every envelope
can be exported, and then it lists everything. -/
structure FailsClosed (text : BundleText) (ties : IterationOrder DecisionRow)
    (store : BundleStore) (scope : OwnerScope) (manifest : JsonValue)
    (cacheChecksums : List CacheChecksum)
    (decisions : List (CausalDecision JsonValue)) : Prop where
  exact : (exportReplayBundle text ties store scope manifest
      cacheChecksums).isOk = true ↔
    (∀ row ∈ store.gaps.rows, row.scope ≠ scope) ∧
      ∀ row ∈ store.envelopes.rows, row.scope = scope →
        row.Exports text.toStoreText
  complete : ∀ bundle, exportReplayBundle text ties store scope manifest
      cacheChecksums = .ok bundle →
    ListsAll text store scope decisions bundle

section Bundles

variable {text : BundleText} {ties : IterationOrder DecisionRow}
  {store : BundleStore} {scope : OwnerScope} {manifest : JsonValue}
  {cacheChecksums : List CacheChecksum}
  {decisions : List (CausalDecision JsonValue)}

theorem EnvelopeRow.exports_iff {row : EnvelopeRow} :
    row.Exports text.toStoreText ↔
      (bundleItem (decodeRow text.toStoreText row)).isOk = true := by
  unfold EnvelopeRow.Exports bundleItem
  cases decodeRow text.toStoreText row with
  | gap gap =>
      constructor
      · rintro ⟨_, no, _⟩
        cases no
      · intro no
        cases no
  | envelope envelope =>
      cases framed : frameText envelope.rawFrame with
      | none =>
          constructor
          · rintro ⟨_, ⟨⟩, _, found⟩
            rw [framed] at found
            cases found
          · simp [framed, Except.isOk, Except.toBool]
      | some rawFrame =>
          simp [framed, Except.isOk, Except.toBool]

theorem collectEvidence_eq :
    collectEvidence text store scope =
      ((store.envelopes.scopeRows scope).map
        (decodeRow text.toStoreText)).mapM bundleItem := by
  rw [collectEvidence, EnvelopeTable.forAll_eq (by decide),
    Fallible.foldlM_collect]
  cases List.mapM bundleItem ((store.envelopes.scopeRows scope).map
      (decodeRow text.toStoreText)) with
  | error error => rfl
  | ok entries => rfl

theorem mem_scopeRows {row : EnvelopeRow} :
    row ∈ store.envelopes.scopeRows scope ↔
      row ∈ store.envelopes.rows ∧ row.scope = scope := by
  rw [EnvelopeTable.scopeRows, Table.mem_orderBy, List.mem_filter,
    decide_eq_true_eq]

theorem isOk_collectEvidence_iff :
    (collectEvidence text store scope).isOk = true ↔
      ∀ row ∈ store.envelopes.rows, row.scope = scope →
        row.Exports text.toStoreText := by
  rw [collectEvidence_eq, Fallible.isOk_mapM_iff, List.forall_mem_map]
  constructor
  · intro each row mem same
    exact EnvelopeRow.exports_iff.mpr
      (each row (mem_scopeRows.mpr ⟨mem, same⟩))
  · intro each row mem
    obtain ⟨stored, same⟩ := mem_scopeRows.mp mem
    exact EnvelopeRow.exports_iff.mp (each row stored same)

section Decisions

variable
  (written : store.decisions = decisions.map (.ofDecision text.toStoreText))
  (reads : ∀ decision ∈ decisions,
    text.parseJson (text.writeJson decision.payload) = some decision.payload)

include written reads

/-- Decisions that the store wrote are read back, each once. -/
theorem readAll_eq_ok :
    ∃ listed, DecisionRow.readAll text ties store.decisions scope =
        .ok listed ∧
      listed.Perm (decisions.filter fun decision =>
        decision.identity.scope = scope) := by
  let decision := fun row : DecisionRow =>
    (⟨row.identity, (text.parseJson row.payloadJson).getD .null⟩ :
      CausalDecision JsonValue)
  have readBack : ∀ stored ∈ decisions,
      decision (.ofDecision text.toStoreText stored) = stored := by
    intro stored mem
    simp [decision, DecisionRow.ofDecision, reads stored mem]
  have own : store.decisions.filter (fun row => row.identity.scope = scope) =
      (decisions.filter fun stored => stored.identity.scope = scope).map
        (.ofDecision text.toStoreText) := by
    rw [written, List.filter_map]
    rfl
  have rows := (Table.orderBy_perm DecisionRow.cmp _).trans (ties.perm
    (store.decisions.filter fun row => row.identity.scope = scope))
  rw [own] at rows
  refine ⟨_, @Fallible.mapM_eq_ok _ _ _ _ decision _ ?_, ?_⟩
  · intro row mem
    rw [own] at mem
    obtain ⟨stored, inside, rfl⟩ := List.mem_map.mp (rows.mem_iff.mp mem)
    have here := reads stored (List.mem_of_mem_filter inside)
    simp only [DecisionRow.read, DecisionRow.ofDecision, here, decision]
    rfl
  · rw [own]
    refine (rows.map decision).trans ?_
    rw [List.map_map]
    refine List.Perm.of_eq ?_
    calc _ = (decisions.filter fun stored =>
        stored.identity.scope = scope).map id :=
          List.map_congr_left fun stored mem =>
            readBack stored (List.mem_of_mem_filter mem)
      _ = _ := List.map_id _

/-- With readable decisions an export succeeds just when its evidence is
read. -/
theorem isOk_exportReplayBundle_iff :
    (exportReplayBundle text ties store scope manifest
        cacheChecksums).isOk = true ↔
      (collectEvidence text store scope).isOk = true := by
  obtain ⟨listed, read, _⟩ := @readAll_eq_ok text ties store scope decisions
    written reads
  rw [exportReplayBundle]
  cases collectEvidence text store scope with
  | error error => rfl
  | ok evidence =>
      dsimp only
      rw [read]
      rfl

theorem listsAll_of_export {bundle : JsonValue}
    (exported : exportReplayBundle text ties store scope manifest
      cacheChecksums = .ok bundle) :
    ListsAll text store scope decisions bundle := by
  obtain ⟨listed, read, each⟩ := @readAll_eq_ok text ties store scope decisions
    written reads
  rw [exportReplayBundle] at exported
  cases collected : collectEvidence text store scope with
  | error error =>
      rw [collected] at exported
      cases exported
  | ok evidence =>
      rw [collected] at exported
      dsimp only at exported
      rw [read] at exported
      cases exported
      rw [collectEvidence_eq] at collected
      have entries := List.forall₂_map_left_iff.mp
        (Fallible.forall₂_of_mapM collected)
      refine ⟨⟨_, evidence, Table.orderBy_perm _ _,
        EnvelopeTable.scopeRows_pairwise scope, entries, ?_⟩, listed, each, ?_⟩
      · simp [withArtifactSha256, bundleContent, get_ofFields, List.lookup_cons]
      · simp [withArtifactSha256, bundleContent, get_ofFields, List.lookup_cons]

end Decisions

end Bundles

namespace BundleSample

def value (json : JsonValue) : String :=
  compact toString sortFields json

def owner : OwnerScope where
  portfolioId := ⟨"bundle-owner", by decide⟩
  runId := ⟨"bundle-run", by decide⟩

/-- The recorder was down for a minute. -/
def outage : ReplayGapInterval where
  scope := owner
  partition := "all_subscribed"
  discoverySnapshotSha256 := none
  startTimeMs := 60000
  endTimeMs := some 119999
  reason := "disconnect"

def store : BundleStore where
  envelopes := .empty
  gaps := ReplayGapTable.empty.storeReplayGap outage
  decisions := []

def content : JsonValue :=
  bundleContent owner (.object []) [] [] []

def text : BundleText where
  sha256Hex := fun bytes =>
    if bytes = textBytes (value content) then
      "3dd00ba5a7ddcad7a6df628a1acfb4f21c0546dad6074c8dbdd8cc2a9af12571"
    else
      ""
  writeJson := value
  parseJson := fun _ => none
  toLowercase := String.toLower
  toLowercase_display := toLower_display
  writeRecord := compact toString id
  readJson := fun _ => none
  jsonError := fun _ => "expected value at line 1 column 1"

end BundleSample

end Pmkit
