import Pmkit.Export.Rows

/-!
# Whose rows a part declares

A part declares the market and the metadata of the envelope that opened its
group, and the group is found by the market of the metadata alone.  So a part
declares what its rows are only as long as the envelopes of each market minute
agree with one another, and with the market they are stored under.
-/

namespace Pmkit

open MachineInt JsonValue

/-! ## Declared metadata -/

structure MarketMetadata.DeclaredBy (metadata : MarketMetadata)
    (declaration : JsonValue) : Prop where
  seriesId : declaration.get "series_id" = some (.string metadata.seriesId)
  asset : declaration.get "asset" = some (orNull (metadata.asset.map .string))
  durationSeconds : declaration.get "duration_seconds" =
    some (orNull (metadata.durationSeconds.map fun seconds => .number seconds))
  marketId : declaration.get "market_id" = some (.string metadata.marketId)
  conditionId : declaration.get "condition_id" =
    some (.string metadata.conditionId)
  outcomeTokens : declaration.get "outcome_tokens" =
    some (.array (metadata.outcomeTokens.map fun mapping =>
      .ofFields [("outcome", .string mapping.outcome),
        ("token_id", .string mapping.tokenId)]))
  openTimeMs : declaration.get "market_open_time_ms" =
    some (.number metadata.openTimeMs)
  closeTimeMs : declaration.get "market_close_time_ms" =
    some (.number metadata.closeTimeMs)

/-- A part is attributed to its envelopes: it declares the market of each of
them and the metadata of each of them, and they all have metadata or all have
none. -/
structure SegmentSource.Attributed (source : SegmentSource)
    (written : JsonValue × List UInt8) : Prop where
  market : ∀ envelope ∈ source.envelopes,
    written.1.get "market_id" = some (.string envelope.canonicalMarketId)
  metadata : ∀ envelope ∈ source.envelopes,
    envelope.declared.1.DeclaredBy written.1
  unmixed : ∀ left ∈ source.envelopes, ∀ right ∈ source.envelopes,
    left.declared.2 = right.declared.2

/-- Every part of an export is attributed to its envelopes. -/
def RowsAttributed (text : PortableText) (store : MarketStore)
    (scope : OwnerScope) (manifest : SealedClosedDayManifest)
    (materialized : MaterializedMarketSegments) : Prop :=
  ∀ segments, collectSegments text store scope manifest = .ok segments →
    List.Forall₂ SegmentSource.Attributed
      (segments.sources text (store.scopeEnvelopes text scope))
      materialized.segments

/-- Every envelope is stored under the market of its metadata, and the
envelopes of one partition declare the same. -/
structure Agrees (text : PortableText) (envelopes : List PmEnvelope) :
    Prop where
  market : ∀ envelope ∈ envelopes,
    envelope.declared.1.marketId = envelope.canonicalMarketId
  declared : ∀ left ∈ envelopes, ∀ right ∈ envelopes,
    left.partition text = right.partition text →
    left.declared = right.declared

section Declared

theorem orNull_string_inj {left right : Option String}
    (same : orNull (left.map .string) = orNull (right.map .string)) :
    left = right := by
  cases left with
  | none =>
      cases right with
      | none => rfl
      | some right => cases same
  | some left =>
      cases right with
      | none => cases same
      | some right =>
          cases same
          rfl

theorem orNull_number_inj {left right : Option Nat}
    (same : orNull (left.map fun value => .number value) =
      orNull (right.map fun value => .number value)) :
    left = right := by
  cases left with
  | none =>
      cases right with
      | none => rfl
      | some right => cases same
  | some left =>
      cases right with
      | none => cases same
      | some right =>
          have numbers : number (left : Int) = number (right : Int) := same
          rw [JsonValue.number.injEq, Int.natCast_inj] at numbers
          rw [numbers]

theorem outcomeToken_injective :
    Function.Injective fun mapping : OutcomeToken =>
      ofFields [("outcome", string mapping.outcome),
        ("token_id", string mapping.tokenId)] := by
  intro left right same
  have outcomes := congrArg (fun value => value.get "outcome") same
  have tokens := congrArg (fun value => value.get "token_id") same
  simp only [get_ofFields] at outcomes tokens
  change some (string left.outcome) = some (string right.outcome) at outcomes
  change some (string left.tokenId) = some (string right.tokenId) at tokens
  rw [Option.some.injEq, JsonValue.string.injEq] at outcomes tokens
  cases left
  cases right
  rw [OutcomeToken.mk.injEq]
  exact ⟨outcomes, tokens⟩

theorem MarketMetadata.DeclaredBy.unique
    {left right : MarketMetadata} {declaration : JsonValue}
    (isLeft : left.DeclaredBy declaration)
    (isRight : right.DeclaredBy declaration) : left = right := by
  have series := isLeft.seriesId.symm.trans isRight.seriesId
  have asset := isLeft.asset.symm.trans isRight.asset
  have duration := isLeft.durationSeconds.symm.trans isRight.durationSeconds
  have market := isLeft.marketId.symm.trans isRight.marketId
  have condition := isLeft.conditionId.symm.trans isRight.conditionId
  have tokens := isLeft.outcomeTokens.symm.trans isRight.outcomeTokens
  have opens := isLeft.openTimeMs.symm.trans isRight.openTimeMs
  have closes := isLeft.closeTimeMs.symm.trans isRight.closeTimeMs
  rw [Option.some.injEq] at asset duration
  rw [Option.some.injEq, JsonValue.string.injEq] at series market condition
  rw [Option.some.injEq, JsonValue.number.injEq] at opens closes
  rw [Option.some.injEq, JsonValue.array.injEq] at tokens
  cases left
  cases right
  rw [MarketMetadata.mk.injEq]
  exact ⟨series, orNull_string_inj asset, orNull_number_inj duration, market,
    condition, outcomeToken_injective.list_map tokens, opens, closes⟩

end Declared

/-! ## Attribution -/

section Attribution

variable {text : PortableText} {store : MarketStore} {scope : OwnerScope}
  {manifest : SealedClosedDayManifest}
  {materialized : MaterializedMarketSegments} {segments : SegmentMap}

variable {source : SegmentSource}

theorem SegmentSource.Describes.declaredBy {sourceManifestSha256 : String}
    {written : JsonValue × List UInt8}
    (describes : source.Describes text sourceManifestSha256 written)
    (market : source.group.metadata.marketId = source.partition.marketId) :
    source.group.metadata.DeclaredBy written.1 where
  seriesId := describes.seriesId
  asset := describes.asset
  durationSeconds := describes.durationSeconds
  marketId := by rw [market, describes.marketId]
  conditionId := describes.conditionId
  outcomeTokens := describes.outcomeTokens
  openTimeMs := describes.openTimeMs
  closeTimeMs := describes.closeTimeMs

def PmEnvelope.Opens (text : PortableText) (envelopes : List PmEnvelope)
    (envelope : PmEnvelope) : Prop :=
  (envelopesOf text envelopes (envelope.partition text)).head? = some envelope

theorem ExportedFrom.opener
    (exported : ExportedFrom text store scope manifest materialized segments)
    (mem : source ∈ segments.sources text (store.scopeEnvelopes text scope)) :
    ∃ first ∈ store.scopeEnvelopes text scope,
      first.Opens text (store.scopeEnvelopes text scope) ∧
      first.partition text = source.partition ∧
      first.declared =
        (source.group.metadata, source.group.legacyCoverage) := by
  obtain ⟨entry, isEntry, isSource⟩ := List.mem_flatMap.mp mem
  obtain ⟨_, first, rest, own, declares⟩ := exported.holds.entry_eq isEntry
  have inside : first ∈ envelopesOf text (store.scopeEnvelopes text scope)
      entry.1 := by
    rw [own]
    exact List.mem_cons_self
  obtain ⟨isStored, isPartition⟩ := Grouping.mem_ofKey.mp inside
  obtain ⟨partition, group⟩ := mem_entrySources isSource
  rw [partition, group]
  refine ⟨first, isStored, ?_, isPartition, declares⟩
  rw [PmEnvelope.Opens, isPartition, own]
  rfl

theorem ExportedFrom.market
    (exported : ExportedFrom text store scope manifest materialized segments)
    (mem : source ∈ segments.sources text (store.scopeEnvelopes text scope)) :
    source.group.metadata.marketId = source.partition.marketId := by
  obtain ⟨first, _, _, isPartition, declares⟩ := exported.opener mem
  rw [← isPartition, PmEnvelope.partition, declares]

theorem ExportedFrom.written_of_mem
    (exported : ExportedFrom text store scope manifest materialized segments)
    {envelope : PmEnvelope}
    (mem : envelope ∈ store.scopeEnvelopes text scope) :
    ∃ source ∈ segments.sources text (store.scopeEnvelopes text scope),
      envelope ∈ source.envelopes ∧
      envelope.partition text = source.partition := by
  have everywhere := exported.envelopes_perm.mem_iff.mpr mem
  obtain ⟨source, isSource, inside⟩ := List.mem_flatMap.mp everywhere
  exact ⟨source, isSource, inside,
    (exported.partition_of_mem isSource inside).2⟩

theorem ExportedFrom.group_eq
    (exported : ExportedFrom text store scope manifest materialized segments)
    {left right : SegmentSource}
    (isLeft : left ∈ segments.sources text (store.scopeEnvelopes text scope))
    (isRight : right ∈ segments.sources text (store.scopeEnvelopes text scope))
    (same : left.partition = right.partition) : left.group = right.group := by
  obtain ⟨leftEntry, leftMem, leftSource⟩ := List.mem_flatMap.mp isLeft
  obtain ⟨rightEntry, rightMem, rightSource⟩ := List.mem_flatMap.mp isRight
  obtain ⟨leftPartition, leftGroup⟩ := mem_entrySources leftSource
  obtain ⟨rightPartition, rightGroup⟩ := mem_entrySources rightSource
  have isLeftGroup := exported.holds.groupOf_entry leftMem
  have isRightGroup := exported.holds.groupOf_entry rightMem
  rw [← leftPartition, same, rightPartition] at isLeftGroup
  rw [leftGroup, rightGroup]
  exact Option.some.inj (isLeftGroup.symm.trans isRightGroup)

theorem legacy_outcomeTokens
    {manifest : SealedClosedDayManifest} {envelope : PmEnvelope}
    (exportable : envelope.Exportable manifest) :
    envelope.declared.2 = true ↔ envelope.declared.1.outcomeTokens = [] := by
  constructor
  · intro legacy
    have read := exportable.read
    unfold marketMetadata at read
    split at read
    · cases isDeclared : envelope.declared with
      | mk metadata legacyCoverage =>
          rw [isDeclared] at read
          cases read
          rfl
    · split at read
      · cases read
      · rw [Except.ok.injEq] at read
        rw [← read] at legacy
        cases legacy
  · intro none
    rcases exportable.valid with legacy | valid
    · exact legacy
    · simp [MarketMetadata.isValid, none] at valid

theorem agrees_of_rowsAttributed
    (exported : ExportedFrom text store scope manifest materialized segments)
    (attributed : List.Forall₂ SegmentSource.Attributed
      (segments.sources text (store.scopeEnvelopes text scope))
      materialized.segments) :
    Agrees text (store.scopeEnvelopes text scope) := by
  -- What an envelope declares is what its group does.
  have group : ∀ source ∈
      segments.sources text (store.scopeEnvelopes text scope),
      ∀ envelope ∈ source.envelopes,
        envelope.declared.1 = source.group.metadata ∧
          envelope.canonicalMarketId = source.partition.marketId := by
    intro source isSource envelope inside
    have both : List.Forall₂ (fun source written =>
        source.Writes text (digestJson text manifest.document) written ∧
          source.Attributed written)
        (segments.sources text (store.scopeEnvelopes text scope))
        materialized.segments :=
      List.Forall₂.mp (fun _ _ writes own => ⟨writes, own⟩) exported.written
        attributed
    obtain ⟨written, _, writes, own⟩ := Related.exists_right both isSource
    have describes := writes.describes
    refine ⟨(own.metadata envelope inside).unique
      (describes.declaredBy (exported.market isSource)), ?_⟩
    have markets := (own.market envelope inside).symm.trans describes.marketId
    simpa using markets
  constructor
  · intro envelope mem
    obtain ⟨source, isSource, inside, isPartition⟩ :=
      exported.written_of_mem mem
    obtain ⟨metadata, market⟩ := group source isSource envelope inside
    rw [market, metadata, exported.market isSource]
  · intro left leftMem right rightMem same
    obtain ⟨leftSource, isLeft, leftInside, leftPartition⟩ :=
      exported.written_of_mem leftMem
    obtain ⟨rightSource, isRight, rightInside, rightPartition⟩ :=
      exported.written_of_mem rightMem
    have groups := exported.group_eq isLeft isRight
      (leftPartition.symm.trans (same.trans rightPartition))
    have metadata : left.declared.1 = right.declared.1 := by
      rw [(group leftSource isLeft left leftInside).1,
        (group rightSource isRight right rightInside).1, groups]
    refine Prod.ext metadata ?_
    rw [Bool.eq_iff_iff,
      legacy_outcomeTokens (exported.exportable left leftMem),
      legacy_outcomeTokens (exported.exportable right rightMem), metadata]

theorem rowsAttributed_of_agrees
    (exported : ExportedFrom text store scope manifest materialized segments)
    (agrees : Agrees text (store.scopeEnvelopes text scope)) :
    List.Forall₂ SegmentSource.Attributed
      (segments.sources text (store.scopeEnvelopes text scope))
      materialized.segments := by
  refine ((List.forall₂_and_left _ _).mpr
    ⟨fun source mem => mem, exported.written⟩).imp ?_
  rintro source written ⟨isSource, writes⟩
  have describes := writes.describes
  obtain ⟨first, isStored, _, isPartition, declares⟩ :=
    exported.opener isSource
  have same : ∀ envelope ∈ source.envelopes,
      envelope ∈ store.scopeEnvelopes text scope ∧
        envelope.declared =
          (source.group.metadata, source.group.legacyCoverage) := by
    intro envelope inside
    obtain ⟨stored, partition⟩ := exported.partition_of_mem isSource inside
    refine ⟨stored, ?_⟩
    rw [← declares]
    exact agrees.declared envelope stored first isStored
      (partition.trans isPartition.symm)
  have market := exported.market isSource
  constructor
  · intro envelope inside
    obtain ⟨stored, isDeclared⟩ := same envelope inside
    rw [describes.marketId, ← market, ← agrees.market envelope stored,
      isDeclared]
  · intro envelope inside
    rw [(same envelope inside).2]
    exact describes.declaredBy market
  · intro left isLeft right isRight
    rw [(same left isLeft).2, (same right isRight).2]

end Attribution

/-- The rows of a successful export are attributed to their own markets if and
only if the envelopes of the scope agree. -/
theorem rowsAttributed_iff
    (text : PortableText) (store : MarketStore) (scope : OwnerScope)
    (manifest : SealedClosedDayManifest)
    (materialized : MaterializedMarketSegments)
    (exported : exportMarketSegmentsWithArtifacts text store scope manifest =
      .ok materialized) :
    RowsAttributed text store scope manifest materialized ↔
      Agrees text (store.scopeEnvelopes text scope) := by
  obtain ⟨segments, collected, isExported⟩ := exportedFrom exported
  constructor
  · intro attributed
    exact agrees_of_rowsAttributed isExported (attributed segments collected)
  · intro agrees others collectedOthers
    rw [collected, Except.ok.injEq] at collectedOthers
    rw [← collectedOthers]
    exact rowsAttributed_of_agrees isExported agrees

/-! ## A minute with and without metadata -/

theorem exported_of_noGaps
    {text : PortableText} {store : MarketStore} {scope : OwnerScope}
    {manifest : SealedClosedDayManifest} {segments : SegmentMap}
    (collected : collectSegments text store scope manifest = .ok segments)
    (none : store.gaps.readReplayGaps scope = []) (fits : segments.Fits text) :
    ∃ materialized, exportMarketSegmentsWithArtifacts text store scope
      manifest = .ok materialized := by
  refine (exportMarketSegments_eq_ok_iff collected).mpr ⟨?_, fits⟩
  intro entry _ gap stored
  rw [none] at stored
  cases stored

namespace PairSample

open ExportSample (value record document documentDigest sealedDay scope)

def portable (seriesId marketId : String) : JsonValue :=
  .object
    [("canonical_market_id", .string marketId),
      ("payload", .object [("price", .string "0.43")]),
      ("portable_market", .object
        [("asset", .string "BTC"), ("close_time_ms", .number 300000),
          ("condition_id", .string "condition-01"),
          ("duration_seconds", .number 300), ("market_id", .string marketId),
          ("open_time_ms", .number 0),
          ("outcome_tokens", .array
            [.object [("outcome", .string "up"), ("token_id", .string "up-01")],
              .object
                [("outcome", .string "down"),
                  ("token_id", .string "down-01")]]),
          ("series_id", .string seriesId)])]

/-- One of two records of the second minute of the day. -/
def envelope (place : I64) (normalized : JsonValue) : PmEnvelope :=
  { CoverageSample.envelope with
    frameSequence := place
    ingestSequence := place
    normalized := normalized }

def text (digests : List (String × String)) (first second : JsonValue) :
    PortableText where
  sha256Hex := fun bytes =>
    ((digests.find? fun entry => textBytes entry.1 = bytes).map
      Prod.snd).getD ""
  writeJson := value
  parseJson := fun written =>
    if written = value first then some first
    else if written = value second then some second
    else none
  toLowercase := String.toLower
  toLowercase_display := toLower_display
  writeRecord := record
  readJson := fun _ => none

variable (digests : List (String × String)) (first second : JsonValue)

def store : MarketStore where
  envelopes :=
    { rows :=
        [.ofEnvelope (text digests first second).toStoreText (envelope 1 first),
          .ofEnvelope (text digests first second).toStoreText
            (envelope 2 second)]
      separated := by
        have places : (1 : I64) ≠ 2 := by decide
        rw [List.pairwise_pair]
        simp [EnvelopeRow.conflicts, EnvelopeRow.primaryKey,
          EnvelopeRow.uniqueKey, EnvelopeRow.ofEnvelope, envelope, places] }
  gaps := .empty

variable {digests : List (String × String)} {first second : JsonValue}

/-- Both records are read as they were stored. -/
theorem decoded
    (isFirst : first.isObject = true) (isSecond : second.isObject = true)
    (ne : value first ≠ value second) :
    decodeRow (text digests first second).toStoreText
        (.ofEnvelope (text digests first second).toStoreText
          (envelope 1 first)) = .envelope (envelope 1 first) ∧
      decodeRow (text digests first second).toStoreText
        (.ofEnvelope (text digests first second).toStoreText
          (envelope 2 second)) = .envelope (envelope 2 second) := by
  constructor
  · exact EnvelopeTable.decodeRow_ofEnvelope rfl
      (by simp [text, envelope]) isFirst
  · exact EnvelopeTable.decodeRow_ofEnvelope rfl
      (by simp [text, envelope, ne.symm]) isSecond

def rowsOf (digests : List (String × String)) (first second : JsonValue) :
    List EnvelopeRow :=
  [.ofEnvelope (text digests first second).toStoreText (envelope 1 first),
    .ofEnvelope (text digests first second).toStoreText (envelope 2 second)]

theorem items
    (isFirst : first.isObject = true) (isSecond : second.isObject = true)
    (ne : value first ≠ value second)
    (rows : (store digests first second).envelopes.scopeRows scope =
      rowsOf digests first second) :
    ((store digests first second).envelopes.scopeRows scope).map
        (decodeRow (text digests first second).toStoreText) =
      [.envelope (envelope 1 first), .envelope (envelope 2 second)] := by
  obtain ⟨one, other⟩ := @decoded digests first second isFirst isSecond
    ne
  rw [rows, rowsOf, List.map_cons, List.map_cons, List.map_nil, one, other]

theorem scopeEnvelopes
    (isFirst : first.isObject = true) (isSecond : second.isObject = true)
    (ne : value first ≠ value second)
    (rows : (store digests first second).envelopes.scopeRows scope =
      rowsOf digests first second) :
    (store digests first second).scopeEnvelopes (text digests first second)
      scope = [envelope 1 first, envelope 2 second] := by
  rw [MarketStore.scopeEnvelopes, items isFirst isSecond ne rows]
  rfl

def declaration (segmentId : String) (metadata : MarketMetadata)
    (rows bytes : Nat) (sha256 : String) : JsonValue :=
  .ofFields
    [("segment_id", .string segmentId), ("series_id", .string metadata.seriesId),
      ("asset", orNull (metadata.asset.map .string)),
      ("duration_seconds",
        orNull (metadata.durationSeconds.map fun seconds => .number seconds)),
      ("market_id", .string metadata.marketId),
      ("condition_id", .string metadata.conditionId),
      ("outcome_tokens", .array (metadata.outcomeTokens.map fun mapping =>
        .ofFields [("outcome", .string mapping.outcome),
          ("token_id", .string mapping.tokenId)])),
      ("market_open_time_ms", .number metadata.openTimeMs),
      ("market_close_time_ms", .number metadata.closeTimeMs),
      ("partition_start_time_ms", .number 60000),
      ("partition_end_time_ms", .number 119999), ("subpart_ordinal", .number 0),
      ("from_time_ms", .number 61000), ("to_time_ms", .number 61000),
      ("from_ts_ms", .number 61000), ("to_ts_ms", .number 61000),
      ("rows", .number rows), ("bytes", .number bytes),
      ("sha256", .string sha256),
      ("source_manifest_sha256", .string documentDigest),
      ("artifact_key", .string
        ("portable-market-export-v1/" ++ segmentId ++ ".jsonl"))]

end PairSample

namespace MixedSample

open ExportSample (value document documentDigest sealedDay scope)

def first : JsonValue :=
  CoverageSample.normalized

def second : JsonValue :=
  PairSample.portable "btc-usd-5m" "market-01"

def segmentId : String :=
  "1fb08f985eb6200c0806448164d235e8967981d39a82e39bde4e5d23111818cc"

def bodyDigest : String :=
  "dcdbb6d7836b29af7cf40aa5e10a51f5e432848154624bf942969bfb1d997dc6"

def rows : List JsonValue :=
  [exportRow (PairSample.envelope 1 first),
    exportRow (PairSample.envelope 2 second)]

/-- The texts that the store and the export hash, with their digests. -/
def digests : List (String × String) :=
  [("", "e3b0c44298fc1c149afbf4c8996fb92427ae41e4649b934ca495991b7852b855"),
    (value first,
      "1ed0aeca8ce13a6e632ddd8b11c8caaa36b71581e7aa933c7d0ca5ee168ae2c9"),
    (value second,
      "94b83ea158a6ea9254d55b3068cdc75939781df060d284cef372f074d48f8b4f"),
    (value document, documentDigest),
    (documentDigest ++ "\nmarket-01\nmarket-01\n60000\n0", segmentId),
    (String.join (rows.map fun row => value row ++ "\n"), bodyDigest),
    (value (exportContent documentDigest
      [PairSample.declaration segmentId (.legacy "market-01") 2 138
        bodyDigest]),
      "d7f8f4f975f9a3990d903aa940e9f931ac482922f3bad77555949ac8bece0188")]

def text : PortableText :=
  PairSample.text digests first second

def store : MarketStore :=
  PairSample.store digests first second

def segments : SegmentMap :=
  [(CoverageSample.segmentPartition,
    { metadata := .legacy "market-01"
      legacyCoverage := true
      rows := rows })]

theorem value_ne : value first ≠ value second := by
  have ne : characters toString sortFields first ≠
      characters toString sortFields second := by
    decide +kernel
  intro same
  exact ne (String.ofList_inj.mp same)

theorem scopeRows : store.envelopes.scopeRows scope =
    PairSample.rowsOf digests first second := by
  rfl

theorem scopeEnvelopes : store.scopeEnvelopes text scope =
    [PairSample.envelope 1 first, PairSample.envelope 2 second] :=
  PairSample.scopeEnvelopes rfl rfl value_ne scopeRows

theorem collected :
    collectSegments text store scope sealedDay = .ok segments := by
  have items := PairSample.items rfl rfl value_ne scopeRows
  rw [collectSegments, EnvelopeTable.forAll_eq (by decide)]
  exact congrArg (fun items => items.foldlM (materializeItem text sealedDay) [])
    items

theorem fits : segments.Fits text := by
  intro entry mem row inside
  rw [segments, List.mem_singleton] at mem
  rw [mem, rows, List.mem_pair] at inside
  rcases inside with rfl | rfl
  · show (textBytes (value (exportRow (PairSample.envelope 1 first)))).length +
      1 ≤ maxLogicalSegmentBytes
    decide +kernel
  · show (textBytes (value (exportRow (PairSample.envelope 2 second)))).length +
      1 ≤ maxLogicalSegmentBytes
    decide +kernel

theorem not_agrees : ¬ Agrees text (store.scopeEnvelopes text scope) := by
  rw [scopeEnvelopes]
  intro agrees
  have same := agrees.declared (PairSample.envelope 1 first)
    List.mem_cons_self (PairSample.envelope 2 second)
    (List.mem_cons_of_mem _ List.mem_cons_self) rfl
  cases congrArg Prod.snd same

end MixedSample

/-- A record without metadata and one with it are in one part. -/
theorem mixedMinute_not_rowsAttributed :
    ¬ ∀ text store scope manifest materialized,
      exportMarketSegmentsWithArtifacts text store scope manifest =
        .ok materialized →
      RowsAttributed text store scope manifest materialized := by
  intro always
  obtain ⟨materialized, exported⟩ := exported_of_noGaps MixedSample.collected
    rfl MixedSample.fits
  obtain ⟨segments, collected, isExported⟩ := exportedFrom exported
  exact MixedSample.not_agrees (agrees_of_rowsAttributed isExported
    (always _ _ _ _ _ exported segments collected))

theorem CoverageSample.scopeEnvelopes (named : String) :
    (CoverageSample.store named).scopeEnvelopes CoverageSample.text
      ExportSample.scope = [CoverageSample.envelope] := by
  have rows : (CoverageSample.store named).envelopes.scopeRows
      ExportSample.scope = [.ofEnvelope CoverageSample.text.toStoreText
        CoverageSample.envelope] :=
    rfl
  have readBack : CoverageSample.text.parseJson
      (ExportSample.value CoverageSample.normalized) =
        some CoverageSample.normalized := by
    simp only [CoverageSample.text, if_true]
  have decoded := @EnvelopeTable.decodeRow_ofEnvelope
    CoverageSample.text.toStoreText CoverageSample.envelope rfl readBack rfl
  rw [MarketStore.scopeEnvelopes, rows, List.map_cons, decoded]
  rfl

/-- The rows of a minute with one record are attributed to its market. -/
theorem rowsAttributed_iff_secondMinute :
    ∃ materialized, exportMarketSegmentsWithArtifacts CoverageSample.text
        (CoverageSample.store "market-01:0") ExportSample.scope
        ExportSample.sealedDay = .ok materialized ∧
      RowsAttributed CoverageSample.text (CoverageSample.store "market-01:0")
        ExportSample.scope ExportSample.sealedDay materialized := by
  obtain ⟨materialized, exported⟩ := (exportMarketSegments_eq_ok_iff
    (CoverageSample.collected "market-01:0")).mpr
      ⟨by decide +kernel, CoverageSample.fits⟩
  refine ⟨materialized, exported, (rowsAttributed_iff CoverageSample.text
    (CoverageSample.store "market-01:0") ExportSample.scope
    ExportSample.sealedDay materialized exported).mpr ?_⟩
  rw [CoverageSample.scopeEnvelopes]
  constructor
  · intro envelope member
    rw [List.mem_singleton] at member
    rw [member]
    rfl
  · intro left isLeft right isRight _
    rw [List.mem_singleton] at isLeft isRight
    rw [isLeft, isRight]

end Pmkit
