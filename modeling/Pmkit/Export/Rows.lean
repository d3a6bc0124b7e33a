import Pmkit.Export.Sources
import Pmkit.Library.Related

/-!
# The rows of an export

An export has every stored envelope of its scope that passes its integrity
check as one row of one part.  The parts of a partition follow one another
without holes, none is empty or too long, and every declaration tells what its
body is.
-/

namespace Pmkit

open MachineInt JsonValue

/-! ## Declarations -/

structure SegmentSource.Describes (text : PortableText)
    (sourceManifestSha256 : String) (source : SegmentSource)
    (written : JsonValue × List UInt8) : Prop where
  body : written.2 = encodeRows text source.rows
  segmentId : written.1.get "segment_id" =
    some (.string (segmentIdOf text sourceManifestSha256
      source.group.metadata.seriesId source.partition source.ordinal))
  seriesId : written.1.get "series_id" =
    some (.string source.group.metadata.seriesId)
  asset : written.1.get "asset" =
    some (orNull (source.group.metadata.asset.map .string))
  durationSeconds : written.1.get "duration_seconds" =
    some (orNull (source.group.metadata.durationSeconds.map
      fun seconds => .number seconds))
  marketId : written.1.get "market_id" = some (.string source.partition.marketId)
  snapshot : written.1.get "discovery_snapshot_sha256" =
    source.partition.discoverySnapshotSha256.map .string
  conditionId : written.1.get "condition_id" =
    some (.string source.group.metadata.conditionId)
  outcomeTokens : written.1.get "outcome_tokens" =
    some (.array (source.group.metadata.outcomeTokens.map fun mapping =>
      .ofFields [("outcome", .string mapping.outcome),
        ("token_id", .string mapping.tokenId)]))
  openTimeMs : written.1.get "market_open_time_ms" =
    some (.number source.group.metadata.openTimeMs)
  closeTimeMs : written.1.get "market_close_time_ms" =
    some (.number source.group.metadata.closeTimeMs)
  partitionStart : written.1.get "partition_start_time_ms" =
    some (.number source.partition.minuteStartMs)
  partitionEnd : written.1.get "partition_end_time_ms" =
    some (.number (source.partition.minuteStartMs + utcMinuteMs - 1))
  ordinal : written.1.get "subpart_ordinal" = some (.number source.ordinal)
  fromTimeMs : written.1.get "from_time_ms" =
    source.envelopes.head?.map fun envelope =>
      .number envelope.sourceTimestampMs.1
  toTimeMs : written.1.get "to_time_ms" =
    source.envelopes.getLast?.map fun envelope =>
      .number envelope.sourceTimestampMs.1
  rows : written.1.get "rows" = some (.number source.envelopes.length)
  bytes : written.1.get "bytes" = some (.number written.2.length)
  sha256 : written.1.get "sha256" = some (.string (text.sha256Hex written.2))
  artifactKey : written.1.get "artifact_key" =
    some (.string ("portable-market-export-v1/" ++ segmentIdOf text
      sourceManifestSha256 source.group.metadata.seriesId source.partition
        source.ordinal ++ ".jsonl"))

section Declared

variable {text : PortableText} {sourceManifestSha256 : String}

theorem head?_rows_time (envelopes : List PmEnvelope) :
    (envelopes.map exportRow).head?.bind rowTime =
      envelopes.head?.map fun envelope => envelope.sourceTimestampMs.1 := by
  cases envelopes with
  | nil => rfl
  | cons first rest => exact rowTime_exportRow first

theorem getLast?_rows_time (envelopes : List PmEnvelope) :
    (envelopes.map exportRow).getLast?.bind rowTime =
      envelopes.getLast?.map fun envelope => envelope.sourceTimestampMs.1 := by
  rw [List.getLast?_map]
  cases envelopes.getLast? with
  | none => rfl
  | some last => exact rowTime_exportRow last

def SegmentSource.fields (text : PortableText) (sourceManifestSha256 : String)
    (source : SegmentSource) (fromTimeMs toTimeMs : Int) :
    List (String × JsonValue) :=
  let segmentId := segmentIdOf text sourceManifestSha256
    source.group.metadata.seriesId source.partition source.ordinal
  let content := encodeRows text source.rows
  [("segment_id", .string segmentId),
    ("series_id", .string source.group.metadata.seriesId),
    ("asset", orNull (source.group.metadata.asset.map .string)),
    ("duration_seconds", orNull (source.group.metadata.durationSeconds.map
      fun seconds => .number seconds)),
    ("market_id", .string source.partition.marketId),
    ("condition_id", .string source.group.metadata.conditionId),
    ("outcome_tokens", .array
      (source.group.metadata.outcomeTokens.map fun mapping =>
        .ofFields [("outcome", .string mapping.outcome),
          ("token_id", .string mapping.tokenId)])),
    ("market_open_time_ms", .number source.group.metadata.openTimeMs),
    ("market_close_time_ms", .number source.group.metadata.closeTimeMs),
    ("partition_start_time_ms", .number source.partition.minuteStartMs),
    ("partition_end_time_ms",
      .number (source.partition.minuteStartMs + utcMinuteMs - 1)),
    ("subpart_ordinal", .number source.ordinal),
    ("from_time_ms", .number fromTimeMs), ("to_time_ms", .number toTimeMs),
    ("from_ts_ms", .number fromTimeMs), ("to_ts_ms", .number toTimeMs),
    ("rows", .number source.rows.length), ("bytes", .number content.length),
    ("sha256", .string (text.sha256Hex content)),
    ("source_manifest_sha256", .string sourceManifestSha256),
    ("artifact_key", .string
      ("portable-market-export-v1/" ++ segmentId ++ ".jsonl"))]

theorem SegmentSource.lookup_snapshot
    (source : SegmentSource) (fromTimeMs toTimeMs : Int) :
    (source.fields text sourceManifestSha256 fromTimeMs
      toTimeMs).reverse.lookup "discovery_snapshot_sha256" = none := by
  simp [fields]

variable {source : SegmentSource} {written : JsonValue × List UInt8}

theorem SegmentSource.Writes.parts
    (writes : source.Writes text sourceManifestSha256 written) :
    ∃ first ∈ source.envelopes.head?, ∃ last ∈ source.envelopes.getLast?,
      written.2 = encodeRows text source.rows ∧
      ∀ key, written.1.get key =
        if key = "discovery_snapshot_sha256" then
          source.partition.discoverySnapshotSha256.map .string
        else
          (source.fields text sourceManifestSha256 first.sourceTimestampMs.1
              last.sourceTimestampMs.1).reverse.lookup key := by
  unfold SegmentSource.Writes materializeSegment at writes
  split at writes
  · cases writes
  · simp only at writes
    split at writes
    · cases writes
    · rename_i fromTimeMs isFrom
      split at writes
      · cases writes
      · rename_i toTimeMs isTo
        rw [rows, head?_rows_time] at isFrom
        rw [rows, getLast?_rows_time] at isTo
        obtain ⟨first, isFirst, rfl⟩ := Option.map_eq_some_iff.mp isFrom
        obtain ⟨last, isLast, rfl⟩ := Option.map_eq_some_iff.mp isTo
        refine ⟨first, isFirst, last, isLast, ?_⟩
        cases snapshot : source.partition.discoverySnapshotSha256 with
        | none =>
            rw [snapshot] at writes
            cases writes
            refine ⟨rfl, fun key => ?_⟩
            change (ofFields (source.fields text sourceManifestSha256
              first.sourceTimestampMs.1 last.sourceTimestampMs.1)).get key = _
            rw [get_ofFields, Option.map_none]
            split
            · rename_i isSnapshot
              rw [isSnapshot]
              exact source.lookup_snapshot ..
            · rfl
        | some digest =>
            rw [snapshot] at writes
            cases writes
            refine ⟨rfl, fun key => ?_⟩
            change ((ofFields (source.fields text sourceManifestSha256
              first.sourceTimestampMs.1 last.sourceTimestampMs.1)).insert
                "discovery_snapshot_sha256" (.string digest)).get key = _
            rw [get_insert, get_ofFields, Option.map_some]

/-- A part that is written tells what its source is. -/
theorem SegmentSource.Writes.describes
    (writes : source.Writes text sourceManifestSha256 written) :
    source.Describes text sourceManifestSha256 written := by
  obtain ⟨first, isFirst, last, isLast, body, fields⟩ := writes.parts
  have count : source.rows.length = source.envelopes.length :=
    List.length_map _
  have starts : source.envelopes.head? = some first := isFirst
  have ends : source.envelopes.getLast? = some last := isLast
  have field : ∀ key, key ≠ "discovery_snapshot_sha256" →
      written.1.get key = (source.fields text sourceManifestSha256
        first.sourceTimestampMs.1 last.sourceTimestampMs.1).reverse.lookup
          key := by
    intro key ne
    rw [fields, if_neg ne]
  exact
    { body := body
      segmentId := field _ (by decide)
      seriesId := field _ (by decide)
      asset := field _ (by decide)
      durationSeconds := field _ (by decide)
      marketId := field _ (by decide)
      snapshot := by rw [fields, if_pos rfl]
      conditionId := field _ (by decide)
      outcomeTokens := field _ (by decide)
      openTimeMs := field _ (by decide)
      closeTimeMs := field _ (by decide)
      partitionStart := field _ (by decide)
      partitionEnd := field _ (by decide)
      ordinal := field _ (by decide)
      fromTimeMs := by
        rw [starts]
        exact field _ (by decide)
      toTimeMs := by
        rw [ends]
        exact field _ (by decide)
      rows := by
        rw [← count]
        exact field _ (by decide)
      bytes := by
        rw [body]
        exact field _ (by decide)
      sha256 := by
        rw [body]
        exact field _ (by decide)
      artifactKey := field _ (by decide) }

end Declared

/-! ## The sources of an export -/

section Exported

variable {text : PortableText} {store : MarketStore} {scope : OwnerScope}
  {manifest : SealedClosedDayManifest}
  {materialized : MaterializedMarketSegments}

/-- What is known of an export that succeeds: the groups it has collected, and
the parts that were written for their sources. -/
structure ExportedFrom (text : PortableText) (store : MarketStore)
    (scope : OwnerScope) (manifest : SealedClosedDayManifest)
    (materialized : MaterializedMarketSegments) (segments : SegmentMap) :
    Prop where
  holds : segments.Holds text (store.scopeEnvelopes text scope)
  exportable : ∀ envelope ∈ store.scopeEnvelopes text scope,
    envelope.Exportable manifest
  rolled : ∀ entry ∈ segments, ∃ parts,
    rollRows text entry.2.rows maxLogicalSegmentBytes = .ok parts
  written : List.Forall₂
    (SegmentSource.Writes text (digestJson text manifest.document))
    (segments.sources text (store.scopeEnvelopes text scope))
    materialized.segments

theorem exportedFrom
    (exported : exportMarketSegmentsWithArtifacts text store scope manifest =
      .ok materialized) :
    ∃ segments, collectSegments text store scope manifest = .ok segments ∧
      ExportedFrom text store scope manifest materialized segments := by
  unfold exportMarketSegmentsWithArtifacts at exported
  split at exported
  · cases exported
  · rename_i segments collected
    split at exported
    · cases exported
    · simp only at exported
      split at exported
      · cases exported
      · rename_i written grouped
        cases exported
        obtain ⟨holds, exportable⟩ := collectSegments_holds collected
        have fits := (materializeGroups_eq_ok_iff
          (collectSegments_complete collected)).mp ⟨written, grouped⟩
        refine ⟨segments, collected, holds, exportable, ?_, ?_⟩
        · intro entry mem
          obtain ⟨parts, rolled, _⟩ := @rollFrom_eq_ok text
            maxLogicalSegmentBytes 0 [] entry.2.rows (fits entry mem)
          exact ⟨parts, rolled⟩
        · exact forall₂_of_materializeGroups
            (fun entry mem => (holds.entry_eq mem).1) grouped

variable {envelopes : List PmEnvelope} {entry : SegmentPartition × SegmentRows}

/-- The sources of a group are its envelopes, numbered from zero, and none is
empty or too long. -/
structure SourcesOf (text : PortableText) (envelopes : List PmEnvelope)
    (entry : SegmentPartition × SegmentRows) : Prop where
  whole : (entrySources text envelopes entry).flatMap SegmentSource.envelopes =
    envelopesOf text envelopes entry.1
  numbered : (entrySources text envelopes entry).map SegmentSource.ordinal =
    List.range (entrySources text envelopes entry).length
  filled : ∀ source ∈ entrySources text envelopes entry,
    source.envelopes ≠ []
  bounded : ∀ source ∈ entrySources text envelopes entry,
    (encodeRows text source.rows).length ≤ maxLogicalSegmentBytes

theorem mem_entrySources {source : SegmentSource}
    (mem : source ∈ entrySources text envelopes entry) :
    source.partition = entry.1 ∧ source.group = entry.2 := by
  obtain ⟨part, _, rfl⟩ := List.mem_map.mp mem
  exact ⟨rfl, rfl⟩

theorem sourcesOf
    (own : entry.2.rows = (envelopesOf text envelopes entry.1).map exportRow)
    {parts : List (List JsonValue)}
    (rolled : rollRows text entry.2.rows maxLogicalSegmentBytes = .ok parts) :
    SourcesOf text envelopes entry := by
  have whole : parts.flatten =
      (envelopesOf text envelopes entry.1).map exportRow := by
    rw [rollFrom_flatten rolled, List.nil_append, own]
  have images := Parts.map_alike whole
  have cut : entrySources text envelopes entry =
      (Parts.alike parts (envelopesOf text envelopes entry.1)).zipIdx.map
        fun part => ⟨entry.1, entry.2, part.2, part.1⟩ := by
    rw [entrySources, rolled]
    rfl
  have rows : ∀ source ∈ entrySources text envelopes entry,
      source.rows ∈ parts := by
    intro source mem
    rw [cut] at mem
    obtain ⟨part, inside, rfl⟩ := List.mem_map.mp mem
    rw [← images]
    exact List.mem_map_of_mem (List.fst_mem_of_mem_zipIdx inside)
  constructor
  · have parted := List.zipIdx_map_fst 0
      (Parts.alike parts (envelopesOf text envelopes entry.1))
    rw [cut, List.flatMap_map, List.flatMap_def]
    exact (congrArg List.flatten parted).trans (Parts.flatten_alike whole)
  · rw [cut, List.map_map, List.length_map, List.length_zipIdx,
      List.range_eq_range']
    exact List.zipIdx_map_snd 0 _
  · intro source mem empty
    apply rollFrom_nonempty rolled _ (rows source mem)
    rw [SegmentSource.rows, empty]
    rfl
  · intro source mem
    exact rollFrom_length rfl (Nat.zero_le _) rolled _ (rows source mem)

theorem filter_sources
    {segments : SegmentMap} (distinct : (segments.map Prod.fst).Nodup)
    (partition : SegmentPartition) :
    (∃ entry ∈ segments, entry.1 = partition ∧
      (segments.sources text envelopes).filter
          (fun source => source.partition = partition) =
        entrySources text envelopes entry) ∨
    partition ∉ segments.map Prod.fst ∧
      (segments.sources text envelopes).filter
        (fun source => source.partition = partition) = [] := by
  have own : ∀ entry : SegmentPartition × SegmentRows, entry.1 = partition →
      (entrySources text envelopes entry).filter
          (fun source => source.partition = partition) =
        entrySources text envelopes entry := by
    intro entry same
    rw [List.filter_eq_self]
    intro source mem
    rw [(mem_entrySources mem).1, same, decide_eq_true_eq]
  have other : ∀ entry : SegmentPartition × SegmentRows, entry.1 ≠ partition →
      (entrySources text envelopes entry).filter
          (fun source => source.partition = partition) = [] := by
    intro entry ne
    rw [List.filter_eq_nil_iff]
    intro source mem
    rw [(mem_entrySources mem).1, decide_eq_true_eq]
    exact ne
  induction segments with
  | nil =>
      right
      exact ⟨List.not_mem_nil, rfl⟩
  | cons entry rest ih =>
      obtain ⟨fresh, restDistinct⟩ := List.nodup_cons.mp distinct
      rw [SegmentMap.sources, List.flatMap_cons, List.filter_append]
      rcases ih restDistinct with
        ⟨later, inside, isPartition, found⟩ | ⟨absent, none⟩
      · left
        have ne : entry.1 ≠ partition := by
          rintro same
          apply fresh
          rw [same, ← isPartition]
          exact List.mem_map_of_mem inside
        refine ⟨later, List.mem_cons_of_mem _ inside, isPartition, ?_⟩
        rw [other entry ne, List.nil_append]
        exact found
      · by_cases same : entry.1 = partition
        · left
          refine ⟨entry, List.mem_cons_self, same, ?_⟩
          rw [own entry same]
          exact (congrArg _ none).trans (List.append_nil _)
        · right
          refine ⟨?_, ?_⟩
          · rw [List.map_cons, List.mem_cons, not_or]
            exact ⟨Ne.symm same, absent⟩
          · rw [other entry same, List.nil_append]
            exact none

theorem flatMap_bodies
    {sources : List SegmentSource} {written : List (JsonValue × List UInt8)}
    (each : List.Forall₂ (fun source written =>
      written.2 = encodeRows text source.rows) sources written)
    (wanted : SegmentSource → Bool) :
    ((sources.zip written).filter fun part => wanted part.1).flatMap
        (fun part => part.2.2) =
      encodeRows text (((sources.filter wanted).flatMap
        SegmentSource.envelopes).map exportRow) := by
  induction each with
  | nil => rfl
  | @cons source part sources written isBody _ ih =>
      have joined : ∀ first second : List PmEnvelope,
          encodeRows text ((first ++ second).map exportRow) =
            encodeRows text (first.map exportRow) ++
              encodeRows text (second.map exportRow) := by
        intro first second
        simp [encodeRows]
      rw [List.zip_cons_cons, List.filter_cons, List.filter_cons]
      cases wanted source with
      | false =>
          simp only [Bool.false_eq_true, if_false]
          exact ih
      | true =>
          simp only [if_true, List.flatMap_cons]
          rw [joined, ← ih, isBody]
          rfl

end Exported

/-! ## Conservation -/

/-- The written parts have every envelope in one row, each partition has its
rows in replay order in the bodies of its parts, which are numbered from zero,
no body is empty or too long, and every row is of the declared minute. -/
structure RowsConserved (text : PortableText) (sourceManifestSha256 : String)
    (envelopes : List PmEnvelope) (sources : List SegmentSource)
    (written : List (JsonValue × List UInt8)) : Prop where
  described : List.Forall₂
    (SegmentSource.Describes text sourceManifestSha256) sources written
  once : (sources.flatMap SegmentSource.envelopes).Perm envelopes
  ordered : ∀ partition,
    ((sources.zip written).filter fun part =>
        part.1.partition = partition).flatMap (fun part => part.2.2) =
      encodeRows text ((envelopesOf text envelopes partition).map exportRow)
  numbered : ∀ partition,
    (sources.filter fun source => source.partition = partition).map
        SegmentSource.ordinal =
      List.range (sources.filter fun source =>
        source.partition = partition).length
  filled : ∀ part ∈ written, part.2 ≠ []
  bounded : ∀ part ∈ written, part.2.length ≤ maxLogicalSegmentBytes
  inMinute : ∀ source ∈ sources, ∀ envelope ∈ source.envelopes,
    source.partition.minuteStartMs ≤ envelope.sourceTimestampMs.1 ∧
      envelope.sourceTimestampMs.1 ≤
        source.partition.minuteStartMs + utcMinuteMs - 1

section Conserved

variable {text : PortableText} {store : MarketStore} {scope : OwnerScope}
  {manifest : SealedClosedDayManifest}
  {materialized : MaterializedMarketSegments} {segments : SegmentMap}

theorem minuteStart_bounds (timestampMs : Int) :
    minuteStart timestampMs ≤ timestampMs ∧
      timestampMs ≤ minuteStart timestampMs + utcMinuteMs - 1 := by
  rw [minuteStart, utcMinuteMs]
  omega

theorem encodeRows_ne_nil
    {rows : List JsonValue} (some : rows ≠ []) : encodeRows text rows ≠ [] := by
  cases rows with
  | nil => exact absurd rfl some
  | cons row rest =>
      simp [encodeRows]

namespace ExportedFrom

theorem sourcesOf_entry
    (exported : ExportedFrom text store scope manifest materialized segments)
    {entry : SegmentPartition × SegmentRows} (mem : entry ∈ segments) :
    SourcesOf text (store.scopeEnvelopes text scope) entry := by
  obtain ⟨parts, rolled⟩ := exported.rolled entry mem
  exact sourcesOf (exported.holds.entry_eq mem).1 rolled

theorem filter_envelopes
    (exported : ExportedFrom text store scope manifest materialized segments)
    (partition : SegmentPartition) :
    ((segments.sources text (store.scopeEnvelopes text scope)).filter
        fun source => source.partition = partition).flatMap
          SegmentSource.envelopes =
      envelopesOf text (store.scopeEnvelopes text scope) partition := by
  rcases @filter_sources text (store.scopeEnvelopes text scope) segments
    exported.holds.keys_nodup partition with
    ⟨entry, mem, rfl, found⟩ | ⟨absent, none⟩
  · rw [found]
    exact (exported.sourcesOf_entry mem).whole
  · rw [none]
    symm
    rw [List.flatMap_nil, envelopesOf, Grouping.ofKey, List.filter_eq_nil_iff]
    intro envelope mem
    rw [decide_eq_true_eq]
    rintro rfl
    exact absent (exported.holds.partition_mem mem)

theorem envelopes_perm
    (exported : ExportedFrom text store scope manifest materialized segments) :
    ((segments.sources text (store.scopeEnvelopes text scope)).flatMap
      SegmentSource.envelopes).Perm (store.scopeEnvelopes text scope) := by
  have groups : (segments.sources text
      (store.scopeEnvelopes text scope)).flatMap SegmentSource.envelopes =
        (segments.map Prod.fst).flatMap
          (envelopesOf text (store.scopeEnvelopes text scope)) := by
    rw [SegmentMap.sources, List.flatMap_assoc, List.flatMap_map]
    apply List.flatMap_congr
    intro entry mem
    exact (exported.sourcesOf_entry mem).whole
  rw [groups]
  exact Grouping.flatMap_ofKey_perm exported.holds.keys_nodup
    fun envelope mem => exported.holds.partition_mem mem

theorem partition_of_mem
    (exported : ExportedFrom text store scope manifest materialized segments)
    {source : SegmentSource} (mem : source ∈
      segments.sources text (store.scopeEnvelopes text scope))
    {envelope : PmEnvelope} (inside : envelope ∈ source.envelopes) :
    envelope ∈ store.scopeEnvelopes text scope ∧
      envelope.partition text = source.partition := by
  obtain ⟨entry, isEntry, isSource⟩ := List.mem_flatMap.mp mem
  have own : envelope ∈ envelopesOf text (store.scopeEnvelopes text scope)
      entry.1 := by
    rw [← (exported.sourcesOf_entry isEntry).whole]
    exact List.mem_flatMap_of_mem isSource inside
  rw [(mem_entrySources isSource).1]
  exact Grouping.mem_ofKey.mp own

theorem rowsConserved
    (exported : ExportedFrom text store scope manifest materialized segments) :
    RowsConserved text (digestJson text manifest.document)
      (store.scopeEnvelopes text scope)
      (segments.sources text (store.scopeEnvelopes text scope))
      materialized.segments := by
  have described := exported.written.imp fun _ _ writes => writes.describes
  constructor
  · exact described
  · exact exported.envelopes_perm
  · intro partition
    have bodies := flatMap_bodies
      (described.imp fun _ _ describes => describes.body)
      (fun source => decide (source.partition = partition))
    rw [exported.filter_envelopes] at bodies
    exact bodies
  · intro partition
    rcases @filter_sources text (store.scopeEnvelopes text scope) segments
      exported.holds.keys_nodup partition with
      ⟨entry, mem, _, found⟩ | ⟨_, none⟩
    · rw [found]
      exact (exported.sourcesOf_entry mem).numbered
    · rw [none]
      rfl
  · intro part mem
    obtain ⟨source, isSource, describes⟩ := Related.exists_left described mem
    obtain ⟨entry, isEntry, inside⟩ := List.mem_flatMap.mp isSource
    rw [describes.body]
    apply encodeRows_ne_nil
    intro empty
    exact (exported.sourcesOf_entry isEntry).filled source inside
      (List.map_eq_nil_iff.mp empty)
  · intro part mem
    obtain ⟨source, isSource, describes⟩ := Related.exists_left described mem
    obtain ⟨entry, isEntry, inside⟩ := List.mem_flatMap.mp isSource
    rw [describes.body]
    exact (exported.sourcesOf_entry isEntry).bounded source inside
  · intro source mem envelope inside
    rw [← (exported.partition_of_mem mem inside).2]
    exact minuteStart_bounds _

end ExportedFrom

end Conserved

/-- A successful export has every envelope of its scope in one row of one
part. -/
theorem exportMarketSegments_conserves
    (text : PortableText) (store : MarketStore) (scope : OwnerScope)
    (manifest : SealedClosedDayManifest)
    (materialized : MaterializedMarketSegments)
    (exported : exportMarketSegmentsWithArtifacts text store scope manifest =
      .ok materialized) :
    ∃ sources, RowsConserved text (digestJson text manifest.document)
      (store.scopeEnvelopes text scope) sources materialized.segments := by
  obtain ⟨segments, _, isExported⟩ := exportedFrom exported
  exact ⟨_, isExported.rowsConserved⟩

theorem exportMarketSegments_conserves_secondMinute :
    ∃ materialized, exportMarketSegmentsWithArtifacts CoverageSample.text
        (CoverageSample.store "market-01:0") ExportSample.scope
        ExportSample.sealedDay = .ok materialized ∧
      ∃ sources, RowsConserved CoverageSample.text
        (digestJson CoverageSample.text ExportSample.document)
        ((CoverageSample.store "market-01:0").scopeEnvelopes
          CoverageSample.text ExportSample.scope)
        sources materialized.segments := by
  obtain ⟨materialized, exported⟩ := (exportMarketSegments_eq_ok_iff
    (CoverageSample.collected "market-01:0")).mpr
      ⟨by decide +kernel, CoverageSample.fits⟩
  exact ⟨materialized, exported, exportMarketSegments_conserves
    CoverageSample.text (CoverageSample.store "market-01:0")
    ExportSample.scope ExportSample.sealedDay materialized exported⟩

end Pmkit
