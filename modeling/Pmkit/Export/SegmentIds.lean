import Pmkit.Export.Attribution
import Pmkit.Export.Declarations
import Pmkit.Library.Delimited

/-!
# The ids of segments

The id of a segment is the digest of a text that joins the parts of its
identity with newlines.  The source manifest, the minute, the ordinal and the
snapshot hold no newline and can be told from one another.  Between the series
and the market nothing says where one ends, as both are free texts.
-/

namespace Pmkit

open MachineInt JsonValue

/-! ## The text of an identity -/

def joinedIds (seriesId marketId : String) : String :=
  seriesId ++ "\n" ++ marketId

def segmentIdentity (sourceManifestSha256 seriesId : String)
    (partition : SegmentPartition) (subpartOrdinal : Nat) : String :=
  let identity := sourceManifestSha256 ++ "\n" ++ seriesId ++ "\n" ++
    partition.marketId ++ "\n" ++ toString partition.minuteStartMs ++ "\n" ++
    toString subpartOrdinal
  match partition.discoverySnapshotSha256 with
  | none => identity
  | some snapshot => identity ++ "\n" ++ snapshot

section Identity

theorem newline_notMem_minute (minuteStartMs : Int) :
    '\n' ∉ (toString minuteStartMs).toList := by
  intro mem
  rcases Delimited.letter_of_mem_toString mem with minus | digit
  · exact absurd minus (by decide)
  · exact absurd digit (by decide)

theorem newline_notMem_ordinal (ordinal : Nat) :
    '\n' ∉ (toString ordinal).toList :=
  newline_notMem_minute ordinal

variable {digest : String}

theorem newline_notMem_sha256
    (valid : isSha256 digest = true) : '\n' ∉ digest.toList := by
  simp only [isSha256, decide_eq_true_eq, List.all_eq_true] at valid
  intro mem
  exact absurd (valid.2 _ mem) (by decide)

theorem utf8ByteSize_ofList
    {letters : List Char} (single : ∀ letter ∈ letters, letter.utf8Size = 1) :
    (String.ofList letters).utf8ByteSize = letters.length := by
  induction letters with
  | nil => rfl
  | cons letter rest ih =>
      rw [String.ofList_cons, String.utf8ByteSize_append,
        String.utf8ByteSize_singleton, single letter List.mem_cons_self,
        ih fun other mem =>
          single other (List.mem_cons_of_mem _ mem),
        List.length_cons, Nat.add_comm]

theorem utf8Size_of_isDigit {letter : Char} (digit : letter.isDigit = true) :
    letter.utf8Size = 1 := by
  rw [Char.isDigit_iff_toNat] at digit
  rw [Char.utf8Size_eq_one_iff, UInt32.le_iff_toNat_le]
  exact Nat.le_trans digit.2 (by decide)

/-- A snapshot is longer than the number of a part. -/
theorem sha256_ne_ordinal {ordinal : Nat} (valid : isSha256 digest = true)
    (machine : ordinal < 2 ^ 64) : digest ≠ toString ordinal := by
  intro same
  have size : digest.utf8ByteSize = 64 := by
    simp only [isSha256, decide_eq_true_eq] at valid
    exact valid.1
  have digits : toString ordinal = String.ofList (Nat.toDigits 10 ordinal) :=
    Nat.toString_eq_ofList_toDigits
  rw [same, digits, utf8ByteSize_ofList fun letter mem =>
    utf8Size_of_isDigit (Nat.isDigit_of_mem_toDigits (by decide) (by decide)
      mem)] at size
  have short := (Nat.length_toDigits_le_iff (b := 10) (k := 20) (by decide)
    (by decide)).mpr (Nat.lt_of_lt_of_le machine (by decide))
  omega

def segmentPlace (sourceManifestSha256 seriesId : String)
    (partition : SegmentPartition) (subpartOrdinal : Nat) : String :=
  sourceManifestSha256 ++ "\n" ++ seriesId ++ "\n" ++
    partition.marketId ++ "\n" ++ toString partition.minuteStartMs ++ "\n" ++
    toString subpartOrdinal

variable {sourceManifestSha256 seriesId otherSeries : String}
  {partition other : SegmentPartition} {ordinal otherOrdinal : Nat}

theorem toList_segmentPlace (sourceManifestSha256 seriesId : String)
    (partition : SegmentPartition) (ordinal : Nat) :
    (segmentPlace sourceManifestSha256 seriesId partition ordinal).toList =
      (sourceManifestSha256.toList ++ '\n' ::
          (joinedIds seriesId partition.marketId).toList ++
        '\n' :: (toString partition.minuteStartMs).toList) ++
      '\n' :: (toString ordinal).toList := by
  have newline : "\n".toList = ['\n'] := rfl
  simp only [segmentPlace, joinedIds, String.toList_append, newline,
    List.append_assoc, List.cons_append, List.nil_append]

theorem eq_of_segmentPlace
    (same : segmentPlace sourceManifestSha256 seriesId partition ordinal =
      segmentPlace sourceManifestSha256 otherSeries other otherOrdinal) :
    joinedIds seriesId partition.marketId =
        joinedIds otherSeries other.marketId ∧
      partition.minuteStartMs = other.minuteStartMs ∧
      ordinal = otherOrdinal := by
  have letters := congrArg String.toList same
  rw [toList_segmentPlace, toList_segmentPlace] at letters
  obtain ⟨before, ordinals⟩ := Delimited.cut_last
    (newline_notMem_ordinal ordinal) (newline_notMem_ordinal otherOrdinal)
    letters
  obtain ⟨front, minutes⟩ := Delimited.cut_last
    (newline_notMem_minute _) (newline_notMem_minute _) before
  have names := List.append_cancel_left front
  rw [List.cons.injEq] at names
  rw [Delimited.toString_natural, Delimited.toString_natural] at ordinals
  exact ⟨String.toList_injective names.2, Delimited.toString_injective minutes,
    Delimited.toDigits_injective ordinals⟩

theorem toList_snapshot (place digest : String) :
    (place ++ "\n" ++ digest).toList = place.toList ++ '\n' :: digest.toList := by
  rw [String.toList_append, String.toList_append, List.append_assoc]
  rfl

/-- An identity without a snapshot is not one with a snapshot. -/
theorem segmentPlace_ne_snapshot
    {place : String} (valid : isSha256 digest = true)
    (machine : ordinal < 2 ^ 64) :
    segmentPlace sourceManifestSha256 seriesId partition ordinal ≠
      place ++ "\n" ++ digest := by
  intro same
  have letters := congrArg String.toList same
  rw [toList_segmentPlace, toList_snapshot] at letters
  have ends := (Delimited.cut_last (newline_notMem_ordinal ordinal)
    (newline_notMem_sha256 valid) letters).2
  exact sha256_ne_ordinal valid machine (String.toList_injective ends).symm

/-- The text of an identity says all but where the series ends. -/
theorem eq_of_segmentIdentity
    (snapshot : partition.discoverySnapshotSha256.all isSha256 = true)
    (otherSnapshot : other.discoverySnapshotSha256.all isSha256 = true)
    (machine : ordinal < 2 ^ 64) (otherMachine : otherOrdinal < 2 ^ 64)
    (same : segmentIdentity sourceManifestSha256 seriesId partition ordinal =
      segmentIdentity sourceManifestSha256 otherSeries other otherOrdinal) :
    joinedIds seriesId partition.marketId =
        joinedIds otherSeries other.marketId ∧
      partition.minuteStartMs = other.minuteStartMs ∧
      partition.discoverySnapshotSha256 = other.discoverySnapshotSha256 ∧
      ordinal = otherOrdinal := by
  unfold segmentIdentity at same
  cases digest : partition.discoverySnapshotSha256 with
  | none =>
      cases otherDigest : other.discoverySnapshotSha256 with
      | none =>
          rw [digest, otherDigest] at same
          obtain ⟨names, minutes, ordinals⟩ := eq_of_segmentPlace same
          exact ⟨names, minutes, rfl, ordinals⟩
      | some right =>
          rw [digest, otherDigest] at same
          rw [otherDigest] at otherSnapshot
          exact absurd same (segmentPlace_ne_snapshot otherSnapshot machine)
  | some left =>
      rw [digest] at snapshot
      cases otherDigest : other.discoverySnapshotSha256 with
      | none =>
          rw [digest, otherDigest] at same
          exact absurd same.symm
            (segmentPlace_ne_snapshot snapshot otherMachine)
      | some right =>
          rw [digest, otherDigest] at same
          rw [otherDigest] at otherSnapshot
          change segmentPlace _ _ _ _ ++ "\n" ++ left =
            segmentPlace _ _ _ _ ++ "\n" ++ right at same
          have letters := congrArg String.toList same
          rw [toList_snapshot, toList_snapshot] at letters
          obtain ⟨places, digests⟩ := Delimited.cut_last
            (newline_notMem_sha256 snapshot)
            (newline_notMem_sha256 otherSnapshot) letters
          obtain ⟨names, minutes, ordinals⟩ :=
            eq_of_segmentPlace (String.toList_injective places)
          exact ⟨names, minutes,
            congrArg some (String.toList_injective digests), ordinals⟩

/-- An identity does not say where the series ends. -/
theorem segmentIdentity_congr
    (names : joinedIds seriesId partition.marketId =
      joinedIds otherSeries other.marketId)
    (minutes : partition.minuteStartMs = other.minuteStartMs)
    (snapshots : partition.discoverySnapshotSha256 =
      other.discoverySnapshotSha256) :
    segmentIdentity sourceManifestSha256 seriesId partition ordinal =
      segmentIdentity sourceManifestSha256 otherSeries other ordinal := by
  have places :
      segmentPlace sourceManifestSha256 seriesId partition ordinal =
        segmentPlace sourceManifestSha256 otherSeries other ordinal := by
    apply String.toList_injective
    rw [toList_segmentPlace, toList_segmentPlace, names, minutes]
  unfold segmentIdentity
  rw [snapshots]
  cases other.discoverySnapshotSha256 with
  | none => exact places
  | some digest =>
      exact congrArg (fun place => place ++ "\n" ++ digest) places

end Identity

/-! ## Unique ids -/

def exportSources (text : PortableText) (store : MarketStore)
    (scope : OwnerScope) (manifest : SealedClosedDayManifest) :
    List SegmentSource :=
  match collectSegments text store scope manifest with
  | .error _ => []
  | .ok segments => segments.sources text (store.scopeEnvelopes text scope)

def SegmentSource.identity (sourceManifestSha256 : String)
    (source : SegmentSource) : String :=
  segmentIdentity sourceManifestSha256 source.group.metadata.seriesId
    source.partition source.ordinal

def SegmentSource.segmentId (text : PortableText)
    (sourceManifestSha256 : String) (source : SegmentSource) : String :=
  segmentIdOf text sourceManifestSha256 source.group.metadata.seriesId
    source.partition source.ordinal

/-- No two of the texts that an export takes its ids from have one digest. -/
def IdentitiesApart (text : PortableText) (sourceManifestSha256 : String)
    (sources : List SegmentSource) : Prop :=
  ∀ left ∈ sources, ∀ right ∈ sources,
    left.segmentId text sourceManifestSha256 =
      right.segmentId text sourceManifestSha256 →
    left.identity sourceManifestSha256 = right.identity sourceManifestSha256

/-- Equal ids are of one segment, no two declarations share an id or an
artifact key, and the decoder finds no id twice. -/
structure IdsUnique (text : PortableText) (sourceManifestSha256 : String)
    (sources : List SegmentSource) (written : List (JsonValue × List UInt8)) :
    Prop where
  named : ∀ left ∈ sources, ∀ right ∈ sources,
    left.segmentId text sourceManifestSha256 =
      right.segmentId text sourceManifestSha256 →
    left.group.metadata.seriesId = right.group.metadata.seriesId ∧
      left.partition = right.partition ∧ left.ordinal = right.ordinal
  ids : (written.map fun part => part.1.get "segment_id").Nodup
  keys : (written.map fun part => part.1.get "artifact_key").Nodup
  accepted : ∀ declared,
    (written.map Prod.fst).mapM PortableMarketSegment.read = some declared →
    validateSegments [] declared ≠ .error .duplicateSegmentId

/-- Of the envelopes that open the partitions of one minute and one snapshot,
no two of different markets have series and market ids that join to one
text. -/
def NamesApart (text : PortableText) (envelopes : List PmEnvelope) : Prop :=
  ∀ left ∈ envelopes, ∀ right ∈ envelopes,
    left.Opens text envelopes → right.Opens text envelopes →
    (left.partition text).minuteStartMs =
      (right.partition text).minuteStartMs →
    (left.partition text).discoverySnapshotSha256 =
      (right.partition text).discoverySnapshotSha256 →
    joinedIds left.declared.1.seriesId left.declared.1.marketId =
      joinedIds right.declared.1.seriesId right.declared.1.marketId →
    left.declared.1.marketId = right.declared.1.marketId

section Duplicates

/-- Declarations with distinct ids are not refused for their ids. -/
theorem validateSegments_ne_duplicate
    {segments : List PortableMarketSegment} {seen : List String}
    (distinct : (segments.map PortableMarketSegment.segmentId).Nodup)
    (fresh : ∀ segment ∈ segments, segment.segmentId ∉ seen) :
    validateSegments seen segments ≠ .error .duplicateSegmentId := by
  induction segments generalizing seen with
  | nil =>
      simp [validateSegments]
  | cons segment rest ih =>
      rw [List.map_cons, List.nodup_cons] at distinct
      rw [validateSegments, if_neg (fresh segment List.mem_cons_self)]
      split
      · simp
      · split
        · simp
        · apply ih distinct.2
          intro other mem seenBefore
          rcases List.mem_cons.mp seenBefore with same | earlier
          · exact distinct.1 (same ▸ List.mem_map_of_mem mem)
          · exact fresh other (List.mem_cons_of_mem _ mem) earlier

/-- A declaration is read with the id it has. -/
theorem PortableMarketSegment.segmentId_of_read
    {value : JsonValue} {segmentId : String} {segment : PortableMarketSegment}
    (named : value.get "segment_id" = some (.string segmentId))
    (read : PortableMarketSegment.read value = some segment) :
    segment.segmentId = segmentId := by
  obtain ⟨fields, isRecord, found⟩ :=
    PortableMarketSegment.read_eq_some_iff.mp read
  cases value with
  | object entries =>
      have lookup : entries.lookup "segment_id" = some (.string segmentId) :=
        named
      have id := found.segmentId
      rw [recordFields_object isRecord, required, lookup] at id
      exact (Option.some.inj id).symm
  | _ => cases named

theorem segmentIds_of_read {values : List JsonValue} {ids : List String}
    {declared : List PortableMarketSegment}
    (named : values.map (fun value => value.get "segment_id") =
      ids.map fun id => some (.string id))
    (read : values.mapM PortableMarketSegment.read = some declared) :
    declared.map PortableMarketSegment.segmentId = ids := by
  induction values generalizing ids declared with
  | nil =>
      cases ids with
      | nil =>
          cases read
          rfl
      | cons id rest => cases named
  | cons value rest ih =>
      cases ids with
      | nil => cases named
      | cons id others =>
          rw [List.map_cons, List.map_cons, List.cons.injEq] at named
          rw [List.mapM_cons] at read
          simp only [Option.bind_eq_bind, Option.bind_eq_some_iff] at read
          obtain ⟨segment, isSegment, later, isLater, built⟩ := read
          cases built
          rw [List.map_cons, PortableMarketSegment.segmentId_of_read named.1
            isSegment, ih named.2 isLater]

end Duplicates

section Exported

variable {text : PortableText} {store : MarketStore} {scope : OwnerScope}
  {manifest : SealedClosedDayManifest}
  {materialized : MaterializedMarketSegments} {segments : SegmentMap}

theorem exportSources_eq
    (collected : collectSegments text store scope manifest = .ok segments) :
    exportSources text store scope manifest =
      segments.sources text (store.scopeEnvelopes text scope) := by
  rw [exportSources, collected]

theorem PmEnvelope.snapshot_isSha256
    (text : PortableText) (envelope : PmEnvelope) :
    (envelope.partition text).discoverySnapshotSha256.all isSha256 = true := by
  show (envelopeDiscoverySnapshot text envelope).all isSha256 = true
  unfold envelopeDiscoverySnapshot
  split
  · split
    · split
      · assumption
      · rfl
    · rfl
  · rfl

namespace ExportedFrom

theorem snapshot_isSha256
    (exported : ExportedFrom text store scope manifest materialized segments)
    {source : SegmentSource} (mem : source ∈
      segments.sources text (store.scopeEnvelopes text scope)) :
    source.partition.discoverySnapshotSha256.all isSha256 = true := by
  obtain ⟨first, _, _, isPartition, _⟩ := exported.opener mem
  rw [← isPartition]
  exact first.snapshot_isSha256 text

/-- The number of a part is below the number of parts. -/
theorem ordinal_lt
    (exported : ExportedFrom text store scope manifest materialized segments)
    {source : SegmentSource} (mem : source ∈
      segments.sources text (store.scopeEnvelopes text scope)) :
    source.ordinal < materialized.segments.length := by
  obtain ⟨entry, isEntry, isSource⟩ := List.mem_flatMap.mp mem
  have numbered := List.mem_map_of_mem
    (f := SegmentSource.ordinal) isSource
  rw [(exported.sourcesOf_entry isEntry).numbered, List.mem_range] at numbered
  have inside : (entrySources text (store.scopeEnvelopes text scope)
      entry).length ≤ (segments.sources text
        (store.scopeEnvelopes text scope)).length := by
    rw [SegmentMap.sources, List.flatMap_def]
    exact (List.sublist_flatten_of_mem (List.mem_map_of_mem isEntry)).length_le
  rw [exported.written.length_eq] at inside
  exact Nat.lt_of_lt_of_le numbered inside

theorem places_nodup
    (exported : ExportedFrom text store scope manifest materialized segments) :
    ((segments.sources text (store.scopeEnvelopes text scope)).map
      fun source => (source.partition, source.ordinal)).Nodup := by
  rw [SegmentMap.sources, List.map_flatMap, List.nodup_flatMap]
  have places : ∀ entry ∈ segments,
      (entrySources text (store.scopeEnvelopes text scope) entry).map
          (fun source => (source.partition, source.ordinal)) =
        (List.range (entrySources text (store.scopeEnvelopes text scope)
          entry).length).map fun ordinal => (entry.1, ordinal) := by
    intro entry mem
    rw [← (exported.sourcesOf_entry mem).numbered, List.map_map]
    apply List.map_congr_left
    intro source isSource
    rw [(mem_entrySources isSource).1]
    rfl
  constructor
  · intro entry mem
    rw [places entry mem]
    exact List.nodup_range.map fun left right same => (Prod.ext_iff.mp same).2
  · have distinct := exported.holds.keys_nodup
    rw [List.Nodup, List.pairwise_map] at distinct
    refine distinct.imp_of_mem ?_
    intro left right isLeft isRight ne place inLeft inRight
    obtain ⟨leftSource, leftMem, rfl⟩ := List.mem_map.mp inLeft
    obtain ⟨rightSource, rightMem, same⟩ := List.mem_map.mp inRight
    apply ne
    rw [← (mem_entrySources leftMem).1, ← (mem_entrySources rightMem).1]
    exact (Prod.ext_iff.mp same).1.symm

/-- Every partition has a part with the number zero. -/
theorem exists_first
    (exported : ExportedFrom text store scope manifest materialized segments)
    {envelope : PmEnvelope}
    (mem : envelope ∈ store.scopeEnvelopes text scope) :
    ∃ source ∈ segments.sources text (store.scopeEnvelopes text scope),
      source.partition = envelope.partition text ∧ source.ordinal = 0 := by
  obtain ⟨source, isSource, _, isPartition⟩ := exported.written_of_mem mem
  obtain ⟨entry, isEntry, inside⟩ := List.mem_flatMap.mp isSource
  have some : 0 < (entrySources text (store.scopeEnvelopes text scope)
      entry).length :=
    List.length_pos_of_mem inside
  have zero := List.mem_range.mpr some
  rw [← (exported.sourcesOf_entry isEntry).numbered] at zero
  obtain ⟨first, isFirst, number⟩ := List.mem_map.mp zero
  refine ⟨first, List.mem_flatMap.mpr ⟨entry, isEntry, isFirst⟩, ?_, number⟩
  rw [isPartition, (mem_entrySources isFirst).1, (mem_entrySources inside).1]

theorem declared_of_opens
    (exported : ExportedFrom text store scope manifest materialized segments)
    {source : SegmentSource} (mem : source ∈
      segments.sources text (store.scopeEnvelopes text scope))
    {envelope : PmEnvelope}
    (opens : envelope.Opens text (store.scopeEnvelopes text scope))
    (same : source.partition = envelope.partition text) :
    source.group.metadata = envelope.declared.1 := by
  obtain ⟨first, _, firstOpens, isPartition, declares⟩ :=
    exported.opener mem
  rw [PmEnvelope.Opens, isPartition, same] at firstOpens
  rw [PmEnvelope.Opens] at opens
  have one : first = envelope := Option.some.inj (firstOpens.symm.trans opens)
  rw [← one, declares]

/-- Sources with equal ids are one place, if the names are apart. -/
theorem named_of_namesApart
    (exported : ExportedFrom text store scope manifest materialized segments)
    (few : materialized.segments.length < 2 ^ 64)
    (apart : IdentitiesApart text (digestJson text manifest.document)
      (segments.sources text (store.scopeEnvelopes text scope)))
    (names : NamesApart text (store.scopeEnvelopes text scope))
    {left right : SegmentSource}
    (isLeft : left ∈ segments.sources text (store.scopeEnvelopes text scope))
    (isRight : right ∈ segments.sources text (store.scopeEnvelopes text scope))
    (same : left.segmentId text (digestJson text manifest.document) =
      right.segmentId text (digestJson text manifest.document)) :
    left.group.metadata.seriesId = right.group.metadata.seriesId ∧
      left.partition = right.partition ∧ left.ordinal = right.ordinal := by
  obtain ⟨joined, minutes, snapshots, ordinals⟩ := eq_of_segmentIdentity
    (exported.snapshot_isSha256 isLeft) (exported.snapshot_isSha256 isRight)
    (Nat.lt_trans (exported.ordinal_lt isLeft) few)
    (Nat.lt_trans (exported.ordinal_lt isRight) few)
    (apart left isLeft right isRight same)
  obtain ⟨first, isFirst, firstOpens, firstPartition, firstDeclares⟩ :=
    exported.opener isLeft
  obtain ⟨second, isSecond, secondOpens, secondPartition, secondDeclares⟩ :=
    exported.opener isRight
  rw [← exported.market isLeft, ← exported.market isRight] at joined
  have markets := names first isFirst second isSecond firstOpens secondOpens
    (by rw [firstPartition, secondPartition, minutes])
    (by rw [firstPartition, secondPartition, snapshots])
    (by rw [firstDeclares, secondDeclares, joined])
  rw [firstDeclares, secondDeclares] at markets
  have partitions : left.partition = right.partition := by
    have marketIds := markets
    rw [exported.market isLeft, exported.market isRight] at marketIds
    cases leftPartition : left.partition
    cases rightPartition : right.partition
    rw [leftPartition, rightPartition] at marketIds minutes snapshots
    rw [SegmentPartition.mk.injEq]
    exact ⟨marketIds, minutes, snapshots⟩
  exact ⟨by rw [exported.group_eq isLeft isRight partitions], partitions,
    ordinals⟩

theorem idsUnique_of_named
    (exported : ExportedFrom text store scope manifest materialized segments)
    (named : ∀ left ∈ segments.sources text (store.scopeEnvelopes text scope),
      ∀ right ∈ segments.sources text (store.scopeEnvelopes text scope),
      left.segmentId text (digestJson text manifest.document) =
        right.segmentId text (digestJson text manifest.document) →
      left.group.metadata.seriesId = right.group.metadata.seriesId ∧
        left.partition = right.partition ∧ left.ordinal = right.ordinal) :
    IdsUnique text (digestJson text manifest.document)
      (segments.sources text (store.scopeEnvelopes text scope))
      materialized.segments := by
  have described := exported.written.imp fun _ _ writes => writes.describes
  have places := exported.places_nodup
  have ids : ((segments.sources text (store.scopeEnvelopes text scope)).map
      (SegmentSource.segmentId text
        (digestJson text manifest.document))).Nodup := by
    refine (List.nodup_map_iff_inj_on places.of_map).mpr ?_
    intro left isLeft right isRight same
    obtain ⟨_, partitions, ordinals⟩ := named left isLeft right isRight same
    exact List.inj_on_of_nodup_map places isLeft isRight
      (Prod.ext partitions ordinals)
  have declaredIds : materialized.segments.map
      (fun part => part.1.get "segment_id") =
        ((segments.sources text (store.scopeEnvelopes text scope)).map
          (SegmentSource.segmentId text
            (digestJson text manifest.document))).map
              fun id => some (.string id) := by
    rw [List.map_map]
    exact Related.map_eq_of_forall₂
      (described.imp fun _ _ describes => describes.segmentId)
  have declaredKeys : materialized.segments.map
      (fun part => part.1.get "artifact_key") =
        ((segments.sources text (store.scopeEnvelopes text scope)).map
          (SegmentSource.segmentId text
            (digestJson text manifest.document))).map
              fun id => some (.string
                ("portable-market-export-v1/" ++ id ++ ".jsonl")) := by
    rw [List.map_map]
    exact Related.map_eq_of_forall₂
      (described.imp fun _ _ describes => describes.artifactKey)
  refine ⟨named, ?_, ?_, ?_⟩
  · rw [declaredIds]
    refine ids.map fun left right same => ?_
    rwa [Option.some.injEq, JsonValue.string.injEq] at same
  · rw [declaredKeys]
    refine ids.map fun left right same => ?_
    rw [Option.some.injEq, JsonValue.string.injEq] at same
    have letters := congrArg String.toList same
    simp only [String.toList_append] at letters
    exact String.toList_injective
      (List.append_cancel_left (List.append_cancel_right letters))
  · intro declared read
    have readIds := @segmentIds_of_read (materialized.segments.map Prod.fst)
      _ declared (by rw [List.map_map]; exact declaredIds) read
    apply validateSegments_ne_duplicate
    · rw [readIds]
      exact ids
    · simp

end ExportedFrom

end Exported

/-- The ids of a successful export are unique if and only if the names of its
partitions are apart. -/
theorem idsUnique_iff
    (text : PortableText) (store : MarketStore) (scope : OwnerScope)
    (manifest : SealedClosedDayManifest)
    (materialized : MaterializedMarketSegments)
    (apart : IdentitiesApart text (digestJson text manifest.document)
      (exportSources text store scope manifest))
    (few : materialized.segments.length < 2 ^ 64)
    (exported : exportMarketSegmentsWithArtifacts text store scope manifest =
      .ok materialized) :
    IdsUnique text (digestJson text manifest.document)
        (exportSources text store scope manifest) materialized.segments ↔
      NamesApart text (store.scopeEnvelopes text scope) := by
  obtain ⟨segments, collected, isExported⟩ := exportedFrom exported
  rw [exportSources_eq collected] at apart ⊢
  constructor
  · intro unique left isLeft right isRight leftOpens rightOpens minutes
      snapshots joined
    obtain ⟨first, isFirst, firstPartition, firstNumber⟩ :=
      isExported.exists_first isLeft
    obtain ⟨second, isSecond, secondPartition, secondNumber⟩ :=
      isExported.exists_first isRight
    have firstDeclared :=
      isExported.declared_of_opens isFirst leftOpens firstPartition
    have secondDeclared :=
      isExported.declared_of_opens isSecond rightOpens secondPartition
    have texts : first.identity (digestJson text manifest.document) =
        second.identity (digestJson text manifest.document) := by
      rw [SegmentSource.identity, SegmentSource.identity, firstDeclared,
        secondDeclared, firstNumber, secondNumber]
      apply segmentIdentity_congr
      · rw [firstPartition, secondPartition]
        exact joined
      · rw [firstPartition, secondPartition, minutes]
      · rw [firstPartition, secondPartition, snapshots]
    have ids : first.segmentId text (digestJson text manifest.document) =
        second.segmentId text (digestJson text manifest.document) :=
      congrArg (fun identity => text.sha256Hex (textBytes identity)) texts
    have partitions := (unique.named first isFirst second isSecond ids).2.1
    rw [firstPartition, secondPartition] at partitions
    exact congrArg SegmentPartition.marketId partitions
  · intro names
    apply isExported.idsUnique_of_named
    intro left isLeft right isRight same
    exact isExported.named_of_namesApart few apart names isLeft isRight same

/-! ## Ids with a newline -/

theorem rollRows_singleton
    {text : PortableText} {row : JsonValue} {byteLimit : Nat}
    (fits : lineBytes text row ≤ byteLimit) :
    rollRows text [row] byteLimit = .ok [[row]] := by
  rw [rollRows, rollFrom, if_neg (Nat.not_lt.mpr fits), if_neg (by simp)]
  rfl

theorem entrySources_singleton
    {text : PortableText} {envelopes : List PmEnvelope}
    {entry : SegmentPartition × SegmentRows} {envelope : PmEnvelope}
    (alone : envelopesOf text envelopes entry.1 = [envelope])
    (row : entry.2.rows = [exportRow envelope])
    (fits : lineBytes text (exportRow envelope) ≤ maxLogicalSegmentBytes) :
    entrySources text envelopes entry = [⟨entry.1, entry.2, 0, [envelope]⟩] := by
  rw [entrySources, alone, row, rollRows_singleton fits]
  rfl

namespace JoinedSample

open ExportSample (value document documentDigest sealedDay scope)

def first : JsonValue :=
  PairSample.portable "a" "b\nc"

def second : JsonValue :=
  PairSample.portable "a\nb" "c"

def metadata (seriesId marketId : String) : MarketMetadata where
  seriesId := seriesId
  asset := some "BTC"
  durationSeconds := some 300
  marketId := marketId
  conditionId := "condition-01"
  outcomeTokens := [⟨"up", "up-01"⟩, ⟨"down", "down-01"⟩]
  openTimeMs := 0
  closeTimeMs := 300000

def segmentId : String :=
  "f2f8f5595f650d377e5daa277d77f3ace3f3a9fc4513580a861406426128a3f0"

def bodyDigest : String :=
  "33edaef0f2819347836ab2dfca5b56fd4a135f5ad3eb0d264790ec0db5bf4899"

/-- The texts that the store and the export hash, with their digests. -/
def digests : List (String × String) :=
  [("", "e3b0c44298fc1c149afbf4c8996fb92427ae41e4649b934ca495991b7852b855"),
    (value first,
      "0ac18ec56d922d0547cfa859dcee4430f15314ba1c679c0ce74aa062257ae1fa"),
    (value second,
      "2825018127d77f46cd7186ed3ad861b43fa9f8b89211afd6cf946f59596c3492"),
    (value document, documentDigest),
    (documentDigest ++ "\na\nb\nc\n60000\n0", segmentId),
    (value (exportRow (PairSample.envelope 1 first)) ++ "\n", bodyDigest),
    (value (exportContent documentDigest
      [PairSample.declaration segmentId (metadata "a" "b\nc") 1 69 bodyDigest,
        PairSample.declaration segmentId (metadata "a\nb" "c") 1 69
          bodyDigest]),
      "5b38e5a048b3bd624bde9ff1f13f2282699bc6a22cd8138803b8fc4e3dc4e6eb")]

def text : PortableText :=
  PairSample.text digests first second

def store : MarketStore :=
  PairSample.store digests first second

def entry (place : I64) (seriesId marketId : String) :
    SegmentPartition × SegmentRows :=
  ({ marketId := marketId
     minuteStartMs := 60000
     discoverySnapshotSha256 := none },
    { metadata := metadata seriesId marketId
      legacyCoverage := false
      rows := [exportRow (PairSample.envelope place
        (PairSample.portable seriesId marketId))] })

def segments : SegmentMap :=
  [entry 1 "a" "b\nc", entry 2 "a\nb" "c"]

theorem value_ne : value first ≠ value second := by
  have ne : characters toString sortFields first ≠
      characters toString sortFields second := by
    decide +kernel
  intro same
  exact ne (String.ofList_inj.mp same)

theorem scopeRows : store.envelopes.scopeRows scope =
    PairSample.rowsOf digests first second := by
  rfl

theorem scopeEnvelopes : store.scopeEnvelopes text scope =
    [PairSample.envelope 1 first, PairSample.envelope 2 second] :=
  PairSample.scopeEnvelopes rfl rfl value_ne scopeRows

theorem collected :
    collectSegments text store scope sealedDay = .ok segments := by
  have items := PairSample.items rfl rfl value_ne scopeRows
  rw [collectSegments, EnvelopeTable.forAll_eq (by decide)]
  exact congrArg (fun items => items.foldlM (materializeItem text sealedDay) [])
    items

theorem fits : segments.Fits text := by
  intro group mem row inside
  rcases List.mem_pair.mp mem with rfl | rfl
  · rw [entry, List.mem_singleton] at inside
    rw [inside]
    show (textBytes (value (exportRow (PairSample.envelope 1 first)))).length +
      1 ≤ maxLogicalSegmentBytes
    decide +kernel
  · rw [entry, List.mem_singleton] at inside
    rw [inside]
    show (textBytes (value (exportRow (PairSample.envelope 2 second)))).length +
      1 ≤ maxLogicalSegmentBytes
    decide +kernel

def source (place : I64) (seriesId marketId : String) : SegmentSource where
  partition := (entry place seriesId marketId).1
  group := (entry place seriesId marketId).2
  ordinal := 0
  envelopes :=
    [PairSample.envelope place (PairSample.portable seriesId marketId)]

theorem sources : exportSources text store scope sealedDay =
    [source 1 "a" "b\nc", source 2 "a\nb" "c"] := by
  have firstFits := fits (entry 1 "a" "b\nc") List.mem_cons_self _
    List.mem_cons_self
  have secondFits := fits (entry 2 "a\nb" "c")
    (List.mem_cons_of_mem _ List.mem_cons_self) _ List.mem_cons_self
  rw [exportSources_eq collected, scopeEnvelopes, SegmentMap.sources, segments,
    List.flatMap_cons, List.flatMap_cons, List.flatMap_nil,
    entrySources_singleton rfl rfl firstFits,
    entrySources_singleton rfl rfl secondFits]
  rfl

theorem identity_eq (sourceManifestSha256 : String) :
    (source 1 "a" "b\nc").identity sourceManifestSha256 =
      (source 2 "a\nb" "c").identity sourceManifestSha256 := by
  apply segmentIdentity_congr
  · decide
  · rfl
  · rfl

theorem identitiesApart (sourceManifestSha256 : String) :
    IdentitiesApart text sourceManifestSha256
      (exportSources text store scope sealedDay) := by
  have same := identity_eq sourceManifestSha256
  rw [sources]
  intro left isLeft right isRight _
  rcases List.mem_pair.mp isLeft with rfl | rfl
  · rcases List.mem_pair.mp isRight with rfl | rfl
    · rfl
    · exact same
  · rcases List.mem_pair.mp isRight with rfl | rfl
    · exact same.symm
    · rfl

end JoinedSample

/-- An export with one id for two markets. -/
theorem joinedIds_not_idsUnique :
    ¬ ∀ text store scope manifest materialized,
      IdentitiesApart text (digestJson text manifest.document)
        (exportSources text store scope manifest) →
      materialized.segments.length < 2 ^ 64 →
      exportMarketSegmentsWithArtifacts text store scope manifest =
        .ok materialized →
      IdsUnique text (digestJson text manifest.document)
        (exportSources text store scope manifest) materialized.segments := by
  intro always
  obtain ⟨materialized, exported⟩ := exported_of_noGaps JoinedSample.collected
    rfl JoinedSample.fits
  obtain ⟨segments, collected, isExported⟩ := exportedFrom exported
  have count := isExported.written.length_eq
  rw [← exportSources_eq collected, JoinedSample.sources] at count
  have unique := always _ _ _ _ materialized (JoinedSample.identitiesApart _)
    (by rw [← count]; decide) exported
  have named := unique.named
  rw [JoinedSample.sources] at named
  have ids := congrArg
    (fun identity => JoinedSample.text.sha256Hex (textBytes identity))
    (JoinedSample.identity_eq (digestJson JoinedSample.text
      ExportSample.sealedDay.document))
  have partitions := (named _ List.mem_cons_self _
    (List.mem_cons_of_mem _ List.mem_cons_self) ids).2.1
  exact absurd (congrArg SegmentPartition.marketId partitions) (by decide)

/-- The id of a minute with one part is unique. -/
theorem idsUnique_iff_secondMinute :
    ∃ materialized, exportMarketSegmentsWithArtifacts CoverageSample.text
        (CoverageSample.store "market-01:0") ExportSample.scope
        ExportSample.sealedDay = .ok materialized ∧
      IdsUnique CoverageSample.text
        (digestJson CoverageSample.text ExportSample.sealedDay.document)
        (exportSources CoverageSample.text (CoverageSample.store "market-01:0")
          ExportSample.scope ExportSample.sealedDay) materialized.segments := by
  have collected := CoverageSample.collected "market-01:0"
  obtain ⟨materialized, exported⟩ := (exportMarketSegments_eq_ok_iff
    collected).mpr ⟨by decide +kernel, CoverageSample.fits⟩
  obtain ⟨segments, isCollected, isExported⟩ := exportedFrom exported
  have fits := CoverageSample.fits _ List.mem_cons_self _ List.mem_cons_self
  have sources : exportSources CoverageSample.text
      (CoverageSample.store "market-01:0") ExportSample.scope
      ExportSample.sealedDay = [⟨CoverageSample.segmentPartition,
        ⟨.legacy "market-01", true, [exportRow CoverageSample.envelope]⟩, 0,
        [CoverageSample.envelope]⟩] := by
    rw [exportSources_eq collected, CoverageSample.scopeEnvelopes,
      SegmentMap.sources, CoverageSample.segments, List.flatMap_cons,
      List.flatMap_nil, entrySources_singleton rfl rfl fits]
    rfl
  have count := isExported.written.length_eq
  rw [← exportSources_eq isCollected, sources] at count
  refine ⟨materialized, exported, (idsUnique_iff CoverageSample.text
    (CoverageSample.store "market-01:0") ExportSample.scope
    ExportSample.sealedDay materialized ?_ (by rw [← count]; decide)
    exported).mpr ?_⟩
  · rw [sources]
    intro left isLeft right isRight _
    rw [List.mem_singleton] at isLeft isRight
    rw [isLeft, isRight]
  · rw [CoverageSample.scopeEnvelopes]
    intro left isLeft right isRight _ _ _ _ _
    rw [List.mem_singleton] at isLeft isRight
    rw [isLeft, isRight]

end Pmkit
