import Pmkit.Library.Related
import Pmkit.Store.Corroboration

/-!
# The same evidence in another order

A request may hold the same evidence as another one: its records in another
order, with other metadata of the collectors, and with the lanes renamed.  What
both lanes have is then the same, and so are the gaps, but for the order of
those of unreadable records.
-/

namespace Pmkit

open MachineInt JsonValue

namespace Reconciliation

/-- A record with the same content in the renamed lane.  The shard, the
connection, the place and the time of receipt may differ. -/
structure SameRecord (rename : Equiv.Perm String)
    (raw other : RawMarketLaneRecord) : Prop where
  lane : other.chunk.replicaId = rename raw.chunk.replicaId
  minute : other.chunk.minuteStartMs = raw.chunk.minuteStartMs
  market : other.marketId = raw.marketId
  snapshot : other.frame.discoverySnapshotSha256 =
    raw.frame.discoverySnapshotSha256
  bytes : other.frame.rawBytes = raw.frame.rawBytes

/-- A request with the same evidence under renamed lanes. -/
structure SameEvidence (rename : Equiv.Perm String)
    (request other : ReconciliationRequest) : Prop where
  scope : other.scope = request.scope
  lanes : ∀ laneId, rename laneId ∈ other.expectedLanes.keys ↔
    laneId ∈ request.expectedLanes.keys
  failures : other.failures = request.failures.map fun failure =>
    { failure with laneId := rename failure.laneId }
  records : ∃ reordered, reordered.Perm request.records ∧
    List.Forall₂ (SameRecord rename) reordered other.records

/-- Different contents have different bytes and addresses: the JSON writer
writes different values differently, and no two of the bytes collide. -/
structure TellsApart (text : ReconcilerText) (records : List ParsedRecord) :
    Prop where
  bytes : ∀ left ∈ records, ∀ right ∈ records,
    left.canonicalBytes = right.canonicalBytes → left.json = right.json
  digests : ∀ left ∈ records, ∀ right ∈ records,
    text.sha256Hex left.canonicalBytes = text.sha256Hex right.canonicalBytes →
    left.canonicalBytes = right.canonicalBytes

/-- A gap is the same but for the names of the lanes in its reason. -/
def GapAlike (rename : Equiv.Perm String) (gap other : ReplayGapInterval) :
    Prop :=
  other = { gap with reason := other.reason } ∧
    (other.reason = gap.reason ∨ ∃ counts others : List (String × Nat),
        gap.reason = disagreementReason counts ∧
        other.reason = disagreementReason others ∧
        others.Perm (counts.map fun count => (rename count.1, count.2)))

def malformedPlaces (text : ReconcilerText)
    (raws : List RawMarketLaneRecord) : List (String × I64 × Option String) :=
  (raws.filter fun raw => parseRecord text raw = none).map fun raw =>
    (raw.marketId, raw.chunk.minuteStartMs,
      if validDigest raw.frame.discoverySnapshotSha256 then
        some raw.frame.discoverySnapshotSha256
      else
        none)

def placeGap (scope : OwnerScope) (place : String × I64 × Option String) :
    ReplayGapInterval where
  scope := scope
  partition := place.1 ++ ":" ++ toString place.2.1.1
  discoverySnapshotSha256 := place.2.2
  startTimeMs := place.2.1
  endTimeMs := I64.ofInt (place.2.1.1 + (utcMinuteMs - 1))
  reason := "malformed_record"

theorem malformedGaps_eq (text : ReconcilerText) (scope : OwnerScope)
    (raws : List RawMarketLaneRecord) :
    malformedGaps text scope raws =
      (malformedPlaces text raws).map (placeGap scope) := by
  rw [malformedGaps, malformedPlaces, List.map_map]
  rfl

theorem placeGap_injective (scope : OwnerScope) :
    Function.Injective (placeGap scope) := by
  rintro ⟨market, minute, snapshot⟩ ⟨otherMarket, otherMinute, otherSnapshot⟩
    same
  simp only [placeGap, ReplayGapInterval.mk.injEq, true_and, and_true] at same
  obtain ⟨partition, rfl, rfl, _⟩ := same
  rw [String.append_left_inj, String.append_left_inj] at partition
  rw [partition]

section Records

variable {text : ReconcilerText} {rename : Equiv.Perm String}

def ParsedRecord.inLane (rename : Equiv.Perm String) (record : ParsedRecord) :
    ParsedRecord :=
  { record with laneId := rename record.laneId }

theorem parseRecord_same {raw other : RawMarketLaneRecord}
    (same : SameRecord rename raw other) :
    parseRecord text other =
      (parseRecord text raw).map (ParsedRecord.inLane rename) := by
  unfold parseRecord
  rw [same.bytes, same.market, same.minute, same.snapshot, same.lane]
  cases (text.readJson raw.frame.rawBytes).bind WireMarketRecord.read with
  | none => rfl
  | some wire =>
      simp only
      split
      · rfl
      · rfl

theorem readRecords_same {raws others : List RawMarketLaneRecord}
    (same : List.Forall₂ (SameRecord rename) raws others) :
    readRecords text others =
      (readRecords text raws).map (ParsedRecord.inLane rename) := by
  induction same with
  | nil =>
      rfl
  | cons first _ ih =>
      rw [readRecords, readRecords, List.filterMap_cons, List.filterMap_cons,
        parseRecord_same first]
      cases parseRecord text _ with
      | none => exact ih
      | some record =>
          rw [Option.map_some]
          exact congrArg _ ih

theorem malformedPlaces_same {raws others : List RawMarketLaneRecord}
    (same : List.Forall₂ (SameRecord rename) raws others) :
    malformedPlaces text others = malformedPlaces text raws := by
  induction same with
  | nil =>
      rfl
  | @cons raw other raws others first _ ih =>
      have unread : parseRecord text other = none ↔
          parseRecord text raw = none := by
        rw [parseRecord_same first, Option.map_eq_none_iff]
      rw [malformedPlaces, malformedPlaces] at ih ⊢
      by_cases unreadable : parseRecord text raw = none
      · rw [List.filter_cons_of_pos, List.filter_cons_of_pos, List.map_cons,
          List.map_cons, ih, first.market, first.minute, first.snapshot]
        · exact decide_eq_true unreadable
        · exact decide_eq_true (unread.mpr unreadable)
      · rw [List.filter_cons_of_neg, List.filter_cons_of_neg, ih]
        · simpa using unreadable
        · simpa [unread] using unreadable

end Records

/-! ## Contents under renamed lanes -/

section Contents

variable {text : ReconcilerText} {rename : Equiv.Perm String}
  {records others : List ParsedRecord}

theorem laneRecords_inLane (partition : Partition) (digest laneId : String) :
    laneRecords (records.map (ParsedRecord.inLane rename)) partition digest
        (rename laneId) =
      (laneRecords records partition digest laneId).map
        (ParsedRecord.inLane rename) := by
  rw [laneRecords, laneRecords, List.filter_map]
  refine congrArg _ (List.filter_congr ?_)
  intro record _
  rw [Function.comp_apply, decide_eq_decide]
  simp [ParsedRecord.inLane]

/-- Both lanes have as many records of a content as before. -/
theorem length_laneRecords
    (same : others.Perm (records.map (ParsedRecord.inLane rename)))
    (partition : Partition) (digest laneId : String) :
    (laneRecords others partition digest (rename laneId)).length =
      (laneRecords records partition digest laneId).length := by
  have renamed := (same.filter fun record : ParsedRecord =>
    record.partition = partition ∧ record.contentSha256 = digest ∧
      record.laneId = rename laneId).length_eq
  rw [laneRecords, renamed]
  change (laneRecords _ _ _ _).length = _
  rw [laneRecords_inLane, List.length_map]

theorem contents_same
    (same : others.Perm (records.map (ParsedRecord.inLane rename))) :
    contents others = contents records := by
  apply contents_congr
  intro partition digest
  constructor
  · rintro ⟨record, mem, isPartition, isDigest⟩
    obtain ⟨source, inside, rfl⟩ := List.mem_map.mp (same.subset mem)
    exact ⟨source, inside, isPartition, isDigest⟩
  · rintro ⟨record, mem, isPartition, isDigest⟩
    exact ⟨record.inLane rename,
      same.symm.subset (List.mem_map_of_mem mem), isPartition, isDigest⟩

variable {raws : List RawMarketLaneRecord} {content : Partition × String}

theorem content_eq (apart : TellsApart text (readRecords text raws))
    {left right : ParsedRecord} (inLeft : left ∈ readRecords text raws)
    (inRight : right ∈ readRecords text raws)
    (same : left.contentSha256 = right.contentSha256) :
    left.content = right.content := by
  obtain ⟨_, _, leftRead⟩ := List.mem_filterMap.mp inLeft
  obtain ⟨_, _, rightRead⟩ := List.mem_filterMap.mp inRight
  have ofLeft := parsedFrom leftRead
  have ofRight := parsedFrom rightRead
  have addresses := same
  rw [ofLeft.digest, ofRight.digest] at addresses
  have bytes := apart.digests left inLeft right inRight addresses
  have json := apart.bytes left inLeft right inRight bytes
  obtain ⟨leftLane, ⟨_, _, _⟩, _, _, _, _, _, _⟩ := left
  obtain ⟨rightLane, ⟨_, _, _⟩, _, _, _, _, _, _⟩ := right
  simp only [ParsedRecord.json, canonicalJson, object.injEq, List.cons.injEq,
    Prod.mk.injEq, string.injEq, number.injEq, true_and, and_true] at json
  obtain ⟨config, snapshot, time, market, minute, normalized, venue⟩ := json
  simp only at bytes same
  simp only [ParsedRecord.content, ParsedRecord.mk.injEq, Partition.mk.injEq,
    true_and]
  exact ⟨⟨snapshot, market, Subtype.ext minute⟩, Subtype.ext time, venue,
    config, normalized, bytes, same⟩

theorem matching_perm {counts others : List (String × Nat)}
    (same : (others.map Prod.snd).Perm (counts.map Prod.snd)) :
    matching others = matching counts ∧ most others = most counts := by
  rw [matching, matching, most, most]
  constructor
  · refine congrArg (Option.getD · 0) (Option.ext fun least => ?_)
    simp only [List.min?_eq_some_iff, same.mem_iff]
  · refine congrArg (Option.getD · 0) (Option.ext fun greatest => ?_)
    simp only [List.max?_eq_some_iff, same.mem_iff]

variable {request other : ReconciliationRequest}

/-- The lanes are the renamed ones, in an order of their own. -/
theorem keys_same
    (lanes : ∀ laneId, rename laneId ∈ other.expectedLanes.keys ↔
      laneId ∈ request.expectedLanes.keys) :
    other.expectedLanes.keys.Perm
      (request.expectedLanes.keys.map rename) := by
  apply (List.perm_ext_iff_of_nodup other.expectedLanes.keys_nodup
    (request.expectedLanes.keys_nodup.map rename.injective)).mpr
  intro laneId
  obtain ⟨source, rfl⟩ := rename.surjective laneId
  rw [lanes, List.mem_map_of_injective rename.injective]

theorem laneCounts_same
    (lanes : ∀ laneId, rename laneId ∈ other.expectedLanes.keys ↔
      laneId ∈ request.expectedLanes.keys)
    (same : others.Perm (records.map (ParsedRecord.inLane rename)))
    (partition : Partition) (digest : String) :
    (laneCounts other.expectedLanes.keys others partition digest).Perm
      ((laneCounts request.expectedLanes.keys records partition digest).map
        fun count => (rename count.1, count.2)) := by
  refine ((keys_same lanes).map _).trans (List.Perm.of_eq ?_)
  rw [laneCounts, List.map_map, List.map_map]
  apply List.map_congr_left
  intro laneId _
  rw [Function.comp_apply, Function.comp_apply,
    length_laneRecords same partition digest laneId]

theorem extremes_same
    (lanes : ∀ laneId, rename laneId ∈ other.expectedLanes.keys ↔
      laneId ∈ request.expectedLanes.keys)
    (same : others.Perm (records.map (ParsedRecord.inLane rename)))
    (partition : Partition) (digest : String) :
    matching (laneCounts other.expectedLanes.keys others partition digest) =
        matching (laneCounts request.expectedLanes.keys records partition
          digest) ∧
      most (laneCounts other.expectedLanes.keys others partition digest) =
        most (laneCounts request.expectedLanes.keys records partition
          digest) := by
  apply matching_perm
  refine ((laneCounts_same lanes same partition digest).map Prod.snd).trans
    (List.Perm.of_eq ?_)
  rw [List.map_map]
  rfl

theorem copies_same (apart : TellsApart text (readRecords text raws))
    (lanes : ∀ laneId, rename laneId ∈ other.expectedLanes.keys ↔
      laneId ∈ request.expectedLanes.keys)
    (same : others.Perm
      ((readRecords text raws).map (ParsedRecord.inLane rename)))
    (known : ∀ record ∈ readRecords text raws,
      record.laneId ∈ request.expectedLanes.keys)
    (present : content ∈ contents (readRecords text raws)) :
    copies other.expectedLanes.keys others content =
      copies request.expectedLanes.keys (readRecords text raws) content := by
  obtain ⟨partition, digest⟩ := content
  have otherPresent : (partition, digest) ∈ contents others := by
    rw [contents_same same]
    exact present
  have otherKnown : ∀ record ∈ others,
      record.laneId ∈ other.expectedLanes.keys := by
    intro record mem
    obtain ⟨source, inside, rfl⟩ := List.mem_map.mp (same.subset mem)
    exact (lanes source.laneId).mpr (known source inside)
  obtain ⟨record, mem, _, isDigest, found⟩ := exists_template known present
  obtain ⟨second, secondMem, _, secondDigest, secondFound⟩ :=
    exists_template otherKnown otherPresent
  obtain ⟨source, inside, rfl⟩ := List.mem_map.mp (same.subset secondMem)
  have content : (source.inLane rename).content = record.content := by
    have ofSource : source.content = record.content :=
      content_eq apart inside mem (secondDigest.trans isDigest.symm)
    exact ofSource
  simp only [copies, found, secondFound, content,
    (extremes_same lanes same partition digest).1]

/-! ## Results -/

/-- How often both lanes have a content, and which contents they disagree
about. -/
structure Corroborates (text : ReconcilerText) (request : ReconciliationRequest)
    (result : ReconciliationResult) : Prop where
  occurrences : ∀ record ∈ readRecords text request.records,
    ∀ first second, request.expectedLanes.keys = [first, second] →
    (result.occurrences.filter fun occurrence =>
        occurrence.contentSha256 = record.contentSha256).length =
      min (laneRecords (readRecords text request.records) record.partition
          record.contentSha256 first).length
        (laneRecords (readRecords text request.records) record.partition
          record.contentSha256 second).length
  source : ∀ occurrence ∈ result.occurrences,
    ∃ record ∈ readRecords text request.records,
      occurrence.contentSha256 = record.contentSha256 ∧
      occurrence.canonicalBytes = record.canonicalBytes
  gaps : ∃ disagreeing : List (Partition × String), disagreeing.Nodup ∧
    (∀ first second, request.expectedLanes.keys = [first, second] →
      ∀ partition digest, (partition, digest) ∈ disagreeing ↔
        (laneRecords (readRecords text request.records) partition digest
          first).length ≠
        (laneRecords (readRecords text request.records) partition digest
          second).length) ∧
    result.gaps = request.failures.map (failureGap request.scope) ++
      malformedGaps text request.scope request.records ++
      disagreeing.map fun content =>
        partitionGap request.scope content.1 (disagreementReason
          (laneCounts request.expectedLanes.keys
            (readRecords text request.records) content.1 content.2))

theorem forall₂_of_number {scope : OwnerScope} {items : List Corroborated}
    {start numbered : StreamRanks × List CanonicalOccurrence}
    (ok : items.foldlM (number scope) start = .ok numbered) :
    ∃ occurrences, numbered.2 = start.2 ++ occurrences ∧
      List.Forall₂ (fun item occurrence =>
        ∃ rank, occurrence = item.occurrence scope rank) items occurrences := by
  induction items generalizing start with
  | nil =>
      cases ok
      exact ⟨[], (List.append_nil _).symm, .nil⟩
  | cons item rest ih =>
      rw [List.foldlM_cons] at ok
      obtain ⟨next, first, later⟩ := Fallible.bind_eq_ok.mp ok
      obtain ⟨⟨ranks, rank⟩, _, rfl⟩ := Fallible.map_eq_ok.mp first
      obtain ⟨occurrences, same, each⟩ := ih later
      refine ⟨item.occurrence scope rank :: occurrences, ?_,
        .cons ⟨rank, rfl⟩ each⟩
      rw [same, List.append_assoc]
      rfl

theorem filter_copies
    (known : ∀ record ∈ records, record.laneId ∈ request.expectedLanes.keys)
    (present : content ∈ contents records)
    (digest : String) :
    (copies request.expectedLanes.keys records content).filter
        (fun item => item.record.contentSha256 = digest) =
      if content.2 = digest then
        copies request.expectedLanes.keys records content
      else
        [] := by
  obtain ⟨partition, own⟩ := content
  obtain ⟨record, _, _, rfl, found⟩ := exists_template known present
  have each : ∀ item ∈ copies request.expectedLanes.keys records
      (partition, record.contentSha256),
      item.record.contentSha256 = record.contentSha256 := by
    intro item mem
    simp only [copies, found] at mem
    obtain ⟨ordinal, _, rfl⟩ := List.mem_map.mp mem
    rfl
  split
  · rename_i same
    rw [List.filter_eq_self]
    intro item mem
    exact decide_eq_true ((each item mem).trans same)
  · rename_i ne
    rw [List.filter_eq_nil_iff]
    intro item mem
    rw [each item mem]
    simpa using ne

theorem length_copies
    (known : ∀ record ∈ records, record.laneId ∈ request.expectedLanes.keys)
    (present : content ∈ contents records) :
    (copies request.expectedLanes.keys records content).length =
      matching (laneCounts request.expectedLanes.keys records content.1
        content.2) := by
  obtain ⟨partition, digest⟩ := content
  obtain ⟨record, _, _, _, found⟩ := exists_template known present
  simp only [copies, found, List.length_map, List.length_range]

theorem length_corroborated (apart : TellsApart text (readRecords text raws))
    (known : ∀ record ∈ readRecords text raws,
      record.laneId ∈ request.expectedLanes.keys)
    {record : ParsedRecord} (mem : record ∈ readRecords text raws) :
    ((corroborated request.expectedLanes.keys (readRecords text raws)).filter
        fun item => item.record.contentSha256 = record.contentSha256).length =
      matching (laneCounts request.expectedLanes.keys (readRecords text raws)
        record.partition record.contentSha256) := by
  have present : (record.partition, record.contentSha256) ∈
      contents (readRecords text raws) :=
    (mem_contents _ _ _).mpr ⟨record, mem, rfl, rfl⟩
  have unique : ∀ content ∈ contents (readRecords text raws),
      content.2 = record.contentSha256 →
      content = (record.partition, record.contentSha256) := by
    rintro ⟨partition, digest⟩ inside rfl
    obtain ⟨other, otherMem, rfl, same⟩ := (mem_contents _ _ _).mp inside
    have content : other.content.partition = record.content.partition :=
      congrArg ParsedRecord.partition
        (content_eq apart otherMem mem same)
    exact Prod.ext content rfl
  obtain ⟨front, back, split⟩ := List.append_of_mem present
  have nodup := contents_nodup (readRecords text raws)
  rw [split, List.nodup_middle, List.nodup_cons, List.mem_append,
    not_or] at nodup
  have elsewhere : ∀ content ∈ contents (readRecords text raws),
      content ≠ (record.partition, record.contentSha256) →
      (copies request.expectedLanes.keys (readRecords text raws)
        content).filter (fun item =>
          item.record.contentSha256 = record.contentSha256) = [] := by
    intro content inside ne
    rw [filter_copies known inside, if_neg]
    exact fun same => ne (unique content inside same)
  have nothing : ∀ part ⊆ contents (readRecords text raws),
      (record.partition, record.contentSha256) ∉ part →
      part.flatMap (fun content => (copies request.expectedLanes.keys
        (readRecords text raws) content).filter fun item =>
          item.record.contentSha256 = record.contentSha256) = [] := by
    intro part inside absent
    rw [List.flatMap_eq_nil_iff]
    intro content isPart
    apply elsewhere content (inside isPart)
    rintro rfl
    exact absent isPart
  rw [corroborated, List.filter_flatMap, split, List.flatMap_append,
    List.flatMap_cons, nothing front, nothing back, List.nil_append,
    List.append_nil, filter_copies known present, if_pos rfl,
    length_copies known present]
  · rw [split]
    intro content isPart
    exact List.mem_append_right _ (List.mem_cons_of_mem _ isPart)
  · exact nodup.1.2
  · rw [split]
    intro content isPart
    exact List.mem_append_left _ isPart
  · exact nodup.1.1

theorem extremes_two (records : List ParsedRecord) (first second : String)
    (partition : Partition) (digest : String) :
    matching (laneCounts [first, second] records partition digest) =
        min (laneRecords records partition digest first).length
          (laneRecords records partition digest second).length ∧
      most (laneCounts [first, second] records partition digest) =
        max (laneRecords records partition digest first).length
          (laneRecords records partition digest second).length := by
  constructor
  · rfl
  · rfl

theorem mem_laneRecords
    {partition : Partition} {digest laneId : String} {record : ParsedRecord} :
    record ∈ laneRecords records partition digest laneId ↔
      record ∈ records ∧ record.partition = partition ∧
        record.contentSha256 = digest ∧ record.laneId = laneId := by
  rw [laneRecords, List.mem_filter, decide_eq_true_eq]

theorem mem_disagreeing {first second : String}
    (two : request.expectedLanes.keys = [first, second])
    (partition : Partition) (digest : String) :
    (partition, digest) ∈ (contents records).filter (fun content =>
        matching (laneCounts request.expectedLanes.keys records content.1
            content.2) ≠
          most (laneCounts request.expectedLanes.keys records content.1
            content.2)) ↔
      (laneRecords records partition digest first).length ≠
        (laneRecords records partition digest second).length := by
  rw [List.mem_filter, decide_eq_true_eq, two,
    (extremes_two records first second partition digest).1,
    (extremes_two records first second partition digest).2, mem_contents]
  constructor
  · rintro ⟨_, differ⟩ same
    rw [same] at differ
    omega
  · intro differ
    refine ⟨?_, by omega⟩
    by_contra absent
    have empty : ∀ laneId,
        laneRecords records partition digest laneId = [] := by
      intro laneId
      rw [List.eq_nil_iff_forall_not_mem]
      intro record mem
      obtain ⟨inside, isPartition, isDigest, _⟩ := mem_laneRecords.mp mem
      exact absent ⟨record, inside, isPartition, isDigest⟩
    rw [empty, empty] at differ
    exact differ rfl

/-- Both lanes have what the result says. -/
theorem corroborates {result : ReconciliationResult}
    (apart : TellsApart text (readRecords text request.records))
    (accepted : reconcileRedundantMarketEvidence text request = .ok result) :
    Corroborates text request result := by
  obtain ⟨_, _, lanes, ⟨ranks, numbered⟩, gaps⟩ :=
    reconcile_eq_ok_iff.mp accepted
  have known : ∀ record ∈ readRecords text request.records,
      record.laneId ∈ request.expectedLanes.keys :=
    laneId_of_mem_readRecords lanes
  obtain ⟨occurrences, same, each⟩ := forall₂_of_number numbered
  rw [List.nil_append] at same
  rw [← same] at each
  constructor
  · intro record mem first second two
    have digests : result.occurrences.map CanonicalOccurrence.contentSha256 =
        (corroborated request.expectedLanes.keys
          (readRecords text request.records)).map
            fun item => item.record.contentSha256 := by
      rw [← List.forall₂_eq_eq_eq, List.forall₂_map_left_iff,
        List.forall₂_map_right_iff]
      refine each.flip.imp ?_
      rintro occurrence item ⟨rank, rfl⟩
      rfl
    have count := congrArg
      (List.countP fun digest => digest = record.contentSha256) digests
    rw [List.countP_map, List.countP_map, List.countP_eq_length_filter,
      List.countP_eq_length_filter] at count
    refine Eq.trans count ((length_corroborated apart known mem).trans ?_)
    rw [two]
    rfl
  · intro occurrence mem
    obtain ⟨item, inside, rank, rfl⟩ := Related.exists_left each mem
    obtain ⟨⟨partition, digest⟩, present, isCopy⟩ :=
      List.mem_flatMap.mp inside
    obtain ⟨record, isRecord, _, _, found⟩ := exists_template known present
    simp only [copies, found] at isCopy
    obtain ⟨ordinal, _, rfl⟩ := List.mem_map.mp isCopy
    exact ⟨record, isRecord, rfl, rfl⟩
  · refine ⟨_, (contents_nodup _).filter _, ?_, gaps⟩
    intro first second two partition digest
    exact mem_disagreeing two partition digest

end Contents

/-! ## Both requests -/

section Both

variable {text : ReconcilerText} {rename : Equiv.Perm String}
  {request other : ReconciliationRequest}

theorem readRecords_perm (same : SameEvidence rename request other) :
    (readRecords text other.records).Perm
      ((readRecords text request.records).map (ParsedRecord.inLane rename)) := by
  obtain ⟨reordered, order, each⟩ := same.records
  rw [readRecords_same each]
  exact (order.filterMap (parseRecord text)).map _

theorem malformedPlaces_perm (same : SameEvidence rename request other) :
    (malformedPlaces text other.records).Perm
      (malformedPlaces text request.records) := by
  obtain ⟨reordered, order, each⟩ := same.records
  rw [malformedPlaces_same each]
  exact (order.filter _).map _

/-- Lanes are known under their new names. -/
theorem lanes_known_iff (same : SameEvidence rename request other) :
    (∀ raw ∈ other.records, raw.chunk.replicaId ∈ other.expectedLanes.keys) ↔
      ∀ raw ∈ request.records,
        raw.chunk.replicaId ∈ request.expectedLanes.keys := by
  obtain ⟨reordered, order, each⟩ := same.records
  constructor
  · intro known raw mem
    obtain ⟨_, inside, isSame⟩ :=
      Related.exists_right each (order.symm.subset mem)
    rw [← same.lanes, ← isSame.lane]
    exact known _ inside
  · intro known raw mem
    obtain ⟨source, inside, isSame⟩ := Related.exists_left each mem
    rw [isSame.lane, same.lanes]
    exact known source (order.subset inside)

theorem failures_known_iff (same : SameEvidence rename request other) :
    (∀ failure ∈ other.failures, failure.laneId ∈ other.expectedLanes.keys) ↔
      ∀ failure ∈ request.failures,
        failure.laneId ∈ request.expectedLanes.keys := by
  rw [same.failures]
  simp only [List.forall_mem_map, same.lanes]

theorem corroborated_same
    (apart : TellsApart text (readRecords text request.records))
    (same : SameEvidence rename request other)
    (known : ∀ raw ∈ request.records,
      raw.chunk.replicaId ∈ request.expectedLanes.keys) :
    corroborated other.expectedLanes.keys (readRecords text other.records) =
      corroborated request.expectedLanes.keys
        (readRecords text request.records) := by
  have order := @readRecords_perm text _ _ _ same
  rw [corroborated, corroborated, contents_same order, List.flatMap_def,
    List.flatMap_def]
  refine congrArg List.flatten (List.map_congr_left ?_)
  intro content present
  exact copies_same apart same.lanes order (laneId_of_mem_readRecords known)
    present

def requestGaps (text : ReconcilerText) (request : ReconciliationRequest) :
    List ReplayGapInterval :=
  request.failures.map (failureGap request.scope) ++
    malformedGaps text request.scope request.records ++
    disagreements request.scope request.expectedLanes.keys
      (readRecords text request.records)
      (contents (readRecords text request.records))

/-- A request with the same evidence is accepted just when the first one is, and
then the occurrences are the same. -/
theorem accepted_same
    (apart : TellsApart text (readRecords text request.records))
    (same : SameEvidence rename request other)
    {otherResult : ReconciliationResult} :
    reconcileRedundantMarketEvidence text other = .ok otherResult ↔
      (∃ result, reconcileRedundantMarketEvidence text request = .ok result ∧
        otherResult.occurrences = result.occurrences) ∧
      otherResult.gaps = requestGaps text other := by
  rw [reconcile_eq_ok_iff, failures_known_iff same, lanes_known_iff same,
    (keys_same same.lanes).length_eq, List.length_map]
  constructor
  · rintro ⟨two, failures, lanes, ⟨ranks, numbered⟩, gaps⟩
    rw [corroborated_same apart same lanes, same.scope] at numbered
    exact ⟨⟨⟨otherResult.occurrences, requestGaps text request⟩,
      reconcile_eq_ok_iff.mpr
        ⟨two, failures, lanes, ⟨ranks, numbered⟩, rfl⟩, rfl⟩, gaps⟩
  · rintro ⟨⟨result, accepted, occurrences⟩, gaps⟩
    obtain ⟨two, failures, lanes, ⟨ranks, numbered⟩, _⟩ :=
      reconcile_eq_ok_iff.mp accepted
    refine ⟨two, failures, lanes, ⟨ranks, ?_⟩, gaps⟩
    rw [corroborated_same apart same lanes, same.scope, occurrences]
    exact numbered

theorem GapAlike.refl (gap : ReplayGapInterval) : GapAlike rename gap gap :=
  ⟨rfl, Or.inl rfl⟩

theorem disagreements_alike (same : SameEvidence rename request other) :
    List.Forall₂ (GapAlike rename)
      (disagreements request.scope request.expectedLanes.keys
        (readRecords text request.records)
        (contents (readRecords text request.records)))
      (disagreements other.scope other.expectedLanes.keys
        (readRecords text other.records)
        (contents (readRecords text other.records))) := by
  have order := @readRecords_perm text _ _ _ same
  have extremes := fun content : Partition × String =>
    extremes_same same.lanes order content.1 content.2
  rw [disagreements, disagreements, contents_same order, same.scope]
  simp only [extremes]
  rw [List.forall₂_map_left_iff, List.forall₂_map_right_iff, List.forall₂_same]
  intro content _
  refine ⟨rfl, Or.inr ⟨_, _, rfl, rfl, ?_⟩⟩
  exact laneCounts_same same.lanes order content.1 content.2

/-- The gaps are the same up to the lanes just when those of the unreadable
records are in the same order. -/
theorem requestGaps_alike_iff (same : SameEvidence rename request other) :
    List.Forall₂ (GapAlike rename) (requestGaps text request)
        (requestGaps text other) ↔
      malformedPlaces text other.records =
        malformedPlaces text request.records := by
  have failures : other.failures.map (failureGap other.scope) =
      request.failures.map (failureGap request.scope) := by
    rw [same.failures, same.scope, List.map_map]
    rfl
  have malformed : (malformedGaps text other.scope other.records).length =
      (malformedGaps text request.scope request.records).length := by
    rw [malformedGaps_eq, malformedGaps_eq, List.length_map, List.length_map,
      (malformedPlaces_perm same).length_eq]
  rw [requestGaps, requestGaps, failures]
  constructor
  · intro alike
    have front := List.forall₂_take
      (request.failures.map (failureGap request.scope) ++
        malformedGaps text request.scope request.records).length alike
    rw [List.take_left, List.length_append, ← malformed, ← List.length_append,
      List.take_left] at front
    have middle := List.forall₂_drop
      (request.failures.map (failureGap request.scope)).length front
    rw [List.drop_left, List.drop_left, malformedGaps_eq, malformedGaps_eq,
      same.scope, List.forall₂_map_left_iff, List.forall₂_map_right_iff]
      at middle
    rw [← List.forall₂_eq_eq_eq]
    refine middle.flip.imp ?_
    intro place source placeAlike
    apply placeGap_injective request.scope
    rw [placeAlike.1]
    rfl
  · intro places
    have equal : malformedGaps text other.scope other.records =
        malformedGaps text request.scope request.records := by
      rw [malformedGaps_eq, malformedGaps_eq, places, same.scope]
    rw [equal]
    refine List.rel_append ?_ (disagreements_alike same)
    exact List.forall₂_same.mpr fun gap _ => GapAlike.refl gap

/-- The result of a request depends on its content only: a request with the
same evidence gives the same occurrences, and the same gaps but for the names of
the lanes. -/
def DependsOnContent (text : ReconcilerText) (rename : Equiv.Perm String)
    (other : ReconciliationRequest) (result : ReconciliationResult) : Prop :=
  ∃ otherResult,
    reconcileRedundantMarketEvidence text other = .ok otherResult ∧
    otherResult.occurrences = result.occurrences ∧
    List.Forall₂ (GapAlike rename) result.gaps otherResult.gaps

end Both

end Reconciliation

open Reconciliation

/-- A reconciliation depends on the content of its request just when the
records that cannot be read stay in their order; how often it has a content and
what it says the lanes disagree about never depends on anything else. -/
theorem reconcile_dependsOnContent_iff
    (text : ReconcilerText) (rename : Equiv.Perm String)
    (request other : ReconciliationRequest)
    (apart : TellsApart text (readRecords text request.records))
    (same : SameEvidence rename request other) :
    (reconcileRedundantMarketEvidence text other).isOk =
        (reconcileRedundantMarketEvidence text request).isOk ∧
      ∀ result,
        reconcileRedundantMarketEvidence text request = .ok result →
        ((DependsOnContent text rename other result ∧
            Corroborates text request result) ↔
          malformedPlaces text other.records =
            malformedPlaces text request.records) := by
  constructor
  · rw [Bool.eq_iff_iff, Fallible.isOk_iff, Fallible.isOk_iff]
    constructor
    · rintro ⟨otherResult, accepted⟩
      obtain ⟨⟨result, isAccepted, _⟩, _⟩ :=
        (accepted_same apart same).mp accepted
      exact ⟨result, isAccepted⟩
    · rintro ⟨result, accepted⟩
      exact ⟨⟨result.occurrences, requestGaps text other⟩,
        (accepted_same apart same).mpr ⟨⟨result, accepted, rfl⟩, rfl⟩⟩
  · intro result accepted
    have gaps : result.gaps = requestGaps text request :=
      (reconcile_eq_ok_iff.mp accepted).2.2.2.2
    rw [and_iff_left (corroborates apart accepted),
      ← requestGaps_alike_iff same]
    constructor
    · rintro ⟨otherResult, otherAccepted, _, alike⟩
      rw [gaps, ((accepted_same apart same).mp otherAccepted).2] at alike
      exact alike
    · intro alike
      rw [← gaps] at alike
      exact ⟨⟨result.occurrences, requestGaps text other⟩,
        (accepted_same apart same).mpr ⟨⟨result, accepted, rfl⟩, rfl⟩, rfl,
        alike⟩

/-! ## Samples -/

namespace SampleEvidence

def normalized : JsonValue :=
  .object [("canonical_market_id", .string "btc-5m"),
    ("stream_id", .string "market:btc-5m:up")]

/-- A record of a market as a collector writes it. -/
def wire : JsonValue :=
  .object [("market_id", .string "btc-5m"), ("event_time_ms", .number 1000),
    ("venue_id", .string "polymarket"), ("config_hash", .string "fixture"),
    ("normalized", normalized)]

/-- Its text, which is of plain letters. -/
def wireBytes : List UInt8 :=
  (characters toString id wire).map fun letter => UInt8.ofNat letter.toNat

def snapshot : String :=
  "aaaaaaaaaaaaaaaaaaaaaaaaaaaaaaaaaaaaaaaaaaaaaaaaaaaaaaaaaaaaaaaa"

def text : ReconcilerText where
  sha256Hex := fun _ =>
    "7c9ce0e3d2fb45d08febdd80a2954f613ec8863a56da5ce446c3473466799d85"
  writeJson := compact toString sortFields
  parseJson := fun _ => none
  toLowercase := String.toLower
  toLowercase_display := toLower_display
  readJson := fun bytes => if bytes.isEmpty then none else some wire

def laneA : SpoolChunk where
  replicaId := "lane-a"
  shardId := "shard-a"
  minuteStartMs := 0
  replicaValid := by decide +kernel
  shardValid := by decide +kernel
  aligned := by decide +kernel

def laneB : SpoolChunk where
  replicaId := "lane-b"
  shardId := "shard-b"
  minuteStartMs := 0
  replicaValid := by decide +kernel
  shardValid := by decide +kernel
  aligned := by decide +kernel

def record (chunk : SpoolChunk) (snapshot marketId : String)
    (bytes : List UInt8) (receiptTimeMs : I64) : RawMarketLaneRecord where
  chunk := chunk
  frame := ⟨0, 1, receiptTimeMs, snapshot, bytes⟩
  marketId := marketId

def lanes : SortedMap String Unit compare where
  entries := [("lane-a", ()), ("lane-b", ())]
  sorted := by decide +kernel

def request (records : List RawMarketLaneRecord) : ReconciliationRequest where
  scope := ⟨⟨"reconciliation", by decide⟩, ⟨"fixture", by decide⟩⟩
  expectedLanes := lanes
  records := records
  failures := []

/-- Both lanes have the record, and one has something unreadable. -/
def matched : ReconciliationRequest :=
  request [record laneA snapshot "btc-5m" wireBytes 2001,
    record laneB snapshot "btc-5m" wireBytes 2002,
    record laneA snapshot "eth-5m" [] 2003]

/-- The lanes in each other's place, in another order. -/
def exchanged : ReconciliationRequest :=
  request [record laneB snapshot "eth-5m" [] 2013,
    record laneA snapshot "btc-5m" wireBytes 2012,
    record laneB snapshot "btc-5m" wireBytes 2011]

def unreadable : ReconciliationRequest :=
  request [record laneA snapshot "btc-5m" [] 2001,
    record laneA snapshot "eth-5m" [] 2002]

def reordered : ReconciliationRequest :=
  request [record laneA snapshot "eth-5m" [] 2002,
    record laneA snapshot "btc-5m" [] 2001]

theorem exchangeLanes (laneId : String) :
    Equiv.swap "lane-a" "lane-b" laneId ∈ lanes.keys ↔ laneId ∈ lanes.keys := by
  change _ ∈ ["lane-a", "lane-b"] ↔ _ ∈ ["lane-a", "lane-b"]
  rw [Equiv.swap_apply_def]
  split
  · rename_i isA
    simp [isA]
  · split
    · rename_i isB
      simp [isB]
    · exact Iff.rfl

theorem matched_exchanged :
    SameEvidence (Equiv.swap "lane-a" "lane-b") matched exchanged where
  scope := rfl
  lanes := exchangeLanes
  failures := rfl
  records := by
    refine ⟨matched.records.reverse, List.reverse_perm _,
      .cons ⟨?_, rfl, rfl, rfl, rfl⟩ (.cons ⟨?_, rfl, rfl, rfl, rfl⟩
        (.cons ⟨?_, rfl, rfl, rfl, rfl⟩ .nil))⟩
    · exact (Equiv.swap_apply_left "lane-a" "lane-b").symm
    · exact (Equiv.swap_apply_right "lane-a" "lane-b").symm
    · exact (Equiv.swap_apply_left "lane-a" "lane-b").symm

/-- There is one content. -/
theorem matched_json : ∀ record ∈ readRecords text matched.records,
    record.json = canonicalJson ⟨snapshot, "btc-5m", 0⟩
      ⟨"btc-5m", 1000, "polymarket", "fixture", normalized⟩ := by
  decide +kernel

theorem matched_apart :
    TellsApart text (readRecords text matched.records) where
  bytes := by
    intro left inLeft right inRight _
    rw [matched_json left inLeft, matched_json right inRight]
  digests := by
    intro left inLeft right inRight _
    obtain ⟨_, _, leftRead⟩ := List.mem_filterMap.mp inLeft
    obtain ⟨_, _, rightRead⟩ := List.mem_filterMap.mp inRight
    rw [(parsedFrom leftRead).bytes, (parsedFrom rightRead).bytes,
      matched_json left inLeft, matched_json right inRight]

end SampleEvidence

theorem reconcile_dependsOnContent_iff_exchanged :
    ∃ result,
      reconcileRedundantMarketEvidence SampleEvidence.text
        SampleEvidence.matched = .ok result ∧
      DependsOnContent SampleEvidence.text (Equiv.swap "lane-a" "lane-b")
        SampleEvidence.exchanged result ∧
      Corroborates SampleEvidence.text SampleEvidence.matched result := by
  have isOk : (reconcileRedundantMarketEvidence SampleEvidence.text
      SampleEvidence.matched).isOk = true := by decide +kernel
  obtain ⟨result, accepted⟩ := Fallible.isOk_iff.mp isOk
  exact ⟨result, accepted, ((reconcile_dependsOnContent_iff SampleEvidence.text
    (Equiv.swap "lane-a" "lane-b") SampleEvidence.matched
    SampleEvidence.exchanged SampleEvidence.matched_apart
    SampleEvidence.matched_exchanged).2 result accepted).mpr
      (by decide +kernel)⟩

/-- The gaps of records that cannot be read are in the order of arrival. -/
theorem unreadable_not_dependsOnContent :
    ¬ ∀ (text : ReconcilerText) (rename : Equiv.Perm String)
      (request other : ReconciliationRequest) (result : ReconciliationResult),
      TellsApart text (readRecords text request.records) →
      SameEvidence rename request other →
      reconcileRedundantMarketEvidence text request = .ok result →
      DependsOnContent text rename other result ∧
        Corroborates text request result := by
  intro claimed
  have isOk : (reconcileRedundantMarketEvidence SampleEvidence.text
      SampleEvidence.unreadable).isOk = true := by decide +kernel
  obtain ⟨result, accepted⟩ := Fallible.isOk_iff.mp isOk
  have apart : TellsApart SampleEvidence.text
      (readRecords SampleEvidence.text SampleEvidence.unreadable.records) := by
    constructor
    · decide +kernel
    · decide +kernel
  have same : SameEvidence (Equiv.refl String) SampleEvidence.unreadable
      SampleEvidence.reordered := by
    refine ⟨rfl, fun _ => Iff.rfl, rfl,
      SampleEvidence.unreadable.records.reverse, List.reverse_perm _, ?_⟩
    exact .cons ⟨rfl, rfl, rfl, rfl, rfl⟩
      (.cons ⟨rfl, rfl, rfl, rfl, rfl⟩ .nil)
  obtain ⟨⟨otherResult, otherAccepted, _, alike⟩, _⟩ :=
    claimed _ _ _ _ result apart same accepted
  have gaps : result.gaps =
      requestGaps SampleEvidence.text SampleEvidence.unreadable :=
    (reconcile_eq_ok_iff.mp accepted).2.2.2.2
  rw [gaps, ((accepted_same apart same).mp otherAccepted).2,
    requestGaps_alike_iff same] at alike
  exact absurd alike (by decide +kernel)

end Pmkit
