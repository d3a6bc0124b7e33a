import Pmkit.Store.Reconciliation

/-!
# What a reconciliation computes

The groups of a request hold, under each partition and content, the records of
each lane in their order of arrival.  A request is then accepted when its lanes
are known and the occurrences that both lanes have can be numbered; its result
is told here in terms of the records alone.
-/

namespace Pmkit

open MachineInt JsonValue

namespace Reconciliation

/-! ## Groups -/

def Groups.lanes (groups : Groups) (partition : Partition) (digest : String) :
    Lanes :=
  (groups.entry partition .empty).entry digest .empty

def groupsOf (records : List ParsedRecord) : Groups :=
  records.foldl pushRecord .empty

def laneRecords (records : List ParsedRecord) (partition : Partition)
    (digest laneId : String) : List ParsedRecord :=
  records.filter fun record => record.partition = partition ∧
    record.contentSha256 = digest ∧ record.laneId = laneId

def contents (records : List ParsedRecord) : List (Partition × String) :=
  (groupsOf records).keys.flatMap fun partition =>
    ((groupsOf records).entry partition .empty).keys.map fun digest =>
      (partition, digest)

section Groups

variable (records : List ParsedRecord) (record : ParsedRecord)

theorem groupsOf_concat :
    groupsOf (records ++ [record]) = pushRecord (groupsOf records) record :=
  List.foldl_concat ..

theorem mem_digests_pushRecord
    (groups : Groups) (partition : Partition) (digest : String) :
    digest ∈ ((pushRecord groups record).entry partition .empty).keys ↔
      (record.partition = partition ∧ record.contentSha256 = digest) ∨
        digest ∈ (groups.entry partition .empty).keys := by
  rw [pushRecord, SortedMap.entry_change]
  split
  · rename_i same
    rw [SortedMap.mem_keys_change, same, eq_comm]
    simp
  · rename_i ne
    simp [Ne.symm ne]

theorem lanes_pushRecord
    (groups : Groups) (partition : Partition) (digest : String) :
    (pushRecord groups record).lanes partition digest =
      if record.partition = partition ∧ record.contentSha256 = digest then
        (groups.lanes partition digest).change record.laneId []
          fun stored => stored ++ [record]
      else
        groups.lanes partition digest := by
  unfold Groups.lanes
  rw [pushRecord, SortedMap.entry_change]
  by_cases same : partition = record.partition
  · subst same
    rw [if_pos rfl, SortedMap.entry_change]
    by_cases equal : digest = record.contentSha256
    · subst equal
      rw [if_pos rfl, if_pos ⟨rfl, rfl⟩]
    · rw [if_neg equal, if_neg fun both => equal both.2.symm]
  · rw [if_neg same, if_neg fun both => same both.1.symm]

theorem mem_keys_groupsOf (partition : Partition) :
    partition ∈ (groupsOf records).keys ↔
      ∃ record ∈ records, record.partition = partition := by
  induction records using List.reverseRecOn with
  | nil =>
      simp [groupsOf, SortedMap.keys, SortedMap.empty]
  | append_singleton records record ih =>
      rw [groupsOf_concat, pushRecord, SortedMap.mem_keys_change, ih]
      simp only [List.mem_append, List.mem_singleton, or_and_right, exists_or,
        exists_eq_left]
      rw [eq_comm, or_comm]

theorem mem_digests_groupsOf (partition : Partition) (digest : String) :
    digest ∈ ((groupsOf records).entry partition .empty).keys ↔
      ∃ record ∈ records, record.partition = partition ∧
        record.contentSha256 = digest := by
  induction records using List.reverseRecOn with
  | nil =>
      simp [groupsOf, SortedMap.keys, SortedMap.entry, SortedMap.empty,
        SortedMap.findIn]
  | append_singleton records record ih =>
      rw [groupsOf_concat, mem_digests_pushRecord, ih]
      simp only [List.mem_append, List.mem_singleton, or_and_right, exists_or,
        exists_eq_left]
      exact or_comm

theorem mem_lanes_groupsOf (partition : Partition) (digest laneId : String) :
    laneId ∈ ((groupsOf records).lanes partition digest).keys ↔
      ∃ record ∈ records, record.partition = partition ∧
        record.contentSha256 = digest ∧ record.laneId = laneId := by
  induction records using List.reverseRecOn with
  | nil =>
      simp [groupsOf, Groups.lanes, SortedMap.keys, SortedMap.entry,
        SortedMap.empty, SortedMap.findIn]
  | append_singleton records record ih =>
      rw [groupsOf_concat, lanes_pushRecord]
      simp only [List.mem_append, List.mem_singleton, or_and_right, exists_or,
        exists_eq_left]
      rw [← ih]
      split
      · rename_i same
        rw [SortedMap.mem_keys_change, or_comm, eq_comm]
        simp [same]
      · rename_i ne
        rw [← and_assoc]
        simp [ne]

theorem entry_lanes_groupsOf (partition : Partition) (digest laneId : String) :
    ((groupsOf records).lanes partition digest).entry laneId [] =
      laneRecords records partition digest laneId := by
  induction records using List.reverseRecOn with
  | nil =>
      rfl
  | append_singleton records record ih =>
      rw [groupsOf_concat, lanes_pushRecord, laneRecords, List.filter_append]
      split
      · rename_i same
        rw [SortedMap.entry_change]
        by_cases equal : laneId = record.laneId
        · rw [if_pos equal, ← equal, ih, laneRecords, List.filter_singleton]
          simp [same, equal]
        · rw [if_neg equal, ih, laneRecords, List.filter_singleton]
          simp [same, Ne.symm equal]
      · rename_i ne
        have elsewhere : ¬ (record.partition = partition ∧
            record.contentSha256 = digest ∧ record.laneId = laneId) :=
          fun all => ne ⟨all.1, all.2.1⟩
        rw [ih, laneRecords, List.filter_singleton,
          decide_eq_false elsewhere, cond_false, List.append_nil]

end Groups

theorem mem_contents
    (records : List ParsedRecord) (partition : Partition) (digest : String) :
    (partition, digest) ∈ contents records ↔
      ∃ record ∈ records, record.partition = partition ∧
        record.contentSha256 = digest := by
  rw [contents, List.mem_flatMap]
  constructor
  · rintro ⟨_, _, mem⟩
    obtain ⟨_, inside, same⟩ := List.mem_map.mp mem
    cases same
    exact (mem_digests_groupsOf records partition digest).mp inside
  · intro present
    have inside := (mem_digests_groupsOf records partition digest).mpr present
    obtain ⟨record, mem, isPartition, _⟩ := present
    refine ⟨partition, ?_, List.mem_map.mpr ⟨digest, inside, rfl⟩⟩
    exact (mem_keys_groupsOf records partition).mpr
      ⟨record, mem, isPartition⟩

theorem contents_nodup (records : List ParsedRecord) :
    (contents records).Nodup := by
  rw [contents, List.nodup_flatMap]
  constructor
  · intro partition _
    refine (SortedMap.keys_nodup _).map ?_
    intro left right same
    cases same
    rfl
  · refine (groupsOf records).keys_nodup.imp ?_
    intro left right ne pair inLeft inRight
    obtain ⟨_, _, isLeft⟩ := List.mem_map.mp inLeft
    obtain ⟨_, _, isRight⟩ := List.mem_map.mp inRight
    rw [← isLeft] at isRight
    cases isRight
    exact ne rfl

/-- The order of the contents does not depend on the order of the records. -/
theorem contents_congr {left right : List ParsedRecord}
    (same : ∀ partition digest, (∃ record ∈ left, record.partition = partition ∧
        record.contentSha256 = digest) ↔
      ∃ record ∈ right, record.partition = partition ∧
        record.contentSha256 = digest) :
    contents left = contents right := by
  have digests : ∀ partition,
      ((groupsOf left).entry partition .empty).keys =
        ((groupsOf right).entry partition .empty).keys := by
    intro partition
    apply SortedMap.keys_eq
    intro digest
    rw [mem_digests_groupsOf, mem_digests_groupsOf]
    exact same partition digest
  have partitions : (groupsOf left).keys = (groupsOf right).keys := by
    apply SortedMap.keys_eq
    intro partition
    rw [mem_keys_groupsOf, mem_keys_groupsOf]
    constructor
    · rintro ⟨record, mem, isPartition⟩
      obtain ⟨other, inside, isOther, _⟩ := (same partition _).mp
        ⟨record, mem, isPartition, rfl⟩
      exact ⟨other, inside, isOther⟩
    · rintro ⟨record, mem, isPartition⟩
      obtain ⟨other, inside, isOther, _⟩ := (same partition _).mpr
        ⟨record, mem, isPartition, rfl⟩
      exact ⟨other, inside, isOther⟩
  rw [contents, contents, partitions]
  congr 1
  funext partition
  rw [digests partition]

def laneCounts (lanes : List String) (records : List ParsedRecord)
    (partition : Partition) (digest : String) : List (String × Nat) :=
  lanes.map fun laneId =>
    (laneId, (laneRecords records partition digest laneId).length)

def matching (counts : List (String × Nat)) : Nat :=
  (counts.map Prod.snd).min?.getD 0

def most (counts : List (String × Nat)) : Nat :=
  (counts.map Prod.snd).max?.getD 0

/-- The record that the occurrences of a content are made of. -/
def template (lanes : List String) (records : List ParsedRecord)
    (partition : Partition) (digest : String) : Option ParsedRecord :=
  lanes.findSome? fun laneId =>
    (laneRecords records partition digest laneId).head?

def ParsedRecord.content (record : ParsedRecord) : ParsedRecord :=
  { record with laneId := "" }

/-- A content that both lanes have, with its place among its copies. -/
structure Corroborated where
  ordinal : Nat
  record : ParsedRecord

def copies (lanes : List String) (records : List ParsedRecord)
    (content : Partition × String) : List Corroborated :=
  match template lanes records content.1 content.2 with
  | none => []
  | some record =>
      (List.range (matching (laneCounts lanes records content.1
        content.2))).map fun ordinal =>
          { ordinal := ordinal, record := record.content }

/-- What both lanes have, in the order of the occurrences. -/
def corroborated (lanes : List String) (records : List ParsedRecord) :
    List Corroborated :=
  (contents records).flatMap (copies lanes records)

def Corroborated.occurrence (scope : OwnerScope) (item : Corroborated)
    (rank : I64) : CanonicalOccurrence where
  contentSha256 := item.record.contentSha256
  occurrenceOrdinal := item.ordinal
  canonicalBytes := item.record.canonicalBytes
  envelope := canonicalEnvelope scope item.record rank

def number (scope : OwnerScope)
    (numbered : StreamRanks × List CanonicalOccurrence) (item : Corroborated) :
    Except ReconciliationError (StreamRanks × List CanonicalOccurrence) :=
  (nextRank numbered.1 item.record).map fun ranked =>
    (ranked.1, numbered.2 ++ [item.occurrence scope ranked.2])

def disagreements (scope : OwnerScope) (lanes : List String)
    (records : List ParsedRecord) (contents : List (Partition × String)) :
    List ReplayGapInterval :=
  (contents.filter fun content =>
    matching (laneCounts lanes records content.1 content.2) ≠
      most (laneCounts lanes records content.1 content.2)).map fun content =>
    partitionGap scope content.1
      (disagreementReason (laneCounts lanes records content.1 content.2))

/-! ## The loop over the contents -/

theorem keys_completeLanes
    (expectedLanes : SortedMap String Unit compare) (lanes : Lanes)
    (known : ∀ laneId ∈ lanes.keys, laneId ∈ expectedLanes.keys) :
    (completeLanes expectedLanes lanes).keys = expectedLanes.keys := by
  have added : ∀ (laneIds : List String) (lanes : Lanes) (laneId : String),
      laneId ∈ (laneIds.foldl
          (fun lanes laneId => lanes.change laneId [] id) lanes).keys ↔
        laneId ∈ laneIds ∨ laneId ∈ lanes.keys := by
    intro laneIds
    induction laneIds with
    | nil =>
        simp
    | cons first rest ih =>
        intro lanes laneId
        rw [List.foldl_cons, ih, SortedMap.mem_keys_change, List.mem_cons]
        exact or_left_comm.trans or_assoc.symm
  apply SortedMap.keys_eq
  intro laneId
  rw [completeLanes, added]
  constructor
  · rintro (expected | stored)
    · exact expected
    · exact known laneId stored
  · exact .inl

theorem entry_completeLanes
    (expectedLanes : SortedMap String Unit compare) (lanes : Lanes)
    (laneId : String) :
    (completeLanes expectedLanes lanes).entry laneId [] =
      lanes.entry laneId [] := by
  unfold completeLanes
  induction expectedLanes.keys generalizing lanes with
  | nil =>
      rfl
  | cons first rest ih =>
      rw [List.foldl_cons, ih, SortedMap.entry_change]
      split
      · rename_i same
        rw [same]
        rfl
      · rfl

section Loop

variable {request : ReconciliationRequest} {records : List ParsedRecord}

theorem entries_completeLanes
    (known : ∀ record ∈ records, record.laneId ∈ request.expectedLanes.keys)
    (partition : Partition) (digest : String) :
    (completeLanes request.expectedLanes
        ((groupsOf records).lanes partition digest)).entries =
      request.expectedLanes.keys.map fun laneId =>
        (laneId, laneRecords records partition digest laneId) := by
  rw [SortedMap.entries_eq _ [], keys_completeLanes]
  · apply List.map_congr_left
    intro laneId _
    rw [entry_completeLanes, entry_lanes_groupsOf]
  · intro laneId mem
    obtain ⟨record, inside, _, _, rfl⟩ :=
      (mem_lanes_groupsOf records partition digest laneId).mp mem
    exact known record inside

theorem exists_template
    (known : ∀ record ∈ records, record.laneId ∈ request.expectedLanes.keys)
    {partition : Partition} {digest : String}
    (present : (partition, digest) ∈ contents records) :
    ∃ record ∈ records, record.partition = partition ∧
      record.contentSha256 = digest ∧
      template request.expectedLanes.keys records partition digest =
        some record := by
  obtain ⟨source, mem, isPartition, isDigest⟩ :=
    (mem_contents records partition digest).mp present
  have inLane : source ∈
      laneRecords records partition digest source.laneId := by
    rw [laneRecords, List.mem_filter, decide_eq_true_eq]
    exact ⟨mem, isPartition, isDigest, rfl⟩
  cases found : template request.expectedLanes.keys records partition
      digest with
  | none =>
      have empty := List.findSome?_eq_none_iff.mp found source.laneId
        (known source mem)
      rw [List.head?_eq_none_iff.mp empty] at inLane
      cases inLane
  | some record =>
      obtain ⟨laneId, _, first⟩ := List.exists_of_findSome?_eq_some found
      have inside := List.mem_of_mem_head? first
      rw [laneRecords, List.mem_filter, decide_eq_true_eq] at inside
      exact ⟨record, inside.1, inside.2.1, inside.2.2.1, rfl⟩

theorem pushOccurrences_eq
    (scope : OwnerScope) (record : ParsedRecord) (count ordinal : Nat)
    (state : ReconcilerState) :
    pushOccurrences scope record.contentSha256 record count ordinal state =
      (((List.range' ordinal count).map fun ordinal =>
        ({ ordinal := ordinal, record := record.content } :
          Corroborated)).foldlM (number scope)
            (state.ranks, state.occurrences)).map fun numbered =>
        { state with ranks := numbered.1, occurrences := numbered.2 } := by
  induction count generalizing ordinal state with
  | zero =>
      rfl
  | succ count ih =>
      rw [pushOccurrences, List.range'_succ, List.map_cons, List.foldlM_cons,
        number]
      change (nextRank state.ranks record >>= _) =
        Except.map _ (Except.map _ (nextRank state.ranks record) >>= _)
      cases nextRank state.ranks record with
      | error error => rfl
      | ok ranked => exact ih (ordinal + 1) _

/-- One pass of the loop over the contents. -/
theorem reconcileContent_eq
    (known : ∀ record ∈ records, record.laneId ∈ request.expectedLanes.keys)
    {content : Partition × String} (present : content ∈ contents records)
    (state : ReconcilerState) :
    reconcileContent request content.1 state
        (content.2, (groupsOf records).lanes content.1 content.2) =
      ((copies request.expectedLanes.keys records content).foldlM
          (number request.scope) (state.ranks, state.occurrences)).map
        fun numbered =>
          { ranks := numbered.1
            occurrences := numbered.2
            gaps := state.gaps ++ disagreements request.scope
              request.expectedLanes.keys records [content] } := by
  obtain ⟨partition, digest⟩ := content
  obtain ⟨record, _, _, isDigest, found⟩ := exists_template known present
  have entries := entries_completeLanes known partition digest
  have counts : ((request.expectedLanes.keys.map fun laneId =>
      (laneId, laneRecords records partition digest laneId)).map
        fun entry => entry.2.length) =
      (laneCounts request.expectedLanes.keys records partition digest).map
        Prod.snd := by
    rw [laneCounts, List.map_map, List.map_map]
    rfl
  have asTemplate : (request.expectedLanes.keys.map fun laneId =>
      (laneId, laneRecords records partition digest laneId)).findSome?
        (fun entry => entry.2.head?) = some record := by
    rw [List.findSome?_map, ← found]
    rfl
  have gap : disagreementGap request.scope partition
      (completeLanes request.expectedLanes
        ((groupsOf records).lanes partition digest)) =
      partitionGap request.scope partition (disagreementReason
        (laneCounts request.expectedLanes.keys records partition digest)) := by
    rw [disagreementGap, entries, List.map_map]
    rfl
  have isMatching : ∀ counts : List (String × Nat),
      (counts.map Prod.snd).min?.getD 0 = matching counts := fun _ => rfl
  have isMost : ∀ counts : List (String × Nat),
      (counts.map Prod.snd).max?.getD 0 = most counts := fun _ => rfl
  unfold reconcileContent copies
  simp only [entries, counts, asTemplate, found, isMatching, isMost]
  rw [gap, ← isDigest, pushOccurrences_eq, List.range_eq_range', isDigest]
  simp only [disagreements, List.filter_singleton]
  generalize ((List.range' 0 _).map _).foldlM (number request.scope)
    (state.ranks, state.occurrences) = numbered
  cases numbered with
  | error error => rfl
  | ok numbered =>
      by_cases differ : matching (laneCounts request.expectedLanes.keys
          records partition digest) ≠ most (laneCounts
            request.expectedLanes.keys records partition digest)
      · simp only [Except.map, bind, Except.bind, if_pos differ,
          decide_eq_true differ, cond_true, List.map_singleton]
        rfl
      · simp only [Except.map, bind, Except.bind, if_neg differ,
          decide_eq_false differ, cond_false, List.map_nil, List.append_nil]
        rfl

/-- The loops over the groups visit the contents. -/
theorem foldlM_groupsOf
    {S : Type} (handle : Partition → S → String × Lanes →
      Except ReconciliationError S) (state : S) :
    (groupsOf records).entries.foldlM (fun state group =>
        group.2.entries.foldlM (handle group.1) state) state =
      (contents records).foldlM (fun state content =>
        handle content.1 state
          (content.2, (groupsOf records).lanes content.1 content.2)) state := by
  rw [contents, Fallible.foldlM_flatMap, SortedMap.entries_eq _ .empty,
    List.foldlM_map]
  congr 1
  funext state partition
  rw [SortedMap.entries_eq _ .empty, List.foldlM_map, List.foldlM_map]
  rfl

/-- The loop over the contents numbers what both lanes have and tells where
they disagree. -/
theorem reconcileContents_eq
    (known : ∀ record ∈ records, record.laneId ∈ request.expectedLanes.keys)
    {visited : List (Partition × String)} (inside : visited ⊆ contents records)
    (state : ReconcilerState) :
    visited.foldlM (fun state content =>
        reconcileContent request content.1 state
          (content.2, (groupsOf records).lanes content.1 content.2)) state =
      ((visited.flatMap (copies request.expectedLanes.keys records)).foldlM
          (number request.scope) (state.ranks, state.occurrences)).map
        fun numbered =>
          { ranks := numbered.1
            occurrences := numbered.2
            gaps := state.gaps ++ disagreements request.scope
              request.expectedLanes.keys records visited } := by
  induction visited generalizing state with
  | nil =>
      simp [disagreements, Except.map, pure, Except.pure]
  | cons content rest ih =>
      obtain ⟨present, later⟩ := List.cons_subset.mp inside
      rw [List.foldlM_cons, reconcileContent_eq known present,
        List.flatMap_cons, List.foldlM_append]
      cases (copies request.expectedLanes.keys records content).foldlM
          (number request.scope) (state.ranks, state.occurrences) with
      | error error => rfl
      | ok numbered =>
          simp only [Except.map, bind, Except.bind]
          rw [ih later]
          have joined : disagreements request.scope
              request.expectedLanes.keys records (content :: rest) =
              disagreements request.scope request.expectedLanes.keys records
                [content] ++ disagreements request.scope
                  request.expectedLanes.keys records rest := by
            rw [disagreements, disagreements, disagreements, ← List.map_append,
              ← List.filter_append, List.singleton_append]
          rw [joined, List.append_assoc]
          rfl

end Loop

/-! ## Requests -/

section Requests

variable (text : ReconcilerText)

def readRecords (raws : List RawMarketLaneRecord) : List ParsedRecord :=
  raws.filterMap (parseRecord text)

def malformedGaps (scope : OwnerScope) (raws : List RawMarketLaneRecord) :
    List ReplayGapInterval :=
  (raws.filter fun raw => parseRecord text raw = none).map (malformedGap scope)

def failureGap (scope : OwnerScope) (failure : ReconciliationFailure) :
    ReplayGapInterval :=
  partitionGap scope
    { snapshot := failure.discoverySnapshotSha256
      marketId := failure.marketId
      minuteStartMs := failure.minuteStartMs } failure.reason.label

variable {text} {request : ReconciliationRequest}

variable {gaps : List ReplayGapInterval}

theorem mapM_gapFromFailure_eq_ok {failures : List ReconciliationFailure} :
    failures.mapM (gapFromFailure request.scope request.expectedLanes) =
        .ok gaps ↔
      (∀ failure ∈ failures, failure.laneId ∈ request.expectedLanes.keys) ∧
        gaps = failures.map (failureGap request.scope) := by
  by_cases known : ∀ failure ∈ failures,
      failure.laneId ∈ request.expectedLanes.keys
  · have each : ∀ failure ∈ failures,
        gapFromFailure request.scope request.expectedLanes failure =
          .ok (failureGap request.scope failure) := by
      intro failure mem
      rw [gapFromFailure, if_neg (not_not.mpr (known failure mem))]
      rfl
    rw [Fallible.mapM_eq_ok each, Except.ok.injEq, eq_comm]
    exact (and_iff_right known).symm
  · constructor
    · intro read
      push Not at known
      obtain ⟨failure, mem, unknown⟩ := known
      refine absurd read (Fallible.mapM_fails mem ?_ gaps)
      intro gap no
      rw [gapFromFailure, if_pos unknown] at no
      cases no
    · rintro ⟨all, _⟩
      exact absurd all known

theorem foldlM_takeRecord_eq_ok
    {raws : List RawMarketLaneRecord} {groups : Groups}
    {taken : Groups × List ReplayGapInterval} :
    raws.foldlM (takeRecord text request) (groups, gaps) = .ok taken ↔
      (∀ raw ∈ raws, raw.chunk.replicaId ∈ request.expectedLanes.keys) ∧
        taken = ((readRecords text raws).foldl pushRecord groups,
          gaps ++ malformedGaps text request.scope raws) := by
  induction raws generalizing groups gaps with
  | nil =>
      simp [readRecords, malformedGaps, pure, Except.pure, eq_comm]
  | cons raw rest ih =>
      rw [List.foldlM_cons, takeRecord, List.forall_mem_cons]
      by_cases known : raw.chunk.replicaId ∈ request.expectedLanes.keys
      · rw [if_neg (not_not.mpr known)]
        cases read : parseRecord text raw with
        | some record =>
            simp only [bind, Except.bind]
            rw [ih]
            simp [known, readRecords, malformedGaps, read]
        | none =>
            simp only [bind, Except.bind]
            rw [ih]
            simp [known, readRecords, malformedGaps, read]
      · rw [if_pos known]
        constructor
        · intro no
          cases no
        · rintro ⟨⟨all, _⟩, _⟩
          exact absurd all known

def ParsedRecord.json (record : ParsedRecord) : JsonValue :=
  canonicalJson record.partition
    { marketId := record.partition.marketId
      eventTimeMs := record.eventTimeMs
      venueId := record.venueId
      configHash := record.configHash
      normalized := record.normalized }

structure ParsedFrom (text : ReconcilerText) (raw : RawMarketLaneRecord)
    (record : ParsedRecord) : Prop where
  laneId : record.laneId = raw.chunk.replicaId
  partition : record.partition =
    { snapshot := raw.frame.discoverySnapshotSha256
      marketId := raw.marketId
      minuteStartMs := raw.chunk.minuteStartMs }
  bytes : record.canonicalBytes = (text.writeJson record.json).toUTF8.toList
  digest : record.contentSha256 = text.sha256Hex record.canonicalBytes
  stream : record.streamId ≠ none

theorem parsedFrom {raw : RawMarketLaneRecord} {record : ParsedRecord}
    (read : parseRecord text raw = some record) :
    ParsedFrom text raw record := by
  unfold parseRecord at read
  split at read
  · cases read
  · split at read
    · cases read
    · rename_i wire _ accepted
      simp only [not_or, not_not] at accepted
      cases read
      refine ⟨rfl, ?_, rfl, rfl, accepted.2.2.2.2.2.2.2⟩
      rw [Partition.mk.injEq]
      exact ⟨rfl, accepted.1, rfl⟩

theorem laneId_of_mem_readRecords {raws : List RawMarketLaneRecord}
    (known : ∀ raw ∈ raws, raw.chunk.replicaId ∈ request.expectedLanes.keys) :
    ∀ record ∈ readRecords text raws,
      record.laneId ∈ request.expectedLanes.keys := by
  intro record mem
  obtain ⟨raw, inside, read⟩ := List.mem_filterMap.mp mem
  rw [(parsedFrom read).laneId]
  exact known raw inside

/-- A request is accepted when its two lanes are the only ones and what both of
them have can be numbered; its gaps are those of the failures, of the records
that cannot be read and of the contents that the lanes disagree about. -/
theorem reconcile_eq_ok_iff {result : ReconciliationResult} :
    reconcileRedundantMarketEvidence text request = .ok result ↔
      request.expectedLanes.keys.length = 2 ∧
      (∀ failure ∈ request.failures,
        failure.laneId ∈ request.expectedLanes.keys) ∧
      (∀ raw ∈ request.records,
        raw.chunk.replicaId ∈ request.expectedLanes.keys) ∧
      (∃ ranks, (corroborated request.expectedLanes.keys
          (readRecords text request.records)).foldlM (number request.scope)
            (∅, []) = .ok (ranks, result.occurrences)) ∧
      result.gaps = request.failures.map (failureGap request.scope) ++
        malformedGaps text request.scope request.records ++
        disagreements request.scope request.expectedLanes.keys
          (readRecords text request.records)
          (contents (readRecords text request.records)) := by
  have loops : ∀ gaps, (∀ raw ∈ request.records,
      raw.chunk.replicaId ∈ request.expectedLanes.keys) →
      (groupsOf (readRecords text request.records)).entries.foldlM
          (fun state group =>
            group.2.entries.foldlM (reconcileContent request group.1) state)
          { ranks := ∅, occurrences := [], gaps := gaps } =
        ((corroborated request.expectedLanes.keys
            (readRecords text request.records)).foldlM (number request.scope)
              (∅, [])).map fun numbered =>
          { ranks := numbered.1
            occurrences := numbered.2
            gaps := gaps ++ disagreements request.scope
              request.expectedLanes.keys (readRecords text request.records)
              (contents (readRecords text request.records)) } := by
    intro gaps known
    exact (foldlM_groupsOf (reconcileContent request) _).trans
      (reconcileContents_eq (laneId_of_mem_readRecords known)
        (List.Subset.refl _) _)
  unfold reconcileRedundantMarketEvidence
  by_cases two : request.expectedLanes.keys.length ≠ 2
  · rw [if_pos two]
    constructor
    · intro no
      cases no
    · rintro ⟨isTwo, _⟩
      exact absurd isTwo two
  rw [if_neg two]
  rw [not_not] at two
  simp only [Fallible.bind_eq_ok, mapM_gapFromFailure_eq_ok]
  constructor
  · rintro ⟨_, ⟨failures, rfl⟩, taken, ofTaken, state, ofState, same⟩
    obtain ⟨known, rfl⟩ := foldlM_takeRecord_eq_ok.mp ofTaken
    obtain ⟨⟨ranks, occurrences⟩, numbered, rfl⟩ :=
      Fallible.map_eq_ok.mp ((loops _ known).symm.trans ofState)
    cases same
    exact ⟨two, failures, known, ⟨ranks, numbered⟩, rfl⟩
  · rintro ⟨_, failures, known, ⟨ranks, numbered⟩, gaps⟩
    refine ⟨_, ⟨failures, rfl⟩, _, foldlM_takeRecord_eq_ok.mpr ⟨known, rfl⟩, _,
      (loops _ known).trans (Fallible.map_eq_ok.mpr ⟨_, numbered, rfl⟩), ?_⟩
    rw [← gaps]
    rfl

end Requests

end Reconciliation

end Pmkit
