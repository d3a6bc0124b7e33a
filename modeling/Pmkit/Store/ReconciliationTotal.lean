import Pmkit.Library.Grouping
import Pmkit.Store.SameEvidence

/-!
# Requests that reconcile without an overflow

A record says its own time, and the start of its minute is taken before
anything about it is compared.  Just below the first whole minute of a 64-bit
time that product does not fit.  Every other request is reconciled, and its
records are accounted for: each is one of a pair of both lanes, one that a lane
has too much, or one that cannot be read.
-/

namespace Pmkit

open MachineInt JsonValue

namespace Reconciliation

/-! ## Checked arithmetic -/

/-- What ends a call before it has a result. -/
inductive Interruption where
  | overflow
  | failed (error : ReconciliationError)
  deriving DecidableEq

def firstMinuteMs : Int := -9223372036854720000

section Checked

variable (text : ReconcilerText)

def wireRecord (raw : RawMarketLaneRecord) : Option WireMarketRecord :=
  (text.readJson raw.frame.rawBytes).bind WireMarketRecord.read

/-- `parse_record` where an overflow stops it. -/
def parseRecordChecked (raw : RawMarketLaneRecord) :
    Except Interruption (Option ParsedRecord) :=
  match wireRecord text raw with
  | none => .ok none
  | some wire =>
      match minuteStart wire.eventTimeMs with
      | none => .error .overflow
      | some _ => .ok (parseRecord text raw)

/-- One pass of the loop over the records where an overflow stops it. -/
def takeRecordChecked (request : ReconciliationRequest)
    (taken : Groups × List ReplayGapInterval) (raw : RawMarketLaneRecord) :
    Except Interruption (Groups × List ReplayGapInterval) :=
  if raw.chunk.replicaId ∉ request.expectedLanes.keys then
    .error (.failed (.unexpectedLane raw.chunk.replicaId))
  else do
    match ← parseRecordChecked text raw with
    | some record => return (pushRecord taken.1 record, taken.2)
    | none => return (taken.1, taken.2 ++ [malformedGap request.scope raw])

/-- `reconcile_redundant_market_evidence` where an overflow stops it. -/
def reconcileChecked (request : ReconciliationRequest) :
    Except Interruption ReconciliationResult :=
  if request.expectedLanes.keys.length ≠ 2 then
    .error (.failed .expectedTwoLanes)
  else do
    let failures ← (request.failures.mapM
      (gapFromFailure request.scope request.expectedLanes)).mapError .failed
    let (groups, gaps) ← request.records.foldlM
      (takeRecordChecked text request) (.empty, failures)
    let reconciled : Except ReconciliationError ReconcilerState :=
      groups.entries.foldlM (fun state group =>
        group.2.entries.foldlM (reconcileContent request group.1) state)
        { ranks := ∅, occurrences := [], gaps := gaps }
    let state ← reconciled.mapError .failed
    return { occurrences := state.occurrences, gaps := state.gaps }

/-- The time of a record, if it has one, has a minute that starts at a 64-bit
time. -/
def MinuteFits (raw : RawMarketLaneRecord) : Prop :=
  ∀ wire, wireRecord text raw = some wire →
    firstMinuteMs ≤ wire.eventTimeMs.1

end Checked

section Overflow

variable {text : ReconcilerText} {request : ReconciliationRequest}

theorem minuteStart_eq_none_iff (timeMs : I64) :
    minuteStart timeMs = none ↔ timeMs.1 < firstMinuteMs := by
  obtain ⟨above, below⟩ := timeMs.2
  have fits : minuteStart timeMs ≠ none ↔
      -(2 ^ 63) ≤ timeMs.1 / utcMinuteMs * utcMinuteMs ∧
        timeMs.1 / utcMinuteMs * utcMinuteMs ≤ 2 ^ 63 - 1 := by
    constructor
    · intro found
      obtain ⟨word, isWord⟩ := Option.ne_none_iff_exists'.mp found
      rw [← I64.ofInt_eq_some.mp isWord]
      exact word.2
    · intro inside
      have word := I64.ofInt_val ⟨_, inside⟩
      rw [minuteStart, word]
      exact Option.some_ne_none _
  rw [← not_iff_not, ← ne_eq, fits, utcMinuteMs, firstMinuteMs]
  omega

variable {raw : RawMarketLaneRecord} {raws : List RawMarketLaneRecord}

theorem parseRecord_eq_none (unread : wireRecord text raw = none) :
    parseRecord text raw = none := by
  unfold wireRecord at unread
  unfold parseRecord
  rw [unread]

theorem parseRecordChecked_fits (fits : MinuteFits text raw) :
    parseRecordChecked text raw = .ok (parseRecord text raw) := by
  unfold parseRecordChecked
  cases read : wireRecord text raw with
  | none =>
      rw [parseRecord_eq_none read]
  | some wire =>
      have isTime : minuteStart wire.eventTimeMs ≠ none := by
        rw [ne_eq, minuteStart_eq_none_iff]
        have late := fits wire read
        omega
      obtain ⟨start, found⟩ := Option.ne_none_iff_exists'.mp isTime
      simp only [found]

theorem parseRecordChecked_overflow (late : ¬ MinuteFits text raw) :
    parseRecordChecked text raw = .error .overflow := by
  unfold MinuteFits at late
  push Not at late
  obtain ⟨wire, read, early⟩ := late
  have isNone := (minuteStart_eq_none_iff wire.eventTimeMs).mpr early
  simp only [parseRecordChecked, read, isNone]

theorem mapError_bind {E F A B : Type} (change : E → F) (first : Except E A)
    (next : A → Except E B) :
    (first >>= next).mapError change =
      first.mapError change >>= fun value => (next value).mapError change := by
  cases first <;> rfl

theorem takeRecordChecked_fits (fits : MinuteFits text raw)
    (taken : Groups × List ReplayGapInterval) :
    takeRecordChecked text request taken raw =
      (takeRecord text request taken raw).mapError .failed := by
  unfold takeRecordChecked takeRecord
  rw [parseRecordChecked_fits fits]
  split
  · rfl
  · cases parseRecord text raw <;> rfl

theorem foldlM_takeRecordChecked_fits (fit : ∀ raw ∈ raws, MinuteFits text raw)
    (taken : Groups × List ReplayGapInterval) :
    raws.foldlM (takeRecordChecked text request) taken =
      (raws.foldlM (takeRecord text request) taken).mapError .failed := by
  induction raws generalizing taken with
  | nil =>
      rfl
  | cons raw rest ih =>
      rw [List.foldlM_cons, List.foldlM_cons, mapError_bind,
        takeRecordChecked_fits (fit raw List.mem_cons_self)]
      congr 1
      funext next
      exact ih
        (fun other mem => fit other (List.mem_cons_of_mem raw mem)) next

/-- The first record whose minute does not fit stops the loop. -/
theorem foldlM_takeRecordChecked_overflow
    (known : ∀ raw ∈ raws, raw.chunk.replicaId ∈ request.expectedLanes.keys)
    (late : ∃ raw ∈ raws, ¬ MinuteFits text raw)
    (taken : Groups × List ReplayGapInterval) :
    raws.foldlM (takeRecordChecked text request) taken =
      .error .overflow := by
  induction raws generalizing taken with
  | nil =>
      obtain ⟨raw, mem, _⟩ := late
      cases mem
  | cons raw rest ih =>
      have isKnown := known raw List.mem_cons_self
      rw [List.foldlM_cons]
      by_cases fits : MinuteFits text raw
      · have restLate : ∃ other ∈ rest, ¬ MinuteFits text other := by
          obtain ⟨other, mem, isLate⟩ := late
          rcases List.mem_cons.mp mem with rfl | later
          · exact absurd fits isLate
          · exact ⟨other, later, isLate⟩
        have others := ih fun other mem =>
          known other (List.mem_cons_of_mem raw mem)
        rw [takeRecordChecked, if_neg (not_not.mpr isKnown),
          parseRecordChecked_fits fits]
        cases parseRecord text raw with
        | none => exact others restLate _
        | some record => exact others restLate _
      · rw [takeRecordChecked, if_neg (not_not.mpr isKnown),
          parseRecordChecked_overflow fits]
        rfl

/-- Without an overflow the checks change nothing. -/
theorem reconcileChecked_fits
    (fit : ∀ raw ∈ request.records, MinuteFits text raw) :
    reconcileChecked text request =
      (reconcileRedundantMarketEvidence text request).mapError .failed := by
  unfold reconcileChecked reconcileRedundantMarketEvidence
  split
  · rfl
  · rw [mapError_bind]
    congr 1
    funext failures
    rw [mapError_bind, foldlM_takeRecordChecked_fits fit]
    congr 1
    funext taken
    rw [mapError_bind]
    rfl

end Overflow

theorem number_room
    {scope : OwnerScope} {items : List Corroborated} {ranks : StreamRanks}
    {occurrences : List CanonicalOccurrence} {given : Nat}
    (streamed : ∀ item ∈ items, item.record.streamId ≠ none)
    (bounded : ∀ key, ((ranks.lookup key).getD 0).1 ≤ given)
    (room : given + items.length < 2 ^ 63) :
    ∃ numbered, items.foldlM (number scope) (ranks, occurrences) =
      .ok numbered := by
  induction items generalizing ranks occurrences given with
  | nil =>
      exact ⟨_, rfl⟩
  | cons item rest ih =>
      obtain ⟨stream, isStream⟩ := Option.ne_none_iff_exists'.mp
        (streamed item List.mem_cons_self)
      rw [List.length_cons] at room
      have current := bounded (item.record.eventTimeMs,
        item.record.partition.marketId, stream)
      generalize isRank : (ranks.lookup (item.record.eventTimeMs,
        item.record.partition.marketId, stream)).getD 0 = rank at current
      have above : -(2 ^ 63) ≤ rank.1 := rank.2.1
      have next : I64.ofInt (rank.1 + 1) =
          some ⟨rank.1 + 1, by omega, by omega⟩ :=
        I64.ofInt_eq_some.mpr rfl
      rw [List.foldlM_cons, number, nextRank]
      simp only [isStream, isRank, next]
      apply @ih _ _ (given + 1)
      · intro other mem
        exact streamed other (List.mem_cons_of_mem item mem)
      · intro key
        by_cases same : key = (item.record.eventTimeMs,
            item.record.partition.marketId, stream)
        · rw [same, AList.lookup_insert, Option.getD_some]
          push_cast
          omega
        · rw [AList.lookup_insert_ne same]
          have before := bounded key
          push_cast
          omega
      · omega

/-! ## Accounts -/

def unmatchedOf (lanes : List String) (records : List ParsedRecord)
    (content : Partition × String) : List ParsedRecord :=
  lanes.flatMap fun laneId =>
    (laneRecords records content.1 content.2 laneId).drop
      (matching (laneCounts lanes records content.1 content.2))

def unmatched (lanes : List String) (records : List ParsedRecord) :
    List ParsedRecord :=
  (contents records).flatMap (unmatchedOf lanes records)

/-- What a record counts for: its partition, its content and its lane. -/
def ParsedRecord.place (record : ParsedRecord) :
    (Partition × String) × String :=
  ((record.partition, record.contentSha256), record.laneId)

/-- What the record of a collector counts for, if it can be read. -/
def contribution (text : ReconcilerText) (raw : RawMarketLaneRecord) :
    Option ((Partition × String) × String) :=
  (parseRecord text raw).map ParsedRecord.place

def malformedReason : String := "malformed_record"

/-- Every record is in one count of the groups or has a gap of its own; what
both lanes have, what only one has and what cannot be read are all records. -/
structure Accounts (text : ReconcilerText) (request : ReconciliationRequest)
    (result : ReconciliationResult) : Prop where
  counts : ∀ partition digest laneId,
    (((groupsOf (readRecords text request.records)).lanes partition
        digest).entry laneId []).length =
      request.records.countP fun raw =>
        contribution text raw = some ((partition, digest), laneId)
  places : ∀ raw ∈ request.records, ∀ place,
    contribution text raw = some place →
      place.1.1 =
        { snapshot := raw.frame.discoverySnapshotSha256
          marketId := raw.marketId
          minuteStartMs := raw.chunk.minuteStartMs } ∧
      place.2 = raw.chunk.replicaId
  malformed : result.gaps.filter (fun gap => gap.reason = malformedReason) =
    (request.records.filter fun raw => contribution text raw = none).map
      (malformedGap request.scope)
  total : 2 * result.occurrences.length +
      (unmatched request.expectedLanes.keys
        (readRecords text request.records)).length +
      (result.gaps.filter fun gap => gap.reason = malformedReason).length =
    request.records.length

section Accounting

variable {text : ReconcilerText} {request : ReconciliationRequest}

variable {records : List ParsedRecord} {result : ReconciliationResult}

theorem length_lanes
    (known : ∀ record ∈ records, record.laneId ∈ request.expectedLanes.keys)
    {first second : String}
    (two : request.expectedLanes.keys = [first, second])
    {content : Partition × String} (present : content ∈ contents records) :
    (request.expectedLanes.keys.flatMap fun laneId =>
        laneRecords records content.1 content.2 laneId).length =
      2 * (copies request.expectedLanes.keys records content).length +
        (unmatchedOf request.expectedLanes.keys records content).length := by
  have least := (extremes_two records first second content.1 content.2).1
  rw [length_copies known present, unmatchedOf, two, least]
  simp only [List.flatMap_cons, List.flatMap_nil, List.append_nil,
    List.length_append, List.length_drop]
  omega

/-- The contents that are visited hold pairs and records without one. -/
theorem length_contents
    (known : ∀ record ∈ records, record.laneId ∈ request.expectedLanes.keys)
    {first second : String}
    (two : request.expectedLanes.keys = [first, second])
    {visited : List (Partition × String)} (inside : visited ⊆ contents records) :
    (visited.flatMap fun content =>
        request.expectedLanes.keys.flatMap fun laneId =>
          laneRecords records content.1 content.2 laneId).length =
      2 * (visited.flatMap (copies request.expectedLanes.keys records)).length +
        (visited.flatMap
          (unmatchedOf request.expectedLanes.keys records)).length := by
  induction visited with
  | nil =>
      rfl
  | cons content rest ih =>
      obtain ⟨present, later⟩ := List.cons_subset.mp inside
      have own := length_lanes known two present
      have others := ih later
      simp only [List.flatMap_cons, List.length_append] at own others ⊢
      omega

theorem laneRecords_eq_ofKey
    (records : List ParsedRecord) (partition : Partition)
    (digest laneId : String) :
    laneRecords records partition digest laneId =
      Grouping.ofKey ParsedRecord.place records
        ((partition, digest), laneId) := by
  simp only [laneRecords, Grouping.ofKey, ParsedRecord.place, Prod.mk.injEq,
    and_assoc]

theorem length_records
    (known : ∀ record ∈ records, record.laneId ∈ request.expectedLanes.keys) :
    ((contents records).flatMap fun content =>
        request.expectedLanes.keys.flatMap fun laneId =>
          laneRecords records content.1 content.2 laneId).length =
      records.length := by
  have places := @Grouping.flatMap_ofKey_perm _ _ _ ParsedRecord.place
    ((contents records).product request.expectedLanes.keys) records
    ((contents_nodup records).product request.expectedLanes.keys_nodup) (by
      intro record mem
      exact List.pair_mem_product.mpr
        ⟨(mem_contents _ _ _).mpr ⟨record, mem, rfl, rfl⟩,
          known record mem⟩)
  rw [← places.length_eq, List.product, List.flatMap_assoc]
  congr 2
  funext content
  rw [List.flatMap_map]
  congr 1
  funext laneId
  exact laneRecords_eq_ofKey records content.1 content.2 laneId

theorem contribution_eq_none {raw : RawMarketLaneRecord} :
    contribution text raw = none ↔ parseRecord text raw = none := by
  rw [contribution, Option.map_eq_none_iff]

theorem head?_append_text {start : String} {letter : Char}
    (first : start.toList.head? = some letter) (rest : String) :
    (start ++ rest).toList.head? = some letter := by
  rw [String.toList_append, List.head?_append, first, Option.some_or]

theorem disagreementReason_ne (counts : List (String × Nat)) :
    disagreementReason counts ≠ malformedReason := by
  intro same
  have starts : "lane_disagreement:".toList.head? = some 'l' := by
    decide +kernel
  have first : (disagreementReason counts).toList.head? = some 'l' :=
    head?_append_text starts _
  rw [same] at first
  exact absurd first (by decide +kernel)

theorem filter_malformed
    (gaps : result.gaps = request.failures.map (failureGap request.scope) ++
      malformedGaps text request.scope request.records ++
      disagreements request.scope request.expectedLanes.keys
        (readRecords text request.records)
        (contents (readRecords text request.records))) :
    result.gaps.filter (fun gap => gap.reason = malformedReason) =
      malformedGaps text request.scope request.records := by
  have failures : (request.failures.map (failureGap request.scope)).filter
      (fun gap => gap.reason = malformedReason) = [] := by
    rw [List.filter_eq_nil_iff]
    intro gap mem
    obtain ⟨failure, _, rfl⟩ := List.mem_map.mp mem
    rw [decide_eq_true_eq]
    show failure.reason.label ≠ malformedReason
    cases failure.reason <;> decide
  have unreadable : (malformedGaps text request.scope request.records).filter
      (fun gap => gap.reason = malformedReason) =
        malformedGaps text request.scope request.records := by
    rw [List.filter_eq_self]
    intro gap mem
    obtain ⟨raw, _, rfl⟩ := List.mem_map.mp mem
    exact decide_eq_true rfl
  have disagreeing : (disagreements request.scope request.expectedLanes.keys
      (readRecords text request.records)
      (contents (readRecords text request.records))).filter
        (fun gap => gap.reason = malformedReason) = [] := by
    rw [List.filter_eq_nil_iff]
    intro gap mem
    obtain ⟨content, _, rfl⟩ := List.mem_map.mp mem
    rw [decide_eq_true_eq]
    exact disagreementReason_ne _
  rw [gaps, List.filter_append, List.filter_append, failures, unreadable,
    disagreeing, List.nil_append, List.append_nil]

theorem accounts
    (accepted : reconcileRedundantMarketEvidence text request = .ok result) :
    Accounts text request result := by
  obtain ⟨isTwo, _, lanes, ⟨ranks, numbered⟩, gaps⟩ :=
    reconcile_eq_ok_iff.mp accepted
  obtain ⟨first, second, two⟩ := List.length_eq_two.mp isTwo
  have known := @laneId_of_mem_readRecords text request _ lanes
  obtain ⟨occurrences, same, each⟩ := forall₂_of_number numbered
  change result.occurrences = occurrences at same
  have malformed := filter_malformed gaps
  have unread : malformedGaps text request.scope request.records =
      (request.records.filter fun raw => contribution text raw = none).map
        (malformedGap request.scope) := by
    simp only [malformedGaps, contribution_eq_none]
  constructor
  · intro partition digest laneId
    rw [entry_lanes_groupsOf, laneRecords, readRecords,
      ← List.countP_eq_length_filter, List.countP_filterMap]
    apply List.countP_congr
    intro raw _
    cases read : parseRecord text raw with
    | none => simp [contribution, read]
    | some record =>
        simp [contribution, read, ParsedRecord.place, and_assoc]
  · intro raw _ place found
    obtain ⟨record, read, rfl⟩ := Option.map_eq_some_iff.mp found
    exact ⟨(parsedFrom read).partition, (parsedFrom read).laneId⟩
  · rw [malformed, unread]
  · have pairs := length_contents known two (List.Subset.refl _)
    rw [length_records known] at pairs
    have counted : occurrences.length = ((contents (readRecords text
        request.records)).flatMap (copies request.expectedLanes.keys
          (readRecords text request.records))).length :=
      each.length_eq.symm
    have split := List.length_eq_length_filter_add
      (fun raw => contribution text raw = none) (l := request.records)
    have read : (request.records.filter fun raw =>
        !decide (contribution text raw = none)).length =
          (readRecords text request.records).length := by
      rw [readRecords, List.length_filterMap_eq_countP,
        List.countP_eq_length_filter]
      congr 2
      funext raw
      cases found : parseRecord text raw with
      | none => simp [contribution, found]
      | some record => simp [contribution, found]
    rw [malformed, unread, List.length_map, same, counted, unmatched]
    omega

theorem numbered_room
    (known : ∀ raw ∈ request.records,
      raw.chunk.replicaId ∈ request.expectedLanes.keys)
    {first second : String}
    (two : request.expectedLanes.keys = [first, second])
    (room : request.records.length < 2 ^ 63) :
    ∃ numbered, (corroborated request.expectedLanes.keys
      (readRecords text request.records)).foldlM (number request.scope)
        (∅, []) = .ok numbered := by
  have lanes := @laneId_of_mem_readRecords text request _ known
  apply @number_room _ _ _ _ 0
  · intro item mem
    obtain ⟨⟨partition, digest⟩, present, isCopy⟩ := List.mem_flatMap.mp mem
    obtain ⟨record, isRecord, _, _, found⟩ := exists_template lanes present
    simp only [copies, found] at isCopy
    obtain ⟨ordinal, _, rfl⟩ := List.mem_map.mp isCopy
    obtain ⟨raw, _, read⟩ := List.mem_filterMap.mp isRecord
    exact (parsedFrom read).stream
  · intro key
    rw [AList.lookup_empty, Option.getD_none, I64.zero_val]
    exact le_refl _
  · have pairs := length_contents lanes two (List.Subset.refl _)
    rw [length_records lanes] at pairs
    have fewer : (readRecords text request.records).length ≤
        request.records.length := List.length_filterMap_le _ _
    rw [corroborated]
    omega

end Accounting

/-! ## Every request -/

/-- No overflow stops the request; with known failures, and records that a
vector can hold, there is a result; and it accounts for every record. -/
structure IsTotal (text : ReconcilerText) (request : ReconciliationRequest) :
    Prop where
  completes : reconcileChecked text request ≠ .error .overflow
  returns : request.records.length < 2 ^ 63 →
    (∀ failure ∈ request.failures,
      failure.laneId ∈ request.expectedLanes.keys) →
    ∃ result, reconcileChecked text request = .ok result
  accounts : ∀ result, reconcileChecked text request = .ok result →
    Accounts text request result

section Total

variable {text : ReconcilerText} {request : ReconciliationRequest}

theorem mapError_eq_ok
    {E F A : Type} {change : E → F} {call : Except E A} {value : A} :
    call.mapError change = .ok value ↔ call = .ok value := by
  cases call <;> simp [Except.mapError]

theorem reconcileChecked_unknown (two : request.expectedLanes.keys.length = 2)
    (unknown : ∃ failure ∈ request.failures,
      failure.laneId ∉ request.expectedLanes.keys) :
    ∃ error, reconcileChecked text request = .error (.failed error) := by
  obtain ⟨failure, mem, isUnknown⟩ := unknown
  rw [reconcileChecked, if_neg (not_not.mpr two)]
  cases read : request.failures.mapM
      (gapFromFailure request.scope request.expectedLanes) with
  | error error => exact ⟨error, rfl⟩
  | ok gaps =>
      exact absurd (mapM_gapFromFailure_eq_ok.mp read).1
        fun known => isUnknown (known failure mem)

theorem reconcileChecked_overflow (two : request.expectedLanes.keys.length = 2)
    (known : ∀ raw ∈ request.records,
      raw.chunk.replicaId ∈ request.expectedLanes.keys)
    (failures : ∀ failure ∈ request.failures,
      failure.laneId ∈ request.expectedLanes.keys)
    (late : ∃ raw ∈ request.records, ¬ MinuteFits text raw) :
    reconcileChecked text request = .error .overflow := by
  have read := mapM_gapFromFailure_eq_ok.mpr ⟨failures, rfl⟩
  rw [reconcileChecked, if_neg (not_not.mpr two), read]
  change (request.records.foldlM (takeRecordChecked text request) _ >>= _) = _
  rw [foldlM_takeRecordChecked_overflow known late]
  rfl

theorem isTotal_of_fits (two : request.expectedLanes.keys.length = 2)
    (known : ∀ raw ∈ request.records,
      raw.chunk.replicaId ∈ request.expectedLanes.keys)
    (fit : ∀ raw ∈ request.records, MinuteFits text raw) :
    IsTotal text request := by
  have same := reconcileChecked_fits fit
  constructor
  · rw [same]
    intro stops
    cases plain : reconcileRedundantMarketEvidence text request with
    | ok result =>
        rw [plain] at stops
        cases stops
    | error error =>
        rw [plain] at stops
        cases stops
  · intro room failures
    obtain ⟨first, second, lanes⟩ := List.length_eq_two.mp two
    obtain ⟨⟨ranks, occurrences⟩, numbered⟩ :=
      @numbered_room text request known _ _ lanes room
    have accepted := (@reconcile_eq_ok_iff text request
      ⟨occurrences, _⟩).mpr ⟨two, failures, known, ⟨ranks, numbered⟩, rfl⟩
    exact ⟨_, by rw [same, mapError_eq_ok.mpr accepted]⟩
  · intro result isResult
    rw [same, mapError_eq_ok] at isResult
    exact accounts isResult

end Total

end Reconciliation

open Reconciliation

/-- A request of two lanes is total if and only if it is refused for a failure
of another lane, or the minutes of all records start at 64-bit times. -/
theorem reconcile_isTotal_iff
    (text : ReconcilerText) (request : ReconciliationRequest)
    (two : request.expectedLanes.keys.length = 2)
    (known : ∀ raw ∈ request.records,
      raw.chunk.replicaId ∈ request.expectedLanes.keys) :
    IsTotal text request ↔
      (∃ failure ∈ request.failures,
        failure.laneId ∉ request.expectedLanes.keys) ∨
      ∀ raw ∈ request.records, MinuteFits text raw := by
  constructor
  · intro total
    by_contra both
    push Not at both
    exact total.completes (reconcileChecked_overflow two known both.1 both.2)
  · rintro (unknown | fit)
    · obtain ⟨error, refused⟩ := @reconcileChecked_unknown text request two
        unknown
      obtain ⟨failure, member, isUnknown⟩ := unknown
      constructor
      · rw [refused]
        intro stops
        cases stops
      · intro _ failures
        exact absurd (failures failure member) isUnknown
      · intro result isResult
        rw [refused] at isResult
        cases isResult
    · exact isTotal_of_fits two known fit

namespace EarlySample

open SampleEvidence (laneA lanes snapshot)

/-- A record of the least time there is. -/
def wire : JsonValue :=
  .object [("market_id", .string "btc-5m"),
    ("event_time_ms", .number (-9223372036854775808)),
    ("venue_id", .string "polymarket"), ("config_hash", .string "fixture"),
    ("normalized", SampleEvidence.normalized)]

/-- Its text. -/
def wireBytes : List UInt8 :=
  (characters toString id wire).map fun letter => UInt8.ofNat letter.toNat

def text : ReconcilerText :=
  { SampleEvidence.text with
    readJson := fun bytes => if bytes.isEmpty then none else some wire }

def request : ReconciliationRequest :=
  SampleEvidence.request
    [SampleEvidence.record laneA snapshot "btc-5m" wireBytes 2001]

end EarlySample

theorem reconcile_isTotal_iff_matched :
    IsTotal SampleEvidence.text SampleEvidence.matched :=
  (reconcile_isTotal_iff SampleEvidence.text SampleEvidence.matched
    (by decide +kernel) (by decide +kernel)).mpr (by
      right
      intro raw member wire read
      have times : ∀ raw ∈ SampleEvidence.matched.records,
          ∀ wire ∈ wireRecord SampleEvidence.text raw,
            firstMinuteMs ≤ wire.eventTimeMs.1 := by
        decide +kernel
      exact times raw member wire read)

/-- A single record of the least time stops its request. -/
theorem leastTime_not_isTotal :
    ¬ ∀ (text : ReconcilerText) (request : ReconciliationRequest),
      request.expectedLanes.keys.length = 2 →
      (∀ raw ∈ request.records,
        raw.chunk.replicaId ∈ request.expectedLanes.keys) →
      IsTotal text request := by
  intro claimed
  have total := claimed EarlySample.text EarlySample.request
    (by decide +kernel) (by decide +kernel)
  apply total.completes
  apply reconcileChecked_overflow
  · decide +kernel
  · decide +kernel
  · intro failure member
    cases member
  · refine ⟨_, List.mem_cons_self, ?_⟩
    intro fits
    exact absurd (fits _ rfl) (by decide +kernel)

end Pmkit
