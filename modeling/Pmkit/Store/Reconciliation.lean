import Pmkit.Library.KeyedMap
import Pmkit.Library.SortedMap
import Pmkit.Store.Gaps
import Pmkit.Tape.SpoolRecord

/-!
# Reconciliation of redundant evidence

Two collectors record the same markets.  What both of them have becomes an
occurrence, as often as both have it; what they disagree about, and what cannot
be read, becomes a gap of its market minute.
-/

namespace Pmkit

open MachineInt JsonValue

structure RawMarketLaneRecord where
  chunk : SpoolChunk
  frame : SpoolFrame
  marketId : String

inductive ReconciliationFailureReason where
  | laneOutage
  | checkpointFailure
  deriving DecidableEq

def ReconciliationFailureReason.label : ReconciliationFailureReason → String
  | .laneOutage => "lane_outage"
  | .checkpointFailure => "checkpoint_failure"

/-- What is known to be missing from a market minute. -/
structure ReconciliationFailure where
  laneId : String
  discoverySnapshotSha256 : String
  marketId : String
  minuteStartMs : I64
  reason : ReconciliationFailureReason
  deriving DecidableEq

structure ReconciliationRequest where
  scope : OwnerScope
  expectedLanes : SortedMap String Unit compare
  records : List RawMarketLaneRecord
  failures : List ReconciliationFailure

structure CanonicalOccurrence where
  contentSha256 : String
  occurrenceOrdinal : Nat
  canonicalBytes : List UInt8
  envelope : PmEnvelope

structure ReconciliationResult where
  occurrences : List CanonicalOccurrence
  gaps : List ReplayGapInterval

inductive ReconciliationError where
  | expectedTwoLanes
  | unexpectedLane (laneId : String)
  | ordinalOutOfRange
  | store (source : TapeStoreError)
  deriving DecidableEq

namespace Reconciliation

/-! ## Reading a record -/

/-- `UTC_MINUTE_MS`. -/
def utcMinuteMs : Int := 60000

/-- `RECONCILER_SOURCE_ID`. -/
def reconcilerSourceId : String := "pmkit-reconciler-v1"

/-- The text functions of the store with the JSON reader of the frames: the
fields of the outermost object as they are written, and the values inside as
the maps of the JSON library hold them. -/
structure ReconcilerText extends StoreText where
  readJson : List UInt8 → Option JsonValue

structure WireMarketRecord where
  marketId : String
  eventTimeMs : I64
  venueId : String
  configHash : String
  normalized : JsonValue

def WireMarketRecord.read (value : JsonValue) : Option WireMarketRecord := do
  let fields ← value.recordFields ["market_id", "event_time_ms", "venue_id",
    "config_hash", "normalized"]
  return {
    marketId := ← required fields "market_id" asStr
    eventTimeMs := I64.clamp (← required fields "event_time_ms" asI64)
    venueId := ← required fields "venue_id" asStr
    configHash := ← required fields "config_hash" asStr
    normalized := ← required fields "normalized" some }

structure Partition where
  snapshot : String
  marketId : String
  minuteStartMs : I64
  deriving DecidableEq

def Partition.cmp : Partition → Partition → Ordering :=
  compareLex (compareLex (compareOn snapshot) (compareOn marketId))
    (compareOn minuteStartMs)

instance : Std.TransCmp Partition.cmp :=
  inferInstanceAs (Std.TransCmp (compareLex _ _))

instance : Std.LawfulEqCmp Partition.cmp where
  compare_self := by
    intro partition
    simp [Partition.cmp, compareLex, compareOn]
  eq_of_compare := by
    intro left right ties
    simp only [Partition.cmp, compareLex, compareOn,
      Ordering.then_eq_eq] at ties
    obtain ⟨⟨snapshot, market⟩, minute⟩ := ties
    cases left
    cases right
    rw [Partition.mk.injEq]
    exact ⟨Std.LawfulEqOrd.compare_eq_iff_eq.mp snapshot,
      Std.LawfulEqOrd.compare_eq_iff_eq.mp market, compare_eq_iff_eq.mp minute⟩

structure ParsedRecord where
  laneId : String
  partition : Partition
  eventTimeMs : I64
  venueId : String
  configHash : String
  normalized : JsonValue
  canonicalBytes : List UInt8
  contentSha256 : String
  deriving DecidableEq

/-- `valid_digest`. -/
def validDigest (value : String) : Bool :=
  isSha256Hex value

/-- The start of the minute of a time.  Where the product does not fit, no
chunk has the minute that it wraps to. -/
def minuteStart (timeMs : I64) : Option I64 :=
  I64.ofInt (timeMs.1 / utcMinuteMs * utcMinuteMs)

/-- The JSON object that addresses a record; the map of `json!` orders its
fields by name. -/
def canonicalJson (partition : Partition) (wire : WireMarketRecord) :
    JsonValue :=
  object [
    ("config_hash", string wire.configHash),
    ("discovery_snapshot_sha256", string partition.snapshot),
    ("event_time_ms", number wire.eventTimeMs.1),
    ("market_id", string partition.marketId),
    ("minute_start_ms", number partition.minuteStartMs.1),
    ("normalized", wire.normalized),
    ("venue_id", string wire.venueId)]

variable (text : ReconcilerText)

/-- `parse_record`. -/
def parseRecord (raw : RawMarketLaneRecord) : Option ParsedRecord :=
  match (text.readJson raw.frame.rawBytes).bind WireMarketRecord.read with
  | none => none
  | some wire =>
      if wire.marketId ≠ raw.marketId ∨
          minuteStart wire.eventTimeMs ≠ some raw.chunk.minuteStartMs ∨
          wire.marketId = "" ∨ wire.venueId = "" ∨ wire.configHash = "" ∨
          validDigest raw.frame.discoverySnapshotSha256 = false ∨
          (wire.normalized.get "canonical_market_id").bind asStr ≠
            some wire.marketId ∨
          (wire.normalized.get "stream_id").bind asStr = none then
        none
      else
        let partition : Partition :=
          { snapshot := raw.frame.discoverySnapshotSha256
            marketId := wire.marketId
            minuteStartMs := raw.chunk.minuteStartMs }
        let canonicalBytes :=
          (text.writeJson (canonicalJson partition wire)).toUTF8.toList
        some
          { laneId := raw.chunk.replicaId
            partition := partition
            eventTimeMs := wire.eventTimeMs
            venueId := wire.venueId
            configHash := wire.configHash
            normalized := wire.normalized
            canonicalBytes := canonicalBytes
            contentSha256 := text.sha256Hex canonicalBytes }

/-- `partition_gap`. -/
def partitionGap (scope : OwnerScope) (partition : Partition)
    (reason : String) : ReplayGapInterval where
  scope := scope
  partition :=
    partition.marketId ++ ":" ++ toString partition.minuteStartMs.1
  discoverySnapshotSha256 :=
    if validDigest partition.snapshot then some partition.snapshot else none
  startTimeMs := partition.minuteStartMs
  endTimeMs := I64.ofInt (partition.minuteStartMs.1 + (utcMinuteMs - 1))
  reason := reason

/-- `gap_from_failure`. -/
def gapFromFailure (scope : OwnerScope)
    (expectedLanes : SortedMap String Unit compare)
    (failure : ReconciliationFailure) :
    Except ReconciliationError ReplayGapInterval :=
  if failure.laneId ∉ expectedLanes.keys then
    .error (.unexpectedLane failure.laneId)
  else
    .ok (partitionGap scope
      { snapshot := failure.discoverySnapshotSha256
        marketId := failure.marketId
        minuteStartMs := failure.minuteStartMs } failure.reason.label)

/-- `malformed_gap`. -/
def malformedGap (scope : OwnerScope) (raw : RawMarketLaneRecord) :
    ReplayGapInterval :=
  partitionGap scope
    { snapshot := raw.frame.discoverySnapshotSha256
      marketId := raw.marketId
      minuteStartMs := raw.chunk.minuteStartMs } "malformed_record"

/-- The reason of a disagreement, which names how many records each lane
has. -/
def disagreementReason (counts : List (String × Nat)) : String :=
  "lane_disagreement:" ++ ",".intercalate
    (counts.map fun count => count.1 ++ "=" ++ toString count.2)

/-- The records of one content, by lane. -/
abbrev Lanes : Type :=
  SortedMap String (List ParsedRecord) compare

/-- `disagreement_gap`. -/
def disagreementGap (scope : OwnerScope) (partition : Partition)
    (lanes : Lanes) : ReplayGapInterval :=
  partitionGap scope partition (disagreementReason
    (lanes.entries.map fun entry => (entry.1, entry.2.length)))

/-- The ranks given so far, by time, market and stream. -/
abbrev StreamRanks : Type :=
  KeyedMap (I64 × String × String) I64

def ParsedRecord.streamId (record : ParsedRecord) : Option String :=
  (record.normalized.get "stream_id").bind asStr

/-- `next_rank`. -/
def nextRank (ranks : StreamRanks) (record : ParsedRecord) :
    Except ReconciliationError (StreamRanks × I64) :=
  match record.streamId with
  | none => .error .ordinalOutOfRange
  | some stream =>
      let key := (record.eventTimeMs, record.partition.marketId, stream)
      let current := (ranks.lookup key).getD 0
      match I64.ofInt (current.1 + 1) with
      | none => .error .ordinalOutOfRange
      | some next => .ok (AList.insert key next ranks, current)

/-- `canonical_envelope`. -/
def canonicalEnvelope (scope : OwnerScope) (record : ParsedRecord)
    (rank : I64) : PmEnvelope where
  schemaVersion := pmEnvelopeVersion
  scope := scope
  venueId := record.venueId
  configHash := record.configHash
  sourceId := reconcilerSourceId
  connectionId := "reconciliation:" ++ record.partition.snapshot
  sourceTimestampMs := record.eventTimeMs
  canonicalSourceRank := rank
  connectionEpoch := 0
  frameSequence := rank
  receiptTimestampMs := record.eventTimeMs
  ingestSequence := rank
  rawFrame := record.canonicalBytes
  normalized := record.normalized

/-- The records by partition, content and lane. -/
abbrev Groups : Type :=
  SortedMap Partition (SortedMap String Lanes compare) Partition.cmp

def pushRecord (groups : Groups) (record : ParsedRecord) : Groups :=
  groups.change record.partition .empty fun hashes =>
    hashes.change record.contentSha256 .empty fun lanes =>
      lanes.change record.laneId [] fun records => records ++ [record]

def takeRecord (request : ReconciliationRequest)
    (taken : Groups × List ReplayGapInterval) (raw : RawMarketLaneRecord) :
    Except ReconciliationError (Groups × List ReplayGapInterval) :=
  if raw.chunk.replicaId ∉ request.expectedLanes.keys then
    .error (.unexpectedLane raw.chunk.replicaId)
  else
    match parseRecord text raw with
    | some record => .ok (pushRecord taken.1 record, taken.2)
    | none => .ok (taken.1, taken.2 ++ [malformedGap request.scope raw])

structure ReconcilerState where
  ranks : StreamRanks
  occurrences : List CanonicalOccurrence
  gaps : List ReplayGapInterval

def pushOccurrences (scope : OwnerScope) (contentSha256 : String)
    (template : ParsedRecord) :
    Nat → Nat → ReconcilerState → Except ReconciliationError ReconcilerState
  | 0, _, state => .ok state
  | count + 1, ordinal, state => do
      let (ranks, rank) ← nextRank state.ranks template
      pushOccurrences scope contentSha256 template count (ordinal + 1)
        { state with
          ranks := ranks
          occurrences := state.occurrences ++
            [{ contentSha256 := contentSha256
               occurrenceOrdinal := ordinal
               canonicalBytes := template.canonicalBytes
               envelope := canonicalEnvelope scope template rank }] }

def completeLanes (expectedLanes : SortedMap String Unit compare)
    (lanes : Lanes) : Lanes :=
  expectedLanes.keys.foldl (fun lanes laneId => lanes.change laneId [] id) lanes

def reconcileContent (request : ReconciliationRequest) (partition : Partition)
    (state : ReconcilerState) (content : String × Lanes) :
    Except ReconciliationError ReconcilerState :=
  let lanes := completeLanes request.expectedLanes content.2
  let counts := lanes.entries.map fun entry => entry.2.length
  let matching := counts.min?.getD 0
  let total := counts.max?.getD 0
  match lanes.entries.findSome? fun entry => entry.2.head? with
  | none => .error .ordinalOutOfRange
  | some template => do
      let state ← pushOccurrences request.scope content.1 template matching 0
        state
      if matching ≠ total then
        return { state with
          gaps := state.gaps ++
            [disagreementGap request.scope partition lanes] }
      else
        return state

end Reconciliation

open Reconciliation

/-- `reconcile_redundant_market_evidence`. -/
def reconcileRedundantMarketEvidence (text : ReconcilerText)
    (request : ReconciliationRequest) :
    Except ReconciliationError ReconciliationResult :=
  if request.expectedLanes.keys.length ≠ 2 then
    .error .expectedTwoLanes
  else do
    let failures ← request.failures.mapM
      (gapFromFailure request.scope request.expectedLanes)
    let (groups, gaps) ← request.records.foldlM (takeRecord text request)
      (.empty, failures)
    let state ← groups.entries.foldlM (fun state group =>
      group.2.entries.foldlM (reconcileContent request group.1) state)
      { ranks := ∅, occurrences := [], gaps := gaps }
    return { occurrences := state.occurrences, gaps := state.gaps }

end Pmkit
