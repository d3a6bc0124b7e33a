import Pmkit.Store.Paging

/-!
# Replay gaps

A recorder or the reconciler stores the interval in which it may have missed
records, with the partition it was reading.  An export reads the gaps of its
scope and compares their partitions with its own market minutes.
-/

namespace Pmkit

open MachineInt

structure ReplayGapInterval where
  scope : OwnerScope
  partition : String
  discoverySnapshotSha256 : Option String
  startTimeMs : I64
  endTimeMs : Option I64
  reason : String
  deriving DecidableEq

/-- A row of `pm_replay_gaps`; its columns are its primary key. -/
structure ReplayGapRow where
  scope : OwnerScope
  partitionId : String
  discoverySnapshotSha256 : String
  startTimeMs : I64
  endTimeMs : I64
  unresolved : Bool
  reason : String
  deriving DecidableEq

namespace ReplayGapRow

/-- The values `INSERT_REPLAY_GAP` binds. -/
def ofGap (gap : ReplayGapInterval) : ReplayGapRow where
  scope := gap.scope
  partitionId := gap.partition
  discoverySnapshotSha256 := gap.discoverySnapshotSha256.getD ""
  startTimeMs := gap.startTimeMs
  endTimeMs := gap.endTimeMs.getD I64.maxValue
  unresolved := gap.endTimeMs.isNone
  reason := gap.reason

/-- The gap of a row of `READ_REPLAY_GAPS`. -/
def gap (row : ReplayGapRow) : ReplayGapInterval where
  scope := row.scope
  partition := row.partitionId
  discoverySnapshotSha256 :=
    if row.discoverySnapshotSha256 = "" then
      none
    else
      some row.discoverySnapshotSha256
  startTimeMs := row.startTimeMs
  endTimeMs := if row.unresolved then none else some row.endTimeMs
  reason := row.reason

/-- The `ORDER BY` of `READ_REPLAY_GAPS`. -/
def cmp : ReplayGapRow → ReplayGapRow → Ordering :=
  compareLex (compareLex (compareOn startTimeMs) (compareOn endTimeMs))
    (compareLex (compareOn partitionId) (compareOn discoverySnapshotSha256))

end ReplayGapRow

structure ReplayGapTable where
  rows : List ReplayGapRow
  distinct : rows.Nodup

namespace ReplayGapTable

def empty : ReplayGapTable where
  rows := []
  distinct := List.nodup_nil

/-- `store_replay_gap`: a gap that is stored is not stored again. -/
def storeReplayGap (table : ReplayGapTable) (gap : ReplayGapInterval) :
    ReplayGapTable :=
  if stored : .ofGap gap ∈ table.rows then
    table
  else
    { rows := table.rows ++ [.ofGap gap]
      distinct := List.Nodup.append table.distinct (List.nodup_singleton _)
        (by simpa using stored) }

/-- `read_replay_gaps`. -/
def readReplayGaps (table : ReplayGapTable) (scope : OwnerScope) :
    List ReplayGapInterval :=
  (Table.orderBy ReplayGapRow.cmp
    (table.rows.filter fun row => row.scope = scope)).map ReplayGapRow.gap

end ReplayGapTable

/-- `rsplit_once(':')`: the parts around the last colon. -/
def rsplitColon (text : List Char) : Option (List Char × List Char) :=
  match text with
  | [] => none
  | character :: rest =>
      match rsplitColon rest with
      | some (before, after) => some (character :: before, after)
      | none => if character = ':' then some ([], rest) else none

inductive ReplayGapPartition where
  | allSubscribed
  | marketMinute (marketId : String) (minuteStartMs : Int)
  | unknown
  deriving DecidableEq

/-- `replay_gap_partition`. -/
def replayGapPartition (value : String) : ReplayGapPartition :=
  if value = "all_subscribed" then
    .allSubscribed
  else
    match rsplitColon value.toList with
    | none => .unknown
    | some (marketId, minuteStartMs) =>
        match parseI64 minuteStartMs with
        | none => .unknown
        | some minuteStartMs =>
            .marketMinute (String.ofList marketId) minuteStartMs

/-- `intervals_intersect`. -/
def intervalsIntersect (first last : Int) (gap : ReplayGapInterval) : Bool :=
  gap.startTimeMs.1 ≤ last ∧ first ≤ (gap.endTimeMs.getD I64.maxValue).1

end Pmkit
