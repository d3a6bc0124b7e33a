import Pmkit.Chain.Decoder
import Pmkit.Library.KeyedMap
import Pmkit.Library.Table

/-!
# The canonical chain store

Three tables: the canonical logs, the canonical checkpoint of each chain, and
its finalized checkpoint.  A replacement segment deletes every log above its
common ancestor, writes its own, and moves the canonical checkpoint; a
finalized batch does the same and moves the finalized checkpoint with it.

A call writes in one transaction, so an error leaves the tables as they were.
-/

namespace Pmkit

inductive ChainStoreError where
  | chainSource (source : ChainSourceError)
  | finalizedHeadRegression (chainId persistedBlockNumber proposedBlockNumber : Nat)
  | finalizedHeadNotLinked (chainId blockNumber : Nat)
  | canonicalLogDecode (source : DecodeError)
  | invalidCanonicalSegment
  | limitTooLarge
  deriving DecidableEq

/-! ## Rows -/

/-- A row of `canonical_chain_logs`. -/
structure CanonicalLogRow where
  chainId : Nat
  blockNumber : Nat
  blockHash : String
  transactionHash : String
  transactionIndex : Nat
  logIndex : Nat
  contractAddress : String
  eventJson : String
  deriving DecidableEq

/-- The columns of its `PRIMARY KEY`. -/
structure CanonicalLogKey where
  chainId : Nat
  blockNumber : Nat
  blockHash : String
  transactionHash : String
  transactionIndex : Nat
  logIndex : Nat
  deriving DecidableEq

structure LogPosition where
  blockNumber : Nat
  transactionIndex : Nat
  logIndex : Nat
  deriving DecidableEq

namespace LogPosition

/-- The order of logs: block, transaction, log. -/
def cmp : LogPosition → LogPosition → Ordering :=
  compareLex (compareLex (compareOn blockNumber) (compareOn transactionIndex))
    (compareOn logIndex)

instance : Std.TransCmp cmp :=
  inferInstanceAs (Std.TransCmp (compareLex _ _))

theorem cmp_of_blockNumber_lt
    {left right : LogPosition} (lower : left.blockNumber < right.blockNumber) :
    cmp left right = .lt := by
  have block : compare left.blockNumber right.blockNumber = .lt :=
    Nat.compare_eq_lt.mpr lower
  simp [cmp, compareLex, compareOn, block]

theorem blockNumber_le_of_cmp
    {left right : LogPosition} (before : cmp left right = .lt) :
    left.blockNumber ≤ right.blockNumber := by
  by_contra higher
  have reversed : cmp right left = .lt :=
    cmp_of_blockNumber_lt (by omega)
  rw [Std.OrientedCmp.gt_of_lt reversed] at before
  cases before

end LogPosition

/-- `i64::try_from` of an unsigned number succeeds. -/
def fitsColumn (value : Nat) : Bool :=
  value < 2 ^ 63

def CanonicalLogIdentity.position (identity : CanonicalLogIdentity) :
    LogPosition where
  blockNumber := identity.blockNumber
  transactionIndex := identity.transactionIndex
  logIndex := identity.logIndex

/-- The numbers of a log are in the range of their columns. -/
def CanonicalLogIdentity.fits (identity : CanonicalLogIdentity) : Bool :=
  fitsColumn identity.chainId.get ∧ fitsColumn identity.blockNumber ∧
    fitsColumn identity.transactionIndex ∧ fitsColumn identity.logIndex

namespace CanonicalLogRow

def primaryKey (row : CanonicalLogRow) : CanonicalLogKey where
  chainId := row.chainId
  blockNumber := row.blockNumber
  blockHash := row.blockHash
  transactionHash := row.transactionHash
  transactionIndex := row.transactionIndex
  logIndex := row.logIndex

def position (row : CanonicalLogRow) : LogPosition where
  blockNumber := row.blockNumber
  transactionIndex := row.transactionIndex
  logIndex := row.logIndex

/-- The values `INSERT_CANONICAL_LOG` binds; the text of an event is that of
its derived serializer. -/
def ofLog (eventText : ChainEvent → String) (log : CanonicalChainLog) :
    CanonicalLogRow where
  chainId := log.identity.chainId.get
  blockNumber := log.identity.blockNumber
  blockHash := log.identity.blockHash
  transactionHash := log.identity.transactionHash
  transactionIndex := log.identity.transactionIndex
  logIndex := log.identity.logIndex
  contractAddress := log.contractAddress.value
  eventJson := eventText log.event

@[simp]
theorem position_ofLog
    (eventText : ChainEvent → String) (log : CanonicalChainLog) :
    (ofLog eventText log).position = log.identity.position := rfl

end CanonicalLogRow

structure CheckpointRow where
  blockNumber : Nat
  blockHash : String
  deriving DecidableEq

/-- The chain tables; the primary keys of the logs differ. -/
structure ChainTables where
  logs : List CanonicalLogRow
  canonicalCheckpoints : KeyedMap Nat CheckpointRow
  finalizedCheckpoints : KeyedMap Nat CheckpointRow
  separated : logs.Pairwise fun left right =>
    left.primaryKey ≠ right.primaryKey

namespace ChainTables

def empty : ChainTables where
  logs := []
  canonicalCheckpoints := ∅
  finalizedCheckpoints := ∅
  separated := List.Pairwise.nil

/-- A row that `DELETE_CANONICAL_LOGS_AFTER` leaves. -/
def isKept (chainId height : Nat) (row : CanonicalLogRow) : Bool :=
  row.chainId ≠ chainId ∨ row.blockNumber ≤ height

/-- `DELETE_CANONICAL_LOGS_AFTER`. -/
def deleteAfter (tables : ChainTables) (chainId height : Nat) : ChainTables :=
  { tables with
    logs := tables.logs.filter (isKept chainId height)
    separated := tables.separated.sublist List.filter_sublist }

/-- `INSERT_CANONICAL_LOG`: a row whose key is taken is not written. -/
def insertLog (tables : ChainTables) (row : CanonicalLogRow) : ChainTables :=
  if free : ∀ stored ∈ tables.logs, stored.primaryKey ≠ row.primaryKey then
    { tables with
      logs := tables.logs ++ [row]
      separated := List.pairwise_append.mpr
        ⟨tables.separated, List.pairwise_singleton _ _, by simpa using free⟩ }
  else
    tables

/-- `UPSERT_CANONICAL_CHECKPOINT`. -/
def upsertCanonicalCheckpoint (tables : ChainTables) (chainId : Nat)
    (row : CheckpointRow) : ChainTables :=
  { tables with
    canonicalCheckpoints := tables.canonicalCheckpoints.insert chainId row }

/-- `UPSERT_FINALIZED_CHAIN_CHECKPOINT`: nothing is written when the stored
head is higher, or another block of the same height. -/
def upsertFinalizedCheckpoint (tables : ChainTables) (chainId : Nat)
    (row : CheckpointRow) : Option ChainTables :=
  if (tables.finalizedCheckpoints.lookup chainId).all fun stored =>
      stored.blockNumber < row.blockNumber ∨
        row.blockNumber = stored.blockNumber ∧
          row.blockHash = stored.blockHash then
    some
      { tables with
        finalizedCheckpoints := tables.finalizedCheckpoints.insert chainId row }
  else
    none

def chainRows (tables : ChainTables) (chainId : Nat) : List CanonicalLogRow :=
  tables.logs.filter fun row => row.chainId = chainId

/-- `read_chain_checkpoint` over `READ_CANONICAL_CHECKPOINT`; the result
always names Polygon. -/
def readCanonicalCheckpoint (tables : ChainTables) (chainId : Nat) :
    Option ChainCheckpoint :=
  (tables.canonicalCheckpoints.lookup chainId).map fun row =>
    ⟨.polygon, row.blockNumber, row.blockHash⟩

/-- `read_chain_checkpoint` over `READ_CANONICAL_TIP`: the block of the last
log. -/
def readCanonicalTip (tables : ChainTables) (chainId : Nat) :
    Option ChainCheckpoint :=
  ((Table.orderBy (fun left right : CanonicalLogRow =>
      LogPosition.cmp right.position left.position)
    (tables.chainRows chainId)).head?).map fun row =>
      ⟨.polygon, row.blockNumber, row.blockHash⟩

/-- `READ_CANONICAL_BLOCK_HASH`. -/
def readCanonicalBlockHash (tables : ChainTables) (chainId height : Nat) :
    List String :=
  ((tables.chainRows chainId).filter fun row =>
    row.blockNumber = height).map CanonicalLogRow.blockHash |>.dedup

/-- `finalized_checkpoint`. -/
def finalizedCheckpoint (tables : ChainTables) (chainId : ChainId) :
    Except ChainStoreError (Option ChainCheckpoint) :=
  if fitsColumn chainId.get then
    .ok ((tables.finalizedCheckpoints.lookup chainId.get).map fun row =>
      ⟨chainId, row.blockNumber, row.blockHash⟩)
  else
    .error .limitTooLarge

end ChainTables

namespace CanonicalLogSegment

def follows (previous next : CanonicalChainLog) : Bool :=
  LogPosition.cmp previous.identity.position next.identity.position = .lt ∧
    (previous.identity.blockNumber ≠ next.identity.blockNumber ∨
      previous.identity.blockHash = next.identity.blockHash)

def inOrder : List CanonicalChainLog → Bool
  | previous :: next :: rest => follows previous next && inOrder (next :: rest)
  | _ => true

/-- `segment_tip`. -/
def tip (segment : CanonicalLogSegment) : ChainCheckpoint :=
  match segment.logs.getLast? with
  | none => segment.commonAncestor
  | some log =>
      ⟨log.identity.chainId, log.identity.blockNumber, log.identity.blockHash⟩

end CanonicalLogSegment

/-- `validate_segment`. -/
def validateSegment (registry : ContractRegistry)
    (segment : CanonicalLogSegment) : Except ChainStoreError Unit :=
  if segment.commonAncestor.chainId ≠ registry.chainId ∨
      CanonicalLogSegment.inOrder segment.logs = false ∨
      (segment.logs.any fun log =>
        log.identity.blockNumber ≤ segment.commonAncestor.blockNumber ∨
          registry.accepts log = false) then
    .error .invalidCanonicalSegment
  else
    .ok ()

namespace ChainTables

/-- `validate_stored_chain`. -/
def validateStoredChain (tables : ChainTables) (chainId : Nat)
    (ancestor : ChainCheckpoint) : Except ChainStoreError Unit :=
  if tables.readCanonicalCheckpoint chainId ≠
      tables.readCanonicalTip chainId then
    .error .invalidCanonicalSegment
  else
    match tables.readCanonicalTip chainId with
    | none =>
        if ancestor.blockNumber = 0 then
          .ok ()
        else
          .error .invalidCanonicalSegment
    | some tip =>
        if tip.blockNumber < ancestor.blockNumber then
          .error .invalidCanonicalSegment
        else if fitsColumn ancestor.blockNumber = false then
          .error .limitTooLarge
        else
          match tables.readCanonicalBlockHash chainId
              ancestor.blockNumber with
          | [hash] =>
              if hash ≠ ancestor.blockHash then
                .error .invalidCanonicalSegment
              else
                .ok ()
          | _ => .error .invalidCanonicalSegment

/-- The loop of `write_canonical_segment`. -/
def insertLogs (eventText : ChainEvent → String) :
    ChainTables → List CanonicalChainLog → Except ChainStoreError ChainTables
  | tables, [] => .ok tables
  | tables, log :: rest =>
      if log.identity.fits then
        insertLogs eventText (tables.insertLog (.ofLog eventText log)) rest
      else
        .error .limitTooLarge

/-- `write_canonical_segment`. -/
def writeCanonicalSegment (eventText : ChainEvent → String)
    (tables : ChainTables) (registry : ContractRegistry)
    (segment : CanonicalLogSegment) : Except ChainStoreError ChainTables :=
  if fitsColumn registry.chainId.get = false ∨
      fitsColumn segment.commonAncestor.blockNumber = false then
    .error .limitTooLarge
  else
    match insertLogs eventText (tables.deleteAfter registry.chainId.get
        segment.commonAncestor.blockNumber) segment.logs with
    | .error error => .error error
    | .ok written =>
        if fitsColumn segment.tip.chainId.get = false ∨
            fitsColumn segment.tip.blockNumber = false then
          .error .limitTooLarge
        else
          .ok (written.upsertCanonicalCheckpoint segment.tip.chainId.get
            ⟨segment.tip.blockNumber, segment.tip.blockHash⟩)

/-- `replace_canonical_segment`. -/
def replaceCanonicalSegment (eventText : ChainEvent → String)
    (tables : ChainTables) (registry : ContractRegistry)
    (segment : CanonicalLogSegment) : Except ChainStoreError ChainTables :=
  match validateSegment registry segment with
  | .error error => .error error
  | .ok () =>
      if fitsColumn registry.chainId.get = false then
        .error .limitTooLarge
      else
        match tables.validateStoredChain registry.chainId.get
            segment.commonAncestor with
        | .error error => .error error
        | .ok () => tables.writeCanonicalSegment eventText registry segment

end ChainTables

/-! ## Finalized batches -/

/-- The part of `verify_finalized_progression` after the proposed head is known
to be the last header: the head is above the anchor, and the headers must reach
down to it. -/
def linkToAnchor (anchor : ChainCheckpoint) (batch : FinalizedRawLogBatch)
    (proposed : ChainCheckpoint) :
    Except ChainStoreError (Option ChainCheckpoint) :=
  if anchor.blockNumber + 1 < 2 ^ 64 ∧
      batch.range.fromBlock = anchor.blockNumber + 1 then
    match batch.coverage.blocks.head? with
    | none => .ok none
    | some firstHeader =>
        match verifyBlockHeaderLinkage
            [⟨anchor.chainId, anchor.blockNumber, anchor.blockHash, ""⟩,
              firstHeader] with
        | .error error => .error (.chainSource error)
        | .ok () => .ok (some proposed)
  else if anchor.blockNumber < batch.range.fromBlock then
    .ok none
  else
    match batch.coverage.blocks[anchor.blockNumber - batch.range.fromBlock]? with
    | none => .ok none
    | some coveredAnchor =>
        if coveredAnchor.blockHash ≠ anchor.blockHash then
          .error (.finalizedHeadNotLinked anchor.chainId.get anchor.blockNumber)
        else
          .ok (some proposed)

def FinalizedRawLogBatch.proposed (batch : FinalizedRawLogBatch) :
    ChainCheckpoint where
  chainId := batch.finalized.chainId
  blockNumber := batch.finalized.blockNumber
  blockHash := batch.finalized.blockHash

def checkPersisted (persisted : Option ChainCheckpoint)
    (proposed : ChainCheckpoint) : Except ChainStoreError Unit :=
  match persisted with
  | none => .ok ()
  | some persisted =>
      if proposed.blockNumber < persisted.blockNumber then
        .error (.finalizedHeadRegression proposed.chainId.get
          persisted.blockNumber proposed.blockNumber)
      else if proposed.blockNumber = persisted.blockNumber ∧
          proposed.blockHash ≠ persisted.blockHash then
        .error (.finalizedHeadNotLinked proposed.chainId.get
          proposed.blockNumber)
      else
        .ok ()

/-- `verify_finalized_progression`: the head to persist, or none when the
batch is held without a write. -/
def verifyFinalizedProgression (persisted : Option ChainCheckpoint)
    (commonAncestor : ChainCheckpoint) (batch : FinalizedRawLogBatch) :
    Except ChainStoreError (Option ChainCheckpoint) :=
  match batch.verify with
  | .error error => .error (.chainSource error)
  | .ok () =>
      if commonAncestor.chainId ≠ batch.range.chainId then
        .error .invalidCanonicalSegment
      else
        match checkPersisted persisted batch.proposed with
        | .error error => .error error
        | .ok () =>
            match batch.coverage.blocks.getLast? with
            | none => .ok none
            | some finalizedHeader =>
                if finalizedHeader.blockNumber <
                    batch.proposed.blockNumber then
                  .ok none
                else if finalizedHeader ≠ batch.finalized then
                  .error (.finalizedHeadNotLinked batch.proposed.chainId.get
                    batch.proposed.blockNumber)
                else
                  let anchor := persisted.getD commonAncestor
                  if batch.proposed.blockNumber < anchor.blockNumber then
                    .error .invalidCanonicalSegment
                  else if batch.proposed.blockNumber =
                      anchor.blockNumber then
                    if batch.proposed.blockHash = anchor.blockHash then
                      .ok (some batch.proposed)
                    else
                      .error (.finalizedHeadNotLinked anchor.chainId.get
                        anchor.blockNumber)
                  else
                    linkToAnchor anchor batch batch.proposed

def isIngested (commonAncestor finalized : ChainCheckpoint)
    (raw : RawRpcLog) : Bool :=
  commonAncestor.blockNumber < raw.identity.blockNumber ∧
    raw.identity.blockNumber ≤ finalized.blockNumber

/-- Decode logs one after another; the first failure is the result. -/
def decodeRawLogs (registry : ContractRegistry) :
    List RawRpcLog → Except ChainStoreError (List CanonicalChainLog)
  | [] => .ok []
  | raw :: rest =>
      match decodeRawLog registry raw with
      | .error error => .error (.canonicalLogDecode error)
      | .ok log => (decodeRawLogs registry rest).map (log :: ·)

namespace ChainTables

/-- The transaction of `ingest_finalized_batch`. -/
def writeFinalizedSegment (eventText : ChainEvent → String)
    (tables : ChainTables) (registry : ContractRegistry)
    (segment : CanonicalLogSegment) (finalized : ChainCheckpoint) :
    Except ChainStoreError ChainTables :=
  match tables.writeCanonicalSegment eventText registry segment with
  | .error error => .error error
  | .ok written =>
      if fitsColumn finalized.blockNumber = false then
        .error .limitTooLarge
      else
        match written.upsertFinalizedCheckpoint registry.chainId.get
            ⟨finalized.blockNumber, finalized.blockHash⟩ with
        | none =>
            .error (.finalizedHeadNotLinked registry.chainId.get
              finalized.blockNumber)
        | some stored => .ok stored

/-- The checks of `ingest_finalized_batch` after decoding, and its write. -/
def ingestSegment (eventText : ChainEvent → String) (tables : ChainTables)
    (registry : ContractRegistry) (persisted : Option ChainCheckpoint)
    (segment : CanonicalLogSegment) (finalized : ChainCheckpoint) :
    Except ChainStoreError ChainTables :=
  match validateSegment registry segment with
  | .error error => .error error
  | .ok () =>
      if fitsColumn registry.chainId.get = false then
        .error .limitTooLarge
      else if persisted = some segment.commonAncestor then
        tables.writeFinalizedSegment eventText registry segment finalized
      else
        match tables.validateStoredChain registry.chainId.get
            segment.commonAncestor with
        | .error error => .error error
        | .ok () =>
            tables.writeFinalizedSegment eventText registry segment finalized

/-- `ingest_finalized_batch`. -/
def ingestFinalizedBatch (eventText : ChainEvent → String)
    (tables : ChainTables) (registry : ContractRegistry)
    (batch : QuorumVerifiedFinalizedLogBatch)
    (commonAncestor : ChainCheckpoint) : Except ChainStoreError ChainTables :=
  match tables.finalizedCheckpoint registry.chainId with
  | .error error => .error error
  | .ok persisted =>
      match verifyFinalizedProgression persisted commonAncestor
          batch.asRawBatch with
      | .error error => .error error
      | .ok none => .ok tables
      | .ok (some finalized) =>
          match decodeRawLogs registry (batch.asRawBatch.logs.filter
              (isIngested commonAncestor finalized)) with
          | .error error => .error error
          | .ok logs =>
              tables.ingestSegment eventText registry persisted
                ⟨commonAncestor, logs⟩ finalized

end ChainTables

end Pmkit
