import Pmkit.Chain.Finality

/-!
# Logs and the headers of their heights

The headers of a batch are linked and agreed on; its logs name their block
hash themselves.  Nothing compares the two, so a written log has the hash of
the header at its height exactly when the raw log has it.
-/

namespace Pmkit

def SitsOnHeader (blocks : List BlockHead) (height : Nat) (hash : String) :
    Prop :=
  ∃ header ∈ blocks, header.blockNumber = height ∧ header.blockHash = hash

instance (blocks : List BlockHead) (height : Nat) (hash : String) :
    Decidable (SitsOnHeader blocks height hash) :=
  inferInstanceAs (Decidable (∃ header ∈ blocks, _))

def FinalizedRawLogBatch.NamesHeaders (batch : FinalizedRawLogBatch)
    (commonAncestor : ChainCheckpoint) : Prop :=
  ∀ raw ∈ batch.logs,
    commonAncestor.blockNumber < raw.identity.blockNumber →
      SitsOnHeader batch.coverage.blocks raw.identity.blockNumber
        raw.identity.blockHash

/-- The rows a call inserts: those behind what its deletion kept.  A batch
that is held back inserts none. -/
def ChainTables.insertedRows (tables stored : ChainTables)
    (registry : ContractRegistry) (batch : QuorumVerifiedFinalizedLogBatch)
    (commonAncestor : ChainCheckpoint) : List CanonicalLogRow :=
  match verifyFinalizedProgression
      (tables.persistedCheckpoint registry.chainId) commonAncestor
      batch.asRawBatch with
  | .ok (some _) =>
      stored.logs.drop (tables.logs.filter (ChainTables.isKept
        registry.chainId.get commonAncestor.blockNumber)).length
  | .ok none | .error _ => []

theorem decodeRawLogs_complete
    {registry : ContractRegistry} {raws : List RawRpcLog}
    {logs : List CanonicalChainLog}
    (decoded : decodeRawLogs registry raws = .ok logs) :
    ∀ raw ∈ raws, ∃ log ∈ logs, log.identity = raw.identity.canonical := by
  induction raws generalizing logs with
  | nil =>
      simp
  | cons raw rest ih =>
      unfold decodeRawLogs at decoded
      split at decoded
      · cases decoded
      · rename_i first firstDecoded
        cases later : decodeRawLogs registry rest with
        | error error =>
            rw [later] at decoded
            cases decoded
        | ok others =>
            rw [later] at decoded
            cases decoded
            intro source mem
            rcases List.mem_cons.mp mem with rfl | mem
            · exact ⟨first, List.mem_cons_self,
                (decodeRawLog_eq_ok firstDecoded).1⟩
            · obtain ⟨log, inside, same⟩ := ih later source
                mem
              exact ⟨log, List.mem_cons_of_mem first inside, same⟩

section Call

variable {eventText : ChainEvent → String} {tables stored : ChainTables}
  {registry : ContractRegistry} {batch : QuorumVerifiedFinalizedLogBatch}
  {commonAncestor : ChainCheckpoint}

variable {finalized : ChainCheckpoint}

/-- The rows of a call that writes are those of the decoded logs. -/
theorem insertedRows_of_ingested {logs : List CanonicalChainLog}
    (progressed : verifyFinalizedProgression
      (tables.persistedCheckpoint registry.chainId) commonAncestor
        batch.asRawBatch = .ok (some finalized))
    (ingested : ChainTables.Ingested eventText tables registry
      batch.asRawBatch commonAncestor finalized logs stored) :
    tables.insertedRows stored registry batch commonAncestor =
      logs.map (.ofLog eventText) := by
  have written := ingested.written.logs
  simp only [ChainTables.insertedRows, progressed, written, List.drop_left]

/-- A raw log is ingested when it is above the ancestor: no log of a batch
that writes is above its head. -/
theorem mem_ingested_iff
    (progressed : verifyFinalizedProgression
      (tables.persistedCheckpoint registry.chainId) commonAncestor
        batch.asRawBatch = .ok (some finalized))
    {raw : RawRpcLog} :
    raw ∈ batch.asRawBatch.logs.filter (isIngested commonAncestor finalized) ↔
      raw ∈ batch.asRawBatch.logs ∧
        commonAncestor.blockNumber < raw.identity.blockNumber := by
  have reached := ChainTables.progressed_of_verify progressed
  rw [List.mem_filter]
  constructor
  · rintro ⟨mem, taken⟩
    simp only [isIngested, decide_eq_true_eq] at taken
    exact ⟨mem, taken.1⟩
  · rintro ⟨mem, above⟩
    refine ⟨mem, ?_⟩
    have inside := (reached.verified.log_inside mem).2.2
    have covered := reached.covered
    simp only [isIngested, decide_eq_true_eq]
    exact ⟨above, by omega⟩

/-- The rows an accepted call inserts have the hashes of the headers at their
heights exactly when the batch is held back or its raw logs name them. -/
theorem insertedRows_sit_iff
    (accepted : tables.ingestFinalizedBatch eventText registry batch
      commonAncestor = .ok stored) :
    (∀ row ∈ tables.insertedRows stored registry batch commonAncestor,
        SitsOnHeader batch.asRawBatch.coverage.blocks row.blockNumber
          row.blockHash) ↔
      verifyFinalizedProgression
          (tables.persistedCheckpoint registry.chainId) commonAncestor
          batch.asRawBatch = .ok none ∨
        batch.asRawBatch.NamesHeaders commonAncestor := by
  rcases ChainTables.ingestFinalizedBatch_eq_ok accepted with
    ⟨held, rfl⟩ | ⟨finalized, logs, progressed, ingested⟩
  · simp [ChainTables.insertedRows, held]
  · rw [insertedRows_of_ingested progressed ingested, progressed]
    simp only [Except.ok.injEq, reduceCtorEq, false_or]
    constructor
    · intro sits raw member above
      obtain ⟨log, inside, same⟩ := decodeRawLogs_complete ingested.decoded raw
        ((mem_ingested_iff progressed).mpr ⟨member, above⟩)
      have sat := sits _ (List.mem_map.mpr ⟨log, inside, rfl⟩)
      simp only [CanonicalLogRow.ofLog, same, RawLogIdentity.canonical] at sat
      exact sat
    · intro names row member
      obtain ⟨log, inside, rfl⟩ := List.mem_map.mp member
      obtain ⟨raw, source, same⟩ :=
        decodeRawLogs_eq_ok ingested.decoded log inside
      obtain ⟨sent, above⟩ := (mem_ingested_iff progressed).mp source
      simp only [CanonicalLogRow.ofLog, same, RawLogIdentity.canonical]
      exact names raw sent above

end Call

section Example

/-- The answer of a provider for block 1 with one transfer, whose log names a
block hash of its own. -/
def transferBatch (provider : String) (hash : String) :
    FinalizedRawLogBatch where
  provider := ⟨provider⟩
  range := ⟨.polygon, 1, 1⟩
  head := ⟨.polygon, 2, "0xhead", "0xblock1"⟩
  finalized := ⟨.polygon, 1, "0xblock1", "0xgenesis"⟩
  coverage := ⟨⟨.polygon, 1, 1⟩, [⟨.polygon, 1, "0xblock1", "0xgenesis"⟩]⟩
  logs := [⟨⟨⟨provider⟩, .polygon, 1, hash, "0xtx", 0, 0⟩,
    ContractRegistry.polygon.collateral, [EventTopic.erc20Transfer,
      "0x0000000000000000000000000000000000000000000000000000000000000001",
      "0x00000000000000000000000000000000000000000000000000000000000000aa"],
    "0x000000000000000000000000000000000000000000000000000000000000002a"⟩]

def ownTransfer : QuorumVerifiedFinalizedLogBatch where
  asRawBatch := transferBatch "first" "0xblock1"
  agreed := ⟨2, [transferBatch "first" "0xblock1",
    transferBatch "second" "0xblock1"], by decide +kernel⟩

/-- Two of two providers send it under the hash of another block. -/
def strangeTransfer : QuorumVerifiedFinalizedLogBatch where
  asRawBatch := transferBatch "first" "0xother1"
  agreed := ⟨2, [transferBatch "first" "0xother1",
    transferBatch "second" "0xother1"], by decide +kernel⟩

theorem ChainCall.result_of_accepted
    {eventText : ChainEvent → String} {tables : ChainTables} {call : ChainCall}
    (accepted : call.Accepted eventText tables) :
    call.result eventText tables = .ok (call.apply eventText tables) := by
  unfold Accepted at accepted
  cases result : call.result eventText tables with
  | ok stored =>
      rw [apply_of_result result]
  | error error =>
      rw [result] at accepted
      cases accepted

/-- The ingestion of a batch of block 1 on top of the genesis block. -/
def transferCall (batch : QuorumVerifiedFinalizedLogBatch) : ChainCall :=
  .ingest .polygon batch ⟨.polygon, 0, "0xgenesis"⟩

/-- The tables after a transfer of block 1 was ingested into empty ones. -/
def transferTables (batch : QuorumVerifiedFinalizedLogBatch) : ChainTables :=
  (transferCall batch).apply sampleEventText .empty

theorem transferCall_stores {batch : QuorumVerifiedFinalizedLogBatch}
    (accepted : (transferCall batch).Accepted sampleEventText .empty) :
    ChainTables.empty.ingestFinalizedBatch sampleEventText .polygon batch
        ⟨.polygon, 0, "0xgenesis"⟩ =
      .ok (transferTables batch) :=
  ChainCall.result_of_accepted accepted

theorem ownTransfer_sits :
    ChainTables.empty.ingestFinalizedBatch sampleEventText .polygon
        ownTransfer ⟨.polygon, 0, "0xgenesis"⟩ =
      .ok (transferTables ownTransfer) ∧
    ∀ row ∈ ChainTables.empty.insertedRows (transferTables ownTransfer)
        .polygon ownTransfer ⟨.polygon, 0, "0xgenesis"⟩,
      SitsOnHeader ownTransfer.asRawBatch.coverage.blocks row.blockNumber
        row.blockHash := by
  have taken := @transferCall_stores ownTransfer (by decide +kernel)
  refine ⟨taken, (insertedRows_sit_iff taken).mpr (Or.inr ?_)⟩
  intro raw member _
  revert raw
  decide +kernel

/-- The transfer of another block is accepted and stored next to the
checkpoint of block 1. -/
theorem strangeTransfer_stored :
    ChainTables.empty.ingestFinalizedBatch sampleEventText .polygon
        strangeTransfer ⟨.polygon, 0, "0xgenesis"⟩ =
      .ok (transferTables strangeTransfer) ∧
    ¬ ∀ row ∈ ChainTables.empty.insertedRows (transferTables strangeTransfer)
        .polygon strangeTransfer ⟨.polygon, 0, "0xgenesis"⟩,
      SitsOnHeader strangeTransfer.asRawBatch.coverage.blocks row.blockNumber
        row.blockHash :=
  ⟨transferCall_stores (by decide +kernel), by decide +kernel⟩

end Example

end Pmkit
