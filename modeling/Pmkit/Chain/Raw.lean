import Pmkit.Chain.Log

/-!
# Finalized provider responses

A provider answers a range of blocks with the headers of the range, its raw
logs, and the finalized block it knows.  A response is verified on its own, and
a batch is taken only when a strict majority of the configured providers gave
the same one.
-/

namespace Pmkit

/-! ## Headers -/

structure ProviderIdentity where
  value : String
  deriving DecidableEq, Repr

structure BlockHead where
  chainId : ChainId
  blockNumber : Nat
  blockHash : String
  parentHash : String
  deriving DecidableEq

/-- An inclusive range of blocks.  One read from JSON may be reversed. -/
structure FinalizedBlockRange where
  chainId : ChainId
  fromBlock : Nat
  toBlock : Nat
  deriving DecidableEq

inductive ChainSourceError where
  | invalidRange (fromBlock toBlock : Nat)
  | finalityViolation (requestedToBlock finalizedBlock : Nat)
  | invalidRawLog (message : String)
  | providerDisagreement (left right : ProviderIdentity)
  | providerQuorumNotReached (configuredProviderCount requiredProviderCount
      observedProviderCount largestAgreementCount : Nat)
  | missingBlockCoverage (message : String)
  | brokenBlockLinkage (blockNumber : Nat)
      (expectedParentHash actualParentHash : String)
  | duplicateRawLog
  deriving DecidableEq

/-- `FinalizedBlockRange::new`. -/
def FinalizedBlockRange.new (chainId : ChainId) (fromBlock toBlock : Nat) :
    Except ChainSourceError FinalizedBlockRange :=
  if toBlock < fromBlock then
    .error (.invalidRange fromBlock toBlock)
  else
    .ok ⟨chainId, fromBlock, toBlock⟩

/-- `verify_block_header_linkage`. -/
def verifyBlockHeaderLinkage (blocks : List BlockHead) :
    Except ChainSourceError Unit :=
  match (blocks.zip (blocks.drop 1)).find? fun pair =>
      pair.2.parentHash ≠ pair.1.blockHash with
  | some (previous, block) =>
      .error (.brokenBlockLinkage block.blockNumber previous.blockHash
        block.parentHash)
  | none => .ok ()

structure FinalizedBlockCoverage where
  range : FinalizedBlockRange
  blocks : List BlockHead
  deriving DecidableEq

namespace FinalizedBlockCoverage

/-- The width of the range plus one, when both 64-bit operations are in
bounds. -/
def expectedLength (range : FinalizedBlockRange) : Option Nat :=
  if range.toBlock < range.fromBlock then
    none
  else if 2 ^ 64 ≤ range.toBlock - range.fromBlock + 1 then
    none
  else
    some (range.toBlock - range.fromBlock + 1)

/-- Header number `index` of the range stands at its place. -/
def inPlace (range : FinalizedBlockRange) : Nat → List BlockHead → Bool
  | _, [] => true
  | index, block :: rest =>
      block.chainId = range.chainId ∧
        block.blockNumber = range.fromBlock + index ∧
        inPlace range (index + 1) rest

/-- `verify` of the coverage. -/
def verify (coverage : FinalizedBlockCoverage) :
    Except ChainSourceError Unit :=
  match expectedLength coverage.range with
  | none => .error (.missingBlockCoverage "block range size overflowed")
  | some expected =>
      if expected ≠ coverage.blocks.length ∨
          inPlace coverage.range 0 coverage.blocks = false then
        .error (.missingBlockCoverage
          "coverage does not contain exactly one header per block")
      else
        verifyBlockHeaderLinkage coverage.blocks

end FinalizedBlockCoverage

structure RawLogIdentity where
  provider : ProviderIdentity
  chainId : ChainId
  blockNumber : Nat
  blockHash : String
  transactionHash : String
  transactionIndex : Nat
  logIndex : Nat
  deriving DecidableEq

structure RawRpcLog where
  identity : RawLogIdentity
  contractAddress : Address
  topics : List String
  data : String
  deriving DecidableEq

structure FinalizedRawLogBatch where
  provider : ProviderIdentity
  range : FinalizedBlockRange
  head : BlockHead
  finalized : BlockHead
  coverage : FinalizedBlockCoverage
  logs : List RawRpcLog
  deriving DecidableEq

namespace FinalizedRawLogBatch

def isForeign (batch : FinalizedRawLogBatch) (log : RawRpcLog) : Bool :=
  log.identity.provider ≠ batch.provider ∨
    log.identity.chainId ≠ batch.range.chainId ∨
    log.identity.blockNumber < batch.range.fromBlock ∨
    batch.range.toBlock < log.identity.blockNumber

/-- `verify` of a response. -/
def verify (batch : FinalizedRawLogBatch) : Except ChainSourceError Unit :=
  if batch.head.chainId ≠ batch.range.chainId ∨
      batch.finalized.chainId ≠ batch.range.chainId then
    .error (.invalidRawLog
      "provider block heads disagree with requested chain")
  else if batch.head.blockNumber < batch.finalized.blockNumber then
    .error (.invalidRawLog "finalized block is ahead of provider head")
  else if batch.finalized.blockNumber < batch.range.toBlock then
    .error (.finalityViolation batch.range.toBlock batch.finalized.blockNumber)
  else if batch.coverage.range ≠ batch.range then
    .error (.missingBlockCoverage
      "coverage range does not match the finalized response")
  else
    match batch.coverage.verify with
    | .error error => .error error
    | .ok () =>
        if batch.logs.any batch.isForeign then
          .error (.invalidRawLog
            "raw log identity is outside the finalized response")
        else if ¬ (batch.logs.map RawRpcLog.identity).Nodup then
          .error .duplicateRawLog
        else
          .ok ()

/-- `FinalizedRawLogBatch::new`. -/
def new (batch : FinalizedRawLogBatch) :
    Except ChainSourceError FinalizedRawLogBatch :=
  batch.verify.map fun _ => batch

end FinalizedRawLogBatch

/-! ## Quorum -/

structure FinalizedProviderHead where
  provider : ProviderIdentity
  head : BlockHead
  finalized : BlockHead
  deriving DecidableEq

/-- `required_finality_quorum`. -/
def requiredFinalityQuorum (configuredProviderCount : Nat) : Nat :=
  let strictMajority := configuredProviderCount / 2 + 1
  if strictMajority < 2 then 2 else strictMajority

/-- How many providers were seen when one comes a second time. -/
def firstRepeat (seen : List ProviderIdentity) :
    List ProviderIdentity → Option Nat
  | [] => none
  | provider :: rest =>
      if provider ∈ seen then
        some seen.length
      else
        firstRepeat (provider :: seen) rest

def largestCount (counts : List Nat) : Nat :=
  counts.max?.getD 0

def headAgreementCount (providerHeads : List FinalizedProviderHead)
    (candidate : FinalizedProviderHead) : Nat :=
  (providerHeads.filter fun providerHead =>
    providerHead.finalized = candidate.finalized).length

/-- The last part of `agree_on_finalized_heads`: a majority of any size. -/
def majorityHead (configuredProviderCount : Nat)
    (providerHeads : List FinalizedProviderHead) :
    Except ChainSourceError BlockHead :=
  let required := requiredFinalityQuorum configuredProviderCount
  match providerHeads.find? fun candidate =>
      required ≤ headAgreementCount providerHeads candidate with
  | some agreed => .ok agreed.finalized
  | none =>
      .error (.providerQuorumNotReached configuredProviderCount required
        providerHeads.length
        (largestCount (providerHeads.map (headAgreementCount providerHeads))))

/-- `agree_on_finalized_heads`. -/
def agreeOnFinalizedHeads (configuredProviderCount : Nat)
    (providerHeads : List FinalizedProviderHead) :
    Except ChainSourceError BlockHead :=
  let required := requiredFinalityQuorum configuredProviderCount
  if configuredProviderCount < 2 ∨
      configuredProviderCount < providerHeads.length then
    .error (.providerQuorumNotReached configuredProviderCount required
      providerHeads.length 0)
  else
    match firstRepeat [] (providerHeads.map FinalizedProviderHead.provider) with
    | some observed =>
        .error (.providerQuorumNotReached configuredProviderCount required
          observed 0)
    | none =>
        match configuredProviderCount, providerHeads with
        | 2, [left, right] =>
            if left.head ≠ right.head ∨ left.finalized ≠ right.finalized then
              .error (.providerDisagreement left.provider right.provider)
            else
              .ok left.finalized
        | _, _ => majorityHead configuredProviderCount providerHeads

namespace FinalizedRawLogBatch

/-- `valid_for_agreed_head`. -/
def isValidFor (agreedHead : BlockHead) (batch : FinalizedRawLogBatch) : Bool :=
  batch.verify = .ok () ∧ batch.finalized = agreedHead

def sameLog (left right : RawRpcLog) : Bool :=
  left.identity.chainId = right.identity.chainId ∧
    left.identity.blockNumber = right.identity.blockNumber ∧
    left.identity.blockHash = right.identity.blockHash ∧
    left.identity.transactionHash = right.identity.transactionHash ∧
    left.identity.transactionIndex = right.identity.transactionIndex ∧
    left.identity.logIndex = right.identity.logIndex ∧
    left.contractAddress = right.contractAddress ∧
    left.topics = right.topics ∧
    left.data = right.data

/-- `batches_agree`. -/
def agrees (left right : FinalizedRawLogBatch) : Bool :=
  left.range = right.range ∧ left.coverage = right.coverage ∧
    left.logs.length = right.logs.length ∧
    (left.logs.zip right.logs).all fun pair => sameLog pair.1 pair.2

/-- `agreement_count`. -/
def agreementCount (agreedHead : BlockHead)
    (batches : List FinalizedRawLogBatch) (candidate : FinalizedRawLogBatch) :
    Nat :=
  if candidate.isValidFor agreedHead then
    (batches.filter fun batch =>
      batch.isValidFor agreedHead && candidate.agrees batch).length
  else
    0

def providerHead (batch : FinalizedRawLogBatch) : FinalizedProviderHead where
  provider := batch.provider
  head := batch.head
  finalized := batch.finalized

end FinalizedRawLogBatch

/-- `agree_on_finalized_log_batches`: the batch it selects. -/
def agreeOnFinalizedLogBatches (configuredProviderCount : Nat)
    (batches : List FinalizedRawLogBatch) :
    Except ChainSourceError FinalizedRawLogBatch :=
  match agreeOnFinalizedHeads configuredProviderCount
      (batches.map FinalizedRawLogBatch.providerHead) with
  | .error error => .error error
  | .ok agreedHead =>
      let required := requiredFinalityQuorum configuredProviderCount
      match batches.find? fun candidate =>
          required ≤ candidate.agreementCount agreedHead batches with
      | some agreed => .ok agreed
      | none =>
          .error (.providerQuorumNotReached configuredProviderCount required
            (batches.filter fun batch => batch.isValidFor agreedHead).length
            (largestCount (batches.map fun batch =>
              batch.agreementCount agreedHead batches)))

/-- A batch that the quorum agreed on.  The constructor is private in the
source, so this is the only way to one. -/
structure QuorumVerifiedFinalizedLogBatch where
  asRawBatch : FinalizedRawLogBatch
  agreed : ∃ configuredProviderCount batches,
    agreeOnFinalizedLogBatches configuredProviderCount batches =
      .ok asRawBatch

namespace FinalizedBlockCoverage

theorem getElem_of_inPlace
    {range : FinalizedBlockRange} {blocks : List BlockHead} {first : Nat}
    (placed : inPlace range first blocks = true)
    {index : Nat} (bound : index < blocks.length) :
    blocks[index].chainId = range.chainId ∧
      blocks[index].blockNumber = range.fromBlock + (first + index) := by
  induction blocks generalizing first index with
  | nil =>
      cases bound
  | cons block rest ih =>
      obtain ⟨chain, number, later⟩ :
          block.chainId = range.chainId ∧
            block.blockNumber = range.fromBlock + first ∧
            inPlace range (first + 1) rest = true := by
        simpa [inPlace] using placed
      cases index with
      | zero =>
          exact ⟨chain, number⟩
      | succ index =>
          have inside : index < rest.length := by
            simpa using bound
          obtain ⟨sameChain, place⟩ := ih later inside
          refine ⟨sameChain, ?_⟩
          simp only [List.getElem_cons_succ]
          omega

theorem verify_eq_ok
    {coverage : FinalizedBlockCoverage} (verified : coverage.verify = .ok ()) :
    coverage.range.fromBlock ≤ coverage.range.toBlock ∧
      coverage.blocks.length =
        coverage.range.toBlock - coverage.range.fromBlock + 1 ∧
      inPlace coverage.range 0 coverage.blocks = true ∧
      verifyBlockHeaderLinkage coverage.blocks = .ok () := by
  unfold verify expectedLength at verified
  split at verified
  · cases verified
  · rename_i expected length
    split at verified
    · cases verified
    · rename_i complete
      split at length
      · cases length
      · split at length
        · cases length
        · cases length
          simp only [not_or, not_not, Bool.not_eq_false] at complete
          exact ⟨by omega, complete.1.symm, complete.2, verified⟩

end FinalizedBlockCoverage

namespace FinalizedRawLogBatch

structure Verified (batch : FinalizedRawLogBatch) : Prop where
  headChain : batch.head.chainId = batch.range.chainId
  finalizedChain : batch.finalized.chainId = batch.range.chainId
  finalizedBelowHead : batch.finalized.blockNumber ≤ batch.head.blockNumber
  rangeFinalized : batch.range.toBlock ≤ batch.finalized.blockNumber
  coverageRange : batch.coverage.range = batch.range
  coverage : batch.coverage.verify = .ok ()
  logs : ∀ log ∈ batch.logs, batch.isForeign log = false
  distinct : (batch.logs.map RawRpcLog.identity).Nodup

variable {batch : FinalizedRawLogBatch}

theorem verify_eq_ok_iff :
    batch.verify = .ok () ↔ batch.Verified := by
  constructor
  · intro verified
    unfold verify at verified
    split at verified
    · cases verified
    · rename_i chains
      split at verified
      · cases verified
      · split at verified
        · cases verified
        · split at verified
          · cases verified
          · split at verified
            · cases verified
            · split at verified
              · cases verified
              · rename_i foreign
                split at verified
                · cases verified
                · simp only [not_or, not_not] at chains
                  simp only [List.any_eq_true, not_exists, not_and,
                    Bool.not_eq_true] at foreign
                  exact ⟨chains.1, chains.2, by omega, by omega,
                    not_not.mp ‹_›, ‹_›, foreign, not_not.mp ‹_›⟩
  · intro verified
    have noneForeign : batch.logs.any batch.isForeign = false := by
      rw [List.any_eq_false]
      intro log mem
      simp [verified.logs log mem]
    unfold verify
    rw [if_neg (by simp [verified.headChain, verified.finalizedChain]),
      if_neg (by have := verified.finalizedBelowHead; omega),
      if_neg (by have := verified.rangeFinalized; omega),
      if_neg (by simp [verified.coverageRange]), verified.coverage]
    simp [noneForeign, verified.distinct]

theorem Verified.log_inside (verified : batch.Verified)
    {log : RawRpcLog} (mem : log ∈ batch.logs) :
    log.identity.chainId = batch.range.chainId ∧
      batch.range.fromBlock ≤ log.identity.blockNumber ∧
      log.identity.blockNumber ≤ batch.range.toBlock := by
  have own := verified.logs log mem
  simp only [isForeign, decide_eq_false_iff_not, not_or, not_not] at own
  exact ⟨own.2.1, by omega, by omega⟩

/-- The header of a height of a verified response. -/
theorem Verified.header (verified : batch.Verified)
    {index : Nat} (bound : index < batch.coverage.blocks.length) :
    batch.coverage.blocks[index].chainId = batch.range.chainId ∧
      batch.coverage.blocks[index].blockNumber =
        batch.range.fromBlock + index := by
  have placed :=
    (FinalizedBlockCoverage.verify_eq_ok verified.coverage).2.2.1
  have found := FinalizedBlockCoverage.getElem_of_inPlace placed bound
  rw [verified.coverageRange] at found
  simpa using found

end FinalizedRawLogBatch

end Pmkit
