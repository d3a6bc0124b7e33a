import Pmkit.Chain.Write
import Pmkit.Library.Trace

/-!
# Finalized history

A run is a sequence of replacements and finalized batches.  A log at or below
the finalized checkpoint of its chain should only go when a later call brings
the logs of its height.  The delete starts at the common ancestor and the
batch at the first block of its range, and no check relates the two: a batch
with an ancestor below the stored logs removes them and brings nothing in
their place.
-/

namespace Pmkit

inductive ChainCall where
  | replace (registry : ContractRegistry) (segment : CanonicalLogSegment)
  | ingest (registry : ContractRegistry)
      (batch : QuorumVerifiedFinalizedLogBatch) (commonAncestor : ChainCheckpoint)

namespace ChainCall

variable (eventText : ChainEvent → String)

def result (tables : ChainTables) : ChainCall →
    Except ChainStoreError ChainTables
  | replace registry segment =>
      tables.replaceCanonicalSegment eventText registry segment
  | ingest registry batch commonAncestor =>
      tables.ingestFinalizedBatch eventText registry batch commonAncestor

def apply (tables : ChainTables) (call : ChainCall) : ChainTables :=
  match call.result eventText tables with
  | .ok stored => stored
  | .error _ => tables

/-- The call returns `Ok`. -/
def Accepted (tables : ChainTables) (call : ChainCall) : Prop :=
  (call.result eventText tables).isOk = true

instance (tables : ChainTables) (call : ChainCall) :
    Decidable (call.Accepted eventText tables) :=
  inferInstanceAs (Decidable (_ = true))

def chainId : ChainCall → Nat
  | replace registry _ => registry.chainId.get
  | ingest registry _ _ => registry.chainId.get

def commonAncestor : ChainCall → ChainCheckpoint
  | replace _ segment => segment.commonAncestor
  | ingest _ _ commonAncestor => commonAncestor

/-- The heights whose logs a call brings: those between the ancestor and the
tip of a segment, and those in the range of a batch. -/
def covers : ChainCall → Nat → Nat → Prop
  | replace registry segment, chainId, height =>
      chainId = registry.chainId.get ∧
        segment.commonAncestor.blockNumber < height ∧
        height ≤ segment.tip.blockNumber
  | ingest registry batch _, chainId, height =>
      chainId = registry.chainId.get ∧
        batch.asRawBatch.range.fromBlock ≤ height ∧
        height ≤ batch.asRawBatch.range.toBlock

/-- The call is not a batch that is held back: its headers lead to a head that
may be persisted. -/
def Advances (tables : ChainTables) : ChainCall → Prop
  | replace _ _ => True
  | ingest registry batch commonAncestor =>
      ∃ finalized, verifyFinalizedProgression
        (tables.persistedCheckpoint registry.chainId) commonAncestor
          batch.asRawBatch = .ok (some finalized)

end ChainCall

def ChainTables.IsFinalized (tables : ChainTables) (row : CanonicalLogRow) :
    Prop :=
  ∃ head, tables.finalizedCheckpoints.lookup row.chainId = some head ∧
    row.blockNumber ≤ head.blockNumber

variable {eventText : ChainEvent → String} {tables stored : ChainTables}

/-! ## One call -/

variable {registry : ContractRegistry} {logs : List CanonicalChainLog}
  {row : CanonicalLogRow} {call : ChainCall} {calls : List ChainCall}

theorem CanonicalLogSegment.Valid.le_tip {segment : CanonicalLogSegment}
    (valid : segment.Valid registry) {log : CanonicalChainLog}
    (mem : log ∈ segment.logs) :
    log.identity.blockNumber ≤ segment.tip.blockNumber := by
  obtain ⟨initial, last, split⟩ :=
    List.eq_nil_or_concat segment.logs |>.resolve_left
      (List.ne_nil_of_mem mem)
  rw [List.concat_eq_append] at split
  have tip : segment.tip.blockNumber = last.identity.blockNumber := by
    simp [CanonicalLogSegment.tip, split]
  have ordered := valid.ordered
  rw [split] at mem ordered
  rcases List.mem_append.mp mem with before | here
  · have earlier := (List.pairwise_append.mp ordered).2.2 log before last
      (List.mem_singleton.mpr rfl)
    have below := LogPosition.blockNumber_le_of_cmp earlier.1
    simp only [CanonicalLogIdentity.position] at below
    omega
  · rw [List.mem_singleton.mp here]
    omega

theorem decodeRawLogs_source {raws : List RawRpcLog}
    (decoded : decodeRawLogs registry raws = .ok logs) :
    ∀ log ∈ logs, ∃ raw ∈ raws, decodeRawLog registry raw = .ok log := by
  induction raws generalizing logs with
  | nil =>
      cases decoded
      simp
  | cons raw rest ih =>
      unfold decodeRawLogs at decoded
      split at decoded
      · cases decoded
      · rename_i first firstDecoded
        cases later : decodeRawLogs registry rest with
        | error error =>
            rw [later] at decoded
            cases decoded
        | ok others =>
            rw [later] at decoded
            cases decoded
            intro log mem
            rcases List.mem_cons.mp mem with rfl | mem
            · exact ⟨raw, List.mem_cons_self, firstDecoded⟩
            · obtain ⟨source, inside, same⟩ :=
                ih later log mem
              exact ⟨source, List.mem_cons_of_mem _ inside, same⟩

theorem decodeRawLogs_eq_ok {raws : List RawRpcLog}
    (decoded : decodeRawLogs registry raws = .ok logs) :
    ∀ log ∈ logs, ∃ raw ∈ raws, log.identity = raw.identity.canonical := by
  intro log mem
  obtain ⟨raw, inside, source⟩ := decodeRawLogs_source decoded log mem
  exact ⟨raw, inside, (decodeRawLog_eq_ok source).1⟩

namespace ChainCall

structure Effect (tables : ChainTables) (call : ChainCall)
    (stored : ChainTables) (rows : List CanonicalLogRow) : Prop where
  logs : stored.logs =
    tables.logs.filter (ChainTables.isKept call.chainId
      call.commonAncestor.blockNumber) ++ rows
  covered : ∀ row ∈ rows, call.covers row.chainId row.blockNumber

variable {registry : ContractRegistry} {call : ChainCall}

theorem replace_effect {segment : CanonicalLogSegment}
    (accepted : (replace registry segment).result eventText tables =
      .ok stored) :
    Effect tables (replace registry segment) stored
      (segment.logs.map (.ofLog eventText)) := by
  obtain ⟨valid, _, written⟩ :=
    ChainTables.replaceCanonicalSegment_eq_ok accepted
  refine ⟨written.logs, ?_⟩
  intro row mem
  obtain ⟨log, inside, rfl⟩ := List.mem_map.mp mem
  refine ⟨?_, valid.above log inside, valid.le_tip inside⟩
  simp [CanonicalLogRow.ofLog, valid.chain log inside]

theorem ingest_effect {batch : QuorumVerifiedFinalizedLogBatch}
    {ancestor finalized : ChainCheckpoint} {logs : List CanonicalChainLog}
    (progressed : verifyFinalizedProgression
      (tables.persistedCheckpoint registry.chainId) ancestor
        batch.asRawBatch = .ok (some finalized))
    (ingested : ChainTables.Ingested eventText tables registry
      batch.asRawBatch ancestor finalized logs stored) :
    Effect tables (ingest registry batch ancestor) stored
      (logs.map (.ofLog eventText)) := by
  have verified := (ChainTables.progressed_of_verify progressed).verified
  refine ⟨ingested.written.logs, ?_⟩
  intro row mem
  obtain ⟨log, inside, rfl⟩ := List.mem_map.mp mem
  obtain ⟨raw, source, same⟩ := decodeRawLogs_eq_ok ingested.decoded log inside
  have place := verified.log_inside (List.mem_of_mem_filter source)
  have chain := ingested.valid.chain log inside
  refine ⟨?_, ?_, ?_⟩
  · simp [CanonicalLogRow.ofLog, chain]
  · simpa [CanonicalLogRow.ofLog, same, RawLogIdentity.canonical] using place.2.1
  · simpa [CanonicalLogRow.ofLog, same, RawLogIdentity.canonical] using place.2.2

theorem apply_of_result (result : call.result eventText tables = .ok stored) :
    call.apply eventText tables = stored := by
  rw [apply, result]

/-- A call that fails leaves the tables. -/
theorem apply_of_not_accepted (refused : ¬ call.Accepted eventText tables) :
    call.apply eventText tables = tables := by
  unfold Accepted at refused
  cases result : call.result eventText tables with
  | error error => rw [apply, result]
  | ok stored =>
      rw [result] at refused
      exact absurd rfl refused

/-- An accepted call holds a batch back and changes nothing, or deletes above
the ancestor and brings logs of the heights it covers. -/
theorem effect_of_accepted (accepted : call.Accepted eventText tables) :
    (¬ call.Advances tables ∧ call.apply eventText tables = tables) ∨
      (call.Advances tables ∧
        ∃ rows, Effect tables call (call.apply eventText tables) rows) := by
  unfold Accepted at accepted
  cases result : call.result eventText tables with
  | error error =>
      rw [result] at accepted
      cases accepted
  | ok stored =>
      rw [apply_of_result result]
      cases call with
      | replace registry segment =>
          exact .inr ⟨trivial, _, replace_effect result⟩
      | ingest registry batch ancestor =>
          rcases ChainTables.ingestFinalizedBatch_eq_ok result with
            ⟨held, rfl⟩ | ⟨finalized, logs, progressed, ingested⟩
          · left
            refine ⟨?_, rfl⟩
            rintro ⟨finalized, progressed⟩
            rw [held] at progressed
            cases progressed
          · exact .inr ⟨⟨finalized, progressed⟩, _,
              ingest_effect progressed ingested⟩

/-- A stored log survives an accepted call, or stands at a covered height, just
when the delete does not reach it or the height is covered. -/
theorem mem_apply_or_covers_iff (accepted : call.Accepted eventText tables)
    {row : CanonicalLogRow} (mem : row ∈ tables.logs) :
    (row ∈ (call.apply eventText tables).logs ∨
        call.covers row.chainId row.blockNumber) ↔
      (call.Advances tables → row.chainId = call.chainId →
        call.commonAncestor.blockNumber < row.blockNumber →
        call.covers row.chainId row.blockNumber) := by
  rcases effect_of_accepted accepted with
    ⟨held, unchanged⟩ | ⟨advances, rows, effect⟩
  · rw [unchanged]
    exact ⟨fun _ advances => absurd advances held, fun _ => .inl mem⟩
  · rw [effect.logs, List.mem_append, List.mem_filter]
    simp only [ChainTables.isKept, decide_eq_true_eq]
    constructor
    · rintro ((⟨_, kept⟩ | brought) | covered) _ chain above
      · rcases kept with ne | below
        · exact absurd chain ne
        · omega
      · exact effect.covered row brought
      · exact covered
    · intro reached
      by_cases chain : row.chainId = call.chainId
      · by_cases above :
          call.commonAncestor.blockNumber < row.blockNumber
        · exact .inr (reached advances chain above)
        · exact .inl (Or.inl ⟨mem, Or.inr (by omega)⟩)
      · exact .inl (Or.inl ⟨mem, Or.inl chain⟩)

theorem finalized_apply (accepted : call.Accepted eventText tables)
    {chain : Nat} {head : CheckpointRow}
    (found : tables.finalizedCheckpoints.lookup chain = some head) :
    ∃ later, (call.apply eventText tables).finalizedCheckpoints.lookup chain =
        some later ∧ head.blockNumber ≤ later.blockNumber := by
  unfold Accepted at accepted
  cases result : call.result eventText tables with
  | error error =>
      rw [result] at accepted
      cases accepted
  | ok stored =>
      rw [apply_of_result result]
      cases call with
      | replace registry segment =>
          have written :=
            (ChainTables.replaceCanonicalSegment_eq_ok result).2.2
          rw [written.finalized]
          exact ⟨head, found, le_refl _⟩
      | ingest registry batch ancestor =>
          rcases ChainTables.ingestFinalizedBatch_eq_ok result with
            ⟨_, rfl⟩ | ⟨finalized, logs, _, ingested⟩
          · exact ⟨head, found, le_refl _⟩
          · rw [ingested.written.checkpoint, KeyedMap.lookup_insert_eq]
            by_cases same : chain = registry.chainId.get
            · subst same
              rw [if_pos rfl]
              exact ⟨_, rfl, ingested.written.notBelow head found⟩
            · rw [if_neg same]
              exact ⟨head, found, le_refl _⟩

end ChainCall

/-! ## Runs -/

section Runs

variable (eventText)

def KeepsFinalized (tables : ChainTables) (call : ChainCall) : Prop :=
  ∀ row ∈ tables.logs, tables.IsFinalized row →
    row ∈ (call.apply eventText tables).logs ∨
      call.covers row.chainId row.blockNumber

/-- Whatever part of the run is looked at, a log that is finalized at its start
is there at its end, or a call of that part covered its height. -/
def FinalizedHistoryKept (tables : ChainTables) (calls : List ChainCall) :
    Prop :=
  ∀ before later rest, calls = before ++ later ++ rest →
    ∀ row ∈ (Trace.run (ChainCall.apply eventText) tables before).logs,
      (Trace.run (ChainCall.apply eventText) tables before).IsFinalized row →
      row ∈ (Trace.run (ChainCall.apply eventText) tables
          (before ++ later)).logs ∨
        ∃ call ∈ later, call.covers row.chainId row.blockNumber

def DeletesInRange (tables : ChainTables) (call : ChainCall) : Prop :=
  ∀ registry batch ancestor, call = .ingest registry batch ancestor →
    ∀ row ∈ tables.logs, row ∈ (call.apply eventText tables).logs ∨
      call.covers row.chainId row.blockNumber

/-- The finalized logs above the ancestor are not above the tip of a segment,
and not below the first block of a batch. -/
def SparesFinalized (tables : ChainTables) (call : ChainCall) : Prop :=
  call.Advances tables → ∀ row ∈ tables.logs, row.chainId = call.chainId →
    call.commonAncestor.blockNumber < row.blockNumber →
    tables.IsFinalized row →
    match call with
    | .replace _ segment => row.blockNumber ≤ segment.tip.blockNumber
    | .ingest _ batch _ =>
        batch.asRawBatch.range.fromBlock ≤ row.blockNumber

/-- Every log above the ancestor of a batch stands in the range of the
batch. -/
def RangeReachesAncestor (tables : ChainTables) (call : ChainCall) : Prop :=
  ∀ registry batch ancestor, call = .ingest registry batch ancestor →
    call.Advances tables → ∀ row ∈ tables.logs, row.chainId = call.chainId →
    ancestor.blockNumber < row.blockNumber →
    batch.asRawBatch.range.fromBlock ≤ row.blockNumber ∧
      row.blockNumber ≤ batch.asRawBatch.range.toBlock

end Runs

theorem ChainTables.IsFinalized.le_toBlock (finalized : tables.IsFinalized row)
    {batch : QuorumVerifiedFinalizedLogBatch}
    {ancestor : ChainCheckpoint} (chain : row.chainId = registry.chainId.get)
    (advances : (ChainCall.ingest registry batch ancestor).Advances tables) :
    row.blockNumber ≤ batch.asRawBatch.range.toBlock := by
  obtain ⟨head, found, below⟩ := finalized
  obtain ⟨proposed, progressed⟩ := advances
  have progress := ChainTables.progressed_of_verify progressed
  have forward := progress.forward
  rw [chain] at found
  rw [ChainTables.persistedCheckpoint, found] at forward
  have higher := ChainTables.blockNumber_le_of_checkPersisted forward
  rw [progress.covered]
  exact below.trans higher

theorem keepsFinalized_iff (accepted : call.Accepted eventText tables) :
    KeepsFinalized eventText tables call ↔ SparesFinalized tables call := by
  have each : KeepsFinalized eventText tables call ↔
      ∀ row ∈ tables.logs, tables.IsFinalized row →
        call.Advances tables → row.chainId = call.chainId →
        call.commonAncestor.blockNumber < row.blockNumber →
        call.covers row.chainId row.blockNumber := by
    apply forall₂_congr
    intro row mem
    exact imp_congr_right fun _ =>
      ChainCall.mem_apply_or_covers_iff accepted mem
  rw [each]
  constructor
  · intro kept advances row mem chain above finalized
    have covered := kept row mem finalized advances chain above
    cases call with
    | replace registry segment => exact covered.2.2
    | ingest registry batch ancestor => exact covered.2.1
  · intro spared row mem finalized advances chain above
    have reached := spared advances row mem chain above finalized
    cases call with
    | replace registry segment => exact ⟨chain, above, reached⟩
    | ingest registry batch ancestor =>
        exact ⟨chain, reached, finalized.le_toBlock chain advances⟩

theorem deletesInRange_iff (accepted : call.Accepted eventText tables) :
    DeletesInRange eventText tables call ↔
      RangeReachesAncestor tables call := by
  constructor
  · rintro deletes registry batch ancestor rfl advances row mem chain above
    have covered := (ChainCall.mem_apply_or_covers_iff accepted mem).mp
      (deletes registry batch ancestor rfl row mem) advances chain above
    exact covered.2
  · rintro reaches registry batch ancestor rfl row mem
    apply (ChainCall.mem_apply_or_covers_iff accepted mem).mpr
    intro advances chain above
    exact ⟨chain, reaches registry batch ancestor rfl advances row mem chain
      above⟩

/-- A log stays finalized as long as it is stored. -/
theorem ChainTables.IsFinalized.apply (finalized : tables.IsFinalized row)
    (accepted : call.Accepted eventText tables) :
    (call.apply eventText tables).IsFinalized row := by
  obtain ⟨head, found, below⟩ := finalized
  obtain ⟨later, foundLater, higher⟩ := ChainCall.finalized_apply accepted found
  exact ⟨later, foundLater, below.trans higher⟩

/-- Over a run of calls that keep finalized logs, a finalized log stays until
its height is covered. -/
theorem mem_run_or_covered
    (accepted : Trace.EveryStep (ChainCall.apply eventText)
      (ChainCall.Accepted eventText) tables calls)
    (keeps : Trace.EveryStep (ChainCall.apply eventText)
      (KeepsFinalized eventText) tables calls)
    (mem : row ∈ tables.logs)
    (finalized : tables.IsFinalized row) :
    row ∈ (Trace.run (ChainCall.apply eventText) tables calls).logs ∨
      ∃ call ∈ calls, call.covers row.chainId row.blockNumber := by
  induction calls generalizing tables with
  | nil =>
      exact .inl mem
  | cons call rest ih =>
      rcases keeps.1 row mem finalized with stays | covered
      · have later := ih accepted.2 keeps.2 stays
          (finalized.apply accepted.1)
        exact later.imp_right fun ⟨other, inside, covered⟩ =>
          ⟨other, List.mem_cons_of_mem _ inside, covered⟩
      · exact .inr ⟨call, List.mem_cons_self, covered⟩

theorem finalizedHistoryKept_iff
    (accepted : Trace.EveryStep (ChainCall.apply eventText)
      (ChainCall.Accepted eventText) tables calls) :
    FinalizedHistoryKept eventText tables calls ↔
      Trace.EveryStep (ChainCall.apply eventText) (KeepsFinalized eventText)
        tables calls := by
  constructor
  · intro kept
    induction calls generalizing tables with
    | nil =>
        trivial
    | cons call rest ih =>
        refine ⟨?_, ih accepted.2 ?_⟩
        · intro row mem finalized
          have stays := kept [] [call] rest rfl row mem finalized
          simpa [Trace.run] using stays
        · rintro before later others rfl
          exact kept (call :: before) later others rfl
  · rintro keeps before later rest rfl row mem finalized
    rw [List.append_assoc] at accepted keeps
    have laterAccepted := (Trace.everyStep_append.mp
      (Trace.everyStep_append.mp accepted).2).1
    have laterKeeps := (Trace.everyStep_append.mp
      (Trace.everyStep_append.mp keeps).2).1
    rw [Trace.run_append]
    exact mem_run_or_covered laterAccepted laterKeeps mem finalized

/-- Finalized history is kept through a run of accepted calls just when no call
deletes finalized logs that its segment or range does not reach; and its
batches delete in their range only just when each range reaches down to the
common ancestor. -/
theorem finalizedHistory_iff
    (eventText : ChainEvent → String) (tables : ChainTables)
    (calls : List ChainCall)
    (accepted : Trace.EveryStep (ChainCall.apply eventText)
      (ChainCall.Accepted eventText) tables calls) :
    (FinalizedHistoryKept eventText tables calls ↔
      Trace.EveryStep (ChainCall.apply eventText) SparesFinalized tables
        calls) ∧
    (Trace.EveryStep (ChainCall.apply eventText) (DeletesInRange eventText)
        tables calls ↔
      Trace.EveryStep (ChainCall.apply eventText) RangeReachesAncestor tables
        calls) := by
  constructor
  · rw [finalizedHistoryKept_iff accepted]
    exact Trace.everyStep_congr
      (fun _ _ accepted => keepsFinalized_iff accepted) accepted
  · exact Trace.everyStep_congr
      (fun _ _ accepted => deletesInRange_iff accepted) accepted

section Example

def sampleEventText : ChainEvent → String := fun _ =>
  "\x7b\"kind\":\"collateral_transfer\"," ++
    "\"from\":\"0x0000000000000000000000000000000000000001\"," ++
    "\"to\":\"0x0000000000000000000000000000000000000002\"," ++
    "\"amount\":\"5\"\x7d"

def sampleLog (height : Nat) (hash : String) : CanonicalChainLog where
  identity := ⟨.polygon, height, hash, "0xtx", 0, 0⟩
  contractAddress := ContractRegistry.polygon.collateral
  event := .collateralTransfer ⟨"0x0000000000000000000000000000000000000001"⟩
    ⟨"0x0000000000000000000000000000000000000002"⟩ 5

def sampleBatch (provider : String) (height : Nat)
    (hash parent : String) : FinalizedRawLogBatch where
  provider := ⟨provider⟩
  range := ⟨.polygon, height, height⟩
  head := ⟨.polygon, height, hash, parent⟩
  finalized := ⟨.polygon, height, hash, parent⟩
  coverage := ⟨⟨.polygon, height, height⟩, [⟨.polygon, height, hash, parent⟩]⟩
  logs := []

def agreedThird : QuorumVerifiedFinalizedLogBatch where
  asRawBatch := sampleBatch "first" 3 "0xc" "0xb"
  agreed := ⟨2, [sampleBatch "first" 3 "0xc" "0xb",
    sampleBatch "second" 3 "0xc" "0xb"], by decide +kernel⟩

def agreedFourth : QuorumVerifiedFinalizedLogBatch where
  asRawBatch := sampleBatch "first" 4 "0xd" "0xc"
  agreed := ⟨2, [sampleBatch "first" 4 "0xd" "0xc",
    sampleBatch "second" 4 "0xd" "0xc"], by decide +kernel⟩

/-- Blocks 1 and 2 are stored, block 3 is finalized on top of them, and the
batch of block 4 names block 1 as its ancestor. -/
def losingCalls : List ChainCall :=
  [.replace .polygon ⟨⟨.polygon, 0, "0xg"⟩,
      [sampleLog 1 "0xa", sampleLog 2 "0xb"]⟩,
    .ingest .polygon agreedThird ⟨.polygon, 2, "0xb"⟩,
    .ingest .polygon agreedFourth ⟨.polygon, 1, "0xa"⟩]

theorem losingCalls_accepted :
    Trace.EveryStep (ChainCall.apply sampleEventText)
      (ChainCall.Accepted sampleEventText) .empty losingCalls :=
  ⟨by decide +kernel, by decide +kernel, by decide +kernel, trivial⟩

theorem finalizedHistory_iff_losingCalls :
    (FinalizedHistoryKept sampleEventText .empty losingCalls ↔
      Trace.EveryStep (ChainCall.apply sampleEventText) SparesFinalized .empty
        losingCalls) ∧
    (Trace.EveryStep (ChainCall.apply sampleEventText)
        (DeletesInRange sampleEventText) .empty losingCalls ↔
      Trace.EveryStep (ChainCall.apply sampleEventText) RangeReachesAncestor
        .empty losingCalls) :=
  finalizedHistory_iff sampleEventText .empty losingCalls losingCalls_accepted

/-- The log of block 2 is at or below the finalized block 3, and the batch of
block 4 deletes it. -/
theorem losingCalls_lose :
    Trace.EveryStep (ChainCall.apply sampleEventText)
        (ChainCall.Accepted sampleEventText) .empty losingCalls ∧
      ¬ FinalizedHistoryKept sampleEventText .empty losingCalls := by
  refine ⟨losingCalls_accepted, ?_⟩
  intro kept
  have lost := kept (losingCalls.take 2) (losingCalls.drop 2) [] rfl
    (.ofLog sampleEventText (sampleLog 2 "0xb")) (by decide +kernel)
    ⟨⟨3, "0xc"⟩, by decide +kernel, by decide⟩
  rcases lost with stays | ⟨call, member, covered⟩
  · revert stays
    decide +kernel
  · rw [List.mem_singleton.mp member] at covered
    exact absurd covered.2.1 (by decide +kernel)

end Example

end Pmkit
