import Pmkit.Chain.Store

/-!
# What a call writes

A valid segment is in strict order, above its ancestor and of one chain, so no
insert of it meets a taken key: after a write the logs are those that the
delete kept, followed by those of the segment.
-/

namespace Pmkit

/-- One log stands before another, and two logs of a height share its block. -/
def CanonicalLogIdentity.Before (previous next : CanonicalLogIdentity) : Prop :=
  LogPosition.cmp previous.position next.position = .lt ∧
    (previous.blockNumber = next.blockNumber →
      previous.blockHash = next.blockHash)

theorem CanonicalLogIdentity.Before.trans
    {first second third : CanonicalLogIdentity}
    (earlier : first.Before second) (later : second.Before third) :
    first.Before third := by
  refine ⟨Std.TransCmp.lt_trans earlier.1 later.1, ?_⟩
  intro same
  have up := LogPosition.blockNumber_le_of_cmp earlier.1
  have down := LogPosition.blockNumber_le_of_cmp later.1
  simp only [CanonicalLogIdentity.position] at up down
  exact (earlier.2 (by omega)).trans (later.2 (by omega))

namespace CanonicalLogSegment

theorem pairwise_of_inOrder
    {logs : List CanonicalChainLog} (ordered : inOrder logs = true) :
    logs.Pairwise fun prev next =>
      prev.identity.Before next.identity := by
  induction logs with
  | nil =>
      exact List.Pairwise.nil
  | cons prev rest ih =>
      cases rest with
      | nil =>
          exact List.pairwise_singleton _ _
      | cons next rest =>
          simp only [inOrder, Bool.and_eq_true] at ordered
          have step : prev.identity.Before next.identity := by
            have following := ordered.1
            simp only [follows, decide_eq_true_eq] at following
            exact ⟨following.1, fun same =>
              following.2.resolve_left (not_not.mpr same)⟩
          have later := ih ordered.2
          refine List.pairwise_cons.mpr ⟨?_, later⟩
          intro log mem
          rcases List.mem_cons.mp mem with rfl | mem
          · exact step
          · exact step.trans (List.rel_of_pairwise_cons later mem)

/-- What `validate_segment` says of a segment. -/
structure Valid (registry : ContractRegistry)
    (segment : CanonicalLogSegment) : Prop where
  ancestorChain : segment.commonAncestor.chainId = registry.chainId
  ordered : segment.logs.Pairwise fun previous next =>
    previous.identity.Before next.identity
  above : ∀ log ∈ segment.logs,
    segment.commonAncestor.blockNumber < log.identity.blockNumber
  chain : ∀ log ∈ segment.logs, log.identity.chainId = registry.chainId

theorem valid_of_validateSegment
    {registry : ContractRegistry} {segment : CanonicalLogSegment}
    (validated : validateSegment registry segment = .ok ()) :
    segment.Valid registry := by
  unfold validateSegment at validated
  split at validated
  · cases validated
  · rename_i passed
    simp only [not_or, not_not, Bool.not_eq_false, List.any_eq_true,
      decide_eq_true_eq, not_exists, not_and, not_le] at passed
    obtain ⟨chain, ordered, each⟩ := passed
    exact ⟨chain, pairwise_of_inOrder ordered, fun log mem => (each log mem).1,
      fun log mem =>
        ContractRegistry.chainId_of_accepts (each log mem).2⟩

variable {registry : ContractRegistry} {segment : CanonicalLogSegment}

theorem Valid.tip_chainId (valid : segment.Valid registry) :
    segment.tip.chainId = registry.chainId := by
  unfold tip
  split
  · exact valid.ancestorChain
  · exact valid.chain _ (List.mem_of_getLast? ‹_›)

end CanonicalLogSegment

/-! ## Writes -/

namespace ChainTables

variable {eventText : ChainEvent → String} {tables stored : ChainTables}

theorem insertLog_of_free {row : CanonicalLogRow}
    (free : ∀ other ∈ tables.logs, other.primaryKey ≠ row.primaryKey) :
    (tables.insertLog row).logs = tables.logs ++ [row] := by
  rw [insertLog, dif_pos free]

theorem insertLog_checkpoints (row : CanonicalLogRow) :
    (tables.insertLog row).canonicalCheckpoints =
        tables.canonicalCheckpoints ∧
      (tables.insertLog row).finalizedCheckpoints =
        tables.finalizedCheckpoints := by
  unfold insertLog
  split
  · exact ⟨rfl, rfl⟩
  · exact ⟨rfl, rfl⟩

variable {logs : List CanonicalChainLog} {batch : FinalizedRawLogBatch}
  {finalized commonAncestor : ChainCheckpoint}
  {persisted : Option ChainCheckpoint}

theorem insertLogs_checkpoints
    (written : insertLogs eventText tables logs = .ok stored) :
    stored.canonicalCheckpoints = tables.canonicalCheckpoints ∧
      stored.finalizedCheckpoints = tables.finalizedCheckpoints := by
  induction logs generalizing tables with
  | nil =>
      cases written
      exact ⟨rfl, rfl⟩
  | cons log rest ih =>
      unfold insertLogs at written
      split at written
      · obtain ⟨canonical, finalized⟩ := ih written
        obtain ⟨sameCanonical, sameFinalized⟩ :=
          @insertLog_checkpoints tables (.ofLog eventText log)
        exact ⟨canonical.trans sameCanonical, finalized.trans sameFinalized⟩
      · cases written

theorem insertLogs_logs
    (written : insertLogs eventText tables logs = .ok stored)
    (free : ∀ other ∈ tables.logs, ∀ log ∈ logs,
      other.primaryKey ≠ (CanonicalLogRow.ofLog eventText log).primaryKey)
    (apart : logs.Pairwise fun prev next =>
      (CanonicalLogRow.ofLog eventText prev).primaryKey ≠
        (CanonicalLogRow.ofLog eventText next).primaryKey) :
    stored.logs = tables.logs ++ logs.map (.ofLog eventText) := by
  induction logs generalizing tables with
  | nil =>
      cases written
      simp
  | cons log rest ih =>
      have inserted : (tables.insertLog (.ofLog eventText log)).logs =
          tables.logs ++ [.ofLog eventText log] :=
        insertLog_of_free fun other mem =>
          free other mem log List.mem_cons_self
      unfold insertLogs at written
      split at written
      · have later := ih written ?_
          (List.Pairwise.of_cons apart)
        · rw [later, inserted]
          simp
        · intro other mem next nextMem
          rw [inserted, List.mem_append, List.mem_singleton] at mem
          rcases mem with old | rfl
          · exact free other old next (List.mem_cons_of_mem _ nextMem)
          · exact List.rel_of_pairwise_cons apart nextMem
      · cases written

theorem insertLogs_fits
    (written : insertLogs eventText tables logs = .ok stored) :
    ∀ log ∈ logs, log.identity.fits = true := by
  induction logs generalizing tables with
  | nil =>
      simp
  | cons log rest ih =>
      unfold insertLogs at written
      split at written
      · rename_i fits
        intro other mem
        rcases List.mem_cons.mp mem with rfl | mem
        · exact fits
        · exact ih written other mem
      · cases written

/-- What the write of a valid segment leaves in the canonical tables. -/
structure SegmentStored (eventText : ChainEvent → String)
    (tables : ChainTables) (registry : ContractRegistry)
    (segment : CanonicalLogSegment) (stored : ChainTables) : Prop where
  logs : stored.logs =
    tables.logs.filter (isKept registry.chainId.get
      segment.commonAncestor.blockNumber) ++
        segment.logs.map (.ofLog eventText)
  canonical : stored.canonicalCheckpoints =
    tables.canonicalCheckpoints.insert registry.chainId.get
      ⟨segment.tip.blockNumber, segment.tip.blockHash⟩
  fits : ∀ log ∈ segment.logs, log.identity.fits = true

/-- The state after `write_canonical_segment` of a valid segment. -/
structure Written (eventText : ChainEvent → String) (tables : ChainTables)
    (registry : ContractRegistry) (segment : CanonicalLogSegment)
    (stored : ChainTables) : Prop
    extends SegmentStored eventText tables registry segment stored where
  finalized : stored.finalizedCheckpoints = tables.finalizedCheckpoints

variable {registry : ContractRegistry} {segment : CanonicalLogSegment}

theorem written_of_writeCanonicalSegment (valid : segment.Valid registry)
    (written : tables.writeCanonicalSegment eventText registry segment =
      .ok stored) :
    Written eventText tables registry segment stored := by
  unfold writeCanonicalSegment at written
  split at written
  · cases written
  · split at written
    · cases written
    · rename_i inserted insertion
      split at written
      · cases written
      · cases written
        obtain ⟨canonical, finalized⟩ := insertLogs_checkpoints insertion
        have logs := insertLogs_logs insertion ?_ ?_
        · refine ⟨⟨logs, ?_, insertLogs_fits insertion⟩, finalized⟩
          simp only [upsertCanonicalCheckpoint, canonical, valid.tip_chainId]
          rfl
        · -- a kept row is of another chain, or not above the ancestor
          intro other mem log logMember same
          have kept := (List.mem_filter.mp mem).2
          have chain := valid.chain log logMember
          have above := valid.above log logMember
          simp only [CanonicalLogRow.primaryKey, CanonicalLogRow.ofLog,
            CanonicalLogKey.mk.injEq] at same
          simp only [isKept, decide_eq_true_eq, same.1, same.2.1, chain] at kept
          rcases kept with ne | below
          · exact ne rfl
          · omega
        · refine valid.ordered.imp ?_
          intro prev next before same
          have order := before.1
          simp only [CanonicalLogRow.primaryKey, CanonicalLogRow.ofLog,
            CanonicalLogKey.mk.injEq] at same
          have place : prev.identity.position = next.identity.position := by
            simp [CanonicalLogIdentity.position, same]
          have ties : LogPosition.cmp next.identity.position
              next.identity.position = .eq := Std.ReflCmp.compare_self
          rw [place, ties] at order
          cases order

theorem replaceCanonicalSegment_eq_ok
    (replaced : tables.replaceCanonicalSegment eventText registry segment =
      .ok stored) :
    segment.Valid registry ∧
      tables.validateStoredChain registry.chainId.get
        segment.commonAncestor = .ok () ∧
      Written eventText tables registry segment stored := by
  unfold replaceCanonicalSegment at replaced
  split at replaced
  · cases replaced
  · rename_i validated
    have valid := CanonicalLogSegment.valid_of_validateSegment validated
    split at replaced
    · cases replaced
    · split at replaced
      · cases replaced
      · exact ⟨valid, ‹_›, written_of_writeCanonicalSegment valid replaced⟩

/-! ## Finalized batches -/

/-- What `verify_finalized_progression` says of the head it lets through. -/
structure Progressed (persisted : Option ChainCheckpoint)
    (commonAncestor : ChainCheckpoint) (batch : FinalizedRawLogBatch)
    (finalized : ChainCheckpoint) : Prop where
  verified : batch.Verified
  ancestorChain : commonAncestor.chainId = batch.range.chainId
  head : finalized = batch.proposed
  covered : batch.range.toBlock = finalized.blockNumber
  forward : checkPersisted persisted finalized = .ok ()

theorem toBlock_of_getLast (verified : batch.Verified)
    {header : BlockHead} (last : batch.coverage.blocks.getLast? = some header) :
    batch.range.toBlock = header.blockNumber := by
  obtain ⟨ordered, length, _⟩ :=
    FinalizedBlockCoverage.verify_eq_ok verified.coverage
  rw [verified.coverageRange] at ordered length
  rw [List.getLast?_eq_getElem?, List.getElem?_eq_some_iff] at last
  obtain ⟨bound, found⟩ := last
  have place := (verified.header bound).2
  rw [found] at place
  omega

theorem linkToAnchor_eq_ok {anchor proposed : ChainCheckpoint}
    (linked : linkToAnchor anchor batch proposed = .ok (some finalized)) :
    finalized = proposed := by
  unfold linkToAnchor at linked
  split at linked
  · split at linked
    · cases linked
    · split at linked
      · cases linked
      · cases linked
        rfl
  · split at linked
    · cases linked
    · split at linked
      · cases linked
      · split at linked
        · cases linked
        · cases linked
          rfl

theorem progressed_of_verify
    (progressed : verifyFinalizedProgression persisted commonAncestor batch =
      .ok (some finalized)) :
    Progressed persisted commonAncestor batch finalized := by
  unfold verifyFinalizedProgression at progressed
  split at progressed
  · cases progressed
  · have verified := FinalizedRawLogBatch.verify_eq_ok_iff.mp ‹_›
    split at progressed
    · cases progressed
    · have chain := not_not.mp ‹_›
      split at progressed
      · cases progressed
      · have forward := ‹checkPersisted _ _ = _›
        split at progressed
        · cases progressed
        · have last := ‹batch.coverage.blocks.getLast? = _›
          split at progressed
          · cases progressed
          · split at progressed
            · cases progressed
            · have top := not_not.mp ‹_›
              have reaches := toBlock_of_getLast verified last
              rw [top] at reaches
              have head : finalized = batch.proposed := by
                dsimp only at progressed
                split at progressed
                · cases progressed
                · split at progressed
                  · split at progressed
                    · cases progressed
                      rfl
                    · cases progressed
                  · exact linkToAnchor_eq_ok progressed
              subst head
              exact ⟨verified, chain, rfl, reaches, forward⟩

theorem blockNumber_le_of_checkPersisted {prev proposed : ChainCheckpoint}
    (forward : checkPersisted (some prev) proposed = .ok ()) :
    prev.blockNumber ≤ proposed.blockNumber := by
  by_contra lower
  rw [checkPersisted, if_pos (by omega)] at forward
  cases forward

/-- The state after the transaction of a finalized batch. -/
structure FinalizedWritten (eventText : ChainEvent → String)
    (tables : ChainTables) (registry : ContractRegistry)
    (segment : CanonicalLogSegment) (finalized : ChainCheckpoint)
    (stored : ChainTables) : Prop
    extends SegmentStored eventText tables registry segment stored where
  checkpoint : stored.finalizedCheckpoints =
    tables.finalizedCheckpoints.insert registry.chainId.get
      ⟨finalized.blockNumber, finalized.blockHash⟩
  notBelow : ∀ previous,
    tables.finalizedCheckpoints.lookup registry.chainId.get = some previous →
    previous.blockNumber ≤ finalized.blockNumber

theorem finalizedWritten_of_write (valid : segment.Valid registry)
    (written : tables.writeFinalizedSegment eventText registry segment
      finalized = .ok stored) :
    FinalizedWritten eventText tables registry segment finalized stored := by
  unfold writeFinalizedSegment at written
  split at written
  · cases written
  · rename_i segmentStored segmentWritten
    have wrote := written_of_writeCanonicalSegment valid segmentWritten
    split at written
    · cases written
    · split at written
      · cases written
      · rename_i upserted
        cases written
        unfold upsertFinalizedCheckpoint at upserted
        split at upserted
        · rename_i forward
          cases upserted
          refine ⟨⟨wrote.logs, wrote.canonical, wrote.fits⟩, ?_, ?_⟩
          · simp only [wrote.finalized]
          · intro prev found
            rw [wrote.finalized, found] at forward
            simp only [Option.all_some, decide_eq_true_eq] at forward
            omega
        · cases upserted

/-- The finalized checkpoint that a call reads, without the check of the chain
number. -/
def persistedCheckpoint (tables : ChainTables) (chainId : ChainId) :
    Option ChainCheckpoint :=
  (tables.finalizedCheckpoints.lookup chainId.get).map fun row =>
    ⟨chainId, row.blockNumber, row.blockHash⟩

/-- What a call of `ingest_finalized_batch` that writes has checked and
done. -/
structure Ingested (eventText : ChainEvent → String) (tables : ChainTables)
    (registry : ContractRegistry) (batch : FinalizedRawLogBatch)
    (commonAncestor finalized : ChainCheckpoint)
    (logs : List CanonicalChainLog) (stored : ChainTables) : Prop where
  decoded : decodeRawLogs registry
    (batch.logs.filter (isIngested commonAncestor finalized)) = .ok logs
  valid : CanonicalLogSegment.Valid registry ⟨commonAncestor, logs⟩
  ancestor :
    tables.persistedCheckpoint registry.chainId = some commonAncestor ∨
      tables.validateStoredChain registry.chainId.get commonAncestor = .ok ()
  written : FinalizedWritten eventText tables registry
    ⟨commonAncestor, logs⟩ finalized stored

theorem ingestSegment_eq_ok
    (ingested : tables.ingestSegment eventText registry persisted segment
      finalized = .ok stored) :
    segment.Valid registry ∧
      (persisted = some segment.commonAncestor ∨
        tables.validateStoredChain registry.chainId.get
          segment.commonAncestor = .ok ()) ∧
      FinalizedWritten eventText tables registry segment finalized stored := by
  unfold ingestSegment at ingested
  split at ingested
  · cases ingested
  · rename_i validated
    have valid := CanonicalLogSegment.valid_of_validateSegment validated
    split at ingested
    · cases ingested
    · split at ingested
      · exact ⟨valid, Or.inl ‹_›, finalizedWritten_of_write valid ingested⟩
      · split at ingested
        · cases ingested
        · exact ⟨valid, Or.inr ‹_›, finalizedWritten_of_write valid ingested⟩

/-- A call of `ingest_finalized_batch` holds the batch, or writes it. -/
theorem ingestFinalizedBatch_eq_ok {batch : QuorumVerifiedFinalizedLogBatch}
    (ingested : tables.ingestFinalizedBatch eventText registry batch
      commonAncestor = .ok stored) :
    (verifyFinalizedProgression (tables.persistedCheckpoint registry.chainId)
        commonAncestor batch.asRawBatch = .ok none ∧ stored = tables) ∨
      ∃ finalized logs,
        verifyFinalizedProgression
            (tables.persistedCheckpoint registry.chainId)
            commonAncestor batch.asRawBatch = .ok (some finalized) ∧
          Ingested eventText tables registry batch.asRawBatch commonAncestor
            finalized logs stored := by
  unfold ingestFinalizedBatch at ingested
  split at ingested
  · cases ingested
  · rename_i persisted read
    have readBack : persisted = tables.persistedCheckpoint registry.chainId := by
      unfold finalizedCheckpoint at read
      split at read
      · cases read
        rfl
      · cases read
    subst readBack
    split at ingested
    · cases ingested
    · cases ingested
      exact .inl ⟨‹_›, rfl⟩
    · rename_i finalized progressed
      split at ingested
      · cases ingested
      · rename_i logs decoded
        obtain ⟨valid, ancestor, written⟩ := ingestSegment_eq_ok ingested
        exact .inr ⟨finalized, logs, progressed, decoded, valid, ancestor,
          written⟩

end ChainTables

end Pmkit
