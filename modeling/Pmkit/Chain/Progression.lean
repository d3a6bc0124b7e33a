import Pmkit.Chain.Finality
import Pmkit.Library.Transaction
import Mathlib.Data.List.Chain

/-!
# The finalized checkpoint

A run is a sequence of finalized batches on one connection.  The head that a
batch persists is the last header of its range, and the headers lead down to
the persisted head: one of them is that block, or the first one is its child.
So the checkpoint of a chain moves from a block to a descendant of it, or stays.
-/

namespace Pmkit

/-! ## One call on a connection -/

namespace ChainTables

variable (eventText : ChainEvent → String)

/-- The delete of `write_canonical_segment`, with the conversions before it. -/
def deleteStatement (registry : ContractRegistry)
    (segment : CanonicalLogSegment) :
    Transaction.Statement ChainTables ChainStoreError :=
  fun tables =>
    if fitsColumn registry.chainId.get = false ∨
        fitsColumn segment.commonAncestor.blockNumber = false then
      .error .limitTooLarge
    else
      .ok (tables.deleteAfter registry.chainId.get
        segment.commonAncestor.blockNumber)

def insertStatement (log : CanonicalChainLog) :
    Transaction.Statement ChainTables ChainStoreError :=
  fun tables =>
    if log.identity.fits then
      .ok (tables.insertLog (.ofLog eventText log))
    else
      .error .limitTooLarge

def checkpointStatement (segment : CanonicalLogSegment) :
    Transaction.Statement ChainTables ChainStoreError :=
  fun tables =>
    if fitsColumn segment.tip.chainId.get = false ∨
        fitsColumn segment.tip.blockNumber = false then
      .error .limitTooLarge
    else
      .ok (tables.upsertCanonicalCheckpoint segment.tip.chainId.get
        ⟨segment.tip.blockNumber, segment.tip.blockHash⟩)

def finalizedStatement (registry : ContractRegistry)
    (finalized : ChainCheckpoint) :
    Transaction.Statement ChainTables ChainStoreError :=
  fun tables =>
    if fitsColumn finalized.blockNumber = false then
      .error .limitTooLarge
    else
      match tables.upsertFinalizedCheckpoint registry.chainId.get
          ⟨finalized.blockNumber, finalized.blockHash⟩ with
      | none =>
          .error (.finalizedHeadNotLinked registry.chainId.get
            finalized.blockNumber)
      | some stored => .ok stored

/-- The statements of `write_canonical_segment`. -/
def segmentStatements (registry : ContractRegistry)
    (segment : CanonicalLogSegment) :
    List (Transaction.Statement ChainTables ChainStoreError) :=
  deleteStatement registry segment ::
    (segment.logs.map (insertStatement eventText) ++
      [checkpointStatement segment])

theorem chain_inserts (logs : List CanonicalChainLog) (tables : ChainTables) :
    Transaction.chain (logs.map (insertStatement eventText)) tables =
      insertLogs eventText tables logs := by
  induction logs generalizing tables with
  | nil =>
      rfl
  | cons log rest ih =>
      rw [List.map_cons, insertLogs]
      by_cases fits : log.identity.fits = true
      · have inserted : insertStatement eventText log tables =
            .ok (tables.insertLog (.ofLog eventText log)) := if_pos fits
        rw [if_pos fits, Transaction.chain_cons_of_ok inserted]
        exact ih _
      · have refused : insertStatement eventText log tables =
            .error .limitTooLarge := if_neg fits
        rw [if_neg fits, Transaction.chain_cons_of_error refused]

theorem chain_checkpoint
    (segment : CanonicalLogSegment) (tables : ChainTables) :
    Transaction.chain [checkpointStatement segment] tables =
      checkpointStatement segment tables := by
  cases executed : checkpointStatement segment tables with
  | error error => exact Transaction.chain_cons_of_error executed []
  | ok stored => exact Transaction.chain_cons_of_ok executed []

theorem chain_segmentStatements
    (registry : ContractRegistry) (segment : CanonicalLogSegment)
    (tables : ChainTables) :
    Transaction.chain (segmentStatements eventText registry segment) tables =
      tables.writeCanonicalSegment eventText registry segment := by
  rw [writeCanonicalSegment, segmentStatements]
  by_cases wide : fitsColumn registry.chainId.get = false ∨
      fitsColumn segment.commonAncestor.blockNumber = false
  · have refused : deleteStatement registry segment tables =
        .error .limitTooLarge := if_pos wide
    rw [if_pos wide, Transaction.chain_cons_of_error refused]
  · have deleted : deleteStatement registry segment tables =
        .ok (tables.deleteAfter registry.chainId.get
          segment.commonAncestor.blockNumber) := if_neg wide
    rw [if_neg wide, Transaction.chain_cons_of_ok deleted,
      Transaction.chain_append, chain_inserts]
    cases insertLogs eventText _ segment.logs with
    | error error => rfl
    | ok written => exact chain_checkpoint segment written

theorem chain_finalizedStatements
    (registry : ContractRegistry) (segment : CanonicalLogSegment)
    (finalized : ChainCheckpoint) (tables : ChainTables) :
    Transaction.chain (segmentStatements eventText registry segment ++
        [finalizedStatement registry finalized]) tables =
      tables.writeFinalizedSegment eventText registry segment finalized := by
  rw [Transaction.chain_append, chain_segmentStatements, writeFinalizedSegment]
  cases tables.writeCanonicalSegment eventText registry segment with
  | error error => rfl
  | ok written =>
      dsimp only
      cases executed : finalizedStatement registry finalized written with
      | error error =>
          rw [Transaction.chain_cons_of_error executed, ← executed]
          rfl
      | ok stored =>
          rw [Transaction.chain_cons_of_ok executed, Transaction.chain_nil,
            ← executed]
          rfl

end ChainTables

/-- The arguments of `ingest_finalized_batch`. -/
structure IngestCall where
  registry : ContractRegistry
  batch : QuorumVerifiedFinalizedLogBatch
  commonAncestor : ChainCheckpoint

namespace IngestCall

open Transaction (Connection)

variable (eventText : ChainEvent → String)

def writeOn (connection : Connection ChainTables) (call : IngestCall)
    (persisted : Option ChainCheckpoint) (finalized : ChainCheckpoint)
    (segment : CanonicalLogSegment) :
    Except ChainStoreError Unit × Connection ChainTables :=
  match validateSegment call.registry segment with
  | .error error => (.error error, connection)
  | .ok () =>
      if fitsColumn call.registry.chainId.get = false then
        (.error .limitTooLarge, connection)
      else if persisted = some segment.commonAncestor then
        connection.transaction
          (ChainTables.segmentStatements eventText call.registry segment ++
            [ChainTables.finalizedStatement call.registry finalized])
      else
        match connection.committed.validateStoredChain
            call.registry.chainId.get segment.commonAncestor with
        | .error error => (.error error, connection)
        | .ok () =>
            connection.transaction
              (ChainTables.segmentStatements eventText call.registry segment ++
                [ChainTables.finalizedStatement call.registry finalized])

/-- `ingest_finalized_batch`: what it returns, and the connection after it. -/
def ingestOn (connection : Connection ChainTables) (call : IngestCall) :
    Except ChainStoreError Unit × Connection ChainTables :=
  match connection.committed.finalizedCheckpoint call.registry.chainId with
  | .error error => (.error error, connection)
  | .ok persisted =>
      match verifyFinalizedProgression persisted call.commonAncestor
          call.batch.asRawBatch with
      | .error error => (.error error, connection)
      | .ok none => (.ok (), connection)
      | .ok (some finalized) =>
          match decodeRawLogs call.registry (call.batch.asRawBatch.logs.filter
              (isIngested call.commonAncestor finalized)) with
          | .error error => (.error error, connection)
          | .ok logs =>
              call.writeOn eventText connection persisted finalized
                ⟨call.commonAncestor, logs⟩

def after (connection : Connection ChainTables) (call : IngestCall) :
    Connection ChainTables :=
  (call.ingestOn eventText connection).2

def asChainCall (call : IngestCall) : ChainCall :=
  .ingest call.registry call.batch call.commonAncestor

variable {eventText}

theorem writeOn_idle (tables : ChainTables) (call : IngestCall)
    (persisted : Option ChainCheckpoint) (finalized : ChainCheckpoint)
    (segment : CanonicalLogSegment) :
    call.writeOn eventText (.idle tables) persisted finalized segment =
      Connection.settle tables (tables.ingestSegment eventText call.registry
        persisted segment finalized) := by
  simp only [writeOn, ChainTables.ingestSegment, Connection.transaction_eq,
    ChainTables.chain_finalizedStatements]
  cases validateSegment call.registry segment with
  | error error => rfl
  | ok checked =>
      dsimp only
      split
      · rfl
      · split
        · rfl
        · simp only [Connection.idle]
          cases tables.validateStoredChain call.registry.chainId.get
              segment.commonAncestor with
          | error error => rfl
          | ok known => rfl

/-- On an idle connection a call returns what the tables determine, and leaves
the connection idle. -/
theorem ingestOn_idle (tables : ChainTables) (call : IngestCall) :
    call.ingestOn eventText (.idle tables) =
      Connection.settle tables
        (call.asChainCall.result eventText tables) := by
  simp only [ingestOn, asChainCall, ChainCall.result,
    ChainTables.ingestFinalizedBatch, Connection.idle]
  cases tables.finalizedCheckpoint call.registry.chainId with
  | error error => rfl
  | ok persisted =>
      dsimp only
      cases verifyFinalizedProgression persisted call.commonAncestor
          call.batch.asRawBatch with
      | error error => rfl
      | ok head =>
          cases head with
          | none => rfl
          | some finalized =>
              dsimp only
              cases decodeRawLogs call.registry
                  (call.batch.asRawBatch.logs.filter
                    (isIngested call.commonAncestor finalized)) with
              | error error => rfl
              | ok logs =>
                  exact writeOn_idle tables call persisted finalized _

theorem after_idle (tables : ChainTables) (call : IngestCall) :
    call.after eventText (.idle tables) =
      .idle (call.asChainCall.apply eventText tables) := by
  rw [after, ingestOn_idle, ChainCall.apply]
  cases call.asChainCall.result eventText tables with
  | error error => rfl
  | ok stored => rfl

end IngestCall

/-! ## Linked headers -/

def BlockHead.row (header : BlockHead) : CheckpointRow where
  blockNumber := header.blockNumber
  blockHash := header.blockHash

def BlockHead.IsChildOf (header : BlockHead) (block : CheckpointRow) : Prop :=
  header.blockNumber = block.blockNumber + 1 ∧
    header.parentHash = block.blockHash

/-- A header of the list makes `later` a child of `earlier`. -/
def IsParentIn (headers : List BlockHead) (earlier later : CheckpointRow) :
    Prop :=
  ∃ header ∈ headers, header.IsChildOf earlier ∧ header.row = later

/-- The headers of a batch lead from a persisted block to a head. -/
structure FinalizedRawLogBatch.Connects (batch : FinalizedRawLogBatch)
    (persisted head : CheckpointRow) : Prop where
  verified : batch.verify = .ok ()
  linked : batch.coverage.blocks.IsChain fun previous header =>
    header.IsChildOf previous.row
  last : batch.coverage.blocks.getLast?.map BlockHead.row = some head
  reaches : (∃ header ∈ batch.coverage.blocks, header.row = persisted) ∨
    ∃ first, batch.coverage.blocks.head? = some first ∧
      first.IsChildOf persisted

theorem verifyBlockHeaderLinkage_eq_ok_iff {blocks : List BlockHead} :
    verifyBlockHeaderLinkage blocks = .ok () ↔
      blocks.IsChain fun prev block =>
        block.parentHash = prev.blockHash := by
  have search : verifyBlockHeaderLinkage blocks = .ok () ↔
      ∀ pair ∈ blocks.zip (blocks.drop 1),
        pair.2.parentHash = pair.1.blockHash := by
    unfold verifyBlockHeaderLinkage
    split
    · rename_i prev block found
      have broken := List.find?_some found
      have inside := List.mem_of_find?_eq_some found
      simp only [decide_eq_true_eq] at broken
      constructor
      · intro accepted
        cases accepted
      · intro each
        exact absurd (each _ inside) broken
    · rename_i absent
      simpa using List.find?_eq_none.mp absent
  rw [search]
  clear search
  induction blocks with
  | nil =>
      simp
  | cons first rest ih =>
      cases rest with
      | nil =>
          simp
      | cons second rest =>
          rw [List.isChain_cons_cons]
          refine Iff.trans ?_ (and_congr_right fun _ => ih)
          simp only [List.drop_succ_cons, List.drop_zero, List.zip_cons_cons,
            List.mem_cons, forall_eq_or_imp]

namespace FinalizedRawLogBatch

theorem Verified.linked
    {batch : FinalizedRawLogBatch} (verified : batch.Verified) :
    batch.coverage.blocks.IsChain fun prev header =>
      header.IsChildOf prev.row := by
  have parents := verifyBlockHeaderLinkage_eq_ok_iff.mp
    (FinalizedBlockCoverage.verify_eq_ok verified.coverage).2.2.2
  rw [List.isChain_iff_getElem] at parents ⊢
  intro index bound
  have earlier : index < batch.coverage.blocks.length := by omega
  have here := (verified.header earlier).2
  have next := (verified.header bound).2
  refine ⟨?_, parents index bound⟩
  simp only [BlockHead.row]
  omega

end FinalizedRawLogBatch

variable {headers : List BlockHead}

theorem IsParentIn.mono {more : List BlockHead}
    (inside : ∀ header ∈ headers, header ∈ more)
    {earlier later : CheckpointRow}
    (descends : Relation.ReflTransGen (IsParentIn headers) earlier later) :
    Relation.ReflTransGen (IsParentIn more) earlier later := by
  refine Relation.ReflTransGen.mono ?_ _ _ descends
  rintro _ _ ⟨header, mem, parent⟩
  exact ⟨header, inside header mem, parent⟩

theorem reflTransGen_getLast
    (linked : headers.IsChain fun prev header =>
      header.IsChildOf prev.row)
    {last : BlockHead} (final : headers.getLast? = some last) :
    ∀ header ∈ headers,
      Relation.ReflTransGen (IsParentIn headers) header.row last.row := by
  induction headers with
  | nil =>
      cases final
  | cons first rest ih =>
      cases rest with
      | nil =>
          have only : first = last := by simpa using final
          intro header mem
          rw [List.mem_singleton.mp mem, only]
      | cons second rest =>
          have parents := List.isChain_cons_cons.mp linked
          have later := ih parents.2 (by simpa using final)
          have widened : ∀ header ∈ second :: rest,
              Relation.ReflTransGen (IsParentIn (first :: second :: rest))
                header.row last.row := fun header mem =>
            IsParentIn.mono (fun _ => List.mem_cons_of_mem first)
              (later header mem)
          intro header mem
          rcases List.mem_cons.mp mem with rfl | inside
          · refine Relation.ReflTransGen.head ?_
              (widened second List.mem_cons_self)
            exact ⟨second, by simp, parents.1, rfl⟩
          · exact widened header inside

theorem FinalizedRawLogBatch.Connects.descends
    {batch : FinalizedRawLogBatch} {persisted head : CheckpointRow}
    (connects : batch.Connects persisted head) :
    Relation.ReflTransGen (IsParentIn batch.coverage.blocks) persisted
      head := by
  obtain ⟨last, final, rfl⟩ := Option.map_eq_some_iff.mp connects.last
  rcases connects.reaches with ⟨header, inside, rfl⟩ | ⟨first, start, child⟩
  · exact reflTransGen_getLast connects.linked final _ inside
  · have inside := List.mem_of_head? start
    exact Relation.ReflTransGen.head ⟨first, inside, child, rfl⟩
      (reflTransGen_getLast connects.linked final _ inside)

theorem eq_or_lt_of_descends {earlier later : CheckpointRow}
    (descends : Relation.ReflTransGen (IsParentIn headers) earlier later) :
    later = earlier ∨ earlier.blockNumber < later.blockNumber := by
  induction descends with
  | refl =>
      exact .inl rfl
  | tail _ parent ih =>
      obtain ⟨header, _, child, rfl⟩ := parent
      have above := child.1
      right
      simp only [BlockHead.row]
      rcases ih with rfl | higher
      · omega
      · omega

/-! ## One step -/

namespace ChainTables

variable {batch : FinalizedRawLogBatch}

theorem reaches_of_linkToAnchor {anchor proposed finalized : ChainCheckpoint}
    (verified : batch.Verified)
    (linked : linkToAnchor anchor batch proposed = .ok (some finalized)) :
    (∃ header ∈ batch.coverage.blocks,
        header.row = ⟨anchor.blockNumber, anchor.blockHash⟩) ∨
      ∃ first, batch.coverage.blocks.head? = some first ∧
        first.IsChildOf ⟨anchor.blockNumber, anchor.blockHash⟩ := by
  unfold linkToAnchor at linked
  split at linked
  · rename_i starts
    split at linked
    · cases linked
    · rename_i first start
      split at linked
      · cases linked
      · rename_i boundary
        right
        refine ⟨first, start, ?_, ?_⟩
        · rw [List.head?_eq_getElem?, List.getElem?_eq_some_iff] at start
          obtain ⟨bound, here⟩ := start
          have place := (verified.header bound).2
          rw [here] at place
          simp only
          omega
        · have parent := verifyBlockHeaderLinkage_eq_ok_iff.mp boundary
          exact (List.isChain_cons_cons.mp parent).1
  · split at linked
    · cases linked
    · split at linked
      · cases linked
      · rename_i covered here
        split at linked
        · cases linked
        · rename_i same
          left
          refine ⟨covered, List.mem_of_getElem? here, ?_⟩
          obtain ⟨bound, found⟩ := List.getElem?_eq_some_iff.mp here
          have place := (verified.header bound).2
          rw [found] at place
          simp only [BlockHead.row, CheckpointRow.mk.injEq]
          exact ⟨by omega, not_not.mp same⟩

/-- A head that is let through over a persisted one is the same block, or the
headers connect the two. -/
theorem connects_of_verify
    {persisted commonAncestor finalized : ChainCheckpoint}
    (progressed : verifyFinalizedProgression (some persisted) commonAncestor
      batch = .ok (some finalized)) :
    (finalized.blockNumber = persisted.blockNumber ∧
        finalized.blockHash = persisted.blockHash) ∨
      (persisted.blockNumber < finalized.blockNumber ∧
        batch.Connects ⟨persisted.blockNumber, persisted.blockHash⟩
          ⟨finalized.blockNumber, finalized.blockHash⟩) := by
  have head := (progressed_of_verify progressed).head
  unfold verifyFinalizedProgression at progressed
  split at progressed
  · cases progressed
  · have accepted := ‹batch.verify = .ok ()›
    have verified := FinalizedRawLogBatch.verify_eq_ok_iff.mp accepted
    split at progressed
    · cases progressed
    · split at progressed
      · cases progressed
      · split at progressed
        · cases progressed
        · rename_i last final
          split at progressed
          · cases progressed
          · split at progressed
            · cases progressed
            · have top := not_not.mp ‹_›
              dsimp only [Option.getD_some] at progressed
              split at progressed
              · cases progressed
              · split at progressed
                · rename_i level
                  split at progressed
                  · rename_i same
                    rw [head]
                    exact .inl ⟨level, same⟩
                  · cases progressed
                · right
                  rw [head]
                  refine ⟨by omega, accepted, verified.linked, ?_,
                    reaches_of_linkToAnchor verified progressed⟩
                  rw [final, top]
                  rfl

end ChainTables

namespace IngestCall

variable {eventText : ChainEvent → String} {tables : ChainTables}

/-- A call leaves the persisted head of a chain, or moves it up along the
headers of its batch. -/
theorem finalizedHead_apply
    {call : IngestCall} {chain : Nat} {prev : CheckpointRow}
    (found : tables.finalizedCheckpoints.lookup chain = some prev) :
    ∃ next, (call.asChainCall.apply eventText tables).finalizedCheckpoints.lookup
        chain = some next ∧
      (next = prev ∨ (prev.blockNumber < next.blockNumber ∧
          call.registry.chainId.get = chain ∧
          call.batch.asRawBatch.Connects prev next)) := by
  cases result : call.asChainCall.result eventText tables with
  | error error =>
      rw [ChainCall.apply, result]
      exact ⟨prev, found, Or.inl rfl⟩
  | ok stored =>
      rw [ChainCall.apply_of_result result]
      rcases ChainTables.ingestFinalizedBatch_eq_ok result with
        ⟨_, rfl⟩ | ⟨finalized, logs, progressed, ingested⟩
      · exact ⟨prev, found, Or.inl rfl⟩
      · rw [ingested.written.checkpoint, KeyedMap.lookup_insert_eq]
        by_cases same : chain = call.registry.chainId.get
        · subst same
          rw [if_pos rfl]
          rw [ChainTables.persistedCheckpoint, found] at progressed
          refine ⟨_, rfl, ?_⟩
          rcases ChainTables.connects_of_verify progressed with
            ⟨level, hash⟩ | ⟨higher, connects⟩
          · left
            rw [level, hash]
          · exact .inr ⟨higher, rfl, connects⟩
        · rw [if_neg same]
          exact ⟨prev, found, Or.inl rfl⟩

/-! ## Runs -/

def finalizedHead (connection : Transaction.Connection ChainTables)
    (chain : Nat) : Option CheckpointRow :=
  connection.committed.finalizedCheckpoints.lookup chain

def headersOf (chain : Nat) (calls : List IngestCall) : List BlockHead :=
  (calls.filter fun call => call.registry.chainId.get = chain).flatMap
    fun call => call.batch.asRawBatch.coverage.blocks

theorem mem_headersOf_cons_of_mem
    {chain : Nat} {call : IngestCall} {rest : List IngestCall} :
    ∀ header ∈ headersOf chain rest, header ∈ headersOf chain (call :: rest) := by
  intro header mem
  simp only [headersOf, List.mem_flatMap, List.mem_filter] at mem ⊢
  obtain ⟨other, ⟨inside, same⟩, covered⟩ := mem
  exact ⟨other, ⟨List.mem_cons_of_mem _ inside, same⟩, covered⟩

theorem mem_headersOf_cons_self
    {chain : Nat} {call : IngestCall} {rest : List IngestCall}
    (same : call.registry.chainId.get = chain) :
    ∀ header ∈ call.batch.asRawBatch.coverage.blocks,
      header ∈ headersOf chain (call :: rest) := by
  intro header mem
  simp only [headersOf, List.mem_flatMap, List.mem_filter]
  exact ⟨call, ⟨List.mem_cons_self, by simpa using same⟩, mem⟩

theorem run_idle (tables : ChainTables) (calls : List IngestCall) :
    Trace.run (after eventText) (.idle tables) calls =
      .idle (Trace.run (ChainCall.apply eventText) tables
        (calls.map asChainCall)) := by
  induction calls generalizing tables with
  | nil =>
      rfl
  | cons call rest ih =>
      rw [Trace.run_cons, after_idle, ih]
      rfl

/-- Over a run the head of a chain moves to a descendant, along the headers of
the calls for that chain. -/
theorem finalizedHead_run
    {calls : List IngestCall} {chain : Nat} {head : CheckpointRow}
    (found : tables.finalizedCheckpoints.lookup chain = some head) :
    ∃ next, finalizedHead (Trace.run (after eventText) (.idle tables) calls)
        chain = some next ∧
      Relation.ReflTransGen (IsParentIn (headersOf chain calls)) head next := by
  induction calls generalizing tables head with
  | nil =>
      exact ⟨head, found, .refl⟩
  | cons call rest ih =>
      obtain ⟨middle, stored, moved⟩ :=
        @finalizedHead_apply eventText _ call _ _ found
      obtain ⟨next, reached, later⟩ := ih stored
      rw [Trace.run_cons, after_idle]
      refine ⟨next, reached, ?_⟩
      have onward := IsParentIn.mono
        (@mem_headersOf_cons_of_mem chain call rest) later
      rcases moved with rfl | ⟨_, same, connects⟩
      · exact onward
      · exact (IsParentIn.mono (mem_headersOf_cons_self same)
          connects.descends).trans onward

variable (eventText)

/-- The finalized heads of a run of calls only move forward along one chain,
and a failed call changes nothing. -/
structure MovesForward (tables : ChainTables) (calls : List IngestCall) :
    Prop where
  descends : ∀ before later rest, calls = before ++ later ++ rest →
    ∀ chain head,
      finalizedHead (Trace.run (after eventText) (.idle tables) before) chain =
        some head →
      ∃ next, finalizedHead (Trace.run (after eventText) (.idle tables)
          (before ++ later)) chain = some next ∧
        head.blockNumber ≤ next.blockNumber ∧
        (next.blockNumber = head.blockNumber →
          next.blockHash = head.blockHash) ∧
        Relation.ReflTransGen (IsParentIn (headersOf chain later)) head next
  connected : Trace.EveryStep (after eventText)
    (fun connection call => ∀ chain previous next,
      finalizedHead connection chain = some previous →
      finalizedHead (call.after eventText connection) chain = some next →
      previous.blockNumber < next.blockNumber →
      call.batch.asRawBatch.Connects previous next)
    (.idle tables) calls
  failed : Trace.EveryStep (after eventText)
    (fun connection call => ∀ error,
      (call.ingestOn eventText connection).1 = .error error →
      (call.after eventText connection).committed = connection.committed)
    (.idle tables) calls

/-- Every condition on a step that idle connections meet is met throughout a
run. -/
theorem everyStep_idle
    {good : Transaction.Connection ChainTables → IngestCall → Prop}
    (each : ∀ tables call, good (.idle tables) call)
    (tables : ChainTables) (calls : List IngestCall) :
    Trace.EveryStep (after eventText) good (.idle tables) calls := by
  have staysIdle : ∀ connection call, (∃ tables, connection = .idle tables) →
      ∃ tables, after eventText connection call = .idle tables := by
    rintro _ call ⟨tables, rfl⟩
    exact ⟨_, after_idle tables call⟩
  apply Trace.everyStep_of_invariant staysIdle
  · rintro _ call ⟨tables, rfl⟩
    exact each tables call
  · exact ⟨tables, rfl⟩

/-- Whatever the calls are, the finalized checkpoints only move forward. -/
theorem movesForward (tables : ChainTables) (calls : List IngestCall) :
    MovesForward eventText tables calls := by
  refine ⟨?_, everyStep_idle eventText ?_ tables calls,
    everyStep_idle eventText ?_ tables calls⟩
  · rintro before later rest rfl chain head found
    rw [run_idle] at found
    rw [Trace.run_append, run_idle tables before]
    obtain ⟨next, reached, descends⟩ := finalizedHead_run found
    refine ⟨next, reached, ?_, ?_, descends⟩
    · rcases eq_or_lt_of_descends descends with rfl | higher
      · exact le_refl _
      · omega
    · intro level
      rcases eq_or_lt_of_descends descends with rfl | higher
      · rfl
      · omega
  · intro tables call chain previous next found reached higher
    rw [after_idle] at reached
    obtain ⟨stored, here, moved⟩ :=
      @finalizedHead_apply eventText _ call _ _ found
    obtain rfl : next = stored := Option.some.inj (reached.symm.trans here)
    rcases moved with rfl | ⟨_, _, connects⟩
    · omega
    · exact connects
  · intro tables call error returned
    rw [ingestOn_idle] at returned
    rw [after, ingestOn_idle]
    cases result : call.asChainCall.result eventText tables with
    | error error => rfl
    | ok stored =>
        rw [result] at returned
        cases returned

end IngestCall

end Pmkit
