import Pmkit.Chain.Finality

/-!
# The canonical tip

A write stores the tip of its segment as the canonical checkpoint, and a later
call first compares that checkpoint with the last stored log.  The two agree as
long as a segment has logs.  A segment without logs stores its ancestor, which
need not be the block of a stored log.
-/

namespace Pmkit

/-! ## Ordered rows -/

/-- One row stands before another, and two rows of a height share its block. -/
def CanonicalLogRow.Before (previous next : CanonicalLogRow) : Prop :=
  LogPosition.cmp previous.position next.position = .lt ∧
    (previous.blockNumber = next.blockNumber →
      previous.blockHash = next.blockHash)

instance : Std.TransCmp fun left right : CanonicalLogRow =>
    LogPosition.cmp right.position left.position where
  eq_swap := Std.OrientedCmp.eq_swap
  isLE_trans := fun first second => Std.TransCmp.isLE_trans second first

namespace ChainTables

def Ordered (tables : ChainTables) : Prop :=
  ∀ chain, (tables.chainRows chain).Pairwise CanonicalLogRow.Before

variable {eventText : ChainEvent → String} {tables stored : ChainTables}
  {registry : ContractRegistry} {segment : CanonicalLogSegment}

theorem ordered_empty : Ordered .empty := fun _ => List.Pairwise.nil

variable {chain : Nat}

theorem mem_chainRows {row : CanonicalLogRow} :
    row ∈ tables.chainRows chain ↔ row ∈ tables.logs ∧ row.chainId = chain := by
  simp [chainRows, List.mem_filter]

theorem chainRows_deleteAfter (chain height : Nat) :
    (tables.deleteAfter chain height).chainRows chain =
      (tables.chainRows chain).filter fun row => row.blockNumber ≤ height := by
  simp only [chainRows, deleteAfter, List.filter_filter]
  apply List.filter_congr
  intro row _
  by_cases same : row.chainId = chain
  · simp [isKept, same]
  · simp [same]

theorem chainRows_of_write (valid : segment.Valid registry)
    (written : SegmentStored eventText tables registry segment stored) :
    stored.chainRows registry.chainId.get =
      (tables.deleteAfter registry.chainId.get
        segment.commonAncestor.blockNumber).chainRows registry.chainId.get ++
          segment.logs.map (.ofLog eventText) := by
  have own : (segment.logs.map (CanonicalLogRow.ofLog eventText)).filter
      (fun row => decide (row.chainId = registry.chainId.get)) =
        segment.logs.map (.ofLog eventText) := by
    rw [List.filter_eq_self]
    intro row mem
    obtain ⟨log, inside, rfl⟩ := List.mem_map.mp mem
    simp [CanonicalLogRow.ofLog, valid.chain log inside]
  simp only [chainRows, written.logs, List.filter_append, own, deleteAfter]

theorem chainRows_of_ne (valid : segment.Valid registry)
    (written : SegmentStored eventText tables registry segment stored)
    (ne : chain ≠ registry.chainId.get) :
    stored.chainRows chain = tables.chainRows chain := by
  have foreign : (segment.logs.map (CanonicalLogRow.ofLog eventText)).filter
      (fun row => decide (row.chainId = chain)) = [] := by
    rw [List.filter_eq_nil_iff]
    intro row mem
    obtain ⟨log, inside, rfl⟩ := List.mem_map.mp mem
    simp [CanonicalLogRow.ofLog, valid.chain log inside, Ne.symm ne]
  simp only [chainRows, written.logs, List.filter_append, foreign, List.append_nil,
    List.filter_filter]
  apply List.filter_congr
  intro row _
  by_cases same : row.chainId = chain
  · simp [isKept, same, ne]
  · simp [same]

theorem Ordered.of_write
    (ordered : tables.Ordered) (valid : segment.Valid registry)
    (written : SegmentStored eventText tables registry segment stored) : stored.Ordered := by
  intro chain
  by_cases same : chain = registry.chainId.get
  · subst same
    rw [chainRows_of_write valid written, chainRows_deleteAfter]
    refine List.pairwise_append.mpr
      ⟨(ordered _).sublist List.filter_sublist, ?_, ?_⟩
    · exact List.pairwise_map.mpr valid.ordered
    · intro row kept added mem
      obtain ⟨log, inside, rfl⟩ := List.mem_map.mp mem
      have below : row.blockNumber ≤ segment.commonAncestor.blockNumber := by
        simpa using (List.mem_filter.mp kept).2
      have above := valid.above log inside
      have lower : row.position.blockNumber <
          log.identity.position.blockNumber := lt_of_le_of_lt below above
      refine ⟨LogPosition.cmp_of_blockNumber_lt lower, ?_⟩
      intro level
      exact absurd level (Nat.ne_of_lt lower)
  · rw [chainRows_of_ne valid written same]
    exact ordered chain

theorem readCanonicalTip_of_last
    {initial : List CanonicalLogRow} {last : CanonicalLogRow}
    (rows : tables.chainRows chain = initial ++ [last])
    (ordered : (tables.chainRows chain).Pairwise CanonicalLogRow.Before) :
    tables.readCanonicalTip chain =
      some ⟨.polygon, last.blockNumber, last.blockHash⟩ := by
  have first : (Table.orderBy (fun left right : CanonicalLogRow =>
      LogPosition.cmp right.position left.position)
        (tables.chainRows chain)).head? = some last := by
    apply Table.head?_orderBy
    · simp [rows]
    · intro other mem ne
      rw [rows] at mem ordered
      have earlier : other ∈ initial :=
        (List.mem_append.mp mem).resolve_right fun here =>
          ne (List.mem_singleton.mp here)
      exact ((List.pairwise_append.mp ordered).2.2 other earlier last
        (List.mem_singleton.mpr rfl)).1
  rw [readCanonicalTip, first]
  rfl

/-- The tip that is read after a write: that of the segment, or what the delete
left. -/
theorem readCanonicalTip_of_write
    (ordered : tables.Ordered) (valid : segment.Valid registry)
    (written : SegmentStored eventText tables registry segment stored) :
    stored.readCanonicalTip registry.chainId.get =
      if segment.logs = [] then
        (tables.deleteAfter registry.chainId.get
          segment.commonAncestor.blockNumber).readCanonicalTip
            registry.chainId.get
      else
        some ⟨.polygon, segment.tip.blockNumber, segment.tip.blockHash⟩ := by
  have rows := chainRows_of_write valid written
  split
  · rename_i none
    rw [none, List.map_nil, List.append_nil] at rows
    rw [readCanonicalTip, readCanonicalTip, rows]
  · rename_i some
    obtain ⟨initial, last, split⟩ :=
      (List.eq_nil_or_concat segment.logs).resolve_left some
    rw [List.concat_eq_append] at split
    have tip : segment.tip.blockNumber = last.identity.blockNumber ∧
        segment.tip.blockHash = last.identity.blockHash := by
      simp [CanonicalLogSegment.tip, split]
    rw [split, List.map_append, List.map_singleton, ← List.append_assoc] at rows
    rw [readCanonicalTip_of_last rows
      (ordered.of_write valid written registry.chainId.get), tip.1, tip.2]
    rfl

theorem readCanonicalTip_of_ne (valid : segment.Valid registry)
    (written : SegmentStored eventText tables registry segment stored)
    (ne : chain ≠ registry.chainId.get) :
    stored.readCanonicalTip chain = tables.readCanonicalTip chain := by
  rw [readCanonicalTip, readCanonicalTip, chainRows_of_ne valid written ne]

theorem readCanonicalCheckpoint_of_write
    (written : SegmentStored eventText tables registry segment stored)
    (chain : Nat) :
    stored.readCanonicalCheckpoint chain =
      if chain = registry.chainId.get then
        some ⟨.polygon, segment.tip.blockNumber, segment.tip.blockHash⟩
      else
        tables.readCanonicalCheckpoint chain := by
  rw [readCanonicalCheckpoint, written.canonical, KeyedMap.lookup_insert_eq]
  split
  · rfl
  · rfl

def CheckpointIsTip (tables : ChainTables) : Prop :=
  ∀ chain, tables.readCanonicalCheckpoint chain = tables.readCanonicalTip chain

def AcceptsStoredAncestors (tables : ChainTables) : Prop :=
  ∀ row ∈ tables.logs, ∀ ancestor : ChainCheckpoint,
    ancestor.blockNumber = row.blockNumber →
    ancestor.blockHash = row.blockHash →
    tables.validateStoredChain row.chainId ancestor = .ok ()

/-- What every call keeps: rows in order, of heights that fit their column. -/
structure WellFormed (tables : ChainTables) : Prop where
  ordered : tables.Ordered
  fits : ∀ row ∈ tables.logs, fitsColumn row.blockNumber = true

theorem wellFormed_empty : WellFormed .empty where
  ordered := ordered_empty
  fits := by
    simp [empty]

theorem WellFormed.of_write
    (wellFormed : tables.WellFormed) (valid : segment.Valid registry)
    (written : SegmentStored eventText tables registry segment stored) :
    stored.WellFormed where
  ordered := wellFormed.ordered.of_write valid written
  fits := by
    intro row mem
    rw [written.logs, List.mem_append] at mem
    rcases mem with kept | added
    · exact wellFormed.fits row (List.mem_of_mem_filter kept)
    · obtain ⟨log, inside, rfl⟩ := List.mem_map.mp added
      have fits := written.fits log inside
      simp only [CanonicalLogIdentity.fits, decide_eq_true_eq] at fits
      exact fits.2.1

/-- At the height of a stored log there is one block. -/
theorem WellFormed.readCanonicalBlockHash
    (wellFormed : tables.WellFormed) {row : CanonicalLogRow}
    (mem : row ∈ tables.logs) :
    tables.readCanonicalBlockHash row.chainId row.blockNumber =
      [row.blockHash] := by
  have own : row ∈ tables.chainRows row.chainId := mem_chainRows.mpr ⟨mem, rfl⟩
  have same : ∀ hash ∈ ((tables.chainRows row.chainId).filter fun other =>
      other.blockNumber = row.blockNumber).map CanonicalLogRow.blockHash,
      hash = row.blockHash := by
    intro hash inside
    obtain ⟨other, filtered, rfl⟩ := List.mem_map.mp inside
    obtain ⟨stands, level⟩ := List.mem_filter.mp filtered
    have height : other.blockNumber = row.blockNumber := by
      simpa using level
    by_cases identical : other = row
    · rw [identical]
    · rcases List.pair_sublist_or stands own identical with before | after
      · have pair := List.Pairwise.sublist before
          (wellFormed.ordered row.chainId)
        have step : other.Before row := by
          simpa using pair
        exact step.2 height
      · have pair := List.Pairwise.sublist after
          (wellFormed.ordered row.chainId)
        have step : row.Before other := by
          simpa using pair
        exact (step.2 height.symm).symm
  have present : row.blockHash ∈ ((tables.chainRows row.chainId).filter
      fun other => other.blockNumber = row.blockNumber).map
        CanonicalLogRow.blockHash :=
    List.mem_map_of_mem (List.mem_filter.mpr ⟨own, by simp⟩)
  rw [ChainTables.readCanonicalBlockHash, List.eq_replicate_of_mem same]
  exact List.replicate_dedup (by
    rw [Ne, List.length_eq_zero_iff]
    exact List.ne_nil_of_mem present)

theorem WellFormed.acceptsStoredAncestors
    (wellFormed : tables.WellFormed) (tips : tables.CheckpointIsTip) :
    tables.AcceptsStoredAncestors := by
  intro row mem ancestor height hash
  have own : row ∈ tables.chainRows row.chainId := mem_chainRows.mpr ⟨mem, rfl⟩
  obtain ⟨initial, last, split⟩ :=
    (List.eq_nil_or_concat (tables.chainRows row.chainId)).resolve_left
      (List.ne_nil_of_mem own)
  rw [List.concat_eq_append] at split
  have ordered := wellFormed.ordered row.chainId
  have tip := readCanonicalTip_of_last split ordered
  have below : row.blockNumber ≤ last.blockNumber := by
    rw [split] at own ordered
    rcases List.mem_append.mp own with before | here
    · have step := (List.pairwise_append.mp ordered).2.2 row before last
        (List.mem_singleton.mpr rfl)
      exact LogPosition.blockNumber_le_of_cmp step.1
    · rw [List.mem_singleton.mp here]
  have fits := wellFormed.fits row mem
  rw [validateStoredChain, if_neg (not_not.mpr (tips row.chainId)), tip]
  simp only [height, fits, wellFormed.readCanonicalBlockHash mem, hash]
  rw [if_neg (by omega)]
  simp

end ChainTables

/-! ## Runs -/

def ChainCall.BringsLogs : ChainCall → Prop
  | replace _ segment => segment.logs ≠ []
  | ingest _ batch commonAncestor =>
      ∃ raw ∈ batch.asRawBatch.logs,
        isIngested commonAncestor batch.asRawBatch.proposed raw = true

/-- A call that writes brings a log, or its ancestor is the block of the
highest stored log at or below it. -/
def LeavesTip (tables : ChainTables) (call : ChainCall) : Prop :=
  call.Advances tables → call.BringsLogs ∨
    (tables.deleteAfter call.chainId
        call.commonAncestor.blockNumber).readCanonicalTip call.chainId =
      some ⟨.polygon, call.commonAncestor.blockNumber,
        call.commonAncestor.blockHash⟩

variable {eventText : ChainEvent → String} {tables : ChainTables}

theorem decodeRawLogs_length
    {registry : ContractRegistry} {raws : List RawRpcLog}
    {logs : List CanonicalChainLog}
    (decoded : decodeRawLogs registry raws = .ok logs) :
    logs.length = raws.length := by
  induction raws generalizing logs with
  | nil =>
      cases decoded
      rfl
  | cons raw rest ih =>
      unfold decodeRawLogs at decoded
      split at decoded
      · cases decoded
      · cases later : decodeRawLogs registry rest with
        | error error =>
            rw [later] at decoded
            cases decoded
        | ok others =>
            rw [later] at decoded
            cases decoded
            simp [ih later]

/-- An accepted call holds a batch back, or writes a segment whose logs it
brings. -/
theorem ChainCall.stored_of_accepted
    {call : ChainCall} (accepted : call.Accepted eventText tables) :
    (¬ call.Advances tables ∧ call.apply eventText tables = tables) ∨
      (call.Advances tables ∧ ∃ registry segment,
        call.chainId = registry.chainId.get ∧
          call.commonAncestor = segment.commonAncestor ∧
          (call.BringsLogs ↔ segment.logs ≠ []) ∧
          CanonicalLogSegment.Valid registry segment ∧
          ChainTables.SegmentStored eventText tables registry segment
            (call.apply eventText tables)) := by
  unfold Accepted at accepted
  cases result : call.result eventText tables with
  | error error =>
      rw [result] at accepted
      cases accepted
  | ok stored =>
      rw [apply_of_result result]
      cases call with
      | replace registry segment =>
          obtain ⟨valid, _, written⟩ :=
            ChainTables.replaceCanonicalSegment_eq_ok result
          exact .inr ⟨trivial, registry, segment, rfl, rfl, Iff.rfl, valid,
            written.toSegmentStored⟩
      | ingest registry batch ancestor =>
          rcases ChainTables.ingestFinalizedBatch_eq_ok result with
            ⟨held, rfl⟩ | ⟨finalized, logs, progressed, ingested⟩
          · left
            refine ⟨?_, rfl⟩
            rintro ⟨finalized, progressed⟩
            rw [held] at progressed
            cases progressed
          · refine Or.inr ⟨⟨finalized, progressed⟩, registry, ⟨ancestor, logs⟩,
              rfl, rfl, ?_, ingested.valid, ingested.written.toSegmentStored⟩
            have length := decodeRawLogs_length ingested.decoded
            rw [(ChainTables.progressed_of_verify progressed).head] at length
            rw [BringsLogs, Ne, ← List.length_eq_zero_iff, length,
              List.length_eq_zero_iff, List.filter_eq_nil_iff]
            simp

/-- The invariant of a run: well-formed tables whose checkpoints are tips. -/
structure ChainTables.Consistent (tables : ChainTables) : Prop where
  wellFormed : tables.WellFormed
  tips : tables.CheckpointIsTip

theorem ChainTables.consistent_empty : Consistent .empty where
  wellFormed := wellFormed_empty
  tips := fun _ => rfl

/-- From consistent tables, an accepted call leaves them consistent just when
it leaves the tip where its checkpoint says. -/
theorem consistent_apply_iff {call : ChainCall} (consistent : tables.Consistent)
    (accepted : call.Accepted eventText tables) :
    (call.apply eventText tables).WellFormed ∧
      ((call.apply eventText tables).CheckpointIsTip ↔
        LeavesTip tables call) := by
  rcases ChainCall.stored_of_accepted accepted with
    ⟨held, unchanged⟩ |
      ⟨advances, registry, segment, chain, ancestor, brings, valid, written⟩
  · rw [unchanged]
    exact ⟨consistent.wellFormed,
      fun _ advances => absurd advances held, fun _ => consistent.tips⟩
  · refine ⟨consistent.wellFormed.of_write valid written, ?_⟩
    have tip := ChainTables.readCanonicalTip_of_write
      consistent.wellFormed.ordered valid written
    have checkpoint := ChainTables.readCanonicalCheckpoint_of_write written
    have own := checkpoint registry.chainId.get
    rw [if_pos rfl] at own
    simp only [LeavesTip, advances, true_implies, brings, chain, ancestor]
    constructor
    · intro tips
      by_cases none : segment.logs = []
      · right
        have here := tips registry.chainId.get
        rw [own, tip, if_pos none] at here
        rw [← here]
        simp [CanonicalLogSegment.tip, none]
      · exact .inl none
    · intro left other
      by_cases same : other = registry.chainId.get
      · subst same
        rw [own, tip]
        by_cases none : segment.logs = []
        · rw [if_pos none, left.resolve_left (not_not.mpr none)]
          simp [CanonicalLogSegment.tip, none]
        · rw [if_neg none]
      · rw [checkpoint other, if_neg same,
          ChainTables.readCanonicalTip_of_ne valid written same]
        exact consistent.tips other

/-- Through a run of accepted calls from empty tables, the canonical checkpoint
is the tip of the stored logs and every stored block may be an ancestor, just
when each call that writes brings a log or ends at a stored one. -/
theorem selfConsistent_iff
    (eventText : ChainEvent → String) (calls : List ChainCall)
    (accepted : Trace.EveryStep (ChainCall.apply eventText)
      (ChainCall.Accepted eventText) .empty calls) :
    Trace.EveryState (ChainCall.apply eventText)
        (fun tables =>
          tables.CheckpointIsTip ∧ tables.AcceptsStoredAncestors)
        .empty calls ↔
      Trace.EveryStep (ChainCall.apply eventText) LeavesTip .empty calls := by
  have rule : Trace.EveryState (ChainCall.apply eventText)
      (fun tables =>
        tables.CheckpointIsTip ∧ tables.AcceptsStoredAncestors)
      .empty calls ↔
    Trace.EveryStep (ChainCall.apply eventText)
      (fun tables call =>
        call.Accepted eventText tables → LeavesTip tables call)
      .empty calls := by
    apply Trace.everyState_iff_everyStep ChainTables.Consistent
    · intro tables consistent
      exact ⟨consistent.tips,
        consistent.wellFormed.acceptsStoredAncestors consistent.tips⟩
    · intro tables call consistent leaves
      by_cases accepts : call.Accepted eventText tables
      · obtain ⟨wellFormed, tips⟩ := consistent_apply_iff consistent accepts
        exact ⟨wellFormed, tips.mpr (leaves accepts)⟩
      · rw [ChainCall.apply_of_not_accepted accepts]
        exact consistent
    · intro tables call consistent self accepts
      exact (consistent_apply_iff consistent accepts).2.mp self.1
    · exact ChainTables.consistent_empty
  rw [rule]
  exact Trace.everyStep_congr
    (fun _ _ accepted => ⟨fun leaves => leaves accepted, fun leaves _ => leaves⟩)
    accepted

section Example

def emptySegmentCalls : List ChainCall :=
  [.replace .polygon ⟨⟨.polygon, 0, "0xg"⟩, []⟩]

theorem emptySegmentCalls_accepted :
    Trace.EveryStep (ChainCall.apply sampleEventText)
      (ChainCall.Accepted sampleEventText) .empty emptySegmentCalls :=
  ⟨by decide +kernel, trivial⟩

theorem selfConsistent_iff_emptySegment :
    Trace.EveryState (ChainCall.apply sampleEventText)
        (fun tables =>
          tables.CheckpointIsTip ∧ tables.AcceptsStoredAncestors)
        .empty emptySegmentCalls ↔
      Trace.EveryStep (ChainCall.apply sampleEventText) LeavesTip .empty
        emptySegmentCalls :=
  selfConsistent_iff sampleEventText emptySegmentCalls
    emptySegmentCalls_accepted

/-- The segment stores its ancestor as the checkpoint, and there is no log
whose block it is. -/
theorem emptySegment_checkpoint_ne_tip :
    Trace.EveryStep (ChainCall.apply sampleEventText)
        (ChainCall.Accepted sampleEventText) .empty emptySegmentCalls ∧
      ¬ Trace.EveryState (ChainCall.apply sampleEventText)
        (fun tables =>
          tables.CheckpointIsTip ∧ tables.AcceptsStoredAncestors)
        .empty emptySegmentCalls := by
  refine ⟨emptySegmentCalls_accepted, ?_⟩
  intro every
  have last := (every.2.1 137)
  revert last
  decide +kernel

end Example

end Pmkit
