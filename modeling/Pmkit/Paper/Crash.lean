import Pmkit.Paper.Clock
import Pmkit.Paper.Persist
import Pmkit.Paper.Restore

/-!
# Crashes of a durable paper run

A crash that no operation is cut by leaves rows from which the account after
the last durable operation comes back, as long as the calls stay replayable
and no call goes behind the last entry.  A crash inside the entries of one
operation is not survived: the flush writes them one by one and the replay
wants them all.
-/

namespace Pmkit

open MachineInt

namespace PaperLedger

variable {ledger : PaperLedger}

theorem Recorded.identities (recorded : ledger.Recorded) :
    ∀ entry ∈ ledger.entries, entry.eventId = ledgerEventId entry.sequence := by
  intro entry mem
  have pair : (entry.eventId, entry.sequence) ∈
      (List.range ledger.nextSequence).map fun number =>
        (ledgerEventId number, number) := by
    rw [← recorded.numbered]
    exact List.mem_map.mpr ⟨entry, mem, rfl⟩
  obtain ⟨number, _, same⟩ := List.mem_map.mp pair
  rw [Prod.mk.injEq] at same
  rw [← same.1, ← same.2]

theorem Recorded.sequences (recorded : ledger.Recorded) :
    ledger.entries.Pairwise fun left right =>
      left.sequence < right.sequence := by
  have sequences : ledger.entries.map PaperLedgerEntry.sequence =
      List.range ledger.nextSequence := by
    have second := congrArg (List.map Prod.snd) recorded.numbered
    simpa [List.map_map, Function.comp_def] using second
  have increasing := List.pairwise_lt_range (n := ledger.nextSequence)
  rw [← sequences, List.pairwise_map] at increasing
  exact increasing

theorem pendingEntry_cons {entry : PaperLedgerEntry}
    {rest : List PaperLedgerEntry} (pending : ledger.pending = entry :: rest) :
    ledger.pendingEntry = some entry ∧
      ledger.acknowledgePending entry.eventId =
        ({ ledger with pending := rest }, true) := by
  rw [pendingEntry, acknowledgePending, pending]
  simp

end PaperLedger

namespace PaperSetup

variable {Value : Type} {setup : PaperSetup} {json : JsonLibrary Value}

/-- A row of the run that is tagged as a ledger entry. -/
def isPaper (setup : PaperSetup) (json : JsonLibrary Value)
    (row : CausalDecision Value) : Bool :=
  row.identity.scope = setup.scope &&
    json.recordType row.payload = some paperLedgerRecordType

def Stored (setup : PaperSetup) (json : JsonLibrary Value)
    (rows : List (CausalDecision Value)) (entries : List PaperLedgerEntry) :
    Prop :=
  List.Forall₂ (fun entry row => setup.decisionOf json entry = .ok row)
    entries (rows.filter (setup.isPaper json))

structure RowOf (setup : PaperSetup) (json : JsonLibrary Value)
    (entry : PaperLedgerEntry) (row : CausalDecision Value) : Prop where
  scope : row.identity.scope = setup.scope
  correlationId : row.identity.correlationId = entry.eventId
  sourceTimestampMs : row.identity.sourceTimestampMs = entry.timestampMs
  ingestSequence : row.identity.ingestSequence.1 = entry.sequence
  tagged : json.recordType row.payload = some paperLedgerRecordType
  decoded : PaperLedgerEntry.fromValue json row.payload = .ok (some entry)

variable {entry : PaperLedgerEntry} {row : CausalDecision Value}
  {rows : List (CausalDecision Value)} {entries written : List PaperLedgerEntry}
  {state : DurableState Value} {executor : ExecutorState}

theorem rowOf_decisionOf (faithful : json.Faithful)
    (identity : entry.eventId = ledgerEventId entry.sequence)
    (decided : setup.decisionOf json entry = .ok row) :
    setup.RowOf json entry row := by
  unfold decisionOf at decided
  cases sequence : ingestSequenceOf entry.sequence with
  | none =>
      rw [sequence] at decided
      cases decided
  | some ingestSequence =>
      rw [sequence] at decided
      have value : ingestSequence.1 = entry.sequence := by
        unfold ingestSequenceOf at sequence
        split at sequence
        · cases sequence
          rfl
        · cases sequence
      cases written : entry.toValue json with
      | error error =>
          rw [written] at decided
          cases decided
      | ok payload =>
          rw [written] at decided
          cases decided
          obtain ⟨tagged, decoded⟩ :=
            PaperLedgerEntry.fromValue_toValue faithful identity written
          exact ⟨rfl, rfl, rfl, value, tagged, decoded⟩

variable {later decisions : List (CausalDecision Value)}

theorem Stored.append (faithful : json.Faithful)
    (stored : setup.Stored json rows entries)
    (identity : entry.eventId = ledgerEventId entry.sequence)
    (decided : setup.decisionOf json entry = .ok row)
    (written : CausalDecision.store rows row = .ok later) :
    setup.Stored json later (entries ++ [entry]) := by
  have rowOf := rowOf_decisionOf faithful identity decided
  have paper : setup.isPaper json row = true := by
    simp [isPaper, rowOf.scope, rowOf.tagged]
  unfold CausalDecision.store at written
  split at written
  · cases written
  · cases written
    unfold Stored at stored ⊢
    rw [List.filter_append, List.filter_cons_of_pos paper, List.filter_nil]
    exact List.rel_append stored (.cons decided .nil)

theorem Stored.foreign (stored : setup.Stored json rows entries)
    (foreign : setup.isPaper json row = false)
    (written : CausalDecision.store rows row = .ok later) :
    setup.Stored json later entries := by
  unfold CausalDecision.store at written
  split at written
  · cases written
  · cases written
    unfold Stored at stored ⊢
    rw [List.filter_append, List.filter_cons_of_neg (by simp [foreign]),
      List.filter_nil, List.append_nil]
    exact stored

/-! ## Writing -/

/-- One flush: some pending entries, oldest first, went to the table. -/
structure FlushedTo (setup : PaperSetup) (json : JsonLibrary Value)
    (state next : DurableState Value)
    (written flushed waiting : List PaperLedgerEntry) : Prop where
  pending : state.executor.ledger.pending = flushed ++ waiting
  executor : next.executor =
    { state.executor with
      ledger := { state.executor.ledger with pending := waiting } }
  stored : setup.Stored json next.rows (written ++ flushed)

theorem FlushedTo.none (stored : setup.Stored json state.rows written) :
    setup.FlushedTo json state state written []
      state.executor.ledger.pending :=
  ⟨rfl, rfl, by rw [List.append_nil]; exact stored⟩

/-- A flush that is neither cut nor refused clears the pending entries. -/
theorem persistWrites_flushedTo (faithful : json.Faithful) (writes : Nat)
    (identities : ∀ entry ∈ state.executor.ledger.pending,
      entry.eventId = ledgerEventId entry.sequence)
    (stored : setup.Stored json state.rows written) :
    ∃ flushed waiting,
      setup.FlushedTo json state (setup.persistWrites json writes state).1
        written flushed waiting ∧
      ((setup.persistWrites json writes state).2 = .ok () →
        state.executor.ledger.pending.length ≤ writes → waiting = []) := by
  induction writes generalizing state written with
  | zero =>
      refine ⟨[], _, .none stored, fun _ none => ?_⟩
      exact List.length_eq_zero_iff.mp (Nat.le_zero.mp none)
  | succ writes ih =>
      rw [persistWrites]
      cases pending : state.executor.ledger.pending with
      | nil =>
          have head : state.executor.ledger.pendingEntry = none := by
            rw [PaperLedger.pendingEntry, pending]
            rfl
          have same := FlushedTo.none stored
          rw [pending] at same
          rw [head]
          exact ⟨[], [], same, fun _ _ => rfl⟩
      | cons entry rest =>
          obtain ⟨head, acknowledged⟩ :=
            PaperLedger.pendingEntry_cons pending
          have identity := identities entry (by simp [pending])
          simp only [head]
          cases decided : setup.decisionOf json entry with
          | error error =>
              exact ⟨[], _, .none stored, fun failed => nomatch failed⟩
          | ok row =>
              simp only
              cases inserted : CausalDecision.store state.rows row with
              | error error =>
                  exact ⟨[], _, .none stored, fun failed => nomatch failed⟩
              | ok rows =>
                  simp only [acknowledged]
                  have appended : setup.Stored json ({
                      executor :=
                        { state.executor with
                          ledger :=
                            { state.executor.ledger with pending := rest } }
                      rows := rows } : DurableState Value).rows
                        (written ++ [entry]) :=
                    stored.append faithful identity decided inserted
                  obtain ⟨flushed, waiting, flush, clears⟩ :=
                    ih
                      (fun later mem => identities later
                        (by rw [pending]; exact List.mem_cons_of_mem _ mem))
                      appended
                  refine ⟨entry :: flushed, waiting, ⟨?_, flush.executor, ?_⟩,
                    fun done bound => clears done ?_⟩
                  · rw [pending, List.cons_append]
                    exact congrArg (entry :: ·) flush.pending
                  · have stored := flush.stored
                    rw [List.append_assoc] at stored
                    exact stored
                  · rw [List.length_cons] at bound
                    exact Nat.le_of_succ_le_succ bound

/-- More writes than pending entries change nothing. -/
theorem persistWrites_all {writes : Nat}
    (bound : state.executor.ledger.pending.length ≤ writes) :
    setup.persistWrites json writes state =
      setup.persistPaperLedger json state := by
  unfold persistPaperLedger
  induction writes generalizing state with
  | zero =>
      rw [Nat.le_zero.mp bound]
  | succ writes ih =>
      cases pending : state.executor.ledger.pending with
      | nil =>
          have head : state.executor.ledger.pendingEntry = none := by
            rw [PaperLedger.pendingEntry, pending]
            rfl
          rw [List.length_nil, persistWrites, persistWrites, head]
      | cons entry rest =>
          obtain ⟨head, acknowledged⟩ :=
            PaperLedger.pendingEntry_cons pending
          rw [pending, List.length_cons] at bound
          rw [List.length_cons, persistWrites, persistWrites, head]
          simp only [acknowledged]
          cases setup.decisionOf json entry with
          | error error =>
              rfl
          | ok row =>
              simp only
              cases CausalDecision.store state.rows row with
              | error error =>
                  rfl
              | ok rows =>
                  exact ih (Nat.le_of_succ_le_succ bound)

/-! ## Reading -/

theorem restoreEntries_filter
    (json : JsonLibrary Value) (decisions : List (CausalDecision Value)) :
    restoreEntries json decisions =
      restoreEntries json (decisions.filter fun row =>
        json.recordType row.payload = some paperLedgerRecordType) := by
  induction decisions with
  | nil =>
      rfl
  | cons row rest ih =>
      by_cases tagged :
          json.recordType row.payload = some paperLedgerRecordType
      · rw [List.filter_cons_of_pos (by simpa using tagged), restoreEntries,
          restoreEntries, ih]
      · have skipped : PaperLedgerEntry.fromValue json row.payload =
            .ok none := by
          simp [PaperLedgerEntry.fromValue, tagged]
        rw [List.filter_cons_of_neg (by simpa using tagged), restoreEntries,
          skipped]
        exact ih

theorem restoreEntries_rows
    (rowsOf : List.Forall₂ (setup.RowOf json) entries rows) :
    restoreEntries json rows = .ok entries := by
  induction rowsOf with
  | nil =>
      rfl
  | @cons entry row entries rows rowOf _ ih =>
      have sequence := rowOf.ingestSequence
      have positive : ¬ row.identity.ingestSequence.1 < 0 := by
        rw [sequence]
        omega
      have same : row.identity.ingestSequence.1.toNat = entry.sequence := by
        rw [sequence]
        exact Int.toNat_natCast entry.sequence
      rw [restoreEntries, rowOf.decoded]
      simp only [positive, if_false, rowOf.correlationId,
        rowOf.sourceTimestampMs, same, ne_eq, not_true_eq_false, or_self, ih]
      rfl

theorem Stored.rowsOf (faithful : json.Faithful)
    (identities : ∀ entry ∈ entries,
      entry.eventId = ledgerEventId entry.sequence)
    (stored : setup.Stored json rows entries) :
    List.Forall₂ (setup.RowOf json) entries
      (rows.filter (setup.isPaper json)) := by
  unfold Stored at stored
  generalize rows.filter (setup.isPaper json) = paper at stored
  induction stored with
  | nil =>
      exact .nil
  | @cons entry row entries rows decided _ ih =>
      exact .cons
        (rowOf_decisionOf faithful (identities entry List.mem_cons_self)
          decided)
        (ih fun later mem =>
          identities later (List.mem_cons_of_mem entry mem))

theorem rowsOf_source (rowsOf : List.Forall₂ (setup.RowOf json) entries rows)
    (mem : row ∈ rows) :
    ∃ entry ∈ entries, setup.RowOf json entry row := by
  induction rowsOf with
  | nil =>
      cases mem
  | @cons entry first entries rows rowOf _ ih =>
      rcases List.mem_cons.mp mem with rfl | older
      · exact ⟨entry, List.mem_cons_self, rowOf⟩
      · obtain ⟨found, foundMember, foundRow⟩ := ih older
        exact ⟨found, List.mem_cons_of_mem entry foundMember, foundRow⟩

theorem rowsOf_ordered (rowsOf : List.Forall₂ (setup.RowOf json) entries rows)
    (ordered : entries.Pairwise fun left right =>
      left.timestampMs ≤ right.timestampMs ∧ left.sequence < right.sequence) :
    rows.Pairwise fun left right =>
      CausalDecision.Before left right ∧
        left.identity.ingestSequence < right.identity.ingestSequence := by
  induction rowsOf with
  | nil =>
      exact List.Pairwise.nil
  | @cons entry row entries rows rowOf rest ih =>
      rw [List.pairwise_cons] at ordered
      refine List.pairwise_cons.mpr ⟨?_, ih ordered.2⟩
      intro later mem
      obtain ⟨other, otherMem, otherRow⟩ := rowsOf_source rest mem
      obtain ⟨time, sequence⟩ := ordered.1 other otherMem
      have later : row.identity.ingestSequence <
          later.identity.ingestSequence := by
        change row.identity.ingestSequence.1 < later.identity.ingestSequence.1
        rw [rowOf.ingestSequence, otherRow.ingestSequence]
        exact Int.ofNat_lt.mpr sequence
      refine ⟨?_, later⟩
      unfold CausalDecision.Before
      rw [rowOf.sourceTimestampMs, otherRow.sourceTimestampMs]
      rcases lt_or_eq_of_le time with earlier | same
      · exact .inl earlier
      · exact .inr ⟨same, later.le⟩

/-- The entries come back in order, whatever else the scope holds and however
the query breaks its ties. -/
theorem Stored.restoreEntries (faithful : json.Faithful)
    (identities : ∀ entry ∈ entries,
      entry.eventId = ledgerEventId entry.sequence)
    (ordered : entries.Pairwise fun left right =>
      left.timestampMs ≤ right.timestampMs ∧ left.sequence < right.sequence)
    (stored : setup.Stored json rows entries)
    (reads : CausalDecision.ReadsAs setup.scope rows decisions) :
    PaperSetup.restoreEntries json decisions = .ok entries := by
  have rowsOf := stored.rowsOf faithful identities
  have strict := rowsOf_ordered rowsOf ordered
  have paper : (decisions.filter fun row =>
      json.recordType row.payload = some paperLedgerRecordType).Perm
        (rows.filter (setup.isPaper json)) := by
    have filtered := reads.rows.filter fun row =>
      decide (json.recordType row.payload = some paperLedgerRecordType)
    rw [List.filter_filter] at filtered
    refine filtered.trans (List.Perm.of_eq ?_)
    apply List.filter_congr
    intro row _
    simp [isPaper, Bool.and_comm]
  have same : (decisions.filter fun row =>
      json.recordType row.payload = some paperLedgerRecordType) =
        rows.filter (setup.isPaper json) := by
    refine List.Perm.eq_of_pairwise ?_
      (reads.ordered.sublist List.filter_sublist)
      (strict.imp fun both => both.1) paper
    intro left right leftMem rightMem before after
    have sequences : left.identity.ingestSequence =
        right.identity.ingestSequence := by
      rcases before with earlier | ⟨same, forth⟩
      · rcases after with later | ⟨back, _⟩
        · exact absurd later (not_lt.mpr earlier.le)
        · exact absurd back (ne_of_gt earlier)
      · rcases after with later | ⟨_, back⟩
        · exact absurd same (ne_of_gt later)
        · exact le_antisymm forth back
    by_contra ne
    have distinct : (rows.filter (setup.isPaper json)).Pairwise
        fun left right => left.identity.ingestSequence ≠
          right.identity.ingestSequence :=
      strict.imp fun both => ne_of_lt both.2
    have symmetric : Std.Symm fun left right : CausalDecision Value =>
        left.identity.ingestSequence ≠ right.identity.ingestSequence :=
      ⟨fun _ _ => Ne.symm⟩
    exact distinct.forall (paper.subset leftMem) rightMem ne
      sequences
  rw [restoreEntries_filter, same]
  exact restoreEntries_rows rowsOf

/-- What an executor must meet for its durable entries to give it back. -/
structure Restartable (setup : PaperSetup) (executor : ExecutorState) :
    Prop where
  replayable : executor.Replayable setup.idPrefix setup.config
  traced : executor.Traced setup.idPrefix setup.config
  timely : executor.Timely
  opened : executor.ledger.entries ≠ []

theorem Restartable.restoreEntries (faithful : json.Faithful)
    (restartable : setup.Restartable executor)
    (stored : setup.Stored json rows executor.ledger.entries)
    (reads : CausalDecision.ReadsAs setup.scope rows decisions) :
    PaperSetup.restoreEntries json decisions = .ok executor.ledger.entries := by
  have recorded := restartable.replayable.sound.recorded
  exact stored.restoreEntries faithful recorded.identities
    (restartable.timely.ordered.and recorded.sequences) reads

theorem Restartable.startExecutor_eq (faithful : json.Faithful)
    (restartable : setup.Restartable executor)
    (stored : setup.Stored json rows executor.ledger.entries)
    (reads : CausalDecision.ReadsAs setup.scope rows decisions)
    (order : IterationOrder String) :
    setup.startExecutor json order decisions =
      (ExecutorState.reconstructWithFeeConfig order executor.ledger.idPrefix
        setup.config executor.ledger.entries).mapError .ledger := by
  have restored := restartable.restoreEntries faithful stored reads
  have samePrefix := restartable.replayable.sound.ledgerPrefix
  unfold startExecutor restorePaperExecutorFromDecisions
  rw [restored, samePrefix]
  cases entries : executor.ledger.entries with
  | nil =>
      exact absurd entries restartable.opened
  | cons entry rest =>
      simp only
      cases ExecutorState.reconstructWithFeeConfig order setup.idPrefix
          setup.config (entry :: rest) with
      | error error => rfl
      | ok next => rfl

/-- The account comes back when no placement is renumbered. -/
theorem Restartable.restores_account (faithful : json.Faithful)
    (restartable : setup.Restartable executor)
    (stored : setup.Stored json rows executor.ledger.entries)
    (reads : CausalDecision.ReadsAs setup.scope rows decisions)
    (keeps : executor.ledger.KeepsNumbers setup.config)
    (order : IterationOrder String) :
    ∃ restored, setup.startExecutor json order decisions = .ok restored ∧
      restored.ledger.state = executor.ledger.state := by
  have closed := restartable.replayable.balanced.closed
  have recorded := restartable.replayable.sound.recorded
  have provenance :=
    ExecutorState.reread_provenance restartable.traced.provenance
  obtain ⟨engine, rebuilt⟩ := PaperLedger.KeepsNumbers.rebuildEngine
    provenance
    (ExecutorState.reread_closed closed) keeps order
  refine ⟨{ engine := engine
            ledger := executor.reread
            config := setup.config
            lastTimestampMs := executor.reread.lastTimestampMs }, ?_, ?_⟩
  · rw [restartable.startExecutor_eq faithful stored reads,
      (ExecutorState.reconstructWithFeeConfig_eq_ok_iff recorded).mpr
        ⟨closed, engine, rebuilt, rfl⟩]
    rfl
  · have fees := restartable.replayable.balanced.fees
    change executor.reread.state = executor.ledger.state
    unfold ExecutorState.reread
    rw [← fees]
    rfl

theorem Restartable.restarted {next : ExecutorState}
    (restartable : setup.Restartable executor) {order : IterationOrder String}
    (reconstructed : ExecutorState.reconstructWithFeeConfig order
      executor.ledger.idPrefix setup.config executor.ledger.entries =
        .ok next) :
    setup.Restartable next ∧ next.ledger = executor.reread := by
  have traced := restartable.traced.restart order
  have restarted : executor.restart order setup.config = next := by
    rw [ExecutorState.restart, reconstructed]
  rw [restarted] at traced
  have recorded := restartable.replayable.sound.recorded
  obtain ⟨closed, engine, rebuilt, rfl⟩ :=
    (ExecutorState.reconstructWithFeeConfig_eq_ok_iff recorded).mp
      reconstructed
  have provenance :=
    ExecutorState.reread_provenance restartable.traced.provenance
  have rebuilding := PaperLedger.rebuilding_of_rebuildEngine provenance
    (ExecutorState.reread_closed closed) rebuilt
  refine ⟨⟨⟨traced.sound, ⟨ExecutorState.reread_recorded recorded, rfl,
    ExecutorState.reread_closed closed⟩, ?_⟩, traced,
    ⟨restartable.timely.ordered, ?_⟩, restartable.opened⟩, rfl⟩
  · obtain ⟨replayed, _, rfl⟩ :=
      PaperLedger.rebuildEngine_eq_ok_iff.mp rebuilt
    rfl
  · intro orderId opened isOpen
    obtain ⟨_, _, tracked, _, lookup, mirrors, _⟩ :=
      rebuilding.origin orderId opened isOpen
    obtain ⟨index, placed, comes⟩ :=
      provenance.tracked orderId tracked lookup
    have submitted : opened.2.submittedMs = placed.timestampMs := by
      have same := congrArg TrackedOrder.submittedMs mirrors
      exact same.trans comes.submittedMs
    have mem := List.mem_of_getElem? comes.recorded
    obtain ⟨entry, inside, isPlaced⟩ := List.mem_filterMap.mp mem
    have time : entry.timestampMs = placed.timestampMs := by
      unfold placedOf at isPlaced
      split at isPlaced
      · cases isPlaced
        rfl
      · cases isPlaced
    rw [submitted, ← time]
    exact restartable.timely.ordered.le_last inside

theorem Restartable.step
    {executor : ExecutorState} (restartable : setup.Restartable executor)
    {call : ExecutorCall} (replays : executor.CallReplays call)
    (after : executor.ledger.lastTimestampMs ≤ executor.callTime call) :
    setup.Restartable (executor.step call) ∧
      PaperLedger.AddsAt (executor.callTime call) executor.ledger
        (executor.step call).ledger := by
  have replayable := restartable.replayable
  have balanced :=
    (ExecutorState.step_balanced_iff replayable call).mpr replays
  obtain ⟨timely, adds⟩ := restartable.timely.step replayable.sound
    replayable.drained after
  refine ⟨⟨⟨ExecutorState.step_sound replayable.sound call, balanced,
    ExecutorState.step_drained replayable balanced⟩,
    restartable.traced.step call, timely, ?_⟩, adds⟩
  obtain ⟨added, entries, _⟩ := adds
  rw [entries]
  exact List.append_ne_nil_of_left_ne_nil restartable.opened added

theorem newExecutor_restartable (setup : PaperSetup) :
    setup.Restartable setup.newExecutor where
  replayable := ⟨ExecutorState.withAccountFeeConfig_sound _ _ _,
    PaperLedger.new_balanced _ _, rfl⟩
  traced := ExecutorState.withAccountFeeConfig_traced _ _ _
  timely := ExecutorState.withAccountFeeConfig_timely _ _ _
  opened := List.cons_ne_nil _ _

theorem Restartable.withPending (restartable : setup.Restartable executor)
    (pending : List PaperLedgerEntry) :
    setup.Restartable
      { executor with
        ledger := { executor.ledger with pending := pending } } := by
  have sound := restartable.replayable.sound
  have recorded : ({ executor.ledger with
      pending := pending } : PaperLedger).Recorded :=
    ⟨sound.recorded.numbered, sound.recorded.replayed, sound.recorded.fresh⟩
  have soundAfter : ({ executor with
      ledger := { executor.ledger with pending := pending } } :
        ExecutorState).Sound setup.idPrefix setup.config :=
    ⟨recorded, sound.wellFormed, sound.enginePrefix, sound.ledgerPrefix,
      sound.engineConfig, sound.config⟩
  have balanced := restartable.replayable.balanced
  have provenance := restartable.traced.provenance
  refine ⟨⟨soundAfter, ⟨recorded, balanced.fees, balanced.closed.placements,
    balanced.closed.orders⟩, restartable.replayable.drained⟩,
    ⟨soundAfter, ⟨⟨provenance.numbered.count, provenance.numbered.placement⟩,
      provenance.passes, provenance.alive, ?_⟩, restartable.traced.lags,
      restartable.traced.alive⟩,
    ⟨restartable.timely.ordered, restartable.timely.submitted⟩,
    restartable.opened⟩
  intro orderId tracked found
  obtain ⟨index, placed, comes⟩ := provenance.tracked orderId tracked found
  exact ⟨index, placed, comes.recorded, comes.identity, comes.acknowledged,
    comes.state, comes.submittedMs, comes.activeAtMs, comes.order⟩

/-- A table without ledger rows starts a new account. -/
theorem Stored.startExecutor_new (faithful : json.Faithful)
    (stored : setup.Stored json rows [])
    (reads : CausalDecision.ReadsAs setup.scope rows decisions)
    (order : IterationOrder String) :
    setup.startExecutor json order decisions = .ok setup.newExecutor := by
  have none := stored.restoreEntries faithful (by simp) List.Pairwise.nil reads
  unfold startExecutor restorePaperExecutorFromDecisions
  rw [none]
  rfl

end PaperSetup

namespace DurableState

variable {Value : Type}

/-- What an event must meet: a call stays replayable and is not behind the
last entry, another decision is not tagged as a ledger entry, and a restart
reads what the query returns. -/
def EventMet (setup : PaperSetup) (json : JsonLibrary Value)
    (state : DurableState Value) : DurableEvent Value → Prop
  | .operate call => state.executor.CallReplays call ∧
      state.executor.ledger.lastTimestampMs ≤ state.executor.callTime call
  | .persist => True
  | .record decision =>
      json.recordType decision.payload ≠ some paperLedgerRecordType
  | .restart _ decisions =>
      CausalDecision.ReadsAs setup.scope state.rows decisions

/-- The driver goes on after an event only when its flush succeeds. -/
def Completes (setup : PaperSetup) (json : JsonLibrary Value)
    (state : DurableState Value) (event : DurableEvent Value) : Prop :=
  state.EventMet setup json event ∧
    (setup.persistPaperLedger json (state.begin setup json event)).2 = .ok ()

/-- The invariant between two events: everything is durable, or nothing is
and the account is new. -/
structure Kept (setup : PaperSetup) (json : JsonLibrary Value)
    (state : DurableState Value) : Prop where
  restartable : setup.Restartable state.executor
  durable : (state.executor.ledger.pending = [] ∧
      setup.Stored json state.rows state.executor.ledger.entries) ∨
    (state.executor = setup.newExecutor ∧ setup.Stored json state.rows [])

variable {setup : PaperSetup} {json : JsonLibrary Value}
  {state : DurableState Value}

variable {event : DurableEvent Value} {decisions : List (CausalDecision Value)}

/-- What an event leaves to its flush: the durable entries are those of
before. -/
theorem Kept.begin (faithful : json.Faithful) (kept : state.Kept setup json)
    (met : state.EventMet setup json event) :
    setup.Restartable (state.begin setup json event).executor ∧
      ∃ written,
        (state.begin setup json event).executor.ledger.entries =
          written ++ (state.begin setup json event).executor.ledger.pending ∧
        setup.Stored json (state.begin setup json event).rows written ∧
        (written = state.executor.ledger.entries ∨
          (written = [] ∧ state.executor = setup.newExecutor)) := by
  have unchanged : ∃ written,
      state.executor.ledger.entries =
        written ++ state.executor.ledger.pending ∧
      setup.Stored json state.rows written ∧
      (written = state.executor.ledger.entries ∨
        (written = [] ∧ state.executor = setup.newExecutor)) := by
    rcases kept.durable with ⟨clear, stored⟩ | ⟨new, stored⟩
    · exact ⟨_, by rw [clear, List.append_nil], stored, Or.inl rfl⟩
    · refine ⟨[], ?_, stored, Or.inr ⟨rfl, new⟩⟩
      rw [new]
      rfl
  cases event with
  | persist =>
      exact ⟨kept.restartable, unchanged⟩
  | operate call =>
      obtain ⟨restartable, added, entries, pending, _⟩ :=
        kept.restartable.step met.1 met.2
      obtain ⟨written, split, stored, origin⟩ := unchanged
      refine ⟨restartable, written, ?_, stored, origin⟩
      simp only [DurableState.begin]
      rw [entries, pending, split, List.append_assoc]
  | record decision =>
      have foreign : setup.isPaper json decision = false := by
        have other : json.recordType decision.payload ≠
            some paperLedgerRecordType := met
        simp [PaperSetup.isPaper, other]
      simp only [DurableState.begin]
      cases inserted : CausalDecision.store state.rows decision with
      | error error =>
          exact ⟨kept.restartable, unchanged⟩
      | ok rows =>
          obtain ⟨written, split, stored, origin⟩ := unchanged
          exact ⟨kept.restartable, written, split,
            stored.foreign foreign inserted, origin⟩
  | restart order decisions =>
      simp only [DurableState.begin]
      cases started : setup.startExecutor json order decisions with
      | error error =>
          exact ⟨kept.restartable, unchanged⟩
      | ok next =>
          rcases kept.durable with ⟨clear, stored⟩ | ⟨new, stored⟩
          · rw [kept.restartable.startExecutor_eq faithful stored met]
              at started
            cases reconstructed : ExecutorState.reconstructWithFeeConfig order
                state.executor.ledger.idPrefix setup.config
                state.executor.ledger.entries with
            | error error =>
                rw [reconstructed] at started
                cases started
            | ok rebuilt =>
                rw [reconstructed] at started
                cases started
                obtain ⟨restartable, ledger⟩ :=
                  kept.restartable.restarted reconstructed
                refine ⟨restartable, _, ?_, stored, Or.inl rfl⟩
                rw [ledger]
                exact (List.append_nil _).symm
          · rw [stored.startExecutor_new faithful met] at started
            cases started
            exact ⟨setup.newExecutor_restartable, [], rfl, stored,
              Or.inr ⟨rfl, new⟩⟩

/-- A flush that succeeds makes every entry durable and changes nothing
else. -/
theorem Kept.flushed (faithful : json.Faithful) (kept : state.Kept setup json)
    (done : state.Completes setup json event) :
    (state.durableStep setup json event).executor =
        { (state.begin setup json event).executor with
          ledger :=
            { (state.begin setup json event).executor.ledger with
              pending := [] } } ∧
      setup.Restartable (state.durableStep setup json event).executor ∧
      setup.Stored json (state.durableStep setup json event).rows
        (state.durableStep setup json event).executor.ledger.entries := by
  obtain ⟨restartable, written, split, stored, _⟩ :=
    kept.begin faithful done.1
  have identities := restartable.replayable.sound.recorded.identities
  obtain ⟨flushed, waiting, flush, clears⟩ :=
    PaperSetup.persistWrites_flushedTo faithful
      (state.begin setup json event).executor.ledger.pending.length
      (fun entry mem => identities entry
        (by rw [split]; exact List.mem_append_right _ mem)) stored
  have clear := clears done.2 (le_refl _)
  subst clear
  have all : (state.begin setup json event).executor.ledger.entries =
      written ++ flushed := by
    rw [split, flush.pending, List.append_nil]
  have executor : (state.durableStep setup json event).executor = _ :=
    flush.executor
  have durable : setup.Stored json
      (state.durableStep setup json event).rows (written ++ flushed) :=
    flush.stored
  rw [executor]
  refine ⟨rfl, restartable.withPending [], ?_⟩
  simp only [all]
  exact durable

theorem Kept.step (faithful : json.Faithful) (kept : state.Kept setup json)
    {event : DurableEvent Value} (done : state.Completes setup json event) :
    (state.durableStep setup json event).Kept setup json := by
  obtain ⟨executor, restartable, stored⟩ := kept.flushed faithful done
  refine ⟨restartable, Or.inl ⟨?_, stored⟩⟩
  rw [executor]

theorem start_kept (setup : PaperSetup) (json : JsonLibrary Value) :
    (start setup : DurableState Value).Kept setup json :=
  ⟨setup.newExecutor_restartable, Or.inr ⟨rfl, .nil⟩⟩

/-! ## Crashes -/

/-- Before the first write of an event the account of the state comes
back. -/
theorem Kept.survives_before
    (faithful : json.Faithful) (kept : state.Kept setup json)
    (met : state.EventMet setup json event)
    (keeps : state.executor.ledger.KeepsNumbers setup.config)
    (order : IterationOrder String)
    (reads : CausalDecision.ReadsAs setup.scope
      (state.begin setup json event).rows decisions) :
    ∃ restored, setup.startExecutor json order decisions = .ok restored ∧
      restored.ledger.state = state.executor.ledger.state := by
  obtain ⟨_, written, _, stored, rfl | ⟨rfl, new⟩⟩ :=
    kept.begin faithful met
  · exact kept.restartable.restores_account faithful stored reads keeps order
  · exact ⟨_, stored.startExecutor_new faithful reads order, by rw [new]⟩

/-- After the last write of an event the account that it left comes back. -/
theorem Kept.survives_after
    (faithful : json.Faithful) (kept : state.Kept setup json)
    (done : state.Completes setup json event)
    (keeps : (state.begin setup json event).executor.ledger.KeepsNumbers
      setup.config)
    (order : IterationOrder String)
    (reads : CausalDecision.ReadsAs setup.scope
      (state.durableStep setup json event).rows decisions) :
    ∃ restored, setup.startExecutor json order decisions = .ok restored ∧
      restored.ledger.state =
        (state.durableStep setup json event).executor.ledger.state := by
  obtain ⟨executor, restartable, stored⟩ := kept.flushed faithful done
  refine restartable.restores_account faithful stored reads ?_ order
  rw [executor]
  exact keeps

def lastDurable (setup : PaperSetup) (json : JsonLibrary Value)
    (state : DurableState Value) (event : DurableEvent Value) (writes : Nat) :
    ExecutorState :=
  if writes = 0 then
    state.executor
  else
    (state.begin setup json event).executor

/-- A crash in the flush of an event that cuts no operation: nothing of the
event is durable, or all of it. -/
structure CrashMet (setup : PaperSetup) (json : JsonLibrary Value)
    (state : DurableState Value) (event : DurableEvent Value) (writes : Nat) :
    Prop where
  completes : state.Completes setup json event
  uncut : writes = 0 ∨
    (state.begin setup json event).executor.ledger.pending.length ≤ writes
  numbers : (state.lastDurable setup json event
    writes).ledger.KeepsNumbers setup.config

/-- In a run whose events all meet their condition, a crash that cuts no
operation is survived: whatever the query returns, the new process starts,
with the account after a prefix of the run. -/
theorem survives_crash
    (setup : PaperSetup) {json : JsonLibrary Value} (faithful : json.Faithful)
    (events : List (DurableEvent Value)) (event : DurableEvent Value)
    (writes : Nat)
    (completed : Trace.EveryStep (durableStep setup json)
      (Completes setup json) (start setup) events)
    (crash : (Trace.run (durableStep setup json) (start setup)
      events).CrashMet setup json event writes)
    (order : IterationOrder String) (decisions : List (CausalDecision Value))
    (reads : CausalDecision.ReadsAs setup.scope
      ((Trace.run (durableStep setup json) (start setup) events).crashedRows
        setup json event writes) decisions) :
    ∃ restored, setup.startExecutor json order decisions = .ok restored ∧
      ∃ count, restored.ledger.state =
        (Trace.run (durableStep setup json) (start setup)
          ((events ++ [event]).take count)).executor.ledger.state := by
  have kept : (Trace.run (durableStep setup json) (start setup)
      events).Kept setup json :=
    Trace.run_preserves (fun _ _ kept done => kept.step faithful done)
      (start_kept setup json) completed
  by_cases none : writes = 0
  · obtain ⟨restored, started, same⟩ := kept.survives_before faithful
      crash.completes.1 (by simpa [lastDurable, none] using crash.numbers)
      order (by simpa [crashedRows, PaperSetup.persistWrites, none] using reads)
    refine ⟨restored, started, events.length, ?_⟩
    rw [same, List.take_left]
  · have bound := crash.uncut.resolve_left none
    rw [crashedRows, PaperSetup.persistWrites_all bound] at reads
    obtain ⟨restored, started, same⟩ := kept.survives_after faithful
      crash.completes (by simpa [lastDurable, none] using crash.numbers)
      order reads
    refine ⟨restored, started, events.length + 1, ?_⟩
    rw [same, List.take_of_length_le (by simp), Trace.run_append]
    rfl

end DurableState

namespace Sample

def records : JsonLibrary WireEntry where
  toValue := .ok
  fromValue := .ok
  recordType := fun wire => some wire.recordType

theorem records_faithful : records.Faithful :=
  fun wire => ⟨wire, rfl, rfl, rfl⟩

def setup : PaperSetup where
  scope := { portfolioId := ⟨"main", by decide⟩, runId := ⟨"run", by decide⟩ }
  idPrefix := "paper"
  config := config 0 none
  initialCash := 100

/-- The first flush and a book. -/
def quietStart : List (DurableEvent WireEntry) :=
  [.persist, .operate (update 0)]

/-- A maker that rests: a placement and its acknowledgement. -/
def restingMaker : DurableEvent WireEntry :=
  .operate (.submit true (order .buy (45 / 100) true .gtc) 100)

def makerRows (writes : Nat) : List (CausalDecision WireEntry) :=
  (Trace.run (DurableState.durableStep setup records)
    (DurableState.start setup) quietStart).crashedRows setup records
      restingMaker writes

end Sample

namespace DurableState

theorem quietStart_survives :
    ∃ restored, Sample.setup.startExecutor Sample.records (.stored String)
        (Sample.makerRows 2) = .ok restored ∧
      ∃ count, restored.ledger.state =
        (Trace.run (durableStep Sample.setup Sample.records)
          (start Sample.setup)
          ((Sample.quietStart ++ [Sample.restingMaker]).take
            count)).executor.ledger.state := by
  have quiet : (SimEngine.updateBook (.stored String)
      (Trace.run (durableStep Sample.setup Sample.records)
        (start Sample.setup) [.persist]).executor.engine
      Sample.market .up (Sample.book 0)).pendingFills = [] := by
    decide +kernel
  apply survives_crash Sample.setup Sample.records_faithful
    Sample.quietStart Sample.restingMaker 2
  · refine ⟨⟨trivial, by decide +kernel⟩, ⟨⟨?_, by decide +kernel⟩,
      by decide +kernel⟩, trivial⟩
    change ¬ PaperLedger.LeavesFee _ (SimEngine.updateBook (.stored String)
      (Trace.run (durableStep Sample.setup Sample.records)
        (start Sample.setup) [.persist]).executor.engine
      Sample.market .up (Sample.book 0)).pendingFills
    rw [quiet]
    exact id
  · refine ⟨⟨⟨fun _ _ => ⟨by decide +kernel, fun immediate => ?_⟩,
      by decide +kernel⟩, by decide +kernel⟩, Or.inr (by decide +kernel),
      fun _ _ _ fails => absurd rfl fails⟩
    cases immediate
  · refine ⟨List.Perm.of_eq (List.filter_eq_self.mpr ?_).symm, ?_⟩
    · decide +kernel
    · decide +kernel

/-- A crash between the placement and its acknowledgement leaves rows that no
process can start from. -/
theorem restingMaker_not_survives :
    CausalDecision.ReadsAs Sample.setup.scope (Sample.makerRows 1)
        (Sample.makerRows 1) ∧
      ¬ ∃ restored, Sample.setup.restorePaperExecutorFromDecisions
        Sample.records (.stored String) (Sample.makerRows 1) =
          .ok restored := by
  refine ⟨⟨List.Perm.of_eq (List.filter_eq_self.mpr ?_).symm, ?_⟩, ?_⟩
  · decide +kernel
  · decide +kernel
  · have failed : (Sample.setup.restorePaperExecutorFromDecisions
        Sample.records (.stored String)
        (Sample.makerRows 1)).toOption.isNone := by
      decide +kernel
    rintro ⟨restored, started⟩
    rw [started] at failed
    cases failed

end DurableState

end Pmkit
