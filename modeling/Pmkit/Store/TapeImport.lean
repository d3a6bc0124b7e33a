import Pmkit.Library.Transaction
import Pmkit.Store.Gaps
import Pmkit.Tape.PublicTape

/-!
# Imports into the tape tables

Gaps, audit frames and envelopes are written in one transaction.  A gap or an
audit frame whose key is taken is passed over; an envelope whose key is taken
has to be a copy of what is stored.
-/

namespace Pmkit

open MachineInt PublicTape Transaction

/-- A row of `pm_public_tape_audit_frames`. -/
structure PublicTapeAuditRow where
  frame : PublicTapeAuditFrame
  rawSha256 : String
  deriving DecidableEq

/-- The columns of the `PRIMARY KEY` of an audit frame. -/
structure PublicTapeAuditKey where
  scope : OwnerScope
  sourceId : String
  connectionId : String
  connectionEpoch : I64
  frameSequence : I64
  ingestSequence : I64
  deriving DecidableEq

def PublicTape.PublicTapeAuditFrame.key (frame : PublicTapeAuditFrame) :
    PublicTapeAuditKey where
  scope := frame.scope
  sourceId := frame.sourceId
  connectionId := frame.connectionId
  connectionEpoch := frame.connectionEpoch
  frameSequence := frame.frameSequence
  ingestSequence := frame.ingestSequence

namespace PublicTapeAuditRow

def primaryKey (row : PublicTapeAuditRow) : PublicTapeAuditKey :=
  row.frame.key

/-- The values `INSERT_PUBLIC_TAPE_AUDIT_FRAME` binds. -/
def ofFrame (text : StoreText) (frame : PublicTapeAuditFrame) :
    PublicTapeAuditRow where
  frame := frame
  rawSha256 := text.sha256Hex frame.rawFrame

end PublicTapeAuditRow

structure PublicTapeAuditTable where
  rows : List PublicTapeAuditRow
  separated : rows.Pairwise fun left right =>
    left.primaryKey ≠ right.primaryKey

namespace PublicTapeAuditTable

def empty : PublicTapeAuditTable where
  rows := []
  separated := List.Pairwise.nil

/-- `INSERT_PUBLIC_TAPE_AUDIT_FRAME`: a row whose key is taken is not
written. -/
def insert (table : PublicTapeAuditTable) (row : PublicTapeAuditRow) :
    PublicTapeAuditTable :=
  if taken : table.rows.any (·.primaryKey = row.primaryKey) = true then
    table
  else
    { rows := table.rows ++ [row]
      separated := List.pairwise_append.mpr
        ⟨table.separated, List.pairwise_singleton _ _, by
          simpa using taken⟩ }

end PublicTapeAuditTable

namespace EnvelopeTable

/-- `store_envelope_idempotent_in_transaction`. -/
def storeOnce (text : StoreText) (table : EnvelopeTable)
    (envelope : PmEnvelope) : Except TapeStoreError EnvelopeTable :=
  match table.storeEnvelopeIdempotent text envelope with
  | (.ok _, stored) => .ok stored
  | (.error error, _) => .error error

def storeEnvelopes (text : StoreText) (table : EnvelopeTable)
    (envelopes : List PmEnvelope) : Except TapeStoreError EnvelopeTable :=
  envelopes.foldlM (storeOnce text) table

end EnvelopeTable

structure TapeTables where
  gaps : ReplayGapTable
  auditFrames : PublicTapeAuditTable
  envelopes : EnvelopeTable

namespace TapeTables

def insertGap (gap : ReplayGapInterval) : Statement TapeTables TapeStoreError :=
  fun tables => .ok { tables with gaps := tables.gaps.storeReplayGap gap }

def insertAuditFrame (text : StoreText) (frame : PublicTapeAuditFrame) :
    Statement TapeTables TapeStoreError :=
  fun tables => .ok
    { tables with
      auditFrames := tables.auditFrames.insert (.ofFrame text frame) }

def insertEnvelope (text : StoreText) (envelope : PmEnvelope) :
    Statement TapeTables TapeStoreError :=
  fun tables => (tables.envelopes.storeOnce text envelope).map fun stored =>
    { tables with envelopes := stored }

/-- `store_public_tape_import`. -/
def storePublicTapeImport (text : StoreText)
    (connection : Connection TapeTables) (gaps : List ReplayGapInterval)
    (auditFrames : List PublicTapeAuditFrame) (envelopes : List PmEnvelope) :
    Except TapeStoreError Unit × Connection TapeTables :=
  connection.transaction (gaps.map insertGap ++
    auditFrames.map (insertAuditFrame text) ++
    envelopes.map (insertEnvelope text))

end TapeTables

namespace EnvelopeTable

variable {text : StoreText} {table stored : EnvelopeTable}

variable {envelope : PmEnvelope}

theorem storeOnce_fresh
    (free : ∀ row ∈ table.rows,
      row.conflicts (.ofEnvelope text envelope) = false) :
    ∃ after, table.storeOnce text envelope = .ok after ∧
      after.rows = table.rows ++ [.ofEnvelope text envelope] := by
  have written : table.insert (.ofEnvelope text envelope) =
      some _ := dif_pos free
  rw [storeOnce, storeEnvelopeIdempotent, written]
  exact ⟨_, rfl, rfl⟩

theorem storeOnce_stored
    (mem : EnvelopeRow.ofEnvelope text envelope ∈ table.rows) :
    table.storeOnce text envelope = .ok table := by
  rw [storeOnce, storeEnvelopeIdempotent_copy mem rfl rfl rfl]

theorem storeEnvelopes_stored {envelopes : List PmEnvelope}
    (members : ∀ envelope ∈ envelopes,
      EnvelopeRow.ofEnvelope text envelope ∈ table.rows) :
    table.storeEnvelopes text envelopes = .ok table := by
  induction envelopes with
  | nil => rfl
  | cons envelope rest ih =>
      obtain ⟨first, others⟩ := List.forall_mem_cons.mp members
      rw [storeEnvelopes, List.foldlM_cons, storeOnce_stored first]
      exact ih others

theorem storeOnce_agrees
    (stored : ∀ row ∈ table.rows,
      row.conflicts (.ofEnvelope text envelope) = true →
        row = .ofEnvelope text envelope) :
    ∃ after, table.storeOnce text envelope = .ok after ∧
      ∀ row, row ∈ after.rows ↔
        row ∈ table.rows ∨ row = .ofEnvelope text envelope := by
  by_cases mem : EnvelopeRow.ofEnvelope text envelope ∈ table.rows
  · refine ⟨table, storeOnce_stored mem, fun row => ⟨.inl, ?_⟩⟩
    rintro (inside | rfl)
    · exact inside
    · exact mem
  · have free : ∀ row ∈ table.rows,
        row.conflicts (.ofEnvelope text envelope) = false := by
      intro row inside
      by_contra clash
      rw [Bool.not_eq_false] at clash
      exact mem (stored row inside clash ▸ inside)
    obtain ⟨after, written, rows⟩ := storeOnce_fresh free
    exact ⟨after, written, fun row => by simp [rows]⟩

theorem storeEnvelopes_agree {envelopes : List PmEnvelope}
    (stored : ∀ row ∈ table.rows, ∀ envelope ∈ envelopes,
      row.conflicts (.ofEnvelope text envelope) = true →
        row = .ofEnvelope text envelope)
    (agree : ∀ first ∈ envelopes, ∀ second ∈ envelopes,
      (EnvelopeRow.ofEnvelope text first).conflicts
          (.ofEnvelope text second) = true →
        EnvelopeRow.ofEnvelope text first = .ofEnvelope text second) :
    ∃ after, table.storeEnvelopes text envelopes = .ok after ∧
      ∀ row, row ∈ after.rows ↔
        row ∈ table.rows ∨ row ∈ envelopes.map (.ofEnvelope text) := by
  induction envelopes generalizing table with
  | nil => exact ⟨table, rfl, by simp⟩
  | cons envelope rest ih =>
      obtain ⟨next, written, rows⟩ := storeOnce_agrees fun row inside =>
        stored row inside envelope List.mem_cons_self
      obtain ⟨after, others, afterRows⟩ := @ih next
        (by
          intro row inside other mem clash
          rcases (rows row).mp inside with old | rfl
          · exact stored row old other (List.mem_cons_of_mem _ mem) clash
          · exact agree envelope List.mem_cons_self other
              (List.mem_cons_of_mem _ mem) clash)
        (fun first firstMem second secondMem =>
          agree first (List.mem_cons_of_mem _ firstMem) second
            (List.mem_cons_of_mem _ secondMem))
      refine ⟨after, ?_, fun row => ?_⟩
      · rw [storeEnvelopes, List.foldlM_cons, written]
        exact others
      · rw [afterRows, rows, List.map_cons, List.mem_cons, or_assoc]

end EnvelopeTable

namespace ReplayGapTable

theorem mem_storeReplayGap
    (table : ReplayGapTable) (gap : ReplayGapInterval) (row : ReplayGapRow) :
    row ∈ (table.storeReplayGap gap).rows ↔
      row ∈ table.rows ∨ row = .ofGap gap := by
  unfold storeReplayGap
  split
  · rename_i stored
    constructor
    · exact .inl
    · rintro (inside | rfl)
      · exact inside
      · exact stored
  · simp

theorem mem_storeReplayGaps
    (table : ReplayGapTable) (gaps : List ReplayGapInterval)
    (row : ReplayGapRow) :
    row ∈ (gaps.foldl storeReplayGap table).rows ↔
      row ∈ table.rows ∨ row ∈ gaps.map .ofGap := by
  induction gaps generalizing table with
  | nil => simp
  | cons gap rest ih =>
      rw [List.foldl_cons, ih, mem_storeReplayGap,
        List.map_cons, List.mem_cons, or_assoc]

/-- Gaps that are stored change nothing. -/
theorem storeReplayGaps_stored
    {table : ReplayGapTable} {gaps : List ReplayGapInterval}
    (members : ∀ gap ∈ gaps, .ofGap gap ∈ table.rows) :
    gaps.foldl storeReplayGap table = table := by
  induction gaps with
  | nil => rfl
  | cons gap rest ih =>
      obtain ⟨first, others⟩ := List.forall_mem_cons.mp members
      rw [List.foldl_cons, storeReplayGap, dif_pos first]
      exact ih others

end ReplayGapTable

namespace TapeTables

variable {text : StoreText}

theorem chain_insertGaps (gaps : List ReplayGapInterval) (tables : TapeTables) :
    chain (gaps.map insertGap) tables = .ok
      { tables with
        gaps := gaps.foldl ReplayGapTable.storeReplayGap tables.gaps } := by
  induction gaps generalizing tables with
  | nil => rfl
  | cons gap rest ih =>
      exact ih _

theorem chain_insertAuditFrames
    (frames : List PublicTapeAuditFrame) (tables : TapeTables) :
    chain (frames.map (insertAuditFrame text)) tables = .ok
      { tables with
        auditFrames := (frames.map (.ofFrame text)).foldl
          PublicTapeAuditTable.insert tables.auditFrames } := by
  induction frames generalizing tables with
  | nil => rfl
  | cons frame rest ih =>
      exact ih _

theorem chain_insertEnvelopes
    (envelopes : List PmEnvelope) (tables : TapeTables) :
    chain (envelopes.map (insertEnvelope text)) tables =
      (tables.envelopes.storeEnvelopes text envelopes).map fun stored =>
        { tables with envelopes := stored } := by
  induction envelopes generalizing tables with
  | nil => rfl
  | cons envelope rest ih =>
      rw [List.map_cons, chain, EnvelopeTable.storeEnvelopes,
        List.foldlM_cons, insertEnvelope]
      cases tables.envelopes.storeOnce text envelope with
      | error error => rfl
      | ok stored => exact ih { tables with envelopes := stored }

/-- An import writes all it is given, or nothing. -/
theorem storePublicTapeImport_eq
    (tables : TapeTables) (gaps : List ReplayGapInterval)
    (frames : List PublicTapeAuditFrame) (envelopes : List PmEnvelope) :
    storePublicTapeImport text (.idle tables) gaps frames envelopes =
      Connection.settle tables
        ((tables.envelopes.storeEnvelopes text envelopes).map fun stored =>
          { gaps := gaps.foldl ReplayGapTable.storeReplayGap tables.gaps
            auditFrames := (frames.map (.ofFrame text)).foldl
              PublicTapeAuditTable.insert tables.auditFrames
            envelopes := stored }) := by
  rw [storePublicTapeImport, Connection.transaction_eq, chain_append,
    chain_append, chain_insertGaps]
  simp only [chain_insertAuditFrames, chain_insertEnvelopes]

end TapeTables

end Pmkit
