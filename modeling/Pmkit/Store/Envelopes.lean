import Mathlib.Data.String.Basic
import Pmkit.Event
import Pmkit.Library.Json
import Pmkit.Library.Table
import Pmkit.Store.Causal

/-!
# The envelope table

A Polymarket frame is stored with its normalized projection and the digests of
both.  Two constraints separate the rows: the primary key, and the replay key
of an owner.  A replay page is a query in the order of the replay key, and each
of its rows is checked against its digests.
-/

namespace Pmkit

open MachineInt

/-- A transport frame and its normalized projection. -/
structure PmEnvelope where
  schemaVersion : UInt16
  scope : OwnerScope
  venueId : String
  configHash : String
  sourceId : String
  connectionId : String
  sourceTimestampMs : I64
  canonicalSourceRank : I64
  connectionEpoch : I64
  frameSequence : I64
  receiptTimestampMs : I64
  ingestSequence : I64
  rawFrame : List UInt8
  normalized : JsonValue

/-- `PM_ENVELOPE_VERSION`. -/
def pmEnvelopeVersion : UInt16 := 6

/-- The text functions the store calls: digests, the text of a JSON value, and
the lower case, which is only ever taken of an outcome name by this program. -/
structure StoreText where
  sha256Hex : List UInt8 → String
  writeJson : JsonValue → String
  parseJson : String → Option JsonValue
  toLowercase : String → String
  toLowercase_display : ∀ outcome : Outcome,
    toLowercase outcome.display = outcome.lowercase

/-- The lower case of letters is enough for the outcome names. -/
theorem toLower_display (outcome : Outcome) :
    String.toLower outcome.display = outcome.lowercase := by
  cases outcome <;> decide +kernel

namespace PmEnvelope

/-- `canonical_market_id`. -/
def canonicalMarketId (envelope : PmEnvelope) : String :=
  (((envelope.normalized.get "canonical_market_id").or
    (envelope.normalized.pointer ["payload", "market"])).bind
      JsonValue.asStr).getD ""

/-- `canonical_stream_id`. -/
def canonicalStreamId (text : StoreText) (envelope : PmEnvelope) : String :=
  match (envelope.normalized.get "stream_id").bind JsonValue.asStr with
  | some streamId => streamId
  | none =>
      match (envelope.normalized.get "portfolio").bind JsonValue.asStr with
      | some portfolio => "account:" ++ portfolio
      | none =>
          if envelope.canonicalMarketId = "" then
            "market-source:" ++ envelope.sourceId
          else
            let outcome :=
              (((envelope.normalized.pointer ["payload", "outcome"]).bind
                JsonValue.asStr).map text.toLowercase).getD "unknown"
            "market:" ++ envelope.canonicalMarketId ++ ":" ++ outcome

end PmEnvelope

/-! ## Rows -/

structure ReplayKey where
  sourceTimestampMs : I64
  canonicalSourceRank : I64
  canonicalMarketId : String
  streamId : String
  connectionEpoch : I64
  frameSequence : I64
  deriving DecidableEq

namespace ReplayKey

/-- The `ORDER BY` of `READ_ENVELOPES`, which is also its row comparison. -/
def cmp : ReplayKey → ReplayKey → Ordering :=
  compareLex (compareLex (compareLex (compareOn sourceTimestampMs)
    (compareOn canonicalSourceRank)) (compareOn canonicalMarketId))
    (compareLex (compareLex (compareOn streamId) (compareOn connectionEpoch))
      (compareOn frameSequence))

instance : Std.TransCmp cmp :=
  inferInstanceAs (Std.TransCmp (compareLex _ _))

theorem eq_of_cmp {left right : ReplayKey} (ties : cmp left right = .eq) :
    left = right := by
  simp only [cmp, compareLex, compareOn, Ordering.then_eq_eq] at ties
  obtain ⟨⟨⟨timestamp, rank⟩, market⟩, ⟨stream, epoch⟩, frame⟩ := ties
  cases left
  cases right
  rw [mk.injEq]
  exact ⟨compare_eq_iff_eq.mp timestamp, compare_eq_iff_eq.mp rank,
    compare_eq_iff_eq.mp market, compare_eq_iff_eq.mp stream,
    compare_eq_iff_eq.mp epoch, compare_eq_iff_eq.mp frame⟩

end ReplayKey

/-- A row of `pm_envelopes`. -/
structure EnvelopeRow where
  scope : OwnerScope
  sourceId : String
  connectionId : String
  key : ReplayKey
  ingestSequence : I64
  schemaVersion : I64
  receiptTimestampMs : I64
  venueId : String
  configHash : String
  rawFrame : List UInt8
  rawSha256 : String
  normalizedJson : String
  normalizedSha256 : String
  deriving DecidableEq

/-- The columns of the `PRIMARY KEY`: those of the replay key but the rank,
and the connection. -/
structure EnvelopeKey where
  scope : OwnerScope
  sourceId : String
  connectionId : String
  sourceTimestampMs : I64
  canonicalMarketId : String
  streamId : String
  connectionEpoch : I64
  frameSequence : I64
  deriving DecidableEq

namespace EnvelopeRow

def primaryKey (row : EnvelopeRow) : EnvelopeKey where
  scope := row.scope
  sourceId := row.sourceId
  connectionId := row.connectionId
  sourceTimestampMs := row.key.sourceTimestampMs
  canonicalMarketId := row.key.canonicalMarketId
  streamId := row.key.streamId
  connectionEpoch := row.key.connectionEpoch
  frameSequence := row.key.frameSequence

/-- The columns of the `UNIQUE` constraint. -/
def uniqueKey (row : EnvelopeRow) : OwnerScope × ReplayKey :=
  (row.scope, row.key)

def conflicts (left right : EnvelopeRow) : Bool :=
  left.primaryKey = right.primaryKey ∨ left.uniqueKey = right.uniqueKey

/-- The values `insert_envelope` binds. -/
def ofEnvelope (text : StoreText) (envelope : PmEnvelope) : EnvelopeRow :=
  let normalizedJson := text.writeJson envelope.normalized
  { scope := envelope.scope
    sourceId := envelope.sourceId
    connectionId := envelope.connectionId
    key :=
      { sourceTimestampMs := envelope.sourceTimestampMs
        canonicalSourceRank := envelope.canonicalSourceRank
        canonicalMarketId := envelope.canonicalMarketId
        streamId := envelope.canonicalStreamId text
        connectionEpoch := envelope.connectionEpoch
        frameSequence := envelope.frameSequence }
    ingestSequence := envelope.ingestSequence
    schemaVersion := I64.clamp envelope.schemaVersion.toNat
    receiptTimestampMs := envelope.receiptTimestampMs
    venueId := envelope.venueId
    configHash := envelope.configHash
    rawFrame := envelope.rawFrame
    rawSha256 := text.sha256Hex envelope.rawFrame
    normalizedJson := normalizedJson
    normalizedSha256 := text.sha256Hex normalizedJson.toUTF8.toList }

end EnvelopeRow

inductive TapeStoreError where
  | storage (message : String)
  | duplicateSourceIdentity
  | scopeMismatch
  | limitTooLarge
  deriving DecidableEq

/-- The table, whose rows satisfy both constraints. -/
structure EnvelopeTable where
  rows : List EnvelopeRow
  separated : rows.Pairwise fun left right => left.conflicts right = false

namespace EnvelopeTable

def empty : EnvelopeTable where
  rows := []
  separated := List.Pairwise.nil

/-- `INSERT_ENVELOPE`: a row that conflicts is not written. -/
def insert (table : EnvelopeTable) (row : EnvelopeRow) :
    Option EnvelopeTable :=
  if free : ∀ stored ∈ table.rows, stored.conflicts row = false then
    some
      { rows := table.rows ++ [row]
        separated := List.pairwise_append.mpr
          ⟨table.separated, List.pairwise_singleton _ _, by
            simpa using free⟩ }
  else
    none

/-- `store_envelope`. -/
def storeEnvelope (text : StoreText) (table : EnvelopeTable)
    (envelope : PmEnvelope) : Except TapeStoreError EnvelopeTable :=
  match table.insert (.ofEnvelope text envelope) with
  | some stored => .ok stored
  | none => .error .duplicateSourceIdentity

/-- `READ_ENVELOPE_INTEGRITY`: the digests of the row with a primary key. -/
def readEnvelopeIntegrity (table : EnvelopeTable) (key : EnvelopeKey) :
    Option (String × String) :=
  (table.rows.find? fun stored => stored.primaryKey = key).map fun stored =>
    (stored.rawSha256, stored.normalizedSha256)

/-- `store_envelope_idempotent`: an envelope is stored once, and its copies
are recognised by their digests. -/
def storeEnvelopeIdempotent (text : StoreText) (table : EnvelopeTable)
    (envelope : PmEnvelope) : Except TapeStoreError Bool × EnvelopeTable :=
  let row := EnvelopeRow.ofEnvelope text envelope
  match table.insert row with
  | some stored => (.ok true, stored)
  | none =>
      match table.readEnvelopeIntegrity row.primaryKey with
      | none => (.error .duplicateSourceIdentity, table)
      | some digests =>
          if digests = (row.rawSha256, row.normalizedSha256) then
            (.ok false, table)
          else
            (.error .duplicateSourceIdentity, table)

end EnvelopeTable

/-- The position of the last row of a page. -/
structure ReplayCursor where
  scope : OwnerScope
  key : ReplayKey
  deriving DecidableEq

/-- Why a stored row cannot be replayed. -/
inductive ReplayGapReason where
  | unsupportedSchemaVersion
  | rawIntegrityMismatch
  | normalizedIntegrityMismatch
  deriving DecidableEq

/-- `Debug` of the reason of a gap. -/
def ReplayGapReason.debug : ReplayGapReason → String
  | .unsupportedSchemaVersion => "UnsupportedSchemaVersion"
  | .rawIntegrityMismatch => "RawIntegrityMismatch"
  | .normalizedIntegrityMismatch => "NormalizedIntegrityMismatch"

structure ReplayGap where
  scope : OwnerScope
  sourceTimestampMs : I64
  ingestSequence : I64
  reason : ReplayGapReason
  deriving DecidableEq

inductive ReplayItem where
  | envelope (envelope : PmEnvelope)
  | gap (gap : ReplayGap)

structure ReplayPage where
  items : List ReplayItem
  nextCursor : Option ReplayCursor

/-- `decode_row`.  The columns have the types they were written with. -/
def decodeRow (text : StoreText) (row : EnvelopeRow) : ReplayItem :=
  let gap := fun reason => ReplayItem.gap
    { scope := row.scope
      sourceTimestampMs := row.key.sourceTimestampMs
      ingestSequence := row.ingestSequence
      reason := reason }
  if row.schemaVersion ≠ I64.clamp pmEnvelopeVersion.toNat then
    gap .unsupportedSchemaVersion
  else if text.sha256Hex row.rawFrame ≠ row.rawSha256 then
    gap .rawIntegrityMismatch
  else if text.sha256Hex row.normalizedJson.toUTF8.toList ≠
      row.normalizedSha256 then
    gap .normalizedIntegrityMismatch
  else
    match text.parseJson row.normalizedJson with
    | none => gap .normalizedIntegrityMismatch
    | some normalized =>
        if normalized.isObject then
          .envelope
            { schemaVersion := pmEnvelopeVersion
              scope := row.scope
              venueId := row.venueId
              configHash := row.configHash
              sourceId := row.sourceId
              connectionId := row.connectionId
              sourceTimestampMs := row.key.sourceTimestampMs
              canonicalSourceRank := row.key.canonicalSourceRank
              connectionEpoch := row.key.connectionEpoch
              frameSequence := row.key.frameSequence
              receiptTimestampMs := row.receiptTimestampMs
              ingestSequence := row.ingestSequence
              rawFrame := row.rawFrame
              normalized := normalized }
        else
          gap .normalizedIntegrityMismatch

namespace EnvelopeTable

/-- `READ_ENVELOPES`: the rows of a scope after a cursor, in replay order. -/
def readRows (table : EnvelopeTable) (scope : OwnerScope)
    (after : Option ReplayKey) (limit : ℕ+) : List EnvelopeRow :=
  (Table.orderBy (fun left right => ReplayKey.cmp left.key right.key)
    (table.rows.filter fun row => row.scope = scope ∧
      after.all fun key => (ReplayKey.cmp key row.key).isLT)).take limit

/-- `read_envelopes`. -/
def readEnvelopes (text : StoreText) (table : EnvelopeTable)
    (scope : OwnerScope) (after : Option ReplayCursor) (limit : ℕ+) :
    Except TapeStoreError ReplayPage :=
  if after.any fun cursor => cursor.scope ≠ scope then
    .error .scopeMismatch
  else if I64.maxValue.1 < (limit : ℕ) then
    .error .limitTooLarge
  else
    let rows := table.readRows scope (after.map ReplayCursor.key) limit
    .ok
      { items := rows.map (decodeRow text)
        nextCursor := rows.getLast?.map fun row =>
          { scope := scope, key := row.key } }

end EnvelopeTable

/-! ## Order and identity of the rows of a page -/

instance : Std.TransCmp fun left right : EnvelopeRow =>
    ReplayKey.cmp left.key right.key where
  eq_swap := Std.OrientedCmp.eq_swap
  isLE_trans := Std.TransCmp.isLE_trans

namespace EnvelopeTable

variable {table stored : EnvelopeTable}

variable {row : EnvelopeRow}

theorem insert_eq_some (written : table.insert row = some stored) :
    stored.rows = table.rows ++ [row] := by
  unfold insert at written
  split at written
  · cases written
    rfl
  · cases written

theorem storeEnvelope_eq_ok {text : StoreText} {envelope : PmEnvelope}
    (written : storeEnvelope text table envelope = .ok stored) :
    stored.rows = table.rows ++ [.ofEnvelope text envelope] := by
  unfold storeEnvelope at written
  split at written
  · cases written
    exact insert_eq_some ‹_›
  · cases written

theorem find?_primaryKey (mem : row ∈ table.rows) :
    (table.rows.find? fun stored => stored.primaryKey = row.primaryKey) =
      some row := by
  have apart := table.separated
  revert mem apart
  induction table.rows with
  | nil =>
      intro mem
      cases mem
  | cons first rest ih =>
      intro mem apart
      rw [List.pairwise_cons] at apart
      rcases List.mem_cons.mp mem with rfl | later
      · exact List.find?_cons_of_pos (decide_eq_true rfl)
      · have ne : first.primaryKey ≠ row.primaryKey := by
          intro same
          have clash := apart.1 row later
          simp [EnvelopeRow.conflicts, same] at clash
        rw [List.find?_cons_of_neg (by simpa using ne)]
        exact ih later apart.2

theorem storeEnvelopeIdempotent_copy {text : StoreText} {envelope : PmEnvelope}
    (mem : row ∈ table.rows)
    (key : row.primaryKey = (EnvelopeRow.ofEnvelope text envelope).primaryKey)
    (raw : row.rawSha256 = text.sha256Hex envelope.rawFrame)
    (normalized : row.normalizedSha256 =
      (EnvelopeRow.ofEnvelope text envelope).normalizedSha256) :
    table.storeEnvelopeIdempotent text envelope = (.ok false, table) := by
  have refused : table.insert (.ofEnvelope text envelope) = none := by
    apply dif_neg
    intro free
    have clash := free row mem
    simp [EnvelopeRow.conflicts, key] at clash
  have found : table.readEnvelopeIntegrity
      (EnvelopeRow.ofEnvelope text envelope).primaryKey =
        some (row.rawSha256, row.normalizedSha256) := by
    rw [readEnvelopeIntegrity, ← key, find?_primaryKey mem]
    rfl
  have digests : (row.rawSha256, row.normalizedSha256) =
      ((EnvelopeRow.ofEnvelope text envelope).rawSha256,
        (EnvelopeRow.ofEnvelope text envelope).normalizedSha256) := by
    rw [raw, normalized]
    rfl
  rw [storeEnvelopeIdempotent, refused, found]
  exact if_pos digests

theorem readRows_pairwise
    (scope : OwnerScope) (after : Option ReplayKey) (limit : ℕ+) :
    (table.readRows scope after limit).Pairwise fun left right =>
      (ReplayKey.cmp left.key right.key).isLE :=
  List.Pairwise.sublist (List.take_sublist _ _) (Table.orderBy_pairwise _)

theorem mem_readRows (mem : row ∈ table.rows) {limit : ℕ+}
    (fits : table.rows.length ≤ limit) :
    row ∈ table.readRows row.scope none limit := by
  have all : (Table.orderBy (fun left right : EnvelopeRow =>
      ReplayKey.cmp left.key right.key) (table.rows.filter fun stored =>
        stored.scope = row.scope ∧ Option.all (fun key : ReplayKey =>
          (ReplayKey.cmp key stored.key).isLT) none)).length ≤ limit := by
    rw [(Table.orderBy_perm _ _).length_eq]
    exact (List.length_filter_le _ _).trans fits
  rw [readRows, List.take_of_length_le all, Table.mem_orderBy, List.mem_filter]
  simpa using mem

theorem cmp_ne_eq
    {first second : EnvelopeRow} (inside : [first, second].Sublist table.rows)
    (scope : first.scope = second.scope) :
    ReplayKey.cmp first.key second.key ≠ .eq := by
  intro ties
  have pair := List.Pairwise.sublist inside table.separated
  have apart : first.conflicts second = false := by
    simpa using pair
  have same := ReplayKey.eq_of_cmp ties
  simp [EnvelopeRow.conflicts, EnvelopeRow.uniqueKey, scope, same] at apart

/-- Where two stored rows of a scope stand on a page. -/
theorem pair_sublist_readRows_iff
    {first second : EnvelopeRow} (inside : [first, second].Sublist table.rows)
    {scope : OwnerScope} {after : Option ReplayKey} {limit : ℕ+}
    (same : first.scope = second.scope)
    (firstRead : first ∈ table.readRows scope after limit)
    (secondRead : second ∈ table.readRows scope after limit) :
    [first, second].Sublist (table.readRows scope after limit) ↔
      ReplayKey.cmp first.key second.key = .lt :=
  Table.pair_sublist_iff (readRows_pairwise scope after limit) firstRead
    secondRead (cmp_ne_eq inside same)

theorem decodeRow_ofEnvelope {text : StoreText} {envelope : PmEnvelope}
    (current : envelope.schemaVersion = pmEnvelopeVersion)
    (readBack : text.parseJson (text.writeJson envelope.normalized) =
      some envelope.normalized)
    (object : envelope.normalized.isObject = true) :
    decodeRow text (.ofEnvelope text envelope) = .envelope envelope := by
  unfold decodeRow
  rw [if_neg (by simp [EnvelopeRow.ofEnvelope, current]),
    if_neg (by simp [EnvelopeRow.ofEnvelope]),
    if_neg (by simp [EnvelopeRow.ofEnvelope])]
  simp only [EnvelopeRow.ofEnvelope, readBack, object, if_true]
  rw [← current]

end EnvelopeTable

end Pmkit
