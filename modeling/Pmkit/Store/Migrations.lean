import Pmkit.Library.JsonText
import Pmkit.Library.Transaction
import Pmkit.Store.Envelopes

/-!
# Schema migrations

The envelope table has had three shapes.  Migrations `6` and `7` rebuild it
under a new name with the columns of the next shape, and compute the new
columns from the normalized JSON of each row.  Each migration is a transaction
that also records its version.
-/

namespace Pmkit

open MachineInt Transaction

/-- A row before migration `6`. -/
structure EnvelopeRowV2 where
  scope : OwnerScope
  sourceId : String
  connectionId : String
  sourceTimestampMs : I64
  canonicalSourceRank : I64
  connectionEpoch : I64
  frameSequence : I64
  ingestSequence : I64
  schemaVersion : I64
  receiptTimestampMs : I64
  venueId : String
  configHash : String
  rawFrame : List UInt8
  rawSha256 : String
  normalizedJson : String
  normalizedSha256 : String

/-- A row between migrations `6` and `7`. -/
structure EnvelopeRowV3 extends EnvelopeRowV2 where
  canonicalMarketId : String

/-- Two rows of the second shape that cannot both be stored: they agree in the
`PRIMARY KEY` or in the `UNIQUE` columns. -/
def EnvelopeRowV3.conflicts (left right : EnvelopeRowV3) : Bool :=
  left.scope = right.scope ∧
    left.sourceTimestampMs = right.sourceTimestampMs ∧
    left.canonicalMarketId = right.canonicalMarketId ∧
    left.connectionEpoch = right.connectionEpoch ∧
    left.frameSequence = right.frameSequence ∧
    (left.sourceId = right.sourceId ∧ left.connectionId = right.connectionId ∨
      left.canonicalSourceRank = right.canonicalSourceRank)

namespace EnvelopeRow

def columnsV2 (row : EnvelopeRow) : EnvelopeRowV2 where
  scope := row.scope
  sourceId := row.sourceId
  connectionId := row.connectionId
  sourceTimestampMs := row.key.sourceTimestampMs
  canonicalSourceRank := row.key.canonicalSourceRank
  connectionEpoch := row.key.connectionEpoch
  frameSequence := row.key.frameSequence
  ingestSequence := row.ingestSequence
  schemaVersion := row.schemaVersion
  receiptTimestampMs := row.receiptTimestampMs
  venueId := row.venueId
  configHash := row.configHash
  rawFrame := row.rawFrame
  rawSha256 := row.rawSha256
  normalizedJson := row.normalizedJson
  normalizedSha256 := row.normalizedSha256

def columnsV3 (row : EnvelopeRow) : EnvelopeRowV3 :=
  { row.columnsV2 with canonicalMarketId := row.key.canonicalMarketId }

end EnvelopeRow

/-- `pm_envelopes`, in one of its shapes.  The first one is older than the
program, and its constraints are not known. -/
inductive EnvelopesTable where
  | v2 (rows : List EnvelopeRowV2)
  | v3 (table : Table.Separated EnvelopeRowV3.conflicts)
  | current (table : Table.Separated EnvelopeRow.conflicts)

namespace EnvelopesTable

def columnsV2 : EnvelopesTable → List EnvelopeRowV2
  | .v2 rows => rows
  | .v3 table => table.rows.map EnvelopeRowV3.toEnvelopeRowV2
  | .current table => table.rows.map EnvelopeRow.columnsV2

def columnsV3 : EnvelopesTable → Option (List EnvelopeRowV3)
  | .v2 _ => none
  | .v3 table => some table.rows
  | .current table => some (table.rows.map EnvelopeRow.columnsV3)

end EnvelopesTable

/-- What the migrations of envelopes read and write. -/
structure Database where
  /-- `MAX(version)` of `schema_migrations`. -/
  version : Nat
  pmEnvelopes : Option EnvelopesTable
  /-- `pm_envelopes_v2` or `pm_envelopes_v3`, while the table is rebuilt. -/
  renamed : Option EnvelopesTable

inductive MigrationError where
  | storage (message : String)
  | databaseSchemaTooNew (databaseVersion maxSupportedVersion : Nat)
  deriving DecidableEq

abbrev SchemaStatement := Statement Database MigrationError

/-- The text functions of the database: what a number, an array or an object
leaves in a text column is never empty. -/
structure SqlText extends StoreText where
  columnText : JsonValue → String
  columnText_ne : ∀ value, columnText value ≠ ""

/-- What a text column keeps of `json_extract`, unless it is null. -/
def jsonExtract (text : SqlText) : JsonValue → Option String
  | .null => none
  | .string value => some value
  | .bool value => some (if value then "1" else "0")
  | other => some (text.columnText other)

/-- `COALESCE(json_extract(normalized_json, '$.payload.market'), '')`. -/
def payloadMarket (text : SqlText) (normalized : JsonValue) : String :=
  ((normalized.pointer ["payload", "market"]).bind (jsonExtract text)).getD ""

/-- The `CASE` of migration `7`, with `lower` folding ASCII letters. -/
def streamIdV4 (normalized : JsonValue) (canonicalMarketId sourceId : String) :
    String :=
  match (normalized.get "stream_id").bind JsonValue.asStr with
  | some streamId => streamId
  | none =>
      match (normalized.get "portfolio").bind JsonValue.asStr with
      | some portfolio => "account:" ++ portfolio
      | none =>
          if canonicalMarketId ≠ "" then
            match (normalized.pointer ["payload", "outcome"]).bind
              JsonValue.asStr with
            | some outcome =>
                "market:" ++ canonicalMarketId ++ ":" ++ outcome.toLower
            | none => "market:" ++ canonicalMarketId ++ ":unknown"
          else
            "market-source:" ++ sourceId

def advanceVersion (earlier later version : I64) : I64 :=
  if version = earlier then later else version

/-- The `SELECT` of migration `6`. -/
def selectV3 (text : SqlText) (row : EnvelopeRowV2) :
    Except MigrationError EnvelopeRowV3 :=
  match text.parseJson row.normalizedJson with
  | none => .error (.storage "malformed JSON")
  | some normalized =>
      .ok
        { row with
          schemaVersion := advanceVersion 2 3 row.schemaVersion
          canonicalMarketId := payloadMarket text normalized }

/-- The row of the last shape with these columns and a stream. -/
def EnvelopeRowV3.withStream (row : EnvelopeRowV3) (streamId : String) :
    EnvelopeRow where
  scope := row.scope
  sourceId := row.sourceId
  connectionId := row.connectionId
  key :=
    { sourceTimestampMs := row.sourceTimestampMs
      canonicalSourceRank := row.canonicalSourceRank
      canonicalMarketId := row.canonicalMarketId
      streamId := streamId
      connectionEpoch := row.connectionEpoch
      frameSequence := row.frameSequence }
  ingestSequence := row.ingestSequence
  schemaVersion := row.schemaVersion
  receiptTimestampMs := row.receiptTimestampMs
  venueId := row.venueId
  configHash := row.configHash
  rawFrame := row.rawFrame
  rawSha256 := row.rawSha256
  normalizedJson := row.normalizedJson
  normalizedSha256 := row.normalizedSha256

/-- The `SELECT` of migration `7`. -/
def selectV4 (text : SqlText) (row : EnvelopeRowV3) :
    Except MigrationError EnvelopeRow :=
  match text.parseJson row.normalizedJson with
  | none => .error (.storage "malformed JSON")
  | some normalized =>
      .ok
        { row.withStream
            (streamIdV4 normalized row.canonicalMarketId row.sourceId) with
          schemaVersion := advanceVersion 3 4 row.schemaVersion }

/-! ## Statements -/

/-- `CREATE TABLE IF NOT EXISTS pm_envelopes`, in the last shape. -/
def createEnvelopes : SchemaStatement := fun database =>
  match database.pmEnvelopes with
  | some _ => .ok database
  | none => .ok { database with pmEnvelopes := some (.current .empty) }

/-- `UPDATE pm_envelopes SET schema_version = .. WHERE schema_version = ..`. -/
def EnvelopesTable.advance (earlier later : I64) :
    EnvelopesTable → EnvelopesTable
  | .v2 rows => .v2 <| rows.map fun row => { row with
      schemaVersion := advanceVersion earlier later row.schemaVersion }
  | .v3 table => .v3
      { rows := table.rows.map fun row => { row with
          schemaVersion := advanceVersion earlier later row.schemaVersion }
        separated := List.pairwise_map.mpr table.separated }
  | .current table => .current
      { rows := table.rows.map fun row => { row with
          schemaVersion := advanceVersion earlier later row.schemaVersion }
        separated := List.pairwise_map.mpr table.separated }

def advanceVersions (earlier later : I64) : SchemaStatement := fun database =>
  match database.pmEnvelopes with
  | none => .error (.storage "no such table: pm_envelopes")
  | some envelopes =>
      .ok { database with
        pmEnvelopes := some (envelopes.advance earlier later) }

/-- `ALTER TABLE pm_envelopes RENAME TO ..`. -/
def renameEnvelopes : SchemaStatement := fun database =>
  match database.pmEnvelopes, database.renamed with
  | some envelopes, none =>
      .ok { database with pmEnvelopes := none, renamed := some envelopes }
  | _, _ => .error (.storage "cannot rename pm_envelopes")

/-- `CREATE TABLE pm_envelopes`. -/
def createTable (empty : EnvelopesTable) : SchemaStatement := fun database =>
  match database.pmEnvelopes with
  | none => .ok { database with pmEnvelopes := some empty }
  | some _ => .error (.storage "table pm_envelopes already exists")

def constraintFailed : MigrationError :=
  .storage "UNIQUE constraint failed"

/-- `INSERT INTO pm_envelopes SELECT .. FROM pm_envelopes_v2`. -/
def insertV3 (text : SqlText) : SchemaStatement := fun database =>
  match database.pmEnvelopes, database.renamed with
  | some (.v3 table), some source =>
      match source.columnsV2.mapM (selectV3 text) with
      | .error error => .error error
      | .ok rows =>
          match table.insertAll rows with
          | none => .error constraintFailed
          | some stored =>
              .ok { database with pmEnvelopes := some (.v3 stored) }
  | _, _ => .error (.storage "no such table")

/-- `INSERT INTO pm_envelopes SELECT .. FROM pm_envelopes_v3`. -/
def insertV4 (text : SqlText) : SchemaStatement := fun database =>
  let source := database.renamed.bind EnvelopesTable.columnsV3
  match database.pmEnvelopes, source with
  | some (.current table), some source =>
      match source.mapM (selectV4 text) with
      | .error error => .error error
      | .ok rows =>
          match table.insertAll rows with
          | none => .error constraintFailed
          | some stored =>
              .ok { database with pmEnvelopes := some (.current stored) }
  | _, _ => .error (.storage "no such table")

/-- `DROP TABLE` of the renamed table. -/
def dropRenamed : SchemaStatement := fun database =>
  match database.renamed with
  | some _ => .ok { database with renamed := none }
  | none => .error (.storage "no such table")

/-- `MIGRATE_PM_ENVELOPES_V2_TO_V3`. -/
def migratePmEnvelopesV2ToV3 (text : SqlText) : List SchemaStatement :=
  [renameEnvelopes, createTable (.v3 .empty), insertV3 text, dropRenamed]

/-- `MIGRATE_PM_ENVELOPES_V3_TO_V4`. -/
def migratePmEnvelopesV3ToV4 (text : SqlText) : List SchemaStatement :=
  [renameEnvelopes, createTable (.current .empty), insertV4 text, dropRenamed]

structure Migration where
  version : Nat
  statements : List SchemaStatement

/-- `MIGRATIONS`, with the statements about envelopes. -/
def migrations (text : SqlText) : List Migration :=
  [⟨1, [createEnvelopes]⟩,
    -- Versioned causal records, chain checkpoints.
    ⟨2, []⟩, ⟨3, []⟩, ⟨4, [advanceVersions 1 2]⟩,
    -- Causal decisions.
    ⟨5, []⟩, ⟨6, migratePmEnvelopesV2ToV3 text⟩,
    ⟨7, migratePmEnvelopesV3ToV4 text⟩, ⟨8, [advanceVersions 4 5]⟩,
    ⟨9, [advanceVersions 5 6]⟩,
    -- Public tape evidence, cloud materializations, replay gaps.
    ⟨10, []⟩, ⟨11, []⟩, ⟨12, []⟩]

/-- `RECORD_SCHEMA_MIGRATION`. -/
def recordMigration (version : Nat) : SchemaStatement := fun database =>
  .ok { database with version := max database.version version }

/-- `apply_one`. -/
def applyOne (connection : Connection Database) (migration : Migration) :
    Except MigrationError Unit × Connection Database :=
  connection.transaction
    (migration.statements ++ [recordMigration migration.version])

/-- The loop of `apply`: the first migration that fails ends it. -/
def applyEach (connection : Connection Database) :
    List Migration → Except MigrationError Unit × Connection Database
  | [] => (.ok (), connection)
  | migration :: rest =>
      match applyOne connection migration with
      | (.error error, rolledBack) => (.error error, rolledBack)
      | (.ok (), committed) => applyEach committed rest

/-- `apply`. -/
def applyMigrations (migrations : List Migration) (database : Database) :
    Except MigrationError Unit × Connection Database :=
  let maxSupportedVersion := (migrations.getLast?.map Migration.version).getD 0
  if maxSupportedVersion < database.version then
    (.error (.databaseSchemaTooNew database.version maxSupportedVersion),
      .idle database)
  else
    applyEach (.idle database)
      (migrations.filter fun migration =>
        database.version < migration.version)

theorem applyOne_eq (database : Database) (migration : Migration) :
    applyOne (.idle database) migration =
      Connection.settle database
        (chain (migration.statements ++ [recordMigration migration.version])
          database) :=
  Connection.transaction_eq _ database

theorem applyEach_cons_of_ok {database next : Database} {migration : Migration}
    (executed : chain migration.statements database = .ok next)
    (rest : List Migration) :
    applyEach (.idle database) (migration :: rest) =
      applyEach
        (.idle { next with version := max next.version migration.version })
        rest := by
  have one : applyOne (.idle database) migration =
      (.ok (),
        .idle { next with version := max next.version migration.version }) := by
    rw [applyOne_eq, chain_append, executed]
    rfl
  rw [applyEach, one]

theorem applyEach_cons_of_error
    {database : Database} {migration : Migration} {error : MigrationError}
    (failed : chain migration.statements database = .error error)
    (rest : List Migration) :
    applyEach (.idle database) (migration :: rest) =
      (.error error, .idle database) := by
  have one : applyOne (.idle database) migration =
      (.error error, .idle database) := by
    rw [applyOne_eq, chain_append, failed]
    rfl
  rw [applyEach, one]

theorem applyEach_append_of_keeps {P : Database → Prop} {first : List Migration}
    (keeps : ∀ migration ∈ first, ∀ database, P database →
      ∃ next, chain migration.statements database = .ok next ∧
        P { next with version := max next.version migration.version })
    (rest : List Migration) {database : Database} (holds : P database) :
    ∃ next, P next ∧ applyEach (.idle database) (first ++ rest) =
      applyEach (.idle next) rest := by
  induction first generalizing database with
  | nil =>
      exact ⟨database, holds, rfl⟩
  | cons migration others ih =>
      obtain ⟨next, executed, kept⟩ :=
        keeps migration List.mem_cons_self database holds
      obtain ⟨last, reached, remaining⟩ := ih
        (fun other mem => keeps other (List.mem_cons_of_mem _ mem)) kept
      refine ⟨last, reached, ?_⟩
      rw [List.cons_append, applyEach_cons_of_ok executed, remaining]

def EnvelopeRowV2.normalized (text : SqlText) (row : EnvelopeRowV2) :
    JsonValue :=
  (text.parseJson row.normalizedJson).getD .null

/-- The row of migration `6`. -/
def EnvelopeRowV2.toV3 (text : SqlText) (row : EnvelopeRowV2) :
    EnvelopeRowV3 :=
  { row with
    schemaVersion := advanceVersion 2 3 row.schemaVersion
    canonicalMarketId := payloadMarket text (row.normalized text) }

/-- The row of migration `7`. -/
def EnvelopeRowV3.toV4 (text : SqlText) (row : EnvelopeRowV3) : EnvelopeRow :=
  { row.withStream (streamIdV4 (row.normalized text) row.canonicalMarketId
      row.sourceId) with
    schemaVersion := advanceVersion 3 4 row.schemaVersion }

section

variable {text : SqlText} {rows : List EnvelopeRowV2}

theorem selectV3_eq {row : EnvelopeRowV2}
    (parses : (text.parseJson row.normalizedJson).isSome = true) :
    selectV3 text row = .ok (row.toV3 text) := by
  obtain ⟨normalized, parsed⟩ := Option.isSome_iff_exists.mp parses
  rw [selectV3, EnvelopeRowV2.toV3, EnvelopeRowV2.normalized, parsed]
  rfl

theorem selectV4_eq {row : EnvelopeRowV3}
    (parses : (text.parseJson row.normalizedJson).isSome = true) :
    selectV4 text row = .ok (row.toV4 text) := by
  obtain ⟨normalized, parsed⟩ := Option.isSome_iff_exists.mp parses
  rw [selectV4, EnvelopeRowV3.toV4, EnvelopeRowV2.normalized, parsed]
  rfl

/-- A database at rest whose table holds these rows, in any shape. -/
structure Database.Holds (rows : List EnvelopeRowV2) (database : Database) :
    Prop where
  envelopes : ∃ stored, database.pmEnvelopes = some stored ∧
    stored.columnsV2 = rows
  renamed : database.renamed = none

theorem chain_migrateV2ToV3 {database : Database} (holds : database.Holds rows)
    (parses : ∀ row ∈ rows, (text.parseJson row.normalizedJson).isSome = true) :
    chain (migratePmEnvelopesV2ToV3 text) database =
      ((Table.Separated.empty.insertAll
          (rows.map (EnvelopeRowV2.toV3 text))).elim
        (.error constraintFailed) fun table =>
          .ok { database with pmEnvelopes := some (.v3 table) }) := by
  obtain ⟨version, pmEnvelopes, renamed⟩ := database
  obtain ⟨⟨stored, rfl, rfl⟩, rfl⟩ := holds
  have selected : stored.columnsV2.mapM (selectV3 text) =
      .ok (stored.columnsV2.map (EnvelopeRowV2.toV3 text)) :=
    Fallible.mapM_eq_ok fun row mem => selectV3_eq (parses row mem)
  simp only [migratePmEnvelopesV2ToV3, chain, renameEnvelopes, createTable,
    insertV3, selected]
  cases Table.Separated.empty.insertAll
    (stored.columnsV2.map (EnvelopeRowV2.toV3 text)) with
  | none => rfl
  | some table => rfl

/-- Migration `7` does so too. -/
theorem chain_migrateV3ToV4
    {version : Nat} {table : Table.Separated EnvelopeRowV3.conflicts}
    (parses : ∀ row ∈ table.rows,
      (text.parseJson row.normalizedJson).isSome = true) :
    chain (migratePmEnvelopesV3ToV4 text) ⟨version, some (.v3 table), none⟩ =
      ((Table.Separated.empty.insertAll
          (table.rows.map (EnvelopeRowV3.toV4 text))).elim
        (.error constraintFailed) fun stored =>
          .ok ⟨version, some (.current stored), none⟩) := by
  have selected : table.rows.mapM (selectV4 text) =
      .ok (table.rows.map (EnvelopeRowV3.toV4 text)) :=
    Fallible.mapM_eq_ok fun row mem => selectV4_eq (parses row mem)
  simp only [migratePmEnvelopesV3ToV4, chain, renameEnvelopes, createTable,
    insertV4, EnvelopesTable.columnsV3, Option.bind_some, selected]
  cases Table.Separated.empty.insertAll
    (table.rows.map (EnvelopeRowV3.toV4 text)) with
  | none => rfl
  | some stored => rfl

theorem EnvelopeRowV3.conflicts_toV4
    {left right : EnvelopeRowV3} (apart : left.conflicts right = false) :
    (left.toV4 text).conflicts (right.toV4 text) = false := by
  rw [Bool.eq_false_iff] at apart ⊢
  intro clash
  apply apart
  simp only [EnvelopeRow.conflicts, EnvelopeRow.primaryKey,
    EnvelopeRow.uniqueKey, toV4, withStream, EnvelopeKey.mk.injEq,
    Prod.mk.injEq, ReplayKey.mk.injEq, decide_eq_true_eq] at clash
  simp only [conflicts, decide_eq_true_eq]
  tauto

/-! ## From the first shape to the last -/

/-- The row that the migrations leave of a row of version `2`. -/
def EnvelopeRowV2.migrated (text : SqlText) (row : EnvelopeRowV2) :
    EnvelopeRow :=
  { (row.toV3 text).toV4 text with
    schemaVersion := advanceVersion 5 6 (advanceVersion 4 5
      ((row.toV3 text).toV4 text).schemaVersion) }

/-- Two rows of one owner with the same timestamp, payload market, epoch and
frame that come over one connection, or have one rank. -/
def EnvelopeRowV2.SharesKey (text : SqlText) (left right : EnvelopeRowV2) :
    Prop :=
  left.scope = right.scope ∧
    left.sourceTimestampMs = right.sourceTimestampMs ∧
    payloadMarket text (left.normalized text) =
      payloadMarket text (right.normalized text) ∧
    left.connectionEpoch = right.connectionEpoch ∧
    left.frameSequence = right.frameSequence ∧
    (left.sourceId = right.sourceId ∧ left.connectionId = right.connectionId ∨
      left.canonicalSourceRank = right.canonicalSourceRank)

def KeysApart (text : SqlText) (rows : List EnvelopeRowV2) : Prop :=
  rows.Pairwise fun left right => ¬ left.SharesKey text right

theorem keysApart_iff :
    KeysApart text rows ↔
      (rows.map (EnvelopeRowV2.toV3 text)).Pairwise fun left right =>
        left.conflicts right = false := by
  rw [List.pairwise_map]
  apply List.Pairwise.iff
  intro left right
  exact decide_eq_false_iff_not.symm

def Database.envelopeTable (database : Database) : Option EnvelopeTable :=
  match database.pmEnvelopes with
  | some (.current table) => some ⟨table.rows, table.separated⟩
  | _ => none

theorem advance_columnsV2 (envelopes : EnvelopesTable)
    (versions : ∀ row ∈ envelopes.columnsV2, row.schemaVersion = 2) :
    (envelopes.advance 1 2).columnsV2 = envelopes.columnsV2 := by
  have keeps : ∀ row : EnvelopeRowV2, row.schemaVersion = 2 → { row with
      schemaVersion := advanceVersion 1 2 row.schemaVersion } = row := by
    rintro row version
    rw [version, advanceVersion, if_neg (by decide), ← version]
  cases envelopes with
  | v2 rows =>
      have same : rows.map (fun row => { row with
          schemaVersion := advanceVersion 1 2 row.schemaVersion }) =
            rows.map id :=
        List.map_congr_left fun row mem => keeps row (versions row mem)
      exact same.trans (List.map_id rows)
  | v3 table =>
      simp only [EnvelopesTable.advance, EnvelopesTable.columnsV2,
        List.map_map] at versions ⊢
      apply List.map_congr_left
      intro row mem
      exact keeps _ (versions _ (List.mem_map_of_mem mem))
  | current table =>
      simp only [EnvelopesTable.advance, EnvelopesTable.columnsV2,
        List.map_map] at versions ⊢
      apply List.map_congr_left
      intro row mem
      exact keeps _ (versions _ (List.mem_map_of_mem mem))

theorem early_keeps
    (versions : ∀ row ∈ rows, row.schemaVersion = 2) {migration : Migration}
    (mem : migration ∈ (migrations text).take 5) {database : Database}
    (holds : database.Holds rows) :
    ∃ next, chain migration.statements database = .ok next ∧
      Database.Holds rows
        { next with version := max next.version migration.version } := by
  obtain ⟨⟨stored, isStored, columns⟩, renamed⟩ := holds
  have unchanged : Database.Holds rows
      { database with version := max database.version migration.version } :=
    ⟨⟨stored, isStored, columns⟩, renamed⟩
  simp only [migrations, List.take, List.mem_cons, List.not_mem_nil,
    or_false] at mem
  rcases mem with rfl | rfl | rfl | rfl | rfl
  · refine ⟨database, ?_, unchanged⟩
    rw [chain, createEnvelopes, isStored]
    rfl
  · exact ⟨database, rfl, unchanged⟩
  · exact ⟨database, rfl, unchanged⟩
  · refine ⟨{ database with pmEnvelopes := some (stored.advance 1 2) }, ?_,
      ⟨stored.advance 1 2, rfl, ?_⟩, renamed⟩
    · rw [chain, advanceVersions, isStored]
      rfl
    · rw [advance_columnsV2 stored (columns ▸ versions), columns]
  · exact ⟨database, rfl, unchanged⟩

/-- The migrations of a database before version `6` are some of the first five
and all later ones. -/
theorem applyMigrations_eq {database : Database} (old : database.version < 6) :
    ∃ first, (∀ migration ∈ first, migration ∈ (migrations text).take 5) ∧
      applyMigrations (migrations text) database =
        applyEach (.idle database) (first ++ (migrations text).drop 5) := by
  refine ⟨((migrations text).take 5).filter fun migration =>
    database.version < migration.version,
    fun migration mem => List.mem_of_mem_filter mem, ?_⟩
  have supported : ¬ ((migrations text).getLast?.map Migration.version).getD 0 <
      database.version := by
    show ¬ 12 < database.version
    omega
  have later : ((migrations text).drop 5).filter (fun migration =>
      database.version < migration.version) = (migrations text).drop 5 := by
    rw [List.filter_eq_self]
    intro migration mem
    simp only [migrations, List.drop, List.mem_cons, List.not_mem_nil,
      or_false] at mem
    have newer : 6 ≤ migration.version := by
      rcases mem with rfl | rfl | rfl | rfl | rfl | rfl | rfl <;>
        simp only [Nat.reduceLeDiff, le_refl]
    exact decide_eq_true (by omega)
  have split := List.take_append_drop 5 (migrations text)
  rw [applyMigrations, if_neg supported]
  conv_lhs => rw [← split]
  rw [List.filter_append, later]

/-- The later migrations, on a database that holds these rows: the rows go
through both shapes, unless two of them share a key. -/
theorem applyEach_later {database : Database} (holds : database.Holds rows)
    (parses : ∀ row ∈ rows, (text.parseJson row.normalizedJson).isSome = true) :
    (KeysApart text rows ∧ ∃ table : EnvelopeTable,
      table.rows = rows.map (EnvelopeRowV2.migrated text) ∧ ∃ last,
        last.envelopeTable = some table ∧
        applyEach (.idle database) ((migrations text).drop 5) =
          (.ok (), .idle last)) ∨
    (¬ KeysApart text rows ∧
      applyEach (.idle database) ((migrations text).drop 5) =
        (.error constraintFailed, .idle database)) := by
  have sixth := chain_migrateV2ToV3 holds parses
  have inserts := Table.Separated.insertAll_isSome_iff
    (@Table.Separated.empty _ EnvelopeRowV3.conflicts)
    (rows.map (EnvelopeRowV2.toV3 text))
  cases upgraded : (@Table.Separated.empty _ EnvelopeRowV3.conflicts).insertAll
        (rows.map (EnvelopeRowV2.toV3 text)) with
  | none =>
      right
      rw [upgraded] at sixth inserts
      refine ⟨fun apart => ?_, @applyEach_cons_of_error database ⟨6, _⟩ _
        sixth _⟩
      obtain ⟨stored, no⟩ := inserts.mpr (keysApart_iff.mp apart)
      cases no
  | some table =>
      left
      rw [upgraded] at sixth
      have contents : table.rows = rows.map (EnvelopeRowV2.toV3 text) :=
        Table.Separated.insertAll_rows upgraded
      have apart : KeysApart text rows :=
        keysApart_iff.mpr (inserts.mp ⟨table, upgraded⟩)
      have parsesV3 : ∀ row ∈ table.rows,
          (text.parseJson row.normalizedJson).isSome = true := by
        intro row mem
        rw [contents] at mem
        obtain ⟨old, inside, rfl⟩ := List.mem_map.mp mem
        exact parses old inside
      have apartV4 : (table.rows.map (EnvelopeRowV3.toV4 text)).Pairwise
          fun left right => EnvelopeRow.conflicts left right = false := by
        rw [List.pairwise_map]
        exact table.separated.imp EnvelopeRowV3.conflicts_toV4
      obtain ⟨stored, insertedV4⟩ := (Table.Separated.insertAll_isSome_iff
        (@Table.Separated.empty _ EnvelopeRow.conflicts) _).mpr apartV4
      have contentsV4 : stored.rows =
          table.rows.map (EnvelopeRowV3.toV4 text) :=
        Table.Separated.insertAll_rows insertedV4
      have seventh := @chain_migrateV3ToV4 text (max database.version 6) table
        parsesV3
      rw [insertedV4, ← holds.renamed] at seventh
      let envelopes := ((EnvelopesTable.current stored).advance 4 5).advance 5 6
      have reached : ∃ version,
          applyEach (.idle database) ((migrations text).drop 5) =
            (.ok (), .idle ⟨version, some envelopes, database.renamed⟩) := by
        have rebuilt := @applyEach_cons_of_ok database _ ⟨6, _⟩ sixth
          ((migrations text).drop 6)
        have again := @applyEach_cons_of_ok _ _ ⟨7, _⟩ seventh
          ((migrations text).drop 7)
        exact ⟨_, rebuilt.trans (again.trans rfl)⟩
      obtain ⟨version, executed⟩ := reached
      refine ⟨apart, _, ?_, _, rfl, executed⟩
      show (stored.rows.map _).map _ = _
      rw [contentsV4, contents]
      simp only [List.map_map]
      rfl

def EnvelopeRowV2.envelope (text : SqlText) (row : EnvelopeRowV2) :
    PmEnvelope where
  schemaVersion := pmEnvelopeVersion
  scope := row.scope
  venueId := row.venueId
  configHash := row.configHash
  sourceId := row.sourceId
  connectionId := row.connectionId
  sourceTimestampMs := row.sourceTimestampMs
  canonicalSourceRank := row.canonicalSourceRank
  connectionEpoch := row.connectionEpoch
  frameSequence := row.frameSequence
  receiptTimestampMs := row.receiptTimestampMs
  ingestSequence := row.ingestSequence
  rawFrame := row.rawFrame
  normalized := row.normalized text

def EnvelopeRowV2.Intact (text : SqlText) (row : EnvelopeRowV2) : Prop :=
  row.rawSha256 = text.sha256Hex row.rawFrame ∧
    row.normalizedSha256 =
      text.sha256Hex (text.writeJson (row.normalized text)).toUTF8.toList

/-- What a row of the current version keeps of one of version `2`: all of its
columns, and the address of its envelope. -/
structure Upgraded (text : SqlText) (old : EnvelopeRowV2) (new : EnvelopeRow) :
    Prop where
  columns : new.columnsV2 = { old with schemaVersion := 6 }
  market : new.key.canonicalMarketId = (old.envelope text).canonicalMarketId
  stream : new.key.streamId =
    (old.envelope text).canonicalStreamId text.toStoreText

/-- The migrations of a database with these rows succeed, every row is still
there, and its envelope is not stored again. -/
def KeepsAddressable (text : SqlText) (database : Database)
    (rows : List EnvelopeRowV2) : Prop :=
  ∃ last table,
    applyMigrations (migrations text) database = (.ok (), .idle last) ∧
    last.envelopeTable = some table ∧
    List.Forall₂ (Upgraded text) rows table.rows ∧
    ∀ row ∈ rows, row.Intact text →
      table.storeEnvelopeIdempotent text.toStoreText (row.envelope text) =
        (.ok false, table)

/-! ## Addresses -/

/-- The market of the payload is the one that an envelope is addressed by.
Where the object names its market, the payload leaves the same text in the
column, or the empty one when the name is not text. -/
def MarketAgrees (text : SqlText) (normalized : JsonValue) : Prop :=
  match normalized.get "canonical_market_id" with
  | some (.string market) => payloadMarket text normalized = market
  | some _ => payloadMarket text normalized = ""
  | none =>
      normalized.pointer ["payload", "market"] = none ∨
        normalized.pointer ["payload", "market"] = some .null ∨
        ∃ market,
          normalized.pointer ["payload", "market"] = some (.string market)

/-- The outcome that ends a market stream has no letters to fold but those of
ASCII. -/
def OutcomeAgrees (text : SqlText) (normalized : JsonValue) : Prop :=
  (normalized.get "stream_id").bind JsonValue.asStr = none →
  (normalized.get "portfolio").bind JsonValue.asStr = none →
  payloadMarket text normalized ≠ "" →
  ∀ outcome,
    (normalized.pointer ["payload", "outcome"]).bind JsonValue.asStr =
      some outcome →
    text.toLowercase outcome = outcome.toLower

theorem marketAgrees_iff (row : EnvelopeRowV2) :
    MarketAgrees text (row.normalized text) ↔
      payloadMarket text (row.normalized text) =
        (row.envelope text).canonicalMarketId := by
  show _ ↔ _ = ((((row.normalized text).get "canonical_market_id").or
    ((row.normalized text).pointer ["payload", "market"])).bind
      JsonValue.asStr).getD ""
  generalize row.normalized text = normalized
  unfold MarketAgrees
  cases named : normalized.get "canonical_market_id" with
  | some name =>
      cases name <;> rfl
  | none =>
      simp only [payloadMarket]
      cases found : normalized.pointer ["payload", "market"] with
      | none => simp
      | some market =>
          cases market <;>
            simp [jsonExtract, JsonValue.asStr, text.columnText_ne]
          split <;> decide

theorem outcomeAgrees_iff {row : EnvelopeRowV2}
    (market : payloadMarket text (row.normalized text) =
      (row.envelope text).canonicalMarketId) :
    OutcomeAgrees text (row.normalized text) ↔
      streamIdV4 (row.normalized text)
          (payloadMarket text (row.normalized text)) row.sourceId =
        (row.envelope text).canonicalStreamId text.toStoreText := by
  unfold OutcomeAgrees streamIdV4 PmEnvelope.canonicalStreamId
  rw [← market]
  simp only [EnvelopeRowV2.envelope]
  cases ((row.normalized text).get "stream_id").bind JsonValue.asStr with
  | some streamId => simp
  | none =>
      cases ((row.normalized text).get "portfolio").bind JsonValue.asStr with
      | some portfolio => simp
      | none =>
          by_cases empty : payloadMarket text (row.normalized text) = ""
          · simp [empty]
          · cases ((row.normalized text).pointer ["payload", "outcome"]).bind
              JsonValue.asStr with
            | none =>
                have joined : ":" ++ "unknown" = ":unknown" := rfl
                simp [empty, String.append_assoc, joined]
            | some outcome =>
                simp [empty, eq_comm]

theorem upgraded_migrated_iff
    {row : EnvelopeRowV2} (version : row.schemaVersion = 2) :
    Upgraded text row (row.migrated text) ↔
      MarketAgrees text (row.normalized text) ∧
        OutcomeAgrees text (row.normalized text) := by
  have columns : (row.migrated text).columnsV2 =
      { row with schemaVersion := 6 } := by
    have advanced : advanceVersion 5 6 (advanceVersion 4 5 (advanceVersion 3 4
        (advanceVersion 2 3 row.schemaVersion))) = 6 := by
      rw [version]
      decide
    show { row with schemaVersion := _ } = _
    rw [← advanced]
    rfl
  rw [marketAgrees_iff]
  constructor
  · intro upgraded
    exact ⟨upgraded.market, (outcomeAgrees_iff upgraded.market).mpr
      upgraded.stream⟩
  · rintro ⟨market, outcome⟩
    exact ⟨columns, market, (outcomeAgrees_iff market).mp outcome⟩

/-- A row that keeps its columns and has the address of its envelope makes a
second store of the envelope a copy. -/
theorem storeEnvelopeIdempotent_upgraded
    {table : EnvelopeTable} {old : EnvelopeRowV2} {new : EnvelopeRow}
    (mem : new ∈ table.rows) (upgraded : Upgraded text old new)
    (intact : old.Intact text) :
    table.storeEnvelopeIdempotent text.toStoreText (old.envelope text) =
      (.ok false, table) := by
  obtain ⟨columns, market, stream⟩ := upgraded
  apply EnvelopeTable.storeEnvelopeIdempotent_copy mem
  · rw [EnvelopeRow.primaryKey, EnvelopeRow.primaryKey, EnvelopeKey.mk.injEq]
    exact ⟨congrArg EnvelopeRowV2.scope columns,
      congrArg EnvelopeRowV2.sourceId columns,
      congrArg EnvelopeRowV2.connectionId columns,
      congrArg EnvelopeRowV2.sourceTimestampMs columns, market, stream,
      congrArg EnvelopeRowV2.connectionEpoch columns,
      congrArg EnvelopeRowV2.frameSequence columns⟩
  · exact (congrArg EnvelopeRowV2.rawSha256 columns).trans intact.1
  · exact (congrArg EnvelopeRowV2.normalizedSha256 columns).trans intact.2

theorem forall₂_upgraded_iff (versions : ∀ row ∈ rows, row.schemaVersion = 2) :
    List.Forall₂ (Upgraded text) rows
        (rows.map (EnvelopeRowV2.migrated text)) ↔
      ∀ row ∈ rows, MarketAgrees text (row.normalized text) ∧
        OutcomeAgrees text (row.normalized text) := by
  rw [List.forall₂_map_right_iff, List.forall₂_same]
  constructor
  · intro upgraded row mem
    exact (upgraded_migrated_iff (versions row mem)).mp
      (upgraded row mem)
  · intro agrees row mem
    exact (upgraded_migrated_iff (versions row mem)).mpr
      (agrees row mem)

theorem applyMigrations_cases {database : Database} (old : database.version < 6)
    (holds : database.Holds rows)
    (versions : ∀ row ∈ rows, row.schemaVersion = 2)
    (parses : ∀ row ∈ rows, (text.parseJson row.normalizedJson).isSome = true) :
    (KeysApart text rows ∧ ∃ table : EnvelopeTable,
      table.rows = rows.map (EnvelopeRowV2.migrated text) ∧ ∃ last,
        last.envelopeTable = some table ∧
        applyMigrations (migrations text) database = (.ok (), .idle last)) ∨
    (¬ KeysApart text rows ∧
      (applyMigrations (migrations text) database).1 ≠ .ok ()) := by
  obtain ⟨first, early, split⟩ := @applyMigrations_eq text database old
  obtain ⟨next, kept, reached⟩ := applyEach_append_of_keeps
    (fun migration mem before holds =>
      early_keeps versions (early migration mem) holds)
    ((migrations text).drop 5) holds
  rw [split, reached]
  refine (applyEach_later kept parses).imp id ?_
  rintro ⟨clash, failed⟩
  refine ⟨clash, ?_⟩
  rw [failed]
  intro no
  cases no

/-- Every row of version `2` keeps its address through the migrations just
when no two rows share a key, the market of each payload is the one its
envelope is addressed by, and the outcomes of market streams fold like ASCII
text. -/
theorem migrations_keepAddressable_iff
    {database : Database} (old : database.version < 6)
    (holds : database.Holds rows)
    (versions : ∀ row ∈ rows, row.schemaVersion = 2)
    (objects : ∀ row ∈ rows, ∃ fields,
      text.parseJson row.normalizedJson = some (.object fields)) :
    KeepsAddressable text database rows ↔
      KeysApart text rows ∧
        ∀ row ∈ rows, MarketAgrees text (row.normalized text) ∧
          OutcomeAgrees text (row.normalized text) := by
  have parses : ∀ row ∈ rows,
      (text.parseJson row.normalizedJson).isSome = true := by
    intro row member
    obtain ⟨fields, parsed⟩ := objects row member
    rw [parsed]
    rfl
  rcases applyMigrations_cases old holds versions parses with
    ⟨apart, table, contents, last, current, applied⟩ | ⟨clash, failed⟩
  · rw [← forall₂_upgraded_iff versions]
    constructor
    · rintro ⟨last', table', applied', current', upgraded, _⟩
      rw [applied'] at applied
      cases applied
      rw [current] at current'
      cases current'
      exact ⟨apart, contents ▸ upgraded⟩
    · rintro ⟨_, upgraded⟩
      rw [← contents] at upgraded
      refine ⟨last, table, applied, current, upgraded, ?_⟩
      intro row member intact
      rw [contents, List.forall₂_map_right_iff, List.forall₂_same] at upgraded
      exact storeEnvelopeIdempotent_upgraded
        (contents ▸ List.mem_map_of_mem member) (upgraded row member) intact
  · constructor
    · rintro ⟨last, table, applied, _⟩
      rw [applied] at failed
      exact absurd rfl failed
    · rintro ⟨apart, _⟩
      exact absurd apart clash

end

/-! ## A row without a payload market -/

namespace MigrationSample

open JsonValue

def payloadNamed : JsonValue :=
  .object [("payload", .object [("market", .string "btc-5m"),
    ("outcome", .string "up")])]

def objectNamed : JsonValue :=
  .object [("canonical_market_id", .string "token-1"),
    ("payload", .object [("price", .string "0.42")])]

/-- The digests of the empty frame and of the two texts. -/
def text : SqlText where
  sha256Hex := fun bytes =>
    if bytes = [] then
      "e3b0c44298fc1c149afbf4c8996fb92427ae41e4649b934ca495991b7852b855"
    else if bytes =
        (compact toString sortFields payloadNamed).toUTF8.toList then
      "515bbe9469893f635378a377b6fc976f3efe4285059b18571ca5ccfdfa4aaef0"
    else
      "e256449d444cf621b7af808b3b84920f7a267bcfd2e70002c4f0faabb680f70b"
  writeJson := compact toString sortFields
  parseJson := fun written => [payloadNamed, objectNamed].find? fun value =>
    compact toString sortFields value = written
  toLowercase := String.toLower
  toLowercase_display := toLower_display
  columnText := fun value =>
    if compact toString sortFields value = "" then "null"
    else compact toString sortFields value
  columnText_ne := fun value => by
    split
    · decide
    · assumption

/-- The row of version `2` of an object. -/
def row (normalized : JsonValue) : EnvelopeRowV2 where
  scope := ⟨⟨"paper", by decide⟩, ⟨"run-v2", by decide⟩⟩
  sourceId := "polymarket:market-ws"
  connectionId := "market-1"
  sourceTimestampMs := 1
  canonicalSourceRank := 0
  connectionEpoch := 0
  frameSequence := 1
  ingestSequence := 1
  schemaVersion := 2
  receiptTimestampMs := 2
  venueId := "polymarket"
  configHash := "fixture"
  rawFrame := []
  rawSha256 := text.sha256Hex []
  normalizedJson := text.writeJson normalized
  normalizedSha256 := text.sha256Hex (text.writeJson normalized).toUTF8.toList

def database (normalized : JsonValue) : Database :=
  ⟨5, some (.v2 [row normalized]), none⟩

theorem holds (normalized : JsonValue) :
    (database normalized).Holds [row normalized] :=
  ⟨⟨_, rfl, rfl⟩, rfl⟩

/-- The two texts are read as they were written. -/
theorem parses_payloadNamed :
    text.parseJson (row payloadNamed).normalizedJson = some payloadNamed := by
  decide +kernel

theorem parses_objectNamed :
    text.parseJson (row objectNamed).normalizedJson = some objectNamed := by
  decide +kernel

/-- A row whose payload names its market keeps its address. -/
theorem migrations_keepAddressable_payloadNamed :
    KeepsAddressable text (database payloadNamed) [row payloadNamed] := by
  have normalized : (row payloadNamed).normalized text = payloadNamed := by
    rw [EnvelopeRowV2.normalized, parses_payloadNamed]
    rfl
  refine (migrations_keepAddressable_iff (by decide) (holds payloadNamed) ?_
    ?_).mpr ⟨List.pairwise_singleton _ _, ?_⟩
  · intro old member
    rw [List.mem_singleton.mp member]
    rfl
  · intro old member
    rw [List.mem_singleton.mp member]
    exact ⟨_, parses_payloadNamed⟩
  · intro old member
    rw [List.mem_singleton.mp member, normalized]
    refine ⟨Or.inr (Or.inr ⟨"btc-5m", rfl⟩), ?_⟩
    intro _ _ _ outcome _
    rfl

/-- A row whose object names its market beside the payload loses it. -/
theorem migrations_drop_objectNamed :
    ¬ ∀ (database : Database) (rows : List EnvelopeRowV2),
      database.version < 6 → database.Holds rows →
      (∀ old ∈ rows, old.schemaVersion = 2) →
      (∀ old ∈ rows, ∃ fields,
        text.parseJson old.normalizedJson = some (.object fields)) →
      KeepsAddressable text database rows := by
  intro every
  have normalized : (row objectNamed).normalized text = objectNamed := by
    rw [EnvelopeRowV2.normalized, parses_objectNamed]
    rfl
  have versions : ∀ old ∈ [row objectNamed], old.schemaVersion = 2 := by
    intro old member
    rw [List.mem_singleton.mp member]
    rfl
  have objects : ∀ old ∈ [row objectNamed], ∃ fields,
      text.parseJson old.normalizedJson = some (.object fields) := by
    intro old member
    rw [List.mem_singleton.mp member]
    exact ⟨_, parses_objectNamed⟩
  have parses : ∀ old ∈ [row objectNamed],
      (text.parseJson old.normalizedJson).isSome = true := by
    intro old member
    rw [List.mem_singleton.mp member, parses_objectNamed]
    rfl
  obtain ⟨last, table, applied, current, upgraded, _⟩ :=
    every (database objectNamed) [row objectNamed] (by decide)
      (holds objectNamed) versions objects
  rcases applyMigrations_cases (by decide) (holds objectNamed) versions parses
    with ⟨_, stored, contents, final, held, reached⟩ | ⟨_, failed⟩
  · rw [applied] at reached
    cases reached
    rw [current] at held
    cases held
    rw [contents, forall₂_upgraded_iff versions] at upgraded
    have agrees := (upgraded _ List.mem_cons_self).1
    rw [normalized] at agrees
    have absent : "" = "token-1" := agrees
    exact absurd absent (by decide)
  · exact failed (by rw [applied])

end MigrationSample

end Pmkit
