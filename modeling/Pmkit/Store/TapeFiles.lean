import Pmkit.Library.FirstRows
import Pmkit.Library.Utf8
import Pmkit.Store.TapeImport

/-!
# Imports of tape files

A file is read and validated as a whole before anything is prepared for the
tables.  A repeated import changes nothing; two files may be imported in either
order just when they begin the keys that are new with the same rows.
-/

namespace Pmkit

open MachineInt Transaction

namespace PublicTape

/-! ## Files -/

inductive PathComponent where
  | rootDir
  | parentDir
  | normal (name : List UInt8)
  deriving DecidableEq

abbrev TapePath := List PathComponent

namespace TapePath

/-- `join`: the part to join may have several components, and an absolute one
stands alone. -/
def join (path : TapePath) (relative : String) : TapePath :=
  let bytes := Ascii.bytes relative
  let components := (bytes.splitOn 47).filterMap fun part =>
    if part = [] ∨ part = [46] then none
    else if part = [46, 46] then some .parentDir
    else some (.normal part)
  if bytes.head? = some 47 then .rootDir :: components else path ++ components

def fileName (path : TapePath) : Option (List UInt8) :=
  match path.getLast? with
  | some (.normal name) => some name
  | _ => none

/-- What follows the last dot of a name, unless the name begins with it. -/
def extension (name : List UInt8) : Option (List UInt8) :=
  let after := name.reverse.takeWhile (· ≠ 46)
  if after.length + 1 < name.length then some after.reverse else none

end TapePath

structure TapeFiles where
  read : TapePath → Except IoError (List UInt8)
  readDir : TapePath → Except IoError (List (Except IoError (List UInt8)))
  display : TapePath → String

structure RecorderGap where
  version : UInt8
  recordType : String
  reason : String
  scope : JsonValue
  startTimeMs : I64
  endTimeMs : Option I64

/-- The derived readers of the files, and the decoder of compressed ones. -/
structure TapeFileText (D : Type) extends PublicTapeText D where
  decodeAll : List UInt8 → Except IoError (List UInt8)
  readFrame : List UInt8 → Except String FrameRecord
  readGap : List UInt8 → Except String RecorderGap
  readSnapshot : List UInt8 → Except String MappingSnapshot
  writeSnapshot : MappingSnapshot → List UInt8

/-- `certify_v2_public_market_input`. -/
def certifyV2PublicMarketInput (tapeRoot tapeFile : TapePath) :
    Except PublicTapeImportError Unit :=
  let publicMarketRoot := tapeRoot.join "pm-market"
  if ¬ publicMarketRoot.isPrefixOf tapeFile then
    .error (.invalid "tape file is outside the v2 public-market path")
  else if (tapeFile.drop publicMarketRoot.length).any fun component =>
      component = .parentDir ∨ component = .rootDir then
    .error (.invalid "tape file escapes the v2 public-market path")
  else
    match tapeFile.fileName.bind Utf8.decode with
    | none =>
        .error (.invalid "v2 public-market tape file has no UTF-8 name")
    | some name =>
        if ¬ ".v2.ndjson".toList.isSuffixOf name.toList ∧
            ¬ ".v2.ndjson.zst".toList.isSuffixOf name.toList then
          .error (.invalid
            "legacy TSV and non-v2 tape files are not importable")
        else
          .ok ()

/-- `certify_v2_public_market_source`. -/
def certifyV2PublicMarketSource (sourceId : String) :
    Except PublicTapeImportError Unit :=
  if sourceId = "polymarket-market" ∨ sourceId = "polymarket:market-ws" then
    .ok ()
  else
    .error (.invalid
      "tape record is not from a certified public-market source")

def TapeFiles.readFile (files : TapeFiles) (path : TapePath) :
    Except PublicTapeImportError (List UInt8) :=
  (files.read path).mapError (.read (files.display path))

def fileLines (message : String) (bytes : List UInt8) :
    Except PublicTapeImportError (List (List UInt8)) :=
  if bytes.getLast? ≠ some 10 then
    .error (.invalid message)
  else
    .ok ((bytes.splitOn 10).filter (· ≠ []))

variable {D : Type}

/-- `verified_snapshot`. -/
def verifiedSnapshot (text : TapeFileText D) (files : TapeFiles)
    (root : TapePath) (hash : String) :
    Except PublicTapeImportError MappingSnapshot := do
  let bytes ← files.readFile
    ((root.join "pm-market/mappings").join (hash ++ ".json"))
  if text.sha256Hex bytes ≠ hash then
    throw (.invalid "mapping snapshot digest does not match its identity")
  let snapshot ← (text.readSnapshot bytes).mapError fun error =>
    .invalid ("malformed mapping snapshot: " ++ error)
  if snapshot.version ≠ 2 ∨ text.writeSnapshot snapshot ≠ bytes then
    throw (.invalid "mapping snapshot is not immutable canonical v2 JSON")
  return snapshot

structure PreparedImport where
  replayGaps : List ReplayGapInterval
  auditFrames : List PublicTapeAuditFrame
  envelopes : List PmEnvelope

structure PublicTapeImportReport where
  auditFrames : Nat
  projectedFrames : Nat
  replayGaps : Nat
  deriving DecidableEq

def PreparedImport.report (prepared : PreparedImport) :
    PublicTapeImportReport where
  auditFrames := prepared.auditFrames.length
  projectedFrames := prepared.envelopes.length
  replayGaps := prepared.replayGaps.length

namespace PublicTapeImporter

/-- The loop of `validate_record`. -/
def validateProjections (text : PublicTapeText D)
    (importer : PublicTapeImporter) (snapshot : MappingSnapshot)
    (record : FrameRecord) :
    Nat → List (JsonValue × Subframe) → Except PublicTapeImportError Unit
  | _, [] => .ok ()
  | index, (value, subframe) :: rest => do
      if subframe.projection ≠ .intentionallyUnprojected then
        discard (importer.projectSubframe text snapshot value)
        discard (subframeRank record.frameSequence index)
      importer.validateProjections text snapshot record (index + 1) rest

/-- `validate_record`. -/
def validateRecord (text : PublicTapeText D) (importer : PublicTapeImporter)
    (record : FrameRecord) (snapshot : MappingSnapshot) :
    Except PublicTapeImportError Unit := do
  checkIdentity record
  discard (metadata record)
  discard (checkIngest record.ingestSequence)
  let values ← rawValues text record
  validateSubframes values record.subframes
  importer.validateProjections text snapshot record 0
    (values.zip record.subframes)

def readGap (text : TapeFileText D) (importer : PublicTapeImporter)
    (line : List UInt8) : Except PublicTapeImportError ReplayGapInterval := do
  let gap ← (text.readGap line).mapError fun error =>
    .invalid ("malformed recorder gap: " ++ error)
  if gap.version ≠ 2 ∨ gap.recordType ≠ "gap" then
    throw (.invalid "unsupported recorder gap identity")
  match gap.scope.asStr with
  | none => throw (.invalid "recorder gap scope is not a partition")
  | some partition =>
      return {
        scope := importer.scope
        partition := partition
        discoverySnapshotSha256 := none
        startTimeMs := gap.startTimeMs
        endTimeMs := gap.endTimeMs
        reason := gap.reason }

/-- `read_gap_sidecars`. -/
def readGapSidecars (text : TapeFileText D) (importer : PublicTapeImporter)
    (files : TapeFiles) (tapeRoot : TapePath) :
    Except PublicTapeImportError (List ReplayGapInterval) :=
  let directory := tapeRoot.join "pm-market/gaps"
  match files.readDir directory with
  | .error .notFound => .ok []
  | .error source => .error (.read (files.display directory) source)
  | .ok entries => do
      let names ← (entries.mapM id).mapError (.read (files.display directory))
      let sorted := names.insertionSort fun left right =>
        left.map UInt8.toNat ≤ right.map UInt8.toNat
      let gaps ← (sorted.filter fun name =>
        TapePath.extension name = some (Ascii.bytes "jsonl")).mapM fun name => do
          let bytes ← files.readFile (directory ++ [.normal name])
          let lines ← fileLines
            "recorder gap sidecar is not newline terminated" bytes
          lines.mapM (importer.readGap text)
      return gaps.flatten

def readRecord (text : TapeFileText D) (line : List UInt8) :
    Except PublicTapeImportError FrameRecord := do
  let record ← (text.readFrame line).mapError fun error =>
    .invalid ("malformed v2 frame: " ++ error)
  certifyV2PublicMarketSource record.sourceId
  return record

/-- `import_file` up to its call of the store. -/
def prepareFile (text : TapeFileText D) (importer : PublicTapeImporter)
    (files : TapeFiles) (tapeRoot tapeFile : TapePath) :
    Except PublicTapeImportError PreparedImport := do
  certifyV2PublicMarketInput tapeRoot tapeFile
  let stored ← files.readFile tapeFile
  let bytes ←
    if tapeFile.fileName.bind TapePath.extension =
        some (Ascii.bytes "zst") then
      (text.decodeAll stored).mapError (.read (files.display tapeFile))
    else
      .ok stored
  let lines ← fileLines "tape hour is not newline terminated" bytes
  let records ← lines.mapM (readRecord text)
  records.forM fun record => do
    let snapshot ← verifiedSnapshot text files tapeRoot
      record.mappingSnapshotSha256
    importer.validateRecord text.toPublicTapeText record snapshot
  let replayGaps ← importer.readGapSidecars text files tapeRoot
  let prepared ← records.mapM fun record => do
    let snapshot ← verifiedSnapshot text files tapeRoot
      record.mappingSnapshotSha256
    importer.prepareRecord text.toPublicTapeText record snapshot
  return {
    replayGaps := replayGaps
    auditFrames := prepared.map Prod.fst
    envelopes := prepared.flatMap Prod.snd }

/-- `import_file`; no transaction is open before or behind it. -/
def importFile (text : TapeFileText D) (importer : PublicTapeImporter)
    (files : TapeFiles) (tapeRoot tapeFile : TapePath) (tables : TapeTables) :
    Except PublicTapeImportError PublicTapeImportReport × TapeTables :=
  match importer.prepareFile text files tapeRoot tapeFile with
  | .error error => (.error error, tables)
  | .ok prepared =>
      match TapeTables.storePublicTapeImport text.toStoreText (.idle tables)
          prepared.replayGaps prepared.auditFrames prepared.envelopes with
      | (.error error, connection) =>
          (.error (.store error), connection.committed)
      | (.ok (), connection) => (.ok prepared.report, connection.committed)

end PublicTapeImporter

end PublicTape

/-! ## The tables keep first rows -/

namespace EnvelopeTable

variable {text : StoreText} {table stored middle after : EnvelopeTable}

theorem eq_of_rows (same : table.rows = stored.rows) : table = stored := by
  cases table
  cases stored
  cases same
  rfl

theorem keysSeparated (table : EnvelopeTable) :
    FirstRows.Separated EnvelopeRow.primaryKey table.rows :=
  table.separated.imp fun apart same => by
    simp [EnvelopeRow.conflicts, same] at apart

/-- A row with the key and the digests of another is stored. -/
def HasCopy (rows : List EnvelopeRow) (row : EnvelopeRow) : Prop :=
  ∃ copy ∈ rows, copy.primaryKey = row.primaryKey ∧
    copy.rawSha256 = row.rawSha256 ∧
    copy.normalizedSha256 = row.normalizedSha256

theorem eq_of_first {row other : EnvelopeRow} {key : EnvelopeKey}
    (found : FirstRows.first EnvelopeRow.primaryKey table.rows key = some row)
    (mem : other ∈ table.rows) (same : other.primaryKey = key) :
    other = row := by
  have isFirst := (FirstRows.first_eq_some_iff table.keysSeparated).mpr
    ⟨mem, same⟩
  rw [found, Option.some.injEq] at isFirst
  exact isFirst.symm

/-- A stored envelope leaves a table of first rows, with a copy of it. -/
theorem storeOnce_iff {envelope : PmEnvelope} :
    table.storeOnce text envelope = .ok stored ↔
      stored.rows = FirstRows.insert EnvelopeRow.primaryKey table.rows
          (.ofEnvelope text envelope) ∧
        HasCopy stored.rows (.ofEnvelope text envelope) := by
  by_cases free : FirstRows.first EnvelopeRow.primaryKey table.rows
      (EnvelopeRow.ofEnvelope text envelope).primaryKey = none
  · rw [FirstRows.insert_eq_of_free free]
    by_cases apart : ∀ row ∈ table.rows,
        row.conflicts (.ofEnvelope text envelope) = false
    · obtain ⟨after, written, rows⟩ := storeOnce_fresh apart
      rw [written, Except.ok.injEq]
      constructor
      · rintro rfl
        exact ⟨rows, _, by simp [rows], rfl, rfl, rfl⟩
      · rintro ⟨same, _⟩
        exact eq_of_rows (rows.trans same.symm)
    · -- Another key of the row is taken, and no row has its primary key.
      have refused : table.storeOnce text envelope =
          .error .duplicateSourceIdentity := by
        have unread : table.readEnvelopeIntegrity
            (EnvelopeRow.ofEnvelope text envelope).primaryKey = none :=
          congrArg (Option.map _) free
        rw [storeOnce, storeEnvelopeIdempotent, insert, dif_neg apart, unread]
      rw [refused]
      refine ⟨fun same => (by cases same), fun both => absurd ?_ apart⟩
      have separated := stored.separated
      rw [both.1, List.pairwise_append] at separated
      exact fun row inside =>
        separated.2.2 row inside _ (List.mem_singleton_self _)
  · rw [FirstRows.insert_eq_of_taken free]
    obtain ⟨row, found⟩ := Option.ne_none_iff_exists'.mp free
    obtain ⟨inside, key⟩ :=
      (FirstRows.first_eq_some_iff table.keysSeparated).mp found
    by_cases copied : HasCopy table.rows (.ofEnvelope text envelope)
    · obtain ⟨copy, mem, same, raw, normalized⟩ := copied
      rw [storeOnce, storeEnvelopeIdempotent_copy mem same raw normalized,
        Except.ok.injEq]
      constructor
      · rintro rfl
        exact ⟨rfl, copy, mem, same, raw, normalized⟩
      · rintro ⟨rows, _⟩
        exact eq_of_rows rows.symm
    · constructor
      · intro written
        have taken : table.insert (.ofEnvelope text envelope) = none := by
          apply dif_neg
          intro apart
          simpa [EnvelopeRow.conflicts, key] using apart row inside
        have read : table.readEnvelopeIntegrity
            (EnvelopeRow.ofEnvelope text envelope).primaryKey =
              some (row.rawSha256, row.normalizedSha256) :=
          congrArg (Option.map _) found
        rw [storeOnce, storeEnvelopeIdempotent, taken, read] at written
        simp only [Prod.mk.injEq] at written
        split at written
        · rename_i returned
          split at returned
          · rename_i digests
            exact absurd ⟨row, inside, key, digests⟩ copied
          · cases returned
        · cases written
      · rintro ⟨same, copies⟩
        exact absurd (same ▸ copies) copied

variable {envelopes : List PmEnvelope}

/-- Stored envelopes leave a table of first rows, with a copy of each. -/
theorem storeEnvelopes_iff :
    table.storeEnvelopes text envelopes = .ok stored ↔
      stored.rows = FirstRows.insertAll EnvelopeRow.primaryKey table.rows
          (envelopes.map (.ofEnvelope text)) ∧
        ∀ row ∈ envelopes.map (.ofEnvelope text),
          HasCopy stored.rows row := by
  induction envelopes generalizing table with
  | nil =>
      rw [storeEnvelopes, List.foldlM_nil, List.map_nil]
      refine ⟨?_, fun both => congrArg _ (eq_of_rows both.1.symm)⟩
      rintro ⟨⟩
      exact ⟨rfl, fun row mem => by cases mem⟩
  | cons envelope rest ih =>
      rw [storeEnvelopes, List.foldlM_cons, Fallible.bind_eq_ok, List.map_cons,
        List.forall_mem_cons, FirstRows.insertAll, List.foldl_cons]
      have grown : FirstRows.insert EnvelopeRow.primaryKey table.rows
          (.ofEnvelope text envelope) <+:
          FirstRows.insertAll EnvelopeRow.primaryKey _
            (rest.map (.ofEnvelope text)) := FirstRows.prefix_insertAll _
      constructor
      · rintro ⟨next, written, later⟩
        obtain ⟨nextRows, copy, mem, same⟩ := storeOnce_iff.mp written
        obtain ⟨rows, copies⟩ := ih.mp later
        rw [nextRows] at mem rows
        exact ⟨rows, ⟨copy, rows ▸ grown.subset mem, same⟩, copies⟩
      · rintro ⟨rows, ⟨copy, mem, same, digests⟩, copies⟩
        rw [FirstRows.insertAll, ← rows] at grown
        let next : EnvelopeTable :=
          ⟨_, stored.separated.sublist grown.sublist⟩
        -- What is stored under the key is in the table after one step.
        obtain ⟨row, found⟩ := Option.ne_none_iff_exists'.mp
          (@FirstRows.first_insert_self _ _ _ EnvelopeRow.primaryKey table.rows
            (EnvelopeRow.ofEnvelope text envelope))
        obtain ⟨inside, key⟩ :=
          (FirstRows.first_eq_some_iff next.keysSeparated).mp found
        have only : copy = row := stored.eq_of_first
          ((FirstRows.first_eq_some_iff stored.keysSeparated).mpr
            ⟨grown.subset inside, key⟩) mem same
        exact ⟨next, storeOnce_iff.mpr ⟨rfl, row, inside, key, only ▸ digests⟩,
          ih.mpr ⟨rows, copies⟩⟩

theorem storeEnvelopes_append (first second : List PmEnvelope) :
    table.storeEnvelopes text (first ++ second) =
      table.storeEnvelopes text first >>= fun next =>
        next.storeEnvelopes text second :=
  List.foldlM_append

theorem storeEnvelopes_twice
    (written : table.storeEnvelopes text envelopes = .ok stored) :
    stored.storeEnvelopes text envelopes = .ok stored := by
  obtain ⟨rows, copies⟩ := storeEnvelopes_iff.mp written
  refine storeEnvelopes_iff.mpr ⟨?_, copies⟩
  rw [rows, FirstRows.insertAll_twice]

/-- Envelopes that were stored could be stored in the other order with the
same rows just when they begin the new keys alike. -/
theorem storeEnvelopes_exchange_iff {first second : List PmEnvelope}
    (written : table.storeEnvelopes text first = .ok middle)
    (later : middle.storeEnvelopes text second = .ok after) :
    (∃ other last, table.storeEnvelopes text second = .ok other ∧
      other.storeEnvelopes text first = .ok last ∧
      ∀ row, row ∈ after.rows ↔ row ∈ last.rows) ↔
      FirstRows.Agree EnvelopeRow.primaryKey table.rows
        (first.map (.ofEnvelope text)) (second.map (.ofEnvelope text)) := by
  have both : table.storeEnvelopes text (first ++ second) = .ok after := by
    rw [storeEnvelopes_append, written]
    exact later
  obtain ⟨rows, copies⟩ := storeEnvelopes_iff.mp both
  rw [List.map_append, FirstRows.insertAll_append] at rows
  rw [← FirstRows.exchange_iff table.keysSeparated, ← rows]
  constructor
  · rintro ⟨other, last, begun, ended, same⟩
    have swapped : table.storeEnvelopes text (second ++ first) = .ok last := by
      rw [storeEnvelopes_append, begun]
      exact ended
    have lastRows := (storeEnvelopes_iff.mp swapped).1
    rw [List.map_append, FirstRows.insertAll_append] at lastRows
    rw [← lastRows]
    exact same
  · intro same
    have symmetric : Std.Symm fun left right : EnvelopeRow =>
        left.conflicts right = false :=
      ⟨fun left right apart => by
        rw [EnvelopeRow.conflicts, decide_eq_false_iff_not] at apart ⊢
        exact fun clash => apart (clash.imp Eq.symm Eq.symm)⟩
    -- The rows are those of a table, so they do not conflict in any order.
    let last : EnvelopeTable :=
      { rows := FirstRows.insertAll EnvelopeRow.primaryKey
          (FirstRows.insertAll EnvelopeRow.primaryKey table.rows
            (second.map (.ofEnvelope text))) (first.map (.ofEnvelope text))
        separated := (FirstRows.separated_insertAll
            (FirstRows.separated_insertAll table.keysSeparated _)
            _).imp_of_mem fun leftMem rightMem ne =>
          after.separated.forall ((same _).mpr leftMem)
            ((same _).mpr rightMem) fun equal => ne (equal ▸ rfl) }
    have swapped : table.storeEnvelopes text (second ++ first) = .ok last := by
      refine storeEnvelopes_iff.mpr ⟨?_, fun row mem => ?_⟩
      · rw [List.map_append, FirstRows.insertAll_append]
      · obtain ⟨copy, inside, rest⟩ := copies row (by
          simpa [or_comm] using mem)
        exact ⟨copy, (same copy).mp inside, rest⟩
    rw [storeEnvelopes_append, Fallible.bind_eq_ok] at swapped
    obtain ⟨other, begun, ended⟩ := swapped
    exact ⟨other, last, begun, ended, same⟩

end EnvelopeTable

namespace PublicTapeAuditTable

variable (table : PublicTapeAuditTable)

theorem insertAll_rows (rows : List PublicTapeAuditRow) :
    (rows.foldl insert table).rows =
      FirstRows.insertAll PublicTapeAuditRow.primaryKey table.rows rows := by
  induction rows generalizing table with
  | nil => rfl
  | cons row rest ih =>
      have step : (table.insert row).rows =
          FirstRows.insert PublicTapeAuditRow.primaryKey table.rows row := by
        unfold insert FirstRows.insert
        split <;> rfl
      rw [List.foldl_cons, ih, step]
      rfl

theorem insertAll_twice (rows : List PublicTapeAuditRow) :
    rows.foldl insert (rows.foldl insert table) = rows.foldl insert table := by
  have same : (rows.foldl insert (rows.foldl insert table)).rows =
      (rows.foldl insert table).rows := by
    rw [insertAll_rows, insertAll_rows, FirstRows.insertAll_twice]
  revert same
  generalize rows.foldl insert (rows.foldl insert table) = left
  generalize rows.foldl insert table = right
  intro same
  cases left
  cases right
  cases same
  rfl

theorem exchange_iff (left right : List PublicTapeAuditRow) :
    (∀ row, row ∈ (right.foldl insert (left.foldl insert table)).rows ↔
      row ∈ (left.foldl insert (right.foldl insert table)).rows) ↔
      FirstRows.Agree PublicTapeAuditRow.primaryKey table.rows left right := by
  simp only [insertAll_rows]
  exact FirstRows.exchange_iff table.separated left right

end PublicTapeAuditTable

/-! ## Imports in either order -/

/-- Tables with the same rows, which may have come in another order. -/
structure TapeTables.SameRows (left right : TapeTables) : Prop where
  gaps : ∀ row, row ∈ left.gaps.rows ↔ row ∈ right.gaps.rows
  auditFrames : ∀ row, row ∈ left.auditFrames.rows ↔
    row ∈ right.auditFrames.rows
  envelopes : ∀ row, row ∈ left.envelopes.rows ↔ row ∈ right.envelopes.rows

namespace PublicTape

variable {D : Type}

/-- What `import_file` is called with. -/
structure ImportCall where
  importer : PublicTapeImporter
  files : TapeFiles
  tapeRoot : TapePath
  tapeFile : TapePath

namespace ImportCall

def prepare (text : TapeFileText D) (call : ImportCall) :
    Except PublicTapeImportError PreparedImport :=
  call.importer.prepareFile text call.files call.tapeRoot call.tapeFile

def run (text : TapeFileText D) (call : ImportCall) (tables : TapeTables) :
    Except PublicTapeImportError PublicTapeImportReport × TapeTables :=
  call.importer.importFile text call.files call.tapeRoot call.tapeFile tables

end ImportCall

/-- What is promised of imports; the last two are called one after the other,
and in the other order on the same tables. -/
structure SafeImports (text : TapeFileText D) (tables : TapeTables)
    (first second : ImportCall) : Prop where
  atomic : ∀ (call : ImportCall) before error,
    (call.run text before).1 = .error error →
      (call.run text before).2 = before
  repeats : ∀ (call : ImportCall) before report after,
    call.run text before = (.ok report, after) →
      call.run text after = (.ok report, after)
  exchange : ∀ firstReport middle secondReport after,
    first.run text tables = (.ok firstReport, middle) →
    second.run text middle = (.ok secondReport, after) →
      ∃ other last, second.run text tables = (.ok secondReport, other) ∧
        first.run text other = (.ok firstReport, last) ∧ after.SameRows last

/-- The first rows of both imports agree under each key that is not stored. -/
def BeginAlike (text : TapeFileText D) (tables : TapeTables)
    (first second : ImportCall) : Prop :=
  ∀ left, first.prepare text = .ok left →
    ∀ right, second.prepare text = .ok right →
      FirstRows.Agree PublicTapeAuditRow.primaryKey tables.auditFrames.rows
          (left.auditFrames.map (.ofFrame text.toStoreText))
          (right.auditFrames.map (.ofFrame text.toStoreText)) ∧
        FirstRows.Agree EnvelopeRow.primaryKey tables.envelopes.rows
          (left.envelopes.map (.ofEnvelope text.toStoreText))
          (right.envelopes.map (.ofEnvelope text.toStoreText))

def PreparedImport.written (text : StoreText) (prepared : PreparedImport)
    (tables : TapeTables) (envelopes : EnvelopeTable) : TapeTables where
  gaps := prepared.replayGaps.foldl ReplayGapTable.storeReplayGap tables.gaps
  auditFrames := (prepared.auditFrames.map (.ofFrame text)).foldl
    PublicTapeAuditTable.insert tables.auditFrames
  envelopes := envelopes

section Calls

variable {text : TapeFileText D} {call first second : ImportCall}
  {tables middle after : TapeTables} {prepared : PreparedImport}
  {report firstReport secondReport : PublicTapeImportReport}

theorem run_eq
    (found : call.prepare text = .ok prepared) (tables : TapeTables) :
    call.run text tables =
      match tables.envelopes.storeEnvelopes text.toStoreText
          prepared.envelopes with
      | .error error => (.error (.store error), tables)
      | .ok stored => (.ok prepared.report,
          prepared.written text.toStoreText tables stored) := by
  rw [ImportCall.prepare] at found
  rw [ImportCall.run, PublicTapeImporter.importFile, found]
  simp only [TapeTables.storePublicTapeImport_eq]
  cases tables.envelopes.storeEnvelopes text.toStoreText
      prepared.envelopes with
  | error error => rfl
  | ok stored => rfl

theorem run_eq_ok :
    call.run text tables = (.ok report, after) ↔
      ∃ prepared stored, call.prepare text = .ok prepared ∧
        tables.envelopes.storeEnvelopes text.toStoreText prepared.envelopes =
          .ok stored ∧
        report = prepared.report ∧
        after = prepared.written text.toStoreText tables stored := by
  cases found : call.prepare text with
  | error error =>
      have failed : call.run text tables = (.error error, tables) := by
        rw [ImportCall.prepare] at found
        rw [ImportCall.run, PublicTapeImporter.importFile, found]
      simp [failed]
  | ok prepared =>
      rw [run_eq found]
      cases written : tables.envelopes.storeEnvelopes text.toStoreText
          prepared.envelopes with
      | error error => simp [written]
      | ok stored => simp [written, eq_comm]

theorem run_atomic {error : PublicTapeImportError}
    (failed : (call.run text tables).1 = .error error) :
    (call.run text tables).2 = tables := by
  cases found : call.prepare text with
  | error error =>
      rw [ImportCall.prepare] at found
      rw [ImportCall.run, PublicTapeImporter.importFile, found]
  | ok prepared =>
      rw [run_eq found] at failed ⊢
      split at failed
      · rfl
      · cases failed

theorem run_repeats (succeeded : call.run text tables = (.ok report, after)) :
    call.run text after = (.ok report, after) := by
  obtain ⟨prepared, stored, found, written, rfl, rfl⟩ :=
    run_eq_ok.mp succeeded
  rw [run_eq found]
  have again := EnvelopeTable.storeEnvelopes_twice written
  have gaps : prepared.replayGaps.foldl ReplayGapTable.storeReplayGap
      (prepared.replayGaps.foldl ReplayGapTable.storeReplayGap tables.gaps) =
        prepared.replayGaps.foldl ReplayGapTable.storeReplayGap
          tables.gaps := by
    apply ReplayGapTable.storeReplayGaps_stored
    intro gap mem
    rw [ReplayGapTable.mem_storeReplayGaps]
    exact .inr (List.mem_map_of_mem mem)
  simp only [again, PreparedImport.written, gaps,
    PublicTapeAuditTable.insertAll_twice]

/-- Imports that succeed in one order do so in the other, with the same rows,
just when they begin alike. -/
theorem run_exchange_iff
    (firstRun : first.run text tables = (.ok firstReport, middle))
    (secondRun : second.run text middle = (.ok secondReport, after)) :
    (∃ other last, second.run text tables = (.ok secondReport, other) ∧
      first.run text other = (.ok firstReport, last) ∧
      after.SameRows last) ↔ BeginAlike text tables first second := by
  obtain ⟨left, leftStored, leftFound, leftWritten, rfl, rfl⟩ :=
    run_eq_ok.mp firstRun
  obtain ⟨right, rightStored, rightFound, rightWritten, rfl, rfl⟩ :=
    run_eq_ok.mp secondRun
  have alike : BeginAlike text tables first second ↔ _ ∧ _ :=
    ⟨fun begun => begun left leftFound right rightFound, by
      intro begun one oneFound other otherFound
      rw [leftFound] at oneFound
      rw [rightFound] at otherFound
      cases oneFound
      cases otherFound
      exact begun⟩
  rw [alike, ← EnvelopeTable.storeEnvelopes_exchange_iff leftWritten
    rightWritten, ← PublicTapeAuditTable.exchange_iff]
  constructor
  · rintro ⟨other, last, begun, ended, same⟩
    obtain ⟨prepared, stored, found, written, _, rfl⟩ := run_eq_ok.mp begun
    rw [rightFound] at found
    cases found
    obtain ⟨prepared, lastStored, found, lastWritten, _, rfl⟩ :=
      run_eq_ok.mp ended
    rw [leftFound] at found
    cases found
    exact ⟨same.auditFrames, stored, lastStored, written, lastWritten,
      same.envelopes⟩
  · rintro ⟨auditFrames, other, last, begun, ended, envelopes⟩
    refine ⟨right.written text.toStoreText tables other, _,
      run_eq_ok.mpr ⟨right, other, rightFound, begun, rfl, rfl⟩,
      run_eq_ok.mpr ⟨left, last, leftFound, ended, rfl, rfl⟩,
      fun row => ?_, auditFrames, envelopes⟩
    simp only [PreparedImport.written, ReplayGapTable.mem_storeReplayGaps]
    tauto

/-- Imports that succeed one after the other keep all promises just when the
first rows of both agree under each key that is not stored. -/
theorem safeImports_iff
    (firstRun : first.run text tables = (.ok firstReport, middle))
    (secondRun : second.run text middle = (.ok secondReport, after)) :
    SafeImports text tables first second ↔
      BeginAlike text tables first second := by
  rw [← run_exchange_iff firstRun secondRun]
  constructor
  · intro safe
    exact safe.exchange _ _ _ _ firstRun secondRun
  · intro exchanged
    refine ⟨fun _ _ _ => run_atomic, fun _ _ _ _ => run_repeats, ?_⟩
    intro firstReport' middle' secondReport' after' firstAgain secondAgain
    rw [firstRun] at firstAgain
    cases firstAgain
    rw [secondRun] at secondAgain
    cases secondAgain
    exact exchanged

end Calls

/-! ## A recorder that numbers its frames again -/

namespace TapeFilesSample

def scope : OwnerScope :=
  ⟨⟨"tapes", by decide⟩, ⟨"tapes-run", by decide⟩⟩

def snapshot : String := "\x7b\"version\":2,\"mappings\":\x7b\x7d\x7d"

def hash : String :=
  "fd4bae098c51b43f17258ca8bbb2c41b86c9bfa259ed79cfdb62fef6f97cb35d"

def record (raw : String) : FrameRecord where
  version := 2
  recordType := "frame"
  receivedAtMs := 10
  sourceTimeMs := some 9
  sourceId := "polymarket-market"
  connectionId := 1
  epoch := 1
  frameSequence := 4
  ingestSequence := 0
  mappingSnapshotSha256 := hash
  raw := raw
  subframes := [⟨0, .intentionallyUnprojected, none⟩]

def line (raw : String) : List UInt8 :=
  Ascii.bytes ("\x7b\"version\":2,\"record_type\":\"frame\"," ++
    "\"received_at_ms\":10,\"source_time_ms\":9," ++
    "\"source_id\":\"polymarket-market\",\"connection_id\":1,\"epoch\":1," ++
    "\"frame_sequence\":4,\"ingest_sequence\":0," ++
    "\"mapping_snapshot_sha256\":\"" ++ hash ++ "\",\"raw\":\"" ++ raw ++
    "\",\"subframes\":[\x7b\"index\":0," ++
    "\"projection\":\"intentionally_unprojected\",\"duplicate_of\":null\x7d]\x7d")

def text : TapeFileText Nat where
  sha256Hex := fun bytes =>
    if bytes = Ascii.bytes snapshot then hash
    else if bytes = Ascii.bytes "null" then
      "74234e98afe7498fb5daf1f36ac2d78acc339464f950703b8c019892f982b90b"
    else
      "b5bea41b6c623f7c09f1bf24dcae58ebab3c0cdd90ad966bc43a45b44867e12b"
  writeJson := fun _ => "null"
  parseJson := fun _ => none
  toLowercase := String.toLower
  toLowercase_display := toLower_display
  readJson := fun bytes =>
    if bytes = Ascii.bytes "null" then .ok .null else .ok (.bool true)
  parseMarketFrame := fun _ _ => .error "not a market frame"
  decodeAll := .ok
  readFrame := fun bytes =>
    if bytes = line "null" then .ok (record "null")
    else if bytes = line "true" then .ok (record "true")
    else .error "expected value"
  readGap := fun _ => .error "expected value"
  readSnapshot := fun _ => .ok ⟨2, ∅⟩
  writeSnapshot := fun _ => Ascii.bytes snapshot

def tapeFile (name : String) : TapePath :=
  TapePath.join [.normal (Ascii.bytes "tape")] ("pm-market/" ++ name)

def files : TapeFiles where
  read := fun path =>
    if path = tapeFile ("mappings/" ++ hash ++ ".json") then
      .ok (Ascii.bytes snapshot)
    else if path = tapeFile "hour-00.v2.ndjson" then
      .ok (line "null" ++ [10])
    else if path = tapeFile "hour-01.v2.ndjson" then
      .ok (line "true" ++ [10])
    else
      .error .notFound
  readDir := fun _ => .error .notFound
  display := fun _ => "tape"

def hour (name : String) : ImportCall where
  importer := ⟨⟨scope, "config"⟩, scope, ∅⟩
  files := files
  tapeRoot := [.normal (Ascii.bytes "tape")]
  tapeFile := tapeFile name

def frame (raw : String) : PublicTapeAuditFrame where
  scope := scope
  partition := "pm-money-v2:" ++ hash
  sourceId := "polymarket-market"
  connectionId := "1"
  connectionEpoch := 1
  frameSequence := 17179869184
  ingestSequence := 0
  receiptTimestampMs := 10
  sourceTimestampMs := some 9
  rawFrame := Ascii.bytes raw

def tables : TapeTables :=
  ⟨.empty, .empty, .empty⟩

theorem prepared_hours :
    (((hour "hour-00.v2.ndjson").prepare text).map fun prepared =>
      (prepared.replayGaps, prepared.auditFrames, prepared.envelopes.length)) =
        .ok ([], [frame "null"], 0) ∧
    (((hour "hour-01.v2.ndjson").prepare text).map fun prepared =>
      (prepared.replayGaps, prepared.auditFrames, prepared.envelopes.length)) =
        .ok ([], [frame "true"], 0) := by
  decide +kernel

theorem run_hour {name raw : String}
    (prepared : ((hour name).prepare text).map (fun prepared =>
      (prepared.replayGaps, prepared.auditFrames, prepared.envelopes.length)) =
        .ok ([], [frame raw], 0)) (tables : TapeTables) :
    (hour name).run text tables = (.ok ⟨1, 0, 0⟩,
      { tables with auditFrames :=
          tables.auditFrames.insert (.ofFrame text.toStoreText (frame raw)) }) := by
  obtain ⟨⟨gaps, frames, envelopes⟩, found, parts⟩ :=
    Fallible.map_eq_ok.mp prepared
  simp only [Prod.mk.injEq, List.length_eq_zero_iff] at parts
  obtain ⟨rfl, rfl, rfl⟩ := parts
  rw [run_eq found]
  rfl

end TapeFilesSample

open TapeFilesSample

theorem safeImports_iff_same :
    SafeImports text tables (hour "hour-00.v2.ndjson")
      (hour "hour-00.v2.ndjson") := by
  refine (safeImports_iff (run_hour prepared_hours.1 _)
    (run_hour prepared_hours.1 _)).mpr ?_
  intro left leftFound right rightFound
  rw [leftFound] at rightFound
  cases rightFound
  exact ⟨fun _ _ _ one _ other => Option.mem_unique one other,
    fun _ _ _ one _ other => Option.mem_unique one other⟩

/-- The frame that came first stays, and the other is dropped without an
error. -/
theorem hours_not_safeImports :
    ¬ SafeImports text tables (hour "hour-00.v2.ndjson")
      (hour "hour-01.v2.ndjson") := by
  intro safe
  obtain ⟨other, last, begun, ended, same⟩ := safe.exchange _ _ _ _
    (run_hour prepared_hours.1 _) (run_hour prepared_hours.2 _)
  rw [run_hour prepared_hours.2] at begun
  cases begun
  rw [run_hour prepared_hours.1] at ended
  cases ended
  have kept := (same.auditFrames
    (.ofFrame text.toStoreText (frame "null"))).mp (by decide +kernel)
  exact absurd kept (by decide +kernel)

end PublicTape

end Pmkit
