import Pmkit.Store.EvidencePlaces
import Pmkit.Store.SameEvidence
import Pmkit.Store.TapeImport

/-!
# Storing reconciled evidence

Each request is stored in one transaction.  Requests can all be stored just when
what they have in the same places is the same.
-/

namespace Pmkit

open MachineInt JsonValue Transaction Reconciliation

/-- `reconcile_and_store_redundant_market_evidence`; no transaction is open
before or behind it. -/
def reconcileAndStoreRedundantMarketEvidence (text : ReconcilerText)
    (tables : TapeTables) (request : ReconciliationRequest) :
    Except ReconciliationError ReconciliationResult × TapeTables :=
  match reconcileRedundantMarketEvidence text request with
  | .error error => (.error error, tables)
  | .ok result =>
      let envelopes := result.occurrences.map CanonicalOccurrence.envelope
      match TapeTables.storePublicTapeImport text.toStoreText (.idle tables)
          result.gaps [] envelopes with
      | (.error error, connection) =>
          (.error (.store error), connection.committed)
      | (.ok (), connection) => (.ok result, connection.committed)

def tablesAfter (text : ReconcilerText) (tables : TapeTables)
    (requests : List ReconciliationRequest) : TapeTables :=
  requests.foldl (fun tables request =>
    (reconcileAndStoreRedundantMarketEvidence text tables request).2) tables

/-- In every state of a run each request succeeds, the occurrences of earlier
requests are stored once, and earlier requests change nothing. -/
structure AlwaysStored (text : ReconcilerText) (tables : TapeTables)
    (requests : List ReconciliationRequest) : Prop where
  succeeds : ∀ earlier request later,
    requests = earlier ++ request :: later → ∀ result,
      reconcileRedundantMarketEvidence text request = .ok result →
      (reconcileAndStoreRedundantMarketEvidence text
        (tablesAfter text tables earlier) request).1 = .ok result
  once : ∀ earlier later, requests = earlier ++ later →
    ∀ request ∈ earlier, ∀ result,
      reconcileRedundantMarketEvidence text request = .ok result →
      (result.occurrences.map (CanonicalOccurrence.row text)).Nodup ∧
        ∀ occurrence ∈ result.occurrences,
          (tablesAfter text tables earlier).envelopes.rows.count
            (occurrence.row text) = 1
  repeats : ∀ earlier later, requests = earlier ++ later →
    ∀ request ∈ earlier, ∀ result,
      reconcileRedundantMarketEvidence text request = .ok result →
      reconcileAndStoreRedundantMarketEvidence text
          (tablesAfter text tables earlier) request =
        (.ok result, tablesAfter text tables earlier)

namespace Reconciliation

variable {text : ReconcilerText}

section Requests

variable {request other : ReconciliationRequest}
  {result otherResult : ReconciliationResult}

def resultRows (text : ReconcilerText) (result : ReconciliationResult) :
    List EnvelopeRow :=
  result.occurrences.map (CanonicalOccurrence.row text)

/-- The rows of a request are those of its places. -/
theorem mem_resultRows
    (accepted : reconcileRedundantMarketEvidence text request = .ok result)
    (row : EnvelopeRow) :
    row ∈ resultRows text result ↔
      ∃ (key : I64 × String × String) (index : Nat) (item : Corroborated)
        (rank : I64), (streamItems (corroborated request.expectedLanes.keys
          (readRecords text request.records)) key)[index]? = some item ∧
        rank.1 = index ∧ row = .ofEnvelope text.toStoreText
          (canonicalEnvelope request.scope item.record rank) := by
  obtain ⟨_, _, _, ⟨ranks, numbered⟩, _⟩ := reconcile_eq_ok_iff.mp accepted
  have places := (numbers_numbered numbered).places
  rw [resultRows, List.mem_map]
  constructor
  · rintro ⟨occurrence, mem, rfl⟩
    obtain ⟨key, index, item, rank, found, place, rfl⟩ :=
      (places occurrence).mp mem
    exact ⟨key, index, item, rank, found, place, rfl⟩
  · rintro ⟨key, index, item, rank, found, place, rfl⟩
    exact ⟨_, (places _).mpr ⟨key, index, item, rank, found, place, rfl⟩, rfl⟩

theorem resultRows_nodup
    (accepted : reconcileRedundantMarketEvidence text request = .ok result) :
    (resultRows text result).Nodup := by
  obtain ⟨_, _, _, ⟨ranks, numbered⟩, _⟩ := reconcile_eq_ok_iff.mp accepted
  exact numbers_nodup (fun item => namesMarket_of_corroborated) numbered

/-- Two requests have the same in the same places just when their rows conflict
only with their own copies. -/
theorem placesAgree_iff (scope : request.scope = other.scope)
    (accepted : reconcileRedundantMarketEvidence text request = .ok result)
    (otherAccepted :
      reconcileRedundantMarketEvidence text other = .ok otherResult) :
    PlacesAgree text request other ↔
      ∀ row ∈ resultRows text result, ∀ otherRow ∈ resultRows text otherResult,
        row.conflicts otherRow = true → row = otherRow := by
  constructor
  · intro agree row mem otherRow otherMem clash
    obtain ⟨key, index, item, rank, found, place, rfl⟩ :=
      (mem_resultRows accepted row).mp mem
    obtain ⟨otherKey, otherIndex, otherItem, otherRank, otherFound, otherPlace,
      rfl⟩ := (mem_resultRows otherAccepted otherRow).mp otherMem
    obtain ⟨inside, keyed⟩ := streamKey_of_getElem? found
    obtain ⟨otherInside, otherKeyed⟩ := streamKey_of_getElem? otherFound
    have names := namesMarket_of_corroborated inside
    have otherNames := namesMarket_of_corroborated otherInside
    rw [← scope] at clash ⊢
    obtain ⟨rfl, rfl⟩ :=
      (conflicts_iff names keyed otherNames otherKeyed).mp clash
    obtain rfl : index = otherIndex := by omega
    exact (row_eq_iff names keyed otherNames otherKeyed).mpr
      (agree key index item otherItem found otherFound)
  · intro same key index first second found otherFound
    obtain ⟨inside, keyed⟩ := streamKey_of_getElem? found
    obtain ⟨otherInside, otherKeyed⟩ := streamKey_of_getElem? otherFound
    have names := namesMarket_of_corroborated inside
    have otherNames := namesMarket_of_corroborated otherInside
    obtain ⟨_, _, _, ⟨ranks, numbered⟩, _⟩ := reconcile_eq_ok_iff.mp accepted
    obtain ⟨rank, place⟩ := (numbers_numbered numbered).exists_rank found
    have rows := same _
      ((mem_resultRows accepted _).mpr
        ⟨key, index, first, rank, found, place, rfl⟩) _
      ((mem_resultRows otherAccepted _).mpr
        ⟨key, index, second, rank, otherFound, place, rfl⟩)
    rw [← scope] at rows
    exact (row_eq_iff names keyed otherNames otherKeyed).mp
      (rows ((conflicts_iff names keyed otherNames otherKeyed).mpr ⟨rfl, rfl⟩))

theorem placesAgree_self
    (request : ReconciliationRequest) : PlacesAgree text request request := by
  intro key index first second found otherFound
  rw [found] at otherFound
  cases otherFound
  exact ⟨rfl, rfl, rfl, rfl, rfl⟩

end Requests

/-! ## Runs -/

section Runs

variable {start tables : TapeTables} {scope : OwnerScope}
  {requests earlier : List ReconciliationRequest}
  {request : ReconciliationRequest} {result : ReconciliationResult}

theorem reconcileAndStore_eq
    (accepted : reconcileRedundantMarketEvidence text request = .ok result)
    (tables : TapeTables) :
    reconcileAndStoreRedundantMarketEvidence text tables request =
      match tables.envelopes.storeEnvelopes text.toStoreText
          (result.occurrences.map CanonicalOccurrence.envelope) with
      | .error error => (.error (.store error), tables)
      | .ok stored => (.ok result, { tables with
            gaps := result.gaps.foldl ReplayGapTable.storeReplayGap tables.gaps
            envelopes := stored }) := by
  rw [reconcileAndStoreRedundantMarketEvidence, accepted]
  simp only [TapeTables.storePublicTapeImport_eq]
  cases tables.envelopes.storeEnvelopes text.toStoreText
      (result.occurrences.map CanonicalOccurrence.envelope) with
  | error error => rfl
  | ok stored => rfl

/-- The tables hold what requests have, and what was there at the start. -/
structure Holds (text : ReconcilerText) (start : TapeTables)
    (earlier : List ReconciliationRequest) (tables : TapeTables) : Prop where
  rows : ∀ row, row ∈ tables.envelopes.rows ↔
    row ∈ start.envelopes.rows ∨ ∃ request ∈ earlier, ∃ result,
      reconcileRedundantMarketEvidence text request = .ok result ∧
        row ∈ resultRows text result
  gaps : ∀ request ∈ earlier, ∀ result,
    reconcileRedundantMarketEvidence text request = .ok result →
      ∀ gap ∈ result.gaps, .ofGap gap ∈ tables.gaps.rows

theorem scope_of_mem_resultRows
    (accepted : reconcileRedundantMarketEvidence text request = .ok result)
    {row : EnvelopeRow} (mem : row ∈ resultRows text result) :
    row.scope = request.scope := by
  obtain ⟨_, _, _, _, _, _, rfl⟩ := (mem_resultRows accepted row).mp mem
  rfl

theorem scope_of_conflicts
    {row other : EnvelopeRow} (clash : row.conflicts other = true) :
    row.scope = other.scope := by
  rw [EnvelopeRow.conflicts, decide_eq_true_eq] at clash
  rcases clash with primary | unique
  · exact congrArg EnvelopeKey.scope primary
  · exact congrArg Prod.fst unique

theorem Holds.step (holds : Holds text start earlier tables)
    (fresh : ∀ row ∈ start.envelopes.rows, row.scope ≠ request.scope)
    (sameScope : ∀ other ∈ earlier, other.scope = request.scope)
    (agree : ∀ other ∈ earlier, PlacesAgree text other request)
    (accepted : reconcileRedundantMarketEvidence text request = .ok result) :
    ∃ after, reconcileAndStoreRedundantMarketEvidence text tables request =
        (.ok result, after) ∧
      Holds text start (earlier ++ [request]) after := by
  have each : ∀ envelope ∈
      result.occurrences.map CanonicalOccurrence.envelope,
      EnvelopeRow.ofEnvelope text.toStoreText envelope ∈
        resultRows text result := by
    intro envelope mem
    obtain ⟨occurrence, inside, rfl⟩ := List.mem_map.mp mem
    exact List.mem_map_of_mem inside
  have own := (placesAgree_iff rfl accepted accepted).mp
    (placesAgree_self request)
  obtain ⟨stored, written, rows⟩ := @EnvelopeTable.storeEnvelopes_agree
    text.toStoreText tables.envelopes
    (result.occurrences.map CanonicalOccurrence.envelope)
    (by
      intro row inside envelope mem clash
      have ofResult := each envelope mem
      rcases (holds.rows row).mp inside with
        old | ⟨other, otherMem, otherResult, otherAccepted, ofOther⟩
      · exact absurd ((scope_of_conflicts clash).trans
          (scope_of_mem_resultRows accepted ofResult)) (fresh row old)
      · exact (placesAgree_iff (sameScope other otherMem) otherAccepted
          accepted).mp (agree other otherMem) row ofOther _ ofResult clash)
    (fun first mem second secondMem =>
      own _ (each first mem) _ (each second secondMem))
  refine ⟨_, by rw [reconcileAndStore_eq accepted, written], ?_, ?_⟩
  · intro row
    rw [rows, holds.rows, List.map_map, or_assoc]
    refine or_congr_right ⟨?_, ?_⟩
    · rintro (⟨other, mem, rest⟩ | ofResult)
      · exact ⟨other, List.mem_append_left _ mem, rest⟩
      · exact ⟨request, by simp, result, accepted, ofResult⟩
    · rintro ⟨other, mem, otherResult, otherAccepted, ofOther⟩
      rcases List.mem_append.mp mem with old | last
      · exact .inl ⟨other, old, otherResult, otherAccepted, ofOther⟩
      · rw [List.mem_singleton.mp last, accepted] at otherAccepted
        cases otherAccepted
        exact .inr ofOther
  · intro other mem otherResult otherAccepted gap inside
    rw [ReplayGapTable.mem_storeReplayGaps]
    rcases List.mem_append.mp mem with old | last
    · exact .inl (holds.gaps other old otherResult otherAccepted gap inside)
    · rw [List.mem_singleton.mp last, accepted] at otherAccepted
      cases otherAccepted
      exact .inr (List.mem_map_of_mem inside)

theorem tablesAfter_concat :
    tablesAfter text start (earlier ++ [request]) =
      (reconcileAndStoreRedundantMarketEvidence text
        (tablesAfter text start earlier) request).2 := by
  rw [tablesAfter, List.foldl_append]
  rfl

theorem holds_tablesAfter
    (fresh : ∀ row ∈ start.envelopes.rows, row.scope ≠ scope)
    (sameScope : ∀ request ∈ earlier, request.scope = scope)
    (agree : ∀ request ∈ earlier, ∀ other ∈ earlier,
      PlacesAgree text request other)
    (accepted : ∀ request ∈ earlier, ∃ result,
      reconcileRedundantMarketEvidence text request = .ok result) :
    Holds text start earlier (tablesAfter text start earlier) := by
  induction earlier using List.reverseRecOn with
  | nil =>
      exact ⟨fun row => by simp [tablesAfter],
        fun request mem => by cases mem⟩
  | append_singleton earlier request ih =>
      have inside : ∀ other ∈ earlier, other ∈ earlier ++ [request] :=
        fun other mem => List.mem_append_left _ mem
      have last : request ∈ earlier ++ [request] := by
        simp
      have holds := ih
        (fun other mem => sameScope other (inside other mem))
        (fun first mem second secondMem =>
          agree first (inside first mem) second (inside second secondMem))
        (fun other mem => accepted other (inside other mem))
      obtain ⟨result, isOk⟩ := accepted request last
      obtain ⟨after, handled, grown⟩ := holds.step
        (sameScope request last ▸ fresh)
        (fun other mem => (sameScope other (inside other mem)).trans
          (sameScope request last).symm)
        (fun other mem => agree other (inside other mem) request last)
        isOk
      rw [tablesAfter_concat, handled]
      exact grown

/-- A request whose rows and gaps are stored changes nothing. -/
theorem Holds.repeat
    (holds : Holds text start earlier tables) (mem : request ∈ earlier)
    (accepted : reconcileRedundantMarketEvidence text request = .ok result) :
    reconcileAndStoreRedundantMarketEvidence text tables request =
      (.ok result, tables) := by
  have stored : tables.envelopes.storeEnvelopes text.toStoreText
      (result.occurrences.map CanonicalOccurrence.envelope) =
        .ok tables.envelopes := by
    apply EnvelopeTable.storeEnvelopes_stored
    intro envelope inside
    obtain ⟨occurrence, isOccurrence, rfl⟩ := List.mem_map.mp inside
    exact (holds.rows _).mpr (.inr ⟨request, mem, result, accepted,
      List.mem_map_of_mem isOccurrence⟩)
  rw [reconcileAndStore_eq accepted, stored]
  simp only [ReplayGapTable.storeReplayGaps_stored
    (holds.gaps request mem result accepted)]

end Runs

end Reconciliation

theorem EnvelopeTable.rows_nodup (table : EnvelopeTable) :
    table.rows.Nodup := by
  refine table.separated.imp ?_
  rintro left _ apart rfl
  simp [EnvelopeRow.conflicts] at apart

theorem EnvelopeTable.eq_of_conflicts
    {table : EnvelopeTable} {row other : EnvelopeRow}
    (mem : row ∈ table.rows) (otherMem : other ∈ table.rows)
    (clash : row.conflicts other = true) : row = other := by
  have symmetric : Std.Symm fun left right : EnvelopeRow =>
      left.conflicts right = false :=
    ⟨fun left right apart => by
      simp only [EnvelopeRow.conflicts, decide_eq_false_iff_not] at apart ⊢
      rwa [eq_comm, @eq_comm _ right.uniqueKey]⟩
  by_contra ne
  rw [table.separated.forall mem otherMem ne] at clash
  cases clash

theorem AlwaysStored.placesAgree {text : ReconcilerText} {start : TapeTables}
    {requests : List ReconciliationRequest}
    (always : AlwaysStored text start requests)
    {request other : ReconciliationRequest} (scope : request.scope = other.scope)
    (accepted : ∀ request ∈ requests, ∃ result,
      reconcileRedundantMarketEvidence text request = .ok result)
    (mem : request ∈ requests) (otherMem : other ∈ requests) :
    PlacesAgree text request other := by
  obtain ⟨result, isOk⟩ := accepted request mem
  obtain ⟨otherResult, otherOk⟩ := accepted other otherMem
  apply (placesAgree_iff scope isOk otherOk).mpr
  intro row ofResult otherRow ofOther clash
  -- in the last state both rows are stored
  have stored : ∀ request ∈ requests, ∀ result,
      reconcileRedundantMarketEvidence text request = .ok result →
      ∀ row ∈ resultRows text result,
        row ∈ (tablesAfter text start requests).envelopes.rows := by
    intro request mem result isOk row inside
    obtain ⟨occurrence, isOccurrence, rfl⟩ := List.mem_map.mp inside
    have once := (always.once requests [] (List.append_nil _).symm request
      mem result isOk).2 occurrence isOccurrence
    exact List.count_pos_iff.mp (by omega)
  exact EnvelopeTable.eq_of_conflicts
    (stored request mem result isOk row ofResult)
    (stored other otherMem otherResult otherOk otherRow ofOther) clash

/-- Requests of one scope are always stored just when what they have in the
same places is the same. -/
theorem alwaysStored_iff
    (text : ReconcilerText) (start : TapeTables) (scope : OwnerScope)
    (requests : List ReconciliationRequest)
    (fresh : ∀ row ∈ start.envelopes.rows, row.scope ≠ scope)
    (sameScope : ∀ request ∈ requests, request.scope = scope)
    (accepted : ∀ request ∈ requests, ∃ result,
      reconcileRedundantMarketEvidence text request = .ok result) :
    AlwaysStored text start requests ↔
      ∀ request ∈ requests, ∀ other ∈ requests,
        PlacesAgree text request other := by
  constructor
  · intro always request member other otherMember
    exact always.placesAgree ((sameScope request member).trans
      (sameScope other otherMember).symm) accepted member otherMember
  · intro agree
    have holds : ∀ earlier later, requests = earlier ++ later →
        Holds text start earlier (tablesAfter text start earlier) := by
      rintro earlier later rfl
      have inside : ∀ request ∈ earlier, request ∈ earlier ++ later :=
        fun request member => List.mem_append_left _ member
      exact holds_tablesAfter fresh
        (fun request member => sameScope request (inside request member))
        (fun request member other otherMember => agree request
          (inside request member) other (inside other otherMember))
        (fun request member => accepted request (inside request member))
    constructor
    · intro earlier request later split result isOk
      have before := holds earlier (request :: later) split
      subst split
      have last : request ∈ earlier ++ request :: later := by
        simp
      have inside : ∀ other ∈ earlier, other ∈ earlier ++ request :: later :=
        fun other member => List.mem_append_left _ member
      obtain ⟨after, handled, _⟩ := before.step
        (sameScope request last ▸ fresh)
        (fun other member => (sameScope other (inside other member)).trans
          (sameScope request last).symm)
        (fun other member => agree other (inside other member) request last)
        isOk
      rw [handled]
    · intro earlier later split request member result isOk
      refine ⟨resultRows_nodup isOk, fun occurrence inside => ?_⟩
      apply List.count_eq_one_of_mem (EnvelopeTable.rows_nodup _)
      exact ((holds earlier later split).rows _).mpr
        (.inr ⟨request, member, result, isOk, List.mem_map_of_mem inside⟩)
    · intro earlier later split request member result isOk
      exact (holds earlier later split).repeat member isOk

/-! ## Two snapshots -/

namespace StoredSample

open SampleEvidence

def nextSnapshot : String :=
  "bbbbbbbbbbbbbbbbbbbbbbbbbbbbbbbbbbbbbbbbbbbbbbbbbbbbbbbbbbbbbbbb"

/-- The digests of the record in both snapshots, told apart by a byte of them,
and of its normalized form. -/
def text : ReconcilerText where
  sha256Hex := fun bytes =>
    match (bytes[100]? : Option UInt8) with
    | some 97 =>
        "7c9ce0e3d2fb45d08febdd80a2954f613ec8863a56da5ce446c3473466799d85"
    | some 98 =>
        "2114649561c598319a517f759caf711880ed6f9717975185dd620750abc0ed77"
    | _ => "76b21ea959b949075fea8b2ceefb352a8735821bae12a69ab7a487b9f95c366a"
  writeJson := compact toString sortFields
  parseJson := fun _ => none
  toLowercase := String.toLower
  toLowercase_display := toLower_display
  readJson := fun bytes => if bytes.isEmpty then none else some wire

def bytesIn (snapshot : String) : List UInt8 :=
  (compact toString sortFields (canonicalJson ⟨snapshot, "btc-5m", 0⟩
    ⟨"btc-5m", 1000, "polymarket", "fixture", normalized⟩)).toUTF8.toList

def inSnapshot (snapshot : String) : ReconciliationRequest :=
  request [record laneA snapshot "btc-5m" wireBytes 2001,
    record laneB snapshot "btc-5m" wireBytes 2002]

def emptyTables : TapeTables where
  gaps := .empty
  auditFrames := .empty
  envelopes := .empty

def parsed (laneId snapshot digest : String) : ParsedRecord where
  laneId := laneId
  partition := ⟨snapshot, "btc-5m", 0⟩
  eventTimeMs := 1000
  venueId := "polymarket"
  configHash := "fixture"
  normalized := normalized
  canonicalBytes := bytesIn snapshot
  contentSha256 := digest

theorem wire_read : (text.readJson wireBytes).bind WireMarketRecord.read =
    some ⟨"btc-5m", 1000, "polymarket", "fixture", normalized⟩ := by
  rfl

theorem parse_record
    {snapshot digest : String} (valid : validDigest snapshot = true)
    (isDigest : text.sha256Hex (bytesIn snapshot) = digest)
    {chunk : SpoolChunk} (minute : chunk.minuteStartMs = 0)
    (receiptTimeMs : I64) :
    parseRecord text (record chunk snapshot "btc-5m" wireBytes receiptTimeMs) =
      some (parsed chunk.replicaId snapshot digest) := by
  unfold parseRecord record
  simp only [wire_read, minute, valid]
  rw [if_neg (by decide +kernel), ← isDigest]
  rfl

theorem readRecords_inSnapshot
    {snapshot digest : String} (valid : validDigest snapshot = true)
    (isDigest : text.sha256Hex (bytesIn snapshot) = digest) :
    readRecords text (inSnapshot snapshot).records =
      [parsed "lane-a" snapshot digest, parsed "lane-b" snapshot digest] := by
  change List.filterMap (parseRecord text) [record laneA _ _ _ _,
    record laneB _ _ _ _] = _
  rw [List.filterMap_cons_some (parse_record valid isDigest rfl _),
    List.filterMap_cons_some (parse_record valid isDigest rfl _)]
  rfl

/-- Both lanes have the record once. -/
theorem corroborated_parsed (snapshot digest : String) :
    corroborated lanes.keys [parsed "lane-a" snapshot digest,
      parsed "lane-b" snapshot digest] = [⟨0, parsed "" snapshot digest⟩] := by
  have isContents : contents [parsed "lane-a" snapshot digest,
      parsed "lane-b" snapshot digest] =
        [(⟨snapshot, "btc-5m", 0⟩, digest)] := by
    apply List.perm_singleton.mp
    rw [List.perm_ext_iff_of_nodup (contents_nodup _) (List.nodup_singleton _)]
    rintro ⟨partition, other⟩
    simp [mem_contents, parsed, eq_comm]
  have keys : lanes.keys = ["lane-a", "lane-b"] := rfl
  have first : laneRecords [parsed "lane-a" snapshot digest,
      parsed "lane-b" snapshot digest] ⟨snapshot, "btc-5m", 0⟩ digest "lane-a" =
        [parsed "lane-a" snapshot digest] := by
    simp [laneRecords, parsed]
  have second : laneRecords [parsed "lane-a" snapshot digest,
      parsed "lane-b" snapshot digest] ⟨snapshot, "btc-5m", 0⟩ digest "lane-b" =
        [parsed "lane-b" snapshot digest] := by
    simp [laneRecords, parsed]
  have found : template ["lane-a", "lane-b"] [parsed "lane-a" snapshot digest,
      parsed "lane-b" snapshot digest] ⟨snapshot, "btc-5m", 0⟩ digest =
        some (parsed "lane-a" snapshot digest) := by
    rw [template, List.findSome?_cons, first]
    rfl
  rw [corroborated, isContents, List.flatMap_singleton, copies, keys, found,
    laneCounts, List.map_cons, List.map_cons, first, second]
  rfl

theorem accepted_inSnapshot
    {snapshot digest : String} (valid : validDigest snapshot = true)
    (isDigest : text.sha256Hex (bytesIn snapshot) = digest) :
    ∃ result, reconcileRedundantMarketEvidence text (inSnapshot snapshot) =
      .ok result := by
  have numbered : ∃ ranks, (corroborated
      (inSnapshot snapshot).expectedLanes.keys
      (readRecords text (inSnapshot snapshot).records)).foldlM
        (number (inSnapshot snapshot).scope) (∅, []) =
      .ok (ranks, [Corroborated.occurrence (inSnapshot snapshot).scope
        ⟨0, parsed "" snapshot digest⟩ 0]) := by
    rw [readRecords_inSnapshot valid isDigest]
    show ∃ ranks, (corroborated lanes.keys _).foldlM _ _ = _
    rw [corroborated_parsed]
    exact ⟨_, rfl⟩
  refine ⟨⟨_, _⟩, reconcile_eq_ok_iff.mpr ⟨rfl, ?_, ?_, numbered, rfl⟩⟩
  · intro failure mem
    cases mem
  · intro raw mem
    rcases List.mem_pair.mp mem with rfl | rfl
    · show "lane-a" ∈ ["lane-a", "lane-b"]
      simp
    · show "lane-b" ∈ ["lane-a", "lane-b"]
      simp

theorem digest_snapshot : text.sha256Hex (bytesIn snapshot) =
    "7c9ce0e3d2fb45d08febdd80a2954f613ec8863a56da5ce446c3473466799d85" := by
  decide +kernel

theorem digest_nextSnapshot : text.sha256Hex (bytesIn nextSnapshot) =
    "2114649561c598319a517f759caf711880ed6f9717975185dd620750abc0ed77" := by
  decide +kernel

theorem snapshots_valid :
    validDigest snapshot = true ∧ validDigest nextSnapshot = true := by
  decide +kernel

theorem first_place
    {snapshot digest : String} (valid : validDigest snapshot = true)
    (isDigest : text.sha256Hex (bytesIn snapshot) = digest) :
    (streamItems (corroborated (inSnapshot snapshot).expectedLanes.keys
      (readRecords text (inSnapshot snapshot).records))
        (1000, "btc-5m", "market:btc-5m:up"))[0]? =
      some ⟨0, parsed "" snapshot digest⟩ := by
  rw [readRecords_inSnapshot valid isDigest]
  show (streamItems (corroborated lanes.keys _) _)[0]? = _
  rw [corroborated_parsed]
  rfl

end StoredSample

theorem alwaysStored_iff_repeated :
    AlwaysStored StoredSample.text StoredSample.emptyTables
      [StoredSample.inSnapshot SampleEvidence.snapshot,
        StoredSample.inSnapshot SampleEvidence.snapshot] := by
  refine (alwaysStored_iff StoredSample.text StoredSample.emptyTables
    (StoredSample.inSnapshot SampleEvidence.snapshot).scope _ ?_ ?_ ?_).mpr ?_
  · intro row member
    cases member
  · simp
  · intro request member
    obtain rfl : request = StoredSample.inSnapshot SampleEvidence.snapshot := by
      simpa using member
    exact StoredSample.accepted_inSnapshot StoredSample.snapshots_valid.1
      StoredSample.digest_snapshot
  · intro request member other otherMember
    obtain rfl : request = StoredSample.inSnapshot SampleEvidence.snapshot := by
      simpa using member
    obtain rfl : other = StoredSample.inSnapshot SampleEvidence.snapshot := by
      simpa using otherMember
    exact placesAgree_self _

/-- Requests for two snapshots with a record of one market, stream and
millisecond are both accepted, but not both stored. -/
theorem evidence_not_alwaysStored :
    ¬ ∀ (text : ReconcilerText) (start : TapeTables) (scope : OwnerScope)
      (requests : List ReconciliationRequest),
      (∀ row ∈ start.envelopes.rows, row.scope ≠ scope) →
      (∀ request ∈ requests, request.scope = scope) →
      (∀ request ∈ requests, ∃ result,
        reconcileRedundantMarketEvidence text request = .ok result) →
      AlwaysStored text start requests := by
  intro always
  have accepted : ∀ request ∈
      [StoredSample.inSnapshot SampleEvidence.snapshot,
        StoredSample.inSnapshot StoredSample.nextSnapshot], ∃ result,
      reconcileRedundantMarketEvidence StoredSample.text request =
        .ok result := by
    intro request member
    simp only [List.mem_cons, List.not_mem_nil, or_false] at member
    rcases member with rfl | rfl
    · exact StoredSample.accepted_inSnapshot StoredSample.snapshots_valid.1
        StoredSample.digest_snapshot
    · exact StoredSample.accepted_inSnapshot StoredSample.snapshots_valid.2
        StoredSample.digest_nextSnapshot
  have stored := always StoredSample.text StoredSample.emptyTables
    (StoredSample.inSnapshot SampleEvidence.snapshot).scope
    [StoredSample.inSnapshot SampleEvidence.snapshot,
      StoredSample.inSnapshot StoredSample.nextSnapshot]
    (fun row member => by cases member)
    (by
      intro request member
      simp only [List.mem_cons, List.not_mem_nil, or_false] at member
      rcases member with rfl | rfl <;> rfl)
    accepted
  have agree : PlacesAgree StoredSample.text
      (StoredSample.inSnapshot SampleEvidence.snapshot)
      (StoredSample.inSnapshot StoredSample.nextSnapshot) :=
    stored.placesAgree rfl accepted List.mem_cons_self
      (List.mem_cons_of_mem _ List.mem_cons_self)
  have alike := agree _ 0 _ _
    (StoredSample.first_place StoredSample.snapshots_valid.1
      StoredSample.digest_snapshot)
    (StoredSample.first_place StoredSample.snapshots_valid.2
      StoredSample.digest_nextSnapshot)
  exact absurd alike.snapshot (by decide +kernel)

end Pmkit
