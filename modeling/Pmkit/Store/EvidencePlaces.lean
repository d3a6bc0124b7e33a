import Pmkit.Store.Corroboration

/-!
# Places of reconciled evidence

The occurrences of a request are ranked within their time, market and stream,
and the rank is part of the key that the store has for them.
-/

namespace Pmkit

open MachineInt JsonValue Reconciliation

def CanonicalOccurrence.row (text : ReconcilerText)
    (occurrence : CanonicalOccurrence) : EnvelopeRow :=
  .ofEnvelope text.toStoreText occurrence.envelope

namespace Reconciliation

def ParsedRecord.streamKey (record : ParsedRecord) :
    Option (I64 × String × String) :=
  record.streamId.map fun stream =>
    (record.eventTimeMs, record.partition.marketId, stream)

/-- What both lanes have at a time of a stream, in the order of the
occurrences. -/
def streamItems (items : List Corroborated) (key : I64 × String × String) :
    List Corroborated :=
  items.filter fun item => item.record.streamKey = some key

/-- Two records leave the same row in the same place. -/
structure StoredAlike (text : ReconcilerText) (first second : ParsedRecord) :
    Prop where
  snapshot : first.partition.snapshot = second.partition.snapshot
  venueId : first.venueId = second.venueId
  configHash : first.configHash = second.configHash
  canonicalBytes : first.canonicalBytes = second.canonicalBytes
  normalized : text.writeJson first.normalized =
    text.writeJson second.normalized

def PlacesAgree (text : ReconcilerText)
    (request other : ReconciliationRequest) : Prop :=
  ∀ (key : I64 × String × String) (index : Nat) (first second : Corroborated),
    (streamItems (corroborated request.expectedLanes.keys
      (readRecords text request.records)) key)[index]? = some first →
    (streamItems (corroborated other.expectedLanes.keys
      (readRecords text other.records)) key)[index]? = some second →
    StoredAlike text first.record second.record

variable {text : ReconcilerText}

def ParsedRecord.NamesMarket (record : ParsedRecord) : Prop :=
  (record.normalized.get "canonical_market_id").bind asStr =
    some record.partition.marketId

theorem namesMarket_of_read {raw : RawMarketLaneRecord} {record : ParsedRecord}
    (read : parseRecord text raw = some record) : record.NamesMarket := by
  unfold parseRecord at read
  split at read
  · cases read
  · split at read
    · cases read
    · rename_i wire _ accepted
      simp only [not_or, not_not] at accepted
      cases read
      exact accepted.2.2.2.2.2.2.1

variable {item : Corroborated} {items : List Corroborated}
  {key : I64 × String × String} {index : Nat} {scope : OwnerScope}
  {numbered : StreamRanks × List CanonicalOccurrence}

theorem namesMarket_of_corroborated
    {lanes : List String} {raws : List RawMarketLaneRecord}
    (mem : item ∈ corroborated lanes (readRecords text raws)) :
    item.record.NamesMarket := by
  obtain ⟨⟨partition, digest⟩, _, isCopy⟩ := List.mem_flatMap.mp mem
  unfold copies at isCopy
  split at isCopy
  · cases isCopy
  · rename_i record found
    obtain ⟨ordinal, _, rfl⟩ := List.mem_map.mp isCopy
    obtain ⟨laneId, _, first⟩ := List.exists_of_findSome?_eq_some found
    have inside := List.mem_of_mem_filter (List.mem_of_mem_head? first)
    obtain ⟨raw, _, read⟩ := List.mem_filterMap.mp inside
    show record.NamesMarket
    exact namesMarket_of_read read

def placeKey (key : I64 × String × String) (rank : I64) : ReplayKey where
  sourceTimestampMs := key.1
  canonicalSourceRank := rank
  canonicalMarketId := key.2.1
  streamId := key.2.2
  connectionEpoch := 0
  frameSequence := rank

section Rows

variable {scope : OwnerScope} {record other : ParsedRecord}
  {key otherKey : I64 × String × String} {rank otherRank : I64}

theorem row_key
    (names : record.NamesMarket) (keyed : record.streamKey = some key) :
    (EnvelopeRow.ofEnvelope text.toStoreText
      (canonicalEnvelope scope record rank)).key = placeKey key rank := by
  obtain ⟨stream, isStream, rfl⟩ := Option.map_eq_some_iff.mp keyed
  have market : (canonicalEnvelope scope record rank).canonicalMarketId =
      record.partition.marketId := by
    obtain ⟨value, found, isText⟩ := Option.bind_eq_some_iff.mp names
    rw [PmEnvelope.canonicalMarketId]
    change (((record.normalized.get _).or _).bind _).getD _ = _
    rw [found, Option.some_or, Option.bind_some, isText, Option.getD_some]
  have streamId : (canonicalEnvelope scope record rank).canonicalStreamId
      text.toStoreText = stream := by
    have read : ((canonicalEnvelope scope record rank).normalized.get
        "stream_id").bind JsonValue.asStr = some stream := isStream
    simp only [PmEnvelope.canonicalStreamId, read]
  rw [placeKey, ← market, ← streamId]
  rfl

theorem conflicts_iff
    (names : record.NamesMarket) (keyed : record.streamKey = some key)
    (otherNames : other.NamesMarket)
    (otherKeyed : other.streamKey = some otherKey) :
    (EnvelopeRow.ofEnvelope text.toStoreText
        (canonicalEnvelope scope record rank)).conflicts
      (.ofEnvelope text.toStoreText
        (canonicalEnvelope scope other otherRank)) = true ↔
      key = otherKey ∧ rank = otherRank := by
  have first : (EnvelopeRow.ofEnvelope text.toStoreText
      (canonicalEnvelope scope record rank)).key = placeKey key rank :=
    row_key names keyed
  have second : (EnvelopeRow.ofEnvelope text.toStoreText
      (canonicalEnvelope scope other otherRank)).key =
        placeKey otherKey otherRank :=
    row_key otherNames otherKeyed
  rw [EnvelopeRow.conflicts, decide_eq_true_eq]
  constructor
  · rintro (primary | unique)
    · simp only [EnvelopeRow.primaryKey, first, second, placeKey,
        EnvelopeKey.mk.injEq] at primary
      obtain ⟨_, _, _, time, market, stream, _, sameRank⟩ := primary
      exact ⟨Prod.ext time (Prod.ext market stream), sameRank⟩
    · simp only [EnvelopeRow.uniqueKey, first, second, placeKey, Prod.mk.injEq,
        ReplayKey.mk.injEq] at unique
      obtain ⟨_, time, sameRank, market, stream, _⟩ := unique
      exact ⟨Prod.ext time (Prod.ext market stream), sameRank⟩
  · rintro ⟨rfl, rfl⟩
    right
    rw [EnvelopeRow.uniqueKey, EnvelopeRow.uniqueKey, first, second]
    rfl

/-- Records in the same place leave the same row just when they are stored
alike. -/
theorem row_eq_iff
    (names : record.NamesMarket) (keyed : record.streamKey = some key)
    (otherNames : other.NamesMarket) (otherKeyed : other.streamKey = some key) :
    EnvelopeRow.ofEnvelope text.toStoreText
        (canonicalEnvelope scope record rank) =
      .ofEnvelope text.toStoreText (canonicalEnvelope scope other rank) ↔
      StoredAlike text record other := by
  have first : (EnvelopeRow.ofEnvelope text.toStoreText
      (canonicalEnvelope scope record rank)).key = placeKey key rank :=
    row_key names keyed
  have second : (EnvelopeRow.ofEnvelope text.toStoreText
      (canonicalEnvelope scope other rank)).key = placeKey key rank :=
    row_key otherNames otherKeyed
  constructor
  · intro same
    refine ⟨?_, congrArg EnvelopeRow.venueId same,
      congrArg EnvelopeRow.configHash same, congrArg EnvelopeRow.rawFrame same,
      congrArg EnvelopeRow.normalizedJson same⟩
    have connection := congrArg EnvelopeRow.connectionId same
    exact String.append_right_inj _ |>.mp connection
  · intro alike
    have times : record.eventTimeMs = other.eventTimeMs := by
      obtain ⟨_, _, rfl⟩ := Option.map_eq_some_iff.mp keyed
      obtain ⟨_, _, same⟩ := Option.map_eq_some_iff.mp otherKeyed
      exact (congrArg Prod.fst same).symm
    have keys := first.trans second.symm
    unfold EnvelopeRow.ofEnvelope at keys ⊢
    simp only [EnvelopeRow.mk.injEq]
    refine ⟨rfl, rfl, ?_, keys, rfl, rfl, times, alike.venueId,
      alike.configHash, alike.canonicalBytes, ?_, alike.normalized, ?_⟩
    · exact congrArg ("reconciliation:" ++ ·) alike.snapshot
    · exact congrArg text.sha256Hex alike.canonicalBytes
    · exact congrArg (fun text' : String => text.sha256Hex text'.toUTF8.toList)
        alike.normalized

end Rows

/-! ## Numbers -/

variable {own : I64 × String × String}

theorem streamItems_concat (items : List Corroborated) (item : Corroborated)
    (keyed : item.record.streamKey = some own)
    (key : I64 × String × String) :
    streamItems (items ++ [item]) key =
      streamItems items key ++ if own = key then [item] else [] := by
  rw [streamItems, List.filter_append, List.filter_singleton, keyed]
  by_cases same : own = key
  · simp [streamItems, same]
  · simp [streamItems, same]

theorem getElem?_streamItems_concat {other : Corroborated}
    (keyed : item.record.streamKey = some own) :
    (streamItems (items ++ [item]) key)[index]? = some other ↔
      (streamItems items key)[index]? = some other ∨
        own = key ∧ index = (streamItems items own).length ∧ item = other := by
  rw [streamItems_concat items item keyed, List.getElem?_append]
  split
  · rename_i inside
    constructor
    · exact .inl
    · rintro (found | ⟨rfl, rfl, _⟩)
      · exact found
      · exact absurd inside (lt_irrefl _)
  · rename_i outside
    rw [not_lt] at outside
    rw [List.getElem?_eq_none outside]
    by_cases same : own = key
    · subst same
      rw [if_pos rfl, List.getElem?_singleton]
      constructor
      · intro found
        split at found
        · rename_i isLast
          exact .inr ⟨rfl, by omega, Option.some.inj found⟩
        · cases found
      · rintro (found | ⟨_, rfl, rfl⟩)
        · cases found
        · simp
    · simp [same]

/-- Each item is an occurrence whose rank is its place in its stream. -/
structure Numbered (scope : OwnerScope) (items : List Corroborated)
    (numbered : StreamRanks × List CanonicalOccurrence) : Prop where
  ranks : ∀ key, ((numbered.1.lookup key).getD 0).1 =
    (streamItems items key).length
  places : ∀ occurrence, occurrence ∈ numbered.2 ↔
    ∃ (key : I64 × String × String) (index : Nat) (item : Corroborated)
      (rank : I64), (streamItems items key)[index]? = some item ∧
        rank.1 = index ∧ occurrence = item.occurrence scope rank

theorem number_numbered {after : StreamRanks × List CanonicalOccurrence}
    (before : Numbered scope items numbered)
    (ranked : number scope numbered item = .ok after) :
    ∃ key, ∃ rank : I64, item.record.streamKey = some key ∧
      rank.1 = (streamItems items key).length ∧
      after.2 = numbered.2 ++ [item.occurrence scope rank] ∧
      Numbered scope (items ++ [item]) after := by
  obtain ⟨⟨ranks, rank⟩, found, rfl⟩ := Fallible.map_eq_ok.mp ranked
  unfold nextRank at found
  split at found
  · cases found
  · rename_i stream isStream
    simp only at found
    split at found
    · cases found
    · rename_i next isNext
      cases found
      have keyed : item.record.streamKey = some (item.record.eventTimeMs,
          item.record.partition.marketId, stream) :=
        Option.map_eq_some_iff.mpr ⟨stream, isStream, rfl⟩
      refine ⟨_, _, keyed, before.ranks _, rfl, ?_, ?_⟩
      · intro key
        rw [streamItems_concat items item keyed, List.length_append,
          KeyedMap.lookup_insert_eq]
        have current := before.ranks key
        split
        · rename_i same
          subst same
          rw [Option.getD_some, I64.ofInt_eq_some.mp isNext, current]
          simp
        · rename_i ne
          rw [current, if_neg (Ne.symm ne)]
          simp
      · intro occurrence
        rw [List.mem_append, List.mem_singleton, before.places]
        constructor
        · rintro (⟨key, index, other, rank, found, place, same⟩ | same)
          · exact ⟨key, index, other, rank,
              (getElem?_streamItems_concat keyed).mpr (.inl found), place, same⟩
          · exact ⟨_, _, item, _, (getElem?_streamItems_concat keyed).mpr
              (.inr ⟨rfl, rfl, rfl⟩), before.ranks _, same⟩
        · rintro ⟨key, index, other, rank, found, place, rfl⟩
          rcases (getElem?_streamItems_concat keyed).mp found with
            old | ⟨rfl, rfl, rfl⟩
          · exact .inl ⟨key, index, other, rank, old, place, rfl⟩
          · right
            rw [Subtype.ext (place.trans (before.ranks _).symm)]

theorem numbers_numbered
    (ranked : items.foldlM (number scope) (∅, []) = .ok numbered) :
    Numbered scope items numbered := by
  induction items using List.reverseRecOn generalizing numbered with
  | nil =>
      cases ranked
      refine ⟨fun key => ?_, fun occurrence => ?_⟩
      · simp [streamItems, I64.zero_val]
      · simp [streamItems]
  | append_singleton items item ih =>
      rw [List.foldlM_append] at ranked
      obtain ⟨middle, before, last⟩ := Fallible.bind_eq_ok.mp ranked
      rw [List.foldlM_cons] at last
      obtain ⟨after, handled, done⟩ := Fallible.bind_eq_ok.mp last
      cases done
      obtain ⟨_, _, _, _, _, all⟩ :=
        number_numbered (ih before) handled
      exact all

theorem Numbered.exists_rank (all : Numbered scope items numbered)
    (found : (streamItems items key)[index]? = some item) :
    ∃ rank : I64, rank.1 = index := by
  have bound := (List.getElem?_eq_some_iff.mp found).1
  obtain ⟨_, high⟩ := ((numbered.1.lookup key).getD 0).2
  rw [all.ranks key] at high
  exact ⟨⟨index, by omega, by omega⟩, rfl⟩

theorem streamKey_of_getElem?
    (found : (streamItems items key)[index]? = some item) :
    item ∈ items ∧ item.record.streamKey = some key := by
  have mem := List.mem_filter.mp (List.mem_of_getElem? found)
  exact ⟨mem.1, by simpa using mem.2⟩

theorem numbers_nodup (names : ∀ item ∈ items, item.record.NamesMarket)
    (ranked : items.foldlM (number scope) (∅, []) = .ok numbered) :
    (numbered.2.map (CanonicalOccurrence.row text)).Nodup := by
  induction items using List.reverseRecOn generalizing numbered with
  | nil =>
      cases ranked
      exact List.nodup_nil
  | append_singleton items item ih =>
      rw [List.foldlM_append] at ranked
      obtain ⟨middle, before, last⟩ := Fallible.bind_eq_ok.mp ranked
      rw [List.foldlM_cons] at last
      obtain ⟨after, handled, done⟩ := Fallible.bind_eq_ok.mp last
      cases done
      have earlier := numbers_numbered before
      obtain ⟨key, rank, keyed, place, grown, _⟩ :=
        number_numbered earlier handled
      have known : ∀ item ∈ items, item.record.NamesMarket :=
        fun item mem => names item (List.mem_append_left _ mem)
      rw [grown, List.map_append, List.map_singleton]
      refine List.Nodup.append (ih known before)
        (List.nodup_singleton _) ?_
      rw [List.disjoint_singleton]
      intro taken
      obtain ⟨occurrence, mem, same⟩ := List.mem_map.mp taken
      obtain ⟨otherKey, index, other, otherRank, found, otherPlace, rfl⟩ :=
        (earlier.places occurrence).mp mem
      obtain ⟨inside, otherKeyed⟩ := streamKey_of_getElem? found
      have keys := congrArg EnvelopeRow.key same
      have otherRow : (CanonicalOccurrence.row text
          (other.occurrence scope otherRank)).key =
            placeKey otherKey otherRank :=
        row_key (known other inside) otherKeyed
      have ownRow : (CanonicalOccurrence.row text
          (item.occurrence scope rank)).key = placeKey key rank :=
        row_key (names item (by simp)) keyed
      rw [otherRow, ownRow] at keys
      simp only [placeKey, ReplayKey.mk.injEq] at keys
      obtain ⟨time, rfl, market, stream, _⟩ := keys
      obtain rfl : otherKey = key := Prod.ext time (Prod.ext market stream)
      have bound := (List.getElem?_eq_some_iff.mp found).1
      omega

end Reconciliation

end Pmkit
