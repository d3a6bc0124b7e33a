import Pmkit.Export.Coverage
import Pmkit.Library.Fallible
import Pmkit.Library.Grouping
import Pmkit.Library.Parts
import Pmkit.Library.SortedMap

/-!
# Where the rows of an export come from

The groups of an export hold, under each partition, the rows of its envelopes
in their replay order, and what the first of these envelopes declares.  The
parts of a group are consecutive, so every part has its own envelopes behind
it.
-/

namespace Pmkit

open MachineInt JsonValue

/-! ## Envelopes and their partitions -/

def ReplayItem.asEnvelope : ReplayItem → Option PmEnvelope
  | .envelope replayed => some replayed
  | .gap _ => none

/-- The stored envelopes of a scope that pass their integrity checks, in
replay order. -/
def MarketStore.scopeEnvelopes (text : PortableText) (store : MarketStore)
    (scope : OwnerScope) : List PmEnvelope :=
  ((store.envelopes.scopeRows scope).map
    (decodeRow text.toStoreText)).filterMap ReplayItem.asEnvelope

/-- The metadata that an envelope is exported under, and whether it is that of
an envelope without any. -/
def PmEnvelope.declared (envelope : PmEnvelope) : MarketMetadata × Bool :=
  (marketMetadata envelope.normalized envelope.canonicalMarketId).toOption.getD
    (.legacy envelope.canonicalMarketId, true)

def PmEnvelope.partition (text : PortableText) (envelope : PmEnvelope) :
    SegmentPartition where
  marketId := envelope.declared.1.marketId
  minuteStartMs := minuteStart envelope.sourceTimestampMs.1
  discoverySnapshotSha256 := envelopeDiscoverySnapshot text envelope

structure PmEnvelope.Exportable (manifest : SealedClosedDayManifest)
    (envelope : PmEnvelope) : Prop where
  inside : manifest.contains envelope.sourceTimestampMs = true
  nonnegative : 0 ≤ envelope.sourceTimestampMs.1
  named : envelope.canonicalMarketId ≠ ""
  read : marketMetadata envelope.normalized envelope.canonicalMarketId =
    .ok envelope.declared
  valid : envelope.declared.2 = true ∨ envelope.declared.1.isValid = true

theorem materializeEnvelope_eq_ok
    {text : PortableText} {manifest : SealedClosedDayManifest}
    {segments next : SegmentMap} {envelope : PmEnvelope}
    (handled : materializeEnvelope text manifest segments envelope = .ok next) :
    envelope.Exportable manifest ∧
      next = segments.pushRow (envelope.partition text) envelope.declared.1
        envelope.declared.2 (exportRow envelope) := by
  unfold materializeEnvelope at handled
  split at handled
  · cases handled
  · rename_i inside
    split at handled
    · cases handled
    · rename_i named
      split at handled
      · cases handled
      · rename_i metadata legacyCoverage read
        split at handled
        · cases handled
        · rename_i valid
          have isDeclared : envelope.declared = (metadata, legacyCoverage) := by
            rw [PmEnvelope.declared, read]
            rfl
          cases handled
          push Not at inside
          refine ⟨⟨?_, inside.2, named, ?_, ?_⟩, ?_⟩
          · cases within : manifest.contains envelope.sourceTimestampMs with
            | true => rfl
            | false => exact absurd within inside.1
          · rw [read, isDeclared]
          · rw [isDeclared]
            cases legacyCoverage with
            | true => exact .inl rfl
            | false =>
                right
                cases isValid : metadata.isValid with
                | true => rfl
                | false => exact absurd ⟨rfl, isValid⟩ valid
          · rw [PmEnvelope.partition, isDeclared]

namespace SegmentPartition

theorem compareSnapshot_eq (left right : Option String) :
    compareSnapshot left right =
      compareLex (compareOn Option.isSome)
        (compareOn fun snapshot : Option String => snapshot.getD "")
        left right := by
  cases left with
  | none =>
      cases right with
      | none => decide
      | some right => rfl
  | some left =>
      cases right with
      | none => rfl
      | some right =>
          simp [compareSnapshot, compareLex, compareOn]

theorem cmp_eq :
    SegmentPartition.cmp =
      compareLex (compareOn marketId)
        (compareLex (compareOn minuteStartMs)
          (compareLex (compareOn fun partition : SegmentPartition =>
            partition.discoverySnapshotSha256.isSome)
            (compareOn fun partition =>
              partition.discoverySnapshotSha256.getD ""))) := by
  funext left right
  rw [cmp, compareSnapshot_eq]
  rfl

instance : Std.TransCmp SegmentPartition.cmp := by
  rw [cmp_eq]
  infer_instance

instance : Std.LawfulEqCmp SegmentPartition.cmp where
  compare_self := by
    intro partition
    rw [cmp_eq]
    simp [compareLex, compareOn]
  eq_of_compare := by
    intro left right ties
    rw [cmp_eq] at ties
    simp only [compareLex, compareOn, Ordering.then_eq_eq] at ties
    obtain ⟨market, minute, isSome, snapshot⟩ := ties
    cases left with
    | mk leftMarket leftMinute leftSnapshot =>
        cases right with
        | mk rightMarket rightMinute rightSnapshot =>
            have markets := Std.LawfulEqOrd.compare_eq_iff_eq.mp market
            have minutes := Std.LawfulEqOrd.compare_eq_iff_eq.mp minute
            have kinds := Std.LawfulEqOrd.compare_eq_iff_eq.mp isSome
            have snapshots := Std.LawfulEqOrd.compare_eq_iff_eq.mp snapshot
            rw [SegmentPartition.mk.injEq]
            refine ⟨markets, minutes, ?_⟩
            cases leftSnapshot <;> cases rightSnapshot <;> simp_all

end SegmentPartition

/-! ## Groups -/

def envelopesOf (text : PortableText) (envelopes : List PmEnvelope)
    (partition : SegmentPartition) : List PmEnvelope :=
  Grouping.ofKey (PmEnvelope.partition text) envelopes partition

/-- The group of some envelopes of one partition: the first declares it, and
every one has a row. -/
def groupOf : List PmEnvelope → Option SegmentRows
  | [] => none
  | first :: rest =>
      some
        { metadata := first.declared.1
          legacyCoverage := first.declared.2
          rows := (first :: rest).map exportRow }

structure SegmentMap.Holds (text : PortableText) (envelopes : List PmEnvelope)
    (segments : SegmentMap) : Prop where
  sorted : segments.Pairwise fun left right => left.1.cmp right.1 = .lt
  found : ∀ partition, SortedMap.findIn SegmentPartition.cmp partition
    segments = groupOf (envelopesOf text envelopes partition)

section Groups

variable {text : PortableText}

theorem groupOf_concat (envelopes : List PmEnvelope) (envelope : PmEnvelope) :
    groupOf (envelopes ++ [envelope]) =
      some
        { (groupOf envelopes).getD
            ⟨envelope.declared.1, envelope.declared.2, []⟩ with
          rows := ((groupOf envelopes).getD
              ⟨envelope.declared.1, envelope.declared.2, []⟩).rows ++
            [exportRow envelope] } := by
  cases envelopes with
  | nil => rfl
  | cons first rest =>
      simp [groupOf]

theorem SegmentMap.pushRow_eq
    (partition : SegmentPartition) (metadata : MarketMetadata)
    (legacyCoverage : Bool) (row : JsonValue) (segments : SegmentMap) :
    segments.pushRow partition metadata legacyCoverage row =
      SortedMap.changeIn SegmentPartition.cmp partition
        ⟨metadata, legacyCoverage, []⟩
        (fun group => { group with rows := group.rows ++ [row] }) segments := by
  induction segments with
  | nil =>
      rfl
  | cons entry rest ih =>
      obtain ⟨first, group⟩ := entry
      rw [pushRow, SortedMap.changeIn, ih]
      cases partition.cmp first <;> rfl

variable {segments : SegmentMap} {manifest : SealedClosedDayManifest}

theorem SegmentMap.Holds.push {envelopes : List PmEnvelope}
    (holds : segments.Holds text envelopes) (envelope : PmEnvelope) :
    SegmentMap.Holds text (envelopes ++ [envelope])
      (segments.pushRow (envelope.partition text) envelope.declared.1
        envelope.declared.2 (exportRow envelope)) := by
  rw [pushRow_eq]
  constructor
  · exact SortedMap.changeIn_sorted _ _ _ holds.sorted
  · intro partition
    rw [SortedMap.findIn_changeIn _ _ _ holds.sorted, holds.found, holds.found]
    unfold envelopesOf
    rw [Grouping.ofKey_append]
    by_cases same : partition = envelope.partition text
    · have alone : Grouping.ofKey (PmEnvelope.partition text) [envelope]
          (envelope.partition text) = [envelope] :=
        Grouping.ofKey_cons_self envelope []
      rw [if_pos same, same, alone, groupOf_concat]
    · have other : Grouping.ofKey (PmEnvelope.partition text) [envelope]
          partition = [] :=
        Grouping.ofKey_cons_ne (Ne.symm same) []
      rw [if_neg same, other, List.append_nil]

/-- What the loop over the items of the pages has collected. -/
theorem holds_of_foldlM {items : List ReplayItem}
    {before : List PmEnvelope} {final : SegmentMap}
    (start : segments.Holds text before)
    (taken : ∀ envelope ∈ before, envelope.Exportable manifest)
    (loop : items.foldlM (materializeItem text manifest) segments = .ok final) :
    final.Holds text (before ++ items.filterMap ReplayItem.asEnvelope) ∧
      ∀ envelope ∈ before ++ items.filterMap ReplayItem.asEnvelope,
        envelope.Exportable manifest := by
  induction items generalizing before segments with
  | nil =>
      cases loop
      simpa using ⟨start, taken⟩
  | cons item rest ih =>
      rw [List.foldlM_cons] at loop
      obtain ⟨next, handled, later⟩ := Fallible.bind_eq_ok.mp loop
      cases item with
      | gap gap =>
          simp only [materializeItem] at handled
          split at handled
          · cases handled
          · cases handled
            exact ih start taken later
      | envelope envelope =>
          obtain ⟨exportable, rfl⟩ := materializeEnvelope_eq_ok handled
          have grown := ih (start.push envelope) (by
            intro other mem
            rcases List.mem_append.mp mem with old | new
            · exact taken other old
            · rw [List.mem_singleton] at new
              exact new ▸ exportable) later
          simpa [ReplayItem.asEnvelope] using grown

theorem collectSegments_holds {store : MarketStore} {scope : OwnerScope}
    (collected : collectSegments text store scope manifest = .ok segments) :
    segments.Holds text (store.scopeEnvelopes text scope) ∧
      ∀ envelope ∈ store.scopeEnvelopes text scope,
        envelope.Exportable manifest := by
  rw [collectSegments, EnvelopeTable.forAll_eq (by decide)] at collected
  have start : SegmentMap.Holds text [] [] :=
    ⟨List.Pairwise.nil, fun _ => rfl⟩
  exact holds_of_foldlM start (by simp) collected

variable {envelopes : List PmEnvelope} {segments : SegmentMap}

namespace SegmentMap.Holds

variable {entry : SegmentPartition × SegmentRows}

theorem groupOf_entry (holds : segments.Holds text envelopes)
    (mem : entry ∈ segments) :
    groupOf (envelopesOf text envelopes entry.1) = some entry.2 := by
  rw [← holds.found, SortedMap.findIn_mem holds.sorted mem]

theorem entry_eq (holds : segments.Holds text envelopes)
    (mem : entry ∈ segments) :
    entry.2.rows = (envelopesOf text envelopes entry.1).map exportRow ∧
      ∃ first rest, envelopesOf text envelopes entry.1 = first :: rest ∧
        first.declared = (entry.2.metadata, entry.2.legacyCoverage) := by
  have isGroup := holds.groupOf_entry mem
  cases own : envelopesOf text envelopes entry.1 with
  | nil =>
      rw [own] at isGroup
      cases isGroup
  | cons first rest =>
      rw [own, groupOf, Option.some.injEq] at isGroup
      rw [← isGroup]
      exact ⟨rfl, first, rest, rfl, rfl⟩

theorem keys_nodup (holds : segments.Holds text envelopes) :
    (segments.map Prod.fst).Nodup := by
  rw [List.Nodup, List.pairwise_map]
  refine holds.sorted.imp ?_
  intro left right less same
  rw [same] at less
  exact SortedMap.not_lt_self _ less

theorem partition_mem
    (holds : segments.Holds text envelopes) {envelope : PmEnvelope}
    (mem : envelope ∈ envelopes) :
    envelope.partition text ∈ segments.map Prod.fst := by
  by_contra absent
  have nothing := holds.found (envelope.partition text)
  rw [SortedMap.findIn_eq_none absent] at nothing
  have own : envelope ∈ envelopesOf text envelopes (envelope.partition text) :=
    Grouping.mem_ofKey.mpr ⟨mem, rfl⟩
  cases others : envelopesOf text envelopes (envelope.partition text) with
  | nil =>
      rw [others] at own
      cases own
  | cons first rest =>
      rw [others] at nothing
      cases nothing

end SegmentMap.Holds

end Groups

/-! ## Parts -/

/-- What stands behind a part of an export: its group, its place in the group
and the envelopes of its rows. -/
structure SegmentSource where
  partition : SegmentPartition
  group : SegmentRows
  ordinal : Nat
  envelopes : List PmEnvelope

def SegmentSource.rows (source : SegmentSource) : List JsonValue :=
  source.envelopes.map exportRow

def SegmentSource.Writes (text : PortableText) (sourceManifestSha256 : String)
    (source : SegmentSource) (written : JsonValue × List UInt8) : Prop :=
  materializeSegment text source.partition sourceManifestSha256 source.group
    source.rows source.ordinal = .ok written

/-- The sources of a group: its envelopes, cut as its rows are. -/
def entrySources (text : PortableText) (envelopes : List PmEnvelope)
    (entry : SegmentPartition × SegmentRows) : List SegmentSource :=
  (Parts.alike
      ((rollRows text entry.2.rows maxLogicalSegmentBytes).toOption.getD [])
      (envelopesOf text envelopes entry.1)).zipIdx.map fun part =>
    { partition := entry.1
      group := entry.2
      ordinal := part.2
      envelopes := part.1 }

def SegmentMap.sources (text : PortableText) (envelopes : List PmEnvelope)
    (segments : SegmentMap) : List SegmentSource :=
  segments.flatMap (entrySources text envelopes)

section Rolled

variable {text : PortableText} {byteLimit partBytes : Nat}
  {part rows : List JsonValue} {parts : List (List JsonValue)}

theorem rollFrom_flatten
    (rolled : rollFrom text byteLimit part partBytes rows = .ok parts) :
    parts.flatten = part ++ rows := by
  induction rows generalizing part partBytes parts with
  | nil =>
      cases rolled
      split <;> simp_all
  | cons row rest ih =>
      unfold rollFrom at rolled
      split at rolled
      · cases rolled
      · split at rolled
        · obtain ⟨later, restRolled, rfl⟩ := Fallible.map_eq_ok.mp rolled
          rw [List.flatten_cons, ih restRolled]
          rfl
        · rw [ih rolled, List.append_assoc, List.singleton_append]

theorem rollFrom_nonempty
    (rolled : rollFrom text byteLimit part partBytes rows = .ok parts) :
    ∀ rows ∈ parts, rows ≠ [] := by
  obtain ⟨again, same, nonempty⟩ := @rollFrom_eq_ok text byteLimit partBytes
    part rows (rollFrom_fits rolled)
  rw [rolled, Except.ok.injEq] at same
  intro rows mem
  exact (nonempty rows (same ▸ mem)).1

theorem length_encodeRows_concat (rows : List JsonValue) (row : JsonValue) :
    (encodeRows text (rows ++ [row])).length =
      (encodeRows text rows).length + lineBytes text row := by
  simp [encodeRows, lineBytes]

theorem rollFrom_length (counted : (encodeRows text part).length = partBytes)
    (within : partBytes ≤ byteLimit)
    (rolled : rollFrom text byteLimit part partBytes rows = .ok parts) :
    ∀ rows ∈ parts, (encodeRows text rows).length ≤ byteLimit := by
  induction rows generalizing part partBytes parts with
  | nil =>
      cases rolled
      intro rows mem
      split at mem
      · cases mem
      · rw [List.mem_singleton] at mem
        rw [mem, counted]
        exact within
  | cons row rest ih =>
      have extended := @length_encodeRows_concat text part row
      have alone := @length_encodeRows_concat text [] row
      have nothing : (encodeRows text []).length = 0 := rfl
      rw [nothing, Nat.zero_add, List.nil_append] at alone
      unfold rollFrom at rolled
      split at rolled
      · cases rolled
      · split at rolled
        · obtain ⟨later, restRolled, rfl⟩ := Fallible.map_eq_ok.mp rolled
          intro rows mem
          rcases List.mem_cons.mp mem with rfl | behind
          · rw [counted]
            exact within
          · exact ih alone (by omega) restRolled rows behind
        · rename_i small room
          by_cases first : part = []
          · rw [first] at counted rolled
            rw [nothing] at counted
            rw [← counted, Nat.zero_add, List.nil_append] at rolled
            exact ih alone (by omega) rolled
          · have fits : partBytes + lineBytes text row ≤ byteLimit := by
              by_contra beyond
              exact room ⟨first, by omega⟩
            exact ih (by rw [extended, counted]) fits rolled

end Rolled

section Written

variable {text : PortableText} {sourceManifestSha256 : String}

variable {parts : List (List JsonValue)}
  {written : List (JsonValue × List UInt8)} {envelopes : List PmEnvelope}

theorem forall₂_of_materializeParts
    {partition : SegmentPartition} {segment : SegmentRows} {ordinal : Nat}
    (done : materializeParts text partition sourceManifestSha256 segment
      ordinal parts = .ok written) :
    List.Forall₂ (fun part written =>
      materializeSegment text partition sourceManifestSha256 segment part.1
        part.2 = .ok written) (parts.zipIdx ordinal) written := by
  induction parts generalizing ordinal written with
  | nil =>
      cases done
      exact .nil
  | cons rows rest ih =>
      unfold materializeParts at done
      split at done
      · cases done
      · rename_i first isFirst
        obtain ⟨later, restDone, rfl⟩ := Fallible.map_eq_ok.mp done
        exact .cons isFirst (ih restDone)

theorem forall₂_of_entry {entry : SegmentPartition × SegmentRows}
    (own : entry.2.rows = (envelopesOf text envelopes entry.1).map exportRow)
    (rolled : rollRows text entry.2.rows maxLogicalSegmentBytes = .ok parts)
    (done : materializeParts text entry.1 sourceManifestSha256 entry.2 0
      parts = .ok written) :
    List.Forall₂ (SegmentSource.Writes text sourceManifestSha256)
      (entrySources text envelopes entry) written := by
  have whole : parts.flatten =
      (envelopesOf text envelopes entry.1).map exportRow := by
    rw [rollFrom_flatten rolled, List.nil_append, own]
  have images := Parts.map_alike whole
  have places : parts.zipIdx 0 =
      (entrySources text envelopes entry).map fun source =>
        (source.rows, source.ordinal) := by
    rw [entrySources, rolled, List.map_map]
    conv_lhs => rw [← images, List.zipIdx_map]
    rfl
  have each := forall₂_of_materializeParts done
  rw [places, List.forall₂_map_left_iff] at each
  rw [entrySources] at each ⊢
  rw [List.forall₂_map_left_iff] at each ⊢
  exact each

theorem forall₂_of_materializeGroups {segments : SegmentMap}
    (own : ∀ entry ∈ segments,
      entry.2.rows = (envelopesOf text envelopes entry.1).map exportRow)
    (done : materializeGroups text sourceManifestSha256 segments =
      .ok written) :
    List.Forall₂ (SegmentSource.Writes text sourceManifestSha256)
      (segments.sources text envelopes) written := by
  induction segments generalizing written with
  | nil =>
      cases done
      exact .nil
  | cons entry rest ih =>
      unfold materializeGroups at done
      split at done
      · cases done
      · rename_i parts rolled
        split at done
        · cases done
        · rename_i first isFirst
          obtain ⟨later, restDone, rfl⟩ := Fallible.map_eq_ok.mp done
          have others := ih
            (fun other mem => own other (List.mem_cons_of_mem _ mem))
            restDone
          exact List.rel_append (forall₂_of_entry
            (own entry List.mem_cons_self) rolled isFirst) others

end Written

end Pmkit
