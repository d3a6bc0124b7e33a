import Pmkit.Live.Trades
import Pmkit.Store.Envelopes
import Pmkit.Tape.SpoolLine

/-!
# Frames of a public tape

A recorder writes each frame with the projections of its subframes.  An import
keeps the frame as audit evidence and stores an envelope for each projected
subframe; the rank of a subframe packs the sequence of its frame and its own
index into one number.
-/

namespace Pmkit

open MachineInt

/-- The 64-bit integer with the bits of an arbitrary one. -/
def I64.wrap (value : Int) : I64 :=
  ⟨Int.bmod value 18446744073709551616, by
    have low := @Int.le_bmod value 18446744073709551616 (by decide)
    have high := @Int.bmod_lt value 18446744073709551616 (by decide)
    constructor
    · norm_num at low ⊢
      omega
    · norm_num at high ⊢
      omega⟩

theorem I64.wrap_val (value : Int) :
    (I64.wrap value).1 = (value + 2 ^ 63) % 2 ^ 64 - 2 ^ 63 := by
  change Int.bmod value 18446744073709551616 = _
  rw [Int.bmod_def]
  norm_num
  omega

/-- `checked_shl`, which checks the shift and not the value. -/
def I64.checkedShl (value : I64) (shift : Nat) : Option I64 :=
  if shift < 64 then some (I64.wrap (value.1 * 2 ^ shift)) else none

theorem I64.clamp_of_bounds {value : Int} (low : -(2 ^ 63) ≤ value)
    (high : value ≤ 2 ^ 63 - 1) : (I64.clamp value).1 = value := by
  change max (-(2 ^ 63) : ℤ) (min (2 ^ 63 - 1) value) = value
  rw [min_eq_right high, max_eq_right low]

namespace PublicTape

inductive Projection where
  | book
  | lastTradePrice
  | intentionallyUnprojected
  deriving DecidableEq

structure Subframe where
  index : Nat
  projection : Projection
  duplicateOf : Option Nat
  deriving DecidableEq

structure FrameRecord where
  version : UInt8
  recordType : String
  receivedAtMs : I64
  sourceTimeMs : Option I64
  sourceId : String
  connectionId : UInt64
  epoch : UInt64
  frameSequence : UInt64
  ingestSequence : UInt64
  mappingSnapshotSha256 : String
  raw : String
  subframes : List Subframe
  deriving DecidableEq

structure MappingSnapshot where
  version : UInt8
  mappings : KeyedMap String String

/-- Why an import is refused. -/
inductive PublicTapeImportError where
  | read (path : String) (source : IoError)
  | invalid (message : String)
  | json (bytes : List UInt8)
  | store (source : TapeStoreError)
  deriving DecidableEq

def subframeRank (frameSequence : UInt64) (index : Nat) :
    Except PublicTapeImportError I64 :=
  match I64.ofInt frameSequence.toNat with
  | none => .error (.invalid "frame sequence exceeds PMKit range")
  | some frame =>
      match I64.ofInt index with
      | none => .error (.invalid "subframe index exceeds PMKit range")
      | some index =>
          match (I64.checkedShl frame 32).bind fun rank =>
              I64.ofInt (rank.1 + index.1) with
          | none => .error (.invalid "subframe rank overflow")
          | some rank => .ok rank

/-- `projection`. -/
def projection (value : JsonValue) : Projection :=
  match (value.get "event_type").bind JsonValue.asStr with
  | some "book" => .book
  | some "last_trade_price" => .lastTradePrice
  | _ => .intentionallyUnprojected

/-- The loop of `validate_subframes` with the values before it. -/
def validateEach (before : List JsonValue) :
    List (JsonValue × Subframe) → Except PublicTapeImportError Unit
  | [] => .ok ()
  | (value, subframe) :: rest =>
      if subframe.index ≠ before.length ∨
          subframe.projection ≠ projection value ∨
          subframe.duplicateOf ≠
            before.findIdx? fun prior => prior = value then
        .error (.invalid "subframe order or projection metadata is invalid")
      else
        validateEach (before ++ [value]) rest

/-- `validate_subframes`. -/
def validateSubframes (values : List JsonValue) (subframes : List Subframe) :
    Except PublicTapeImportError Unit :=
  if values.length ≠ subframes.length then
    .error (.invalid "subframe count does not match raw frame")
  else
    validateEach [] (values.zip subframes)

/-- `metadata`. -/
def metadata (record : FrameRecord) :
    Except PublicTapeImportError StreamMetadata :=
  match record.sourceTimeMs with
  | none => .error (.invalid "frame has no source timestamp")
  | some sourceTimeMs =>
      match I64.ofInt record.epoch.toNat with
      | none => .error (.invalid "connection epoch exceeds PMKit range")
      | some connectionEpoch =>
          (subframeRank record.frameSequence 0).map fun frameSequence =>
            { schemaVersion := 1
              sourceId := record.sourceId
              sourceTimeMs := sourceTimeMs
              canonicalSourceRank := 0
              receiptTimeMs := record.receivedAtMs
              connectionId := toString record.connectionId.toNat
              connectionEpoch := connectionEpoch
              frameSequence := frameSequence
              ingestSequence := record.ingestSequence }

variable {D : Type}

/-- `event_outcome`. -/
def eventOutcome : MarketEvent D → Except PublicTapeImportError Outcome
  | .bookUpdate _ outcome _ _ _ => .ok outcome
  | .lastTrade _ outcome _ _ _ _ => .ok outcome
  | _ => .error (.invalid "non-market projection")

/-! ## Envelopes -/

/-- The text functions of an import: those of the store, the JSON reader, and
the parser of market frames of the venue's client library. -/
structure PublicTapeText (D : Type) extends StoreText where
  readJson : List UInt8 → Except String JsonValue
  parseMarketFrame : List UInt8 → MarketTokens → Except String (MarketEvent D)

structure RawPmMarketFrame where
  market : MarketId
  outcome : Outcome
  metadata : StreamMetadata
  text : List UInt8

structure RawPolymarketFrameAdapter where
  scope : OwnerScope
  configHash : String

/-- `market_envelope`. -/
def RawPolymarketFrameAdapter.marketEnvelope (text : PublicTapeText D)
    (adapter : RawPolymarketFrameAdapter) (frame : RawPmMarketFrame) :
    Except PublicTapeImportError PmEnvelope :=
  match text.readJson frame.text with
  | .error _ => .error (.json frame.text)
  | .ok payload =>
      match I64.ofInt frame.metadata.ingestSequence.toNat with
      | none =>
          .error (.store (.storage "PM ingest sequence exceeds storage range"))
      | some ingestSequence =>
          .ok
            { schemaVersion := pmEnvelopeVersion
              scope := adapter.scope
              venueId := "polymarket"
              configHash := adapter.configHash
              sourceId := frame.metadata.sourceId
              connectionId := frame.metadata.connectionId
              sourceTimestampMs := frame.metadata.sourceTimeMs
              canonicalSourceRank := frame.metadata.canonicalSourceRank
              connectionEpoch := frame.metadata.connectionEpoch
              frameSequence := frame.metadata.frameSequence
              receiptTimestampMs := frame.metadata.receiptTimeMs
              ingestSequence := ingestSequence
              rawFrame := frame.text
              normalized := .object [
                ("canonical_market_id", .string frame.market.value),
                ("payload", payload),
                ("stream_id", .string ("market:" ++ frame.market.value ++ ":" ++
                  text.toLowercase frame.outcome.display))] }

structure PublicTapeImporter where
  adapter : RawPolymarketFrameAdapter
  scope : OwnerScope
  markets : KeyedMap String MarketTokens

structure PublicTapeAuditFrame where
  scope : OwnerScope
  partition : String
  sourceId : String
  connectionId : String
  connectionEpoch : I64
  frameSequence : I64
  ingestSequence : I64
  receiptTimestampMs : I64
  sourceTimestampMs : Option I64
  rawFrame : List UInt8
  deriving DecidableEq

namespace PublicTapeImporter

/-- `resolve_tokens`. -/
def resolveTokens (importer : PublicTapeImporter) (value : JsonValue)
    (snapshot : MappingSnapshot) : Except PublicTapeImportError MarketTokens :=
  match (value.get "asset_id").bind JsonValue.asStr with
  | none => .error (.invalid "projected subframe has no asset_id")
  | some asset =>
      match snapshot.mappings.lookup asset with
      | none =>
          .error (.invalid "projected asset is absent from mapping snapshot")
      | some market =>
          if (value.get "market").bind JsonValue.asStr ≠ some market then
            .error (.invalid
              "projected subframe market disagrees with mapping snapshot")
          else
            match importer.markets.lookup market with
            | none =>
                .error (.invalid "mapping snapshot market is not configured")
            | some tokens => .ok tokens

def projectSubframe (text : PublicTapeText D) (importer : PublicTapeImporter)
    (snapshot : MappingSnapshot) (value : JsonValue) :
    Except PublicTapeImportError (MarketTokens × List UInt8 × Outcome) := do
  let tokens ← importer.resolveTokens value snapshot
  let raw := (text.writeJson value).toUTF8.toList
  match text.parseMarketFrame raw tokens with
  | .error error => throw (.invalid error)
  | .ok fact =>
      let outcome ← eventOutcome fact
      return (tokens, raw, outcome)

/-- One pass of the loop of `prepare_record`. -/
def prepareSubframe (text : PublicTapeText D) (importer : PublicTapeImporter)
    (snapshot : MappingSnapshot) (record : FrameRecord)
    (metadata : StreamMetadata) (envelopes : List PmEnvelope) (index : Nat)
    (value : JsonValue) (subframe : Subframe) :
    Except PublicTapeImportError (List PmEnvelope) :=
  match subframe.projection with
  | .intentionallyUnprojected => .ok envelopes
  | _ => do
      let (tokens, raw, outcome) ← importer.projectSubframe text snapshot value
      let frameSequence ← subframeRank record.frameSequence index
      let envelope ← importer.adapter.marketEnvelope text
        { market := tokens.market
          outcome := outcome
          metadata := { metadata with frameSequence := frameSequence }
          text := raw }
      return envelopes ++ [envelope]

/-- The loop of `prepare_record`. -/
def prepareSubframes (text : PublicTapeText D) (importer : PublicTapeImporter)
    (snapshot : MappingSnapshot) (record : FrameRecord)
    (metadata : StreamMetadata) :
    Nat → List PmEnvelope → List (JsonValue × Subframe) →
      Except PublicTapeImportError (List PmEnvelope)
  | _, envelopes, [] => .ok envelopes
  | index, envelopes, (value, subframe) :: rest => do
      let next ← importer.prepareSubframe text snapshot record metadata
        envelopes index value subframe
      importer.prepareSubframes text snapshot record metadata (index + 1) next
        rest

def rawValues (text : PublicTapeText D) (record : FrameRecord) :
    Except PublicTapeImportError (List JsonValue) :=
  match text.readJson record.raw.toUTF8.toList with
  | .error error =>
      .error (.invalid ("raw frame is not JSON: " ++ error))
  | .ok (.array values) => .ok values
  | .ok value => .ok [value]

def checkIdentity (record : FrameRecord) : Except PublicTapeImportError Unit :=
  if record.version ≠ 2 ∨ record.recordType ≠ "frame" then
    .error (.invalid "unsupported v2 record identity")
  else
    .ok ()

def checkIngest (ingestSequence : UInt64) : Except PublicTapeImportError I64 :=
  match I64.ofInt ingestSequence.toNat with
  | none => .error (.invalid "ingest sequence exceeds PMKit range")
  | some ingestSequence => .ok ingestSequence

/-- `prepare_record`. -/
def prepareRecord (text : PublicTapeText D) (importer : PublicTapeImporter)
    (record : FrameRecord) (snapshot : MappingSnapshot) :
    Except PublicTapeImportError (PublicTapeAuditFrame × List PmEnvelope) := do
  checkIdentity record
  let metadata ← metadata record
  let ingestSequence ← checkIngest metadata.ingestSequence
  let auditFrame : PublicTapeAuditFrame :=
    { scope := importer.scope
      partition := "pm-money-v2:" ++ record.mappingSnapshotSha256
      sourceId := record.sourceId
      connectionId := toString record.connectionId.toNat
      connectionEpoch := metadata.connectionEpoch
      frameSequence := metadata.frameSequence
      ingestSequence := ingestSequence
      receiptTimestampMs := metadata.receiptTimeMs
      sourceTimestampMs := record.sourceTimeMs
      rawFrame := record.raw.toUTF8.toList }
  let values ← rawValues text record
  validateSubframes values record.subframes
  let envelopes ← importer.prepareSubframes text snapshot record metadata 0 []
    (values.zip record.subframes)
  return (auditFrame, envelopes)

end PublicTapeImporter

/-! ## Ranks -/

variable {frameSequence : UInt64} {index : Nat} {text : PublicTapeText D}
  {importer : PublicTapeImporter} {snapshot : MappingSnapshot}
  {record : FrameRecord} {metadata : StreamMetadata}

theorem subframeRank_eq_ok {rank : I64} :
    subframeRank frameSequence index = .ok rank ↔
      frameSequence.toNat < 2 ^ 63 ∧ index < 2 ^ 63 ∧
        rank.1 = ((frameSequence.toNat : Int) * 2 ^ 32 + 2 ^ 63) % 2 ^ 64 -
          2 ^ 63 + index := by
  unfold subframeRank
  constructor
  · intro found
    split at found
    · cases found
    · rename_i frame isFrame
      split at found
      · cases found
      · rename_i word isIndex
        split at found
        · cases found
        · rename_i packed isRank
          cases found
          rw [I64.ofInt_eq_some] at isFrame isIndex
          obtain ⟨shifted, isShifted, isSum⟩ := Option.bind_eq_some_iff.mp isRank
          rw [I64.checkedShl, if_pos (by decide), Option.some.injEq] at isShifted
          rw [I64.ofInt_eq_some] at isSum
          have frameHigh : frame.1 ≤ 2 ^ 63 - 1 := frame.2.2
          have indexHigh : word.1 ≤ 2 ^ 63 - 1 := word.2.2
          have small : frameSequence.toNat < 2 ^ 63 := by omega
          refine ⟨small, by omega, ?_⟩
          rw [isSum, ← isShifted, I64.wrap_val, isFrame, isIndex]
  · rintro ⟨small, smallIndex, isRank⟩
    have isFrame : I64.ofInt frameSequence.toNat =
        some (I64.clamp frameSequence.toNat) := by
      apply I64.ofInt_eq_some.mpr
      exact I64.clamp_of_bounds (by omega) (by omega)
    have isIndex : I64.ofInt index =
        some (I64.clamp index) := by
      apply I64.ofInt_eq_some.mpr
      exact I64.clamp_of_bounds (by omega) (by omega)
    simp only [isFrame, isIndex]
    have packed : (I64.wrap ((I64.clamp frameSequence.toNat).1 * 2 ^ 32)).1 +
        (I64.clamp index).1 = rank.1 := by
      rw [I64.wrap_val, I64.ofInt_eq_some.mp isFrame,
        I64.ofInt_eq_some.mp isIndex, isRank]
    rw [I64.checkedShl, if_pos (by decide), Option.bind_some, packed,
      I64.ofInt_val]

/-- The ranks of two subframes are those of their order in the tape. -/
structure RanksOrder (first second : UInt64 × Nat) (left right : I64) :
    Prop where
  nonnegative : 0 ≤ left.1 ∧ 0 ≤ right.1
  before : left < right ↔
    first.1 < second.1 ∨ (first.1 = second.1 ∧ first.2 < second.2)
  after : right < left ↔
    second.1 < first.1 ∨ (second.1 = first.1 ∧ second.2 < first.2)
  same : left = right → first = second

/-- A rank that packs its parts without loss. -/
theorem rank_packed {rank : I64}
    (ranked : subframeRank frameSequence index = .ok rank)
    (small : frameSequence.toNat < 2 ^ 31) :
    rank.1 = (frameSequence.toNat : Int) * 2 ^ 32 + index := by
  have value := (subframeRank_eq_ok.mp ranked).2.2
  omega

theorem ranksOrder_of_packed {first second : UInt64 × Nat} {left right : I64}
    (leftRanked : subframeRank first.1 first.2 = .ok left)
    (rightRanked : subframeRank second.1 second.2 = .ok right)
    (leftSmall : first.1.toNat < 2 ^ 31 ∧ first.2 < 2 ^ 32)
    (rightSmall : second.1.toNat < 2 ^ 31 ∧ second.2 < 2 ^ 32) :
    RanksOrder first second left right := by
  have leftValue := rank_packed leftRanked leftSmall.1
  have rightValue := rank_packed rightRanked rightSmall.1
  have frames : first.1 = second.1 ↔ first.1.toNat = second.1.toNat :=
    UInt64.toNat_inj.symm
  refine ⟨⟨by omega, by omega⟩, ?_, ?_, ?_⟩
  · change left.1 < right.1 ↔ _
    rw [UInt64.lt_iff_toNat_lt, frames]
    omega
  · change right.1 < left.1 ↔ _
    rw [UInt64.lt_iff_toNat_lt, eq_comm, frames]
    omega
  · intro same
    have values : left.1 = right.1 := congrArg Subtype.val same
    apply Prod.ext
    · rw [frames]
      omega
    · omega

def projectedIndices : Nat → List Subframe → List Nat
  | _, [] => []
  | index, subframe :: rest =>
      if subframe.projection = .intentionallyUnprojected then
        projectedIndices (index + 1) rest
      else
        index :: projectedIndices (index + 1) rest

theorem marketEnvelope_frameSequence {adapter : RawPolymarketFrameAdapter}
    {frame : RawPmMarketFrame} {envelope : PmEnvelope}
    (built : adapter.marketEnvelope text frame = .ok envelope) :
    envelope.frameSequence = frame.metadata.frameSequence := by
  unfold RawPolymarketFrameAdapter.marketEnvelope at built
  split at built
  · cases built
  · split at built
    · cases built
    · cases built
      rfl

theorem prepareSubframe_ranks {envelopes next : List PmEnvelope}
    {value : JsonValue} {subframe : Subframe}
    (pass : importer.prepareSubframe text snapshot record metadata envelopes
      index value subframe = .ok next) :
    (subframe.projection = .intentionallyUnprojected ∧ next = envelopes) ∨
      (subframe.projection ≠ .intentionallyUnprojected ∧
        ∃ envelope : PmEnvelope, next = envelopes ++ [envelope] ∧
          subframeRank record.frameSequence index =
            .ok envelope.frameSequence) := by
  unfold PublicTapeImporter.prepareSubframe at pass
  split at pass
  · rename_i unprojected
    cases pass
    exact .inl ⟨unprojected, rfl⟩
  · rename_i projected
    simp only [Fallible.bind_eq_ok] at pass
    obtain ⟨⟨tokens, raw, outcome⟩, _, rank, ranked, envelope, built, same⟩ :=
      pass
    cases same
    refine Or.inr ⟨projected, envelope, rfl, ?_⟩
    rw [ranked, marketEnvelope_frameSequence built]

theorem prepareSubframes_ranks {pairs : List (JsonValue × Subframe)}
    {envelopes result : List PmEnvelope}
    (loop : importer.prepareSubframes text snapshot record metadata index
      envelopes pairs = .ok result) :
    ∃ stored, result = envelopes ++ stored ∧
      List.Forall₂ (fun index envelope =>
          subframeRank record.frameSequence index = .ok envelope.frameSequence)
        (projectedIndices index (pairs.map Prod.snd)) stored := by
  induction pairs generalizing index envelopes with
  | nil =>
      cases loop
      exact ⟨[], (List.append_nil _).symm, .nil⟩
  | cons pair rest ih =>
      obtain ⟨value, subframe⟩ := pair
      rw [PublicTapeImporter.prepareSubframes, Fallible.bind_eq_ok] at loop
      obtain ⟨next, pass, later⟩ := loop
      obtain ⟨stored, rfl, ranked⟩ := ih later
      rcases prepareSubframe_ranks pass with
        ⟨unprojected, rfl⟩ | ⟨projected, envelope, rfl, ofSubframe⟩
      · refine ⟨stored, rfl, ?_⟩
        rw [List.map_cons, projectedIndices, if_pos unprojected]
        exact ranked
      · refine ⟨envelope :: stored, by rw [List.append_assoc]; rfl, ?_⟩
        rw [List.map_cons, projectedIndices, if_neg projected]
        exact .cons ofSubframe ranked

theorem prepareRecord_ranks {prepared : PublicTapeAuditFrame × List PmEnvelope}
    (accepted : importer.prepareRecord text record snapshot = .ok prepared) :
    List.Forall₂ (fun index envelope =>
        subframeRank record.frameSequence index = .ok envelope.frameSequence)
      (projectedIndices 0 record.subframes) prepared.2 := by
  unfold PublicTapeImporter.prepareRecord at accepted
  simp only [Fallible.bind_eq_ok] at accepted
  obtain ⟨_, _, _, _, _, _, values, _, _, valid, envelopes, loop, same⟩ :=
    accepted
  cases same
  obtain ⟨stored, rfl, ranked⟩ := prepareSubframes_ranks loop
  have lengths : record.subframes.length ≤ values.length := by
    unfold validateSubframes at valid
    split at valid
    · cases valid
    · omega
  rw [List.map_snd_zip lengths] at ranked
  simpa using ranked

/-- A subframe is in order with all subframes of the first frames just when it
is one of them itself; and what an import stores are the ranks. -/
theorem subframeRank_ordered_iff
    {frameSequence : UInt64} {index : Nat} {rank : I64}
    (ranked : subframeRank frameSequence index = .ok rank) :
    ((∀ (other : UInt64 × Nat) (otherRank : I64),
      other.1.toNat < 2 ^ 31 → other.2 < 2 ^ 32 →
      subframeRank other.1 other.2 = .ok otherRank →
      RanksOrder (frameSequence, index) other rank otherRank) ↔
      frameSequence.toNat < 2 ^ 31 ∧ index < 2 ^ 32) ∧
    ∀ (text : PublicTapeText D) (importer : PublicTapeImporter)
      (record : FrameRecord) (snapshot : MappingSnapshot)
      (prepared : PublicTapeAuditFrame × List PmEnvelope),
      importer.prepareRecord text record snapshot = .ok prepared →
      List.Forall₂ (fun index envelope =>
          subframeRank record.frameSequence index = .ok envelope.frameSequence)
        (projectedIndices 0 record.subframes) prepared.2 := by
  refine ⟨⟨?_, ?_⟩, fun _ _ _ _ _ => prepareRecord_ranks⟩
  · intro ordered
    have nonnegative : 0 ≤ rank.1 := by
      have zero : subframeRank 0 0 = .ok (0 : I64) := by decide +kernel
      exact (ordered (0, 0) 0 (by decide) (by decide) zero).nonnegative.1
    have high : rank.1 ≤ 2 ^ 63 - 1 := rank.2.2
    -- The subframe that the rank is read back as.
    have frame : (UInt64.ofNat (rank.1.toNat / 2 ^ 32)).toNat =
        rank.1.toNat / 2 ^ 32 := by
      rw [UInt64.toNat_ofNat']
      omega
    have packed : subframeRank (UInt64.ofNat (rank.1.toNat / 2 ^ 32))
        (rank.1.toNat % 2 ^ 32) = .ok rank := by
      rw [subframeRank_eq_ok, frame]
      omega
    have equal := (ordered (UInt64.ofNat (rank.1.toNat / 2 ^ 32),
      rank.1.toNat % 2 ^ 32) rank (by simp only [frame]; omega)
      (by simp only; omega) packed).same rfl
    cases equal
    rw [frame]
    omega
  · rintro small other otherRank smallFrame smallIndex otherRanked
    exact ranksOrder_of_packed ranked otherRanked small
      ⟨smallFrame, smallIndex⟩

theorem subframeRank_ordered_iff_fourth :
    RanksOrder (4, 2) (4, 1) 17179869186 17179869185 := by
  have law := @subframeRank_ordered_iff Nat 4 2 17179869186 (by decide +kernel)
  exact law.1.mpr (by decide) (4, 1) _ (by decide) (by decide)
    (by decide +kernel)

/-- The frame at which the shift leaves the sign. -/
theorem subframeRank_not_ordered :
    ¬ ∀ (first second : UInt64 × Nat) (left right : I64),
      subframeRank first.1 first.2 = .ok left →
      subframeRank second.1 second.2 = .ok right →
      RanksOrder first second left right := by
  intro claimed
  have ranked : subframeRank 2147483648 0 = .ok I64.minValue := by
    decide +kernel
  have zero : subframeRank 0 0 = .ok (0 : I64) := by decide +kernel
  have ordered := claimed (2147483648, 0) (0, 0) _ _ ranked zero
  exact absurd ordered.nonnegative.1 (by decide +kernel)

end PublicTape

end Pmkit
