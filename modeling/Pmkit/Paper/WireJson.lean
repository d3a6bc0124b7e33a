import Mathlib.Data.Rat.Encodable
import Pmkit.Library.Json
import Pmkit.Paper.Wire

/-!
# Ledger entries as JSON

The derived serializer and the derived reader of the records of a ledger.  A
record is written as an object; the reader passes over other fields and takes
missing optional ones for absent.  How a decimal is written is a parameter.
-/

namespace Pmkit

open MachineInt JsonValue

structure DecimalCodec where
  text : Decimal → String
  read : JsonValue → Option Decimal

namespace DecimalCodec

/-- A decimal is written as a text that is read back as the same value. -/
def Exact (codec : DecimalCodec) : Prop :=
  ∀ value, codec.read (.string (codec.text value)) = some value

def json (codec : DecimalCodec) (value : Decimal) : JsonValue :=
  string (codec.text value)

end DecimalCodec

def WireOrderState.name : WireOrderState → String
  | .immediate => "immediate"
  | .resting => "resting"
  | .delayed => "delayed"

def WireOrderState.variants : List (String × WireOrderState) :=
  [("immediate", .immediate), ("resting", .resting), ("delayed", .delayed)]

def WireOutcome.name : WireOutcome → String
  | .up => "up"
  | .down => "down"

def WireOutcome.variants : List (String × WireOutcome) :=
  [("up", .up), ("down", .down)]

def WireSide.name : WireSide → String
  | .buy => "buy"
  | .sell => "sell"

def WireSide.variants : List (String × WireSide) :=
  [("buy", .buy), ("sell", .sell)]

@[simp]
theorem WireOrderState.lookup_name (state : WireOrderState) :
    variants.lookup state.name = some state := by
  cases state <;> rfl

@[simp]
theorem WireOutcome.lookup_name (outcome : WireOutcome) :
    variants.lookup outcome.name = some outcome := by
  cases outcome <;> rfl

@[simp]
theorem WireSide.lookup_name (side : WireSide) :
    variants.lookup side.name = some side := by
  cases side <;> rfl

/-- A field of type `i64`. -/
def readI64 (value : JsonValue) : Option I64 :=
  value.asI64.map I64.clamp

/-- A field of type `u64`: the library holds no greater integer. -/
def readU64 : JsonValue → Option Nat
  | number value => if 0 ≤ value then some value.toNat else none
  | _ => none

/-- A field of type `u16`. -/
def readU16 : JsonValue → Option UInt16
  | number value =>
      if 0 ≤ value ∧ value < 65536 then
        some (.ofNat value.toNat)
      else
        none
  | _ => none

def readBool : JsonValue → Option Bool
  | .bool value => some value
  | _ => none

@[simp]
theorem readI64_number (value : I64) :
    readI64 (number value.1) = some value := by
  have low : -(2 ^ 63) ≤ value.1 := value.2.1
  have high : value.1 < 2 ^ 63 := by
    have atMost : value.1 ≤ 2 ^ 63 - 1 := value.2.2
    omega
  rw [readI64, asI64, if_pos ⟨low, high⟩, Option.map_some, I64.clamp_val]

@[simp]
theorem readU64_number (value : Nat) :
    readU64 (number value) = some value := by
  simp [readU64]

@[simp]
theorem readU16_number (version : UInt16) :
    readU16 (number version.toNat) = some version := by
  have small : (version.toNat : Int) < 65536 := by
    exact_mod_cast version.toNat_lt
  rw [readU16, if_pos ⟨Int.natCast_nonneg _, small⟩, Int.toNat_natCast,
    UInt16.ofNat_toNat]

variable {value : JsonValue}

theorem eq_number_of_readU16 {version : UInt16}
    (read : readU16 value = some version) : value = number version.toNat := by
  cases value with
  | number held =>
      rw [readU16] at read
      split at read
      · rename_i range
        cases read
        have small : held.toNat < 65536 := by omega
        rw [UInt16.toNat_ofNat_of_lt' small]
        congr 1
        omega
      · cases read
  | null => cases read
  | bool held => cases read
  | real bits => cases read
  | string text => cases read
  | array items => cases read
  | object fields => cases read

theorem eq_number_of_readU64 {count : Nat} (read : readU64 value = some count) :
    value = number count := by
  cases value with
  | number held =>
      rw [readU64] at read
      split at read
      · cases read
        congr 1
        omega
      · cases read
  | null => cases read
  | bool held => cases read
  | real bits => cases read
  | string text => cases read
  | array items => cases read
  | object fields => cases read

theorem eq_string_of_asStr {text : String} (read : value.asStr = some text) :
    value = string text := by
  cases value with
  | string held =>
      cases read
      rfl
  | null => cases read
  | bool held => cases read
  | real bits => cases read
  | number held => cases read
  | array items => cases read
  | object fields => cases read

section Records

variable (codec : DecimalCodec)

/-- An expiry is left out when there is none. -/
def WireOrder.json (order : WireOrder) : JsonValue :=
  object
    ([("market", string order.market),
      ("strategy", (order.strategy.map string).getD null),
      ("outcome", string order.outcome.name),
      ("side", string order.side.name), ("price", codec.json order.price),
      ("qty", codec.json order.qty), ("post_only", .bool order.postOnly)] ++
    match order.expireAtMs with
    | none => []
    | some expireAtMs => [("expire_at_ms", number expireAtMs.1)])

def WireOrder.read (value : JsonValue) : Option WireOrder := do
  let fields ← value.openFields
    ["market", "strategy", "outcome", "side", "price", "qty", "post_only",
      "expire_at_ms"]
  let market ← required fields "market" asStr
  let strategy ← optional fields "strategy" asStr
  let outcome ← required fields "outcome" (unitVariant WireOutcome.variants)
  let side ← required fields "side" (unitVariant WireSide.variants)
  let price ← required fields "price" codec.read
  let qty ← required fields "qty" codec.read
  let postOnly ← required fields "post_only" readBool
  let expireAtMs ← optional fields "expire_at_ms" readI64
  return {
    market := market
    strategy := strategy
    outcome := outcome
    side := side
    price := price
    qty := qty
    postOnly := postOnly
    expireAtMs := expireAtMs }

theorem WireOrder.read_json
    {codec : DecimalCodec} (exact : codec.Exact) (order : WireOrder) :
    WireOrder.read codec (order.json codec) = some order := by
  obtain ⟨market, strategy, outcome, side, price, qty, postOnly,
    expireAtMs⟩ := order
  have amounts := And.intro (exact price) (exact qty)
  cases strategy <;> cases expireAtMs <;>
    simp [read, json, openFields, required_cons, JsonValue.optional, readBool,
      unitVariant, asStr, DecimalCodec.json, amounts, List.lookup_cons]

def WireEvent.kind : WireEvent → String
  | .cashMovement _ => "cash_movement"
  | .orderPlaced _ => "order_placed"
  | .orderAck _ _ _ _ => "order_ack"
  | .orderRejected _ _ => "order_rejected"
  | .orderCancelled _ => "order_cancelled"
  | .fill _ _ _ _ _ _ _ => "fill"
  | .settlement _ _ _ _ => "settlement"

def WireEvent.fields : WireEvent → List (String × JsonValue)
  | .cashMovement amount => [("amount", codec.json amount)]
  | .orderPlaced order => [("order", order.json codec)]
  | .orderAck placementId orderId state activeAtMs =>
      [("placement_id", string placementId), ("order_id", string orderId),
        ("state", string state.name), ("active_at_ms", number activeAtMs.1)]
  | .orderRejected placementId orderId =>
      [("placement_id", string placementId), ("order_id", string orderId)]
  | .orderCancelled orderId => [("order_id", string orderId)]
  | .fill orderId market outcome price size side fee =>
      [("order_id", string orderId), ("market", string market),
        ("outcome", string outcome.name), ("price", codec.json price),
        ("size", codec.json size), ("side", string side.name),
        ("fee", codec.json fee)]
  | .settlement market outcome settledSize proceeds =>
      [("market", string market), ("outcome", string outcome.name),
        ("settled_size", codec.json settledSize),
        ("proceeds", codec.json proceeds)]

def WireEvent.json (event : WireEvent) : JsonValue :=
  object (("kind", string event.kind) :: event.fields codec)

def WireEvent.readContent (kind : String) (content : JsonValue) :
    Option WireEvent :=
  match kind with
  | "cash_movement" => do
      let fields ← content.openFields ["amount"]
      let amount ← required fields "amount" codec.read
      return .cashMovement amount
  | "order_placed" => do
      let fields ← content.openFields ["order"]
      let order ← required fields "order" (WireOrder.read codec)
      return .orderPlaced order
  | "order_ack" => do
      let fields ← content.openFields
        ["placement_id", "order_id", "state", "active_at_ms"]
      let placementId ← required fields "placement_id" asStr
      let orderId ← required fields "order_id" asStr
      let state ← required fields "state" (unitVariant WireOrderState.variants)
      let activeAtMs ← required fields "active_at_ms" readI64
      return .orderAck placementId orderId state activeAtMs
  | "order_rejected" => do
      let fields ← content.openFields ["placement_id", "order_id"]
      let placementId ← required fields "placement_id" asStr
      let orderId ← required fields "order_id" asStr
      return .orderRejected placementId orderId
  | "order_cancelled" => do
      let fields ← content.openFields ["order_id"]
      let orderId ← required fields "order_id" asStr
      return .orderCancelled orderId
  | "fill" => do
      let fields ← content.openFields
        ["order_id", "market", "outcome", "price", "size", "side", "fee"]
      let orderId ← required fields "order_id" asStr
      let market ← required fields "market" asStr
      let outcome ← required fields "outcome" (unitVariant WireOutcome.variants)
      let price ← required fields "price" codec.read
      let size ← required fields "size" codec.read
      let side ← required fields "side" (unitVariant WireSide.variants)
      let fee ← required fields "fee" codec.read
      return .fill orderId market outcome price size side fee
  | "settlement" => do
      let fields ← content.openFields
        ["market", "outcome", "settled_size", "proceeds"]
      let market ← required fields "market" asStr
      let outcome ← required fields "outcome" (unitVariant WireOutcome.variants)
      let settledSize ← required fields "settled_size" codec.read
      let proceeds ← required fields "proceeds" codec.read
      return .settlement market outcome settledSize proceeds
  | _ => none

def WireEvent.read (value : JsonValue) : Option WireEvent := do
  let (kind, content) ← value.taggedContent "kind"
  WireEvent.readContent codec kind content

theorem WireEvent.taggedContent_json (event : WireEvent) :
    (event.json codec).taggedContent "kind" =
      some (event.kind, object (event.fields codec)) := by
  cases event <;> rfl

theorem WireEvent.read_json
    {codec : DecimalCodec} (exact : codec.Exact) (event : WireEvent) :
    WireEvent.read codec (event.json codec) = some event := by
  have amount := exact
  unfold DecimalCodec.Exact at amount
  have order := @WireOrder.read_json codec exact
  rw [read, taggedContent_json, Option.bind_eq_bind, Option.bind_some]
  cases event <;>
    simp [readContent, kind, fields, openFields, required_cons, unitVariant,
      asStr, DecimalCodec.json, amount, order]

def WireEntry.json (wire : WireEntry) : JsonValue :=
  object
    [("record_type", string wire.recordType),
      ("schema_version", number wire.schemaVersion.toNat),
      ("event_id", string wire.eventId), ("sequence", number wire.sequence),
      ("timestamp_ms", number wire.timestampMs.1),
      ("event", wire.event.json codec)]

def WireEntry.read (value : JsonValue) : Option WireEntry := do
  let fields ← value.openFields
    ["record_type", "schema_version", "event_id", "sequence", "timestamp_ms",
      "event"]
  let recordType ← required fields "record_type" asStr
  let schemaVersion ← required fields "schema_version" readU16
  let eventId ← required fields "event_id" asStr
  let sequence ← required fields "sequence" readU64
  let timestampMs ← required fields "timestamp_ms" readI64
  let event ← required fields "event" (WireEvent.read codec)
  return {
    recordType := recordType
    schemaVersion := schemaVersion
    eventId := eventId
    sequence := sequence
    timestampMs := timestampMs
    event := event }

theorem WireEntry.read_json
    {codec : DecimalCodec} (exact : codec.Exact) (wire : WireEntry) :
    WireEntry.read codec (wire.json codec) = some wire := by
  have event := WireEvent.read_json exact wire.event
  simp -implicitDefEqProofs [read, json, openFields, required_cons, asStr, event]

/-- The reader, with the text of its error. -/
def WireEntry.fromJson (message : JsonValue → String) (value : JsonValue) :
    Except String WireEntry :=
  match WireEntry.read codec value with
  | some wire => .ok wire
  | none => .error (message value)

theorem WireEntry.fromJson_eq_ok_iff
    {codec : DecimalCodec} {message : JsonValue → String} {value : JsonValue}
    {wire : WireEntry} :
    WireEntry.fromJson codec message value = .ok wire ↔
      WireEntry.read codec value = some wire := by
  unfold fromJson
  cases WireEntry.read codec value with
  | none => simp
  | some found => simp

def wireJson (message : JsonValue → String) : JsonLibrary JsonValue where
  toValue := fun wire => .ok (wire.json codec)
  fromValue := WireEntry.fromJson codec message
  recordType := fun value => (value.get "record_type").bind asStr

theorem wireJson_fromValue (message : JsonValue → String) :
    (wireJson codec message).fromValue = WireEntry.fromJson codec message := rfl

theorem wireJson_recordType (message : JsonValue → String) (value : JsonValue) :
    (wireJson codec message).recordType value =
      (value.get "record_type").bind asStr := rfl

theorem WireEntry.get_recordType (wire : WireEntry) :
    (wire.json codec).get "record_type" = some (string wire.recordType) := by
  rw [json, JsonValue.get, lookup_cons_ite, if_pos rfl]

/-- The derived code reads back what it writes. -/
theorem wireJson_faithful {codec : DecimalCodec} (exact : codec.Exact)
    (message : JsonValue → String) : (wireJson codec message).Faithful := by
  intro wire
  refine ⟨wire.json codec, rfl, ?_, ?_⟩
  · rw [wireJson_fromValue, WireEntry.fromJson_eq_ok_iff]
    exact WireEntry.read_json exact wire
  · rw [wireJson_recordType, WireEntry.get_recordType, Option.bind_some]
    rfl

/-- What a record that is read says of its version and its identity. -/
theorem WireEntry.fields_of_read
    {codec : DecimalCodec} {fields : List (String × JsonValue)}
    {wire : WireEntry}
    (found : WireEntry.read codec (object fields) = some wire) :
    required fields "schema_version" readU16 = some wire.schemaVersion ∧
      required fields "event_id" asStr = some wire.eventId ∧
      required fields "sequence" readU64 = some wire.sequence := by
  unfold WireEntry.read openFields at found
  simp only [Option.bind_eq_bind, Option.bind_some,
    Option.bind_eq_some_iff] at found
  obtain ⟨recordType, _, schemaVersion, version, eventId, identity, sequence,
    count, timestampMs, _, event, _, same⟩ := found
  cases same
  exact ⟨version, identity, count⟩

end Records

/-! ## The codec -/

namespace PaperLedgerEntry

variable {codec : DecimalCodec} {message : JsonValue → String}

def RoundTrips (json : JsonLibrary JsonValue) (entry : PaperLedgerEntry) :
    Prop :=
  ∃ value, entry.toValue json = .ok value ∧
    fromValue json value = .ok (some entry)

def SaysIdentity (value : JsonValue) : Prop :=
  value.get "schema_version" = some (number 1) ∧
    ∃ sequence : Nat, value.get "sequence" = some (number sequence) ∧
      value.get "event_id" = some (string (ledgerEventId sequence))

variable {entry : PaperLedgerEntry} {result : Option PaperLedgerEntry}

theorem roundTrips (exact : codec.Exact)
    (identity : entry.eventId = ledgerEventId entry.sequence) :
    RoundTrips (wireJson codec message) entry := by
  obtain ⟨value, written, _, _⟩ := wireJson_faithful exact message
    (WireEntry.ofEntry entry)
  have stored : entry.toValue (wireJson codec message) = .ok value := by
    rw [toValue, written]
    rfl
  exact ⟨value, stored,
    (fromValue_toValue (wireJson_faithful exact message) identity stored).2⟩

theorem fromValue_cases {value : JsonValue}
    (tagged : (wireJson codec message).recordType value =
      some paperLedgerRecordType)
    (read : fromValue (wireJson codec message) value = .ok result) :
    ∃ wire entry, WireEntry.read codec value = some wire ∧
      wire.toEntry = .ok entry ∧ result = some entry := by
  rw [fromValue, if_neg (not_not.mpr tagged), wireJson_fromValue] at read
  cases decoded : WireEntry.fromJson codec message value with
  | error failure =>
      rw [decoded] at read
      cases read
  | ok wire =>
      rw [decoded] at read
      cases checked : wire.toEntry with
      | error failure =>
          simp only [Except.mapError, bind, Except.bind, checked] at read
          cases read
      | ok entry =>
          simp only [Except.mapError, bind, Except.bind, checked] at read
          cases read
          exact ⟨wire, entry, WireEntry.fromJson_eq_ok_iff.mp decoded, checked,
            rfl⟩

theorem toEntry_ok {wire : WireEntry} (accepted : wire.toEntry = .ok entry) :
    wire.schemaVersion = paperLedgerSchemaVersion ∧
      wire.eventId = ledgerEventId wire.sequence ∧
      entry.eventId = ledgerEventId entry.sequence := by
  rw [WireEntry.toEntry] at accepted
  by_cases version : wire.schemaVersion ≠ paperLedgerSchemaVersion
  · rw [if_pos version] at accepted
    cases accepted
  · rw [if_neg version] at accepted
    by_cases named : wire.eventId ≠ ledgerEventId wire.sequence
    · rw [if_pos named] at accepted
      cases accepted
    · rw [if_neg named] at accepted
      rw [not_not] at version named
      cases event : wire.event.toEvent with
      | error failure =>
          rw [event] at accepted
          cases accepted
      | ok event =>
          rw [event] at accepted
          cases accepted
          exact ⟨version, named, named⟩

theorem saysIdentity_of_fromValue {value : JsonValue}
    (tagged : (wireJson codec message).recordType value =
      some paperLedgerRecordType)
    (read : fromValue (wireJson codec message) value = .ok result) :
    SaysIdentity value := by
  obtain ⟨wire, entry, decoded, accepted, _⟩ := fromValue_cases tagged read
  obtain ⟨version, named, _⟩ := toEntry_ok accepted
  rw [wireJson_recordType] at tagged
  cases value with
  | object fields =>
      obtain ⟨schemaVersion, eventId, sequence⟩ :=
        WireEntry.fields_of_read decoded
      obtain ⟨held, heldVersion, isVersion⟩ :=
        Option.bind_eq_some_iff.mp schemaVersion
      obtain ⟨text, heldId, isId⟩ := Option.bind_eq_some_iff.mp eventId
      obtain ⟨count, heldCount, isCount⟩ := Option.bind_eq_some_iff.mp sequence
      refine ⟨?_, wire.sequence, ?_, ?_⟩
      · change fields.lookup "schema_version" = some (number 1)
        rw [heldVersion, eq_number_of_readU16 isVersion, version]
        rfl
      · change fields.lookup "sequence" = some (number wire.sequence)
        rw [heldCount, eq_number_of_readU64 isCount]
      · change fields.lookup "event_id" =
          some (string (ledgerEventId wire.sequence))
        rw [heldId, eq_string_of_asStr isId, named]
  | null => cases tagged
  | bool held => cases tagged
  | number held => cases tagged
  | real bits => cases tagged
  | string text => cases tagged
  | array items => cases tagged

/-- Every entry under the identity of its sequence is read back as it was
written, so every entry that a ledger records; a tagged value of another
version or identity is refused; and what is read as an entry is read as that
entry again once it is written. -/
theorem codec_lossless
    (exact : codec.Exact) (message : JsonValue → String) :
    (∀ entry : PaperLedgerEntry, entry.eventId = ledgerEventId entry.sequence →
      RoundTrips (wireJson codec message) entry) ∧
    (∀ initialCash, RoundTrips (wireJson codec message)
      (PaperLedger.openingEntry initialCash)) ∧
    (∀ (ledger : PaperLedger) timestampMs event,
      RoundTrips (wireJson codec message)
        (ledger.nextEntry timestampMs event)) ∧
    (∀ value, (wireJson codec message).recordType value =
        some paperLedgerRecordType → ¬ SaysIdentity value →
      ∃ failure, fromValue (wireJson codec message) value = .error failure) ∧
    ∀ value entry,
      fromValue (wireJson codec message) value = .ok (some entry) →
        RoundTrips (wireJson codec message) entry := by
  refine ⟨?_, ?_, ?_, ?_, ?_⟩
  · intro entry identity
    exact roundTrips exact identity
  · intro initialCash
    exact roundTrips exact rfl
  · intro ledger timestampMs event
    exact roundTrips exact rfl
  · intro value tagged differs
    cases read : fromValue (wireJson codec message) value with
    | error failure => exact ⟨failure, rfl⟩
    | ok result =>
        exact absurd (saysIdentity_of_fromValue tagged read) differs
  · intro value entry read
    by_cases tagged : (wireJson codec message).recordType value =
        some paperLedgerRecordType
    · obtain ⟨wire, found, _, accepted, same⟩ := fromValue_cases tagged read
      cases same
      exact roundTrips exact (toEntry_ok accepted).2.2
    · rw [fromValue, if_pos tagged] at read
      cases read

section Example

def orderDecimals : DecimalCodec where
  text := fun value =>
    if value = 10 then "10"
    else if value = 1 / 2 then "0.5"
    else String.ofList (List.replicate (Encodable.encode value) '#')
  read := fun
    | string text =>
        if text = "10" then some 10
        else if text = "0.5" then some (1 / 2)
        else Encodable.decode text.length
    | _ => none

theorem orderDecimals_exact : orderDecimals.Exact := by
  intro value
  simp only [orderDecimals]
  by_cases ten : value = 10
  · simp [ten]
  by_cases half : value = 1 / 2
  · have ne : ("0.5" : String) ≠ "10" := by decide
    rw [if_neg ten, if_pos half, if_neg ne, if_pos rfl, half]
  · have unary : ∀ text : String, '#' ∉ text.toList → text.toList ≠ [] →
        String.ofList (List.replicate (Encodable.encode value) '#') ≠ text := by
      rintro text absent notEmpty rfl
      rw [String.toList_ofList] at absent notEmpty
      cases count : Encodable.encode value with
      | zero =>
          rw [count] at notEmpty
          exact notEmpty rfl
      | succ more =>
          rw [count] at absent
          exact absent List.mem_cons_self
    rw [if_neg ten, if_neg half, if_neg (unary "10" (by decide) (by decide)),
      if_neg (unary "0.5" (by decide) (by decide)), String.length_ofList,
      List.length_replicate, Encodable.encodek]

def placedEntry : PaperLedgerEntry where
  eventId := ledgerEventId 3
  sequence := 3
  timestampMs := I64.clamp 42
  event := .orderPlaced
    { market := ⟨"doge-5m", by decide⟩
      strategy := none
      outcome := .up
      side := .buy
      price := 1 / 2
      qty := 10
      postOnly := true
      tif := .gtd (I64.clamp 900) }

theorem codec_lossless_placedEntry :
    RoundTrips (wireJson orderDecimals fun _ => "invalid type") placedEntry :=
  (codec_lossless orderDecimals_exact fun _ => "invalid type").1 placedEntry rfl

end Example

end PaperLedgerEntry

end Pmkit
