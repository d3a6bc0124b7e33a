import Pmkit.Paper.Ledger

/-!
# The durable form of a ledger entry

An entry is stored as a tagged, versioned record.  The JSON library between
the record and the stored value is a parameter; what the ledger relies on is
that a record it wrote is read back as it was.
-/

namespace Pmkit

open MachineInt

/-! ## Records -/

inductive WireOrderState where
  | immediate
  | resting
  | delayed
  deriving DecidableEq, Repr

namespace WireOrderState

def ofState : OrderState → WireOrderState
  | .immediate => .immediate
  | .resting => .resting
  | .delayed => .delayed

def toState : WireOrderState → OrderState
  | .immediate => .immediate
  | .resting => .resting
  | .delayed => .delayed

@[simp]
theorem toState_ofState (state : OrderState) :
    (ofState state).toState = state := by
  cases state <;> rfl

end WireOrderState

inductive WireOutcome where
  | up
  | down
  deriving DecidableEq, Repr

namespace WireOutcome

def ofOutcome : Outcome → WireOutcome
  | .up => .up
  | .down => .down

def toOutcome : WireOutcome → Outcome
  | .up => .up
  | .down => .down

@[simp]
theorem toOutcome_ofOutcome (outcome : Outcome) :
    (ofOutcome outcome).toOutcome = outcome := by
  cases outcome <;> rfl

end WireOutcome

inductive WireSide where
  | buy
  | sell
  deriving DecidableEq, Repr

namespace WireSide

def ofSide : Side → WireSide
  | .buy => .buy
  | .sell => .sell

def toSide : WireSide → Side
  | .buy => .buy
  | .sell => .sell

@[simp]
theorem toSide_ofSide (side : Side) : (ofSide side).toSide = side := by
  cases side <;> rfl

end WireSide

/-- An order record; a missing expiry means good till cancelled. -/
structure WireOrder where
  market : String
  strategy : Option String
  outcome : WireOutcome
  side : WireSide
  price : Decimal
  qty : Decimal
  postOnly : Bool
  expireAtMs : Option I64
  deriving DecidableEq

inductive WireEvent where
  | cashMovement (amount : Decimal)
  | orderPlaced (order : WireOrder)
  | orderAck (placementId orderId : String) (state : WireOrderState)
      (activeAtMs : I64)
  | orderRejected (placementId orderId : String)
  | orderCancelled (orderId : String)
  | fill (orderId market : String) (outcome : WireOutcome)
      (price size : Decimal) (side : WireSide) (fee : Decimal)
  | settlement (market : String) (outcome : WireOutcome)
      (settledSize proceeds : Decimal)
  deriving DecidableEq

structure WireEntry where
  recordType : String
  schemaVersion : UInt16
  eventId : String
  sequence : Nat
  timestampMs : I64
  event : WireEvent
  deriving DecidableEq

def paperLedgerSchemaVersion : UInt16 := 1

def paperLedgerRecordType : String := "paper_ledger"

def WireOrder.ofOrder (order : RecordedOrder) : WireOrder where
  market := order.market.value
  strategy := order.strategy.map Id.value
  outcome := .ofOutcome order.outcome
  side := .ofSide order.side
  price := order.price
  qty := order.qty
  postOnly := order.postOnly
  expireAtMs :=
    match order.tif with
    | .gtc => none
    | .gtd expireAtMs => some expireAtMs

def WireEvent.ofEvent : PaperLedgerEvent → WireEvent
  | .cashMovement amount => .cashMovement amount
  | .orderPlaced order => .orderPlaced (.ofOrder order)
  | .orderAck placementId orderId state activeAtMs =>
      .orderAck placementId orderId (.ofState state) activeAtMs
  | .orderRejected placementId orderId => .orderRejected placementId orderId
  | .orderCancelled orderId => .orderCancelled orderId
  | .fill orderId market outcome price size side fee =>
      .fill orderId market.value (.ofOutcome outcome) price size (.ofSide side)
        fee
  | .settlement market outcome settledSize proceeds =>
      .settlement market.value (.ofOutcome outcome) settledSize proceeds

def WireEntry.ofEntry (entry : PaperLedgerEntry) : WireEntry where
  recordType := paperLedgerRecordType
  schemaVersion := paperLedgerSchemaVersion
  eventId := entry.eventId
  sequence := entry.sequence
  timestampMs := entry.timestampMs
  event := .ofEvent entry.event

/-- `parse_market` and `parse_strategy`. -/
def parseId (kind : IdKind) (value : String) :
    Except PaperLedgerError (Id kind) :=
  (Id.new kind value).mapError fun error =>
    .invalidRecord (emptyIdMessage error)

def parseMarket (value : String) : Except PaperLedgerError MarketId :=
  parseId .market value

def parseStrategy (value : String) : Except PaperLedgerError StrategyId :=
  parseId .strategy value

def WireOrder.toOrder (order : WireOrder) :
    Except PaperLedgerError RecordedOrder := do
  let market ← parseMarket order.market
  let strategy ← order.strategy.mapM parseStrategy
  return {
    market := market
    strategy := strategy
    outcome := order.outcome.toOutcome
    side := order.side.toSide
    price := order.price
    qty := order.qty
    postOnly := order.postOnly
    tif :=
      match order.expireAtMs with
      | none => .gtc
      | some expireAtMs => .gtd expireAtMs }

def WireEvent.toEvent : WireEvent → Except PaperLedgerError PaperLedgerEvent
  | .cashMovement amount => .ok (.cashMovement amount)
  | .orderPlaced order => do
      let order ← order.toOrder
      return .orderPlaced order
  | .orderAck placementId orderId state activeAtMs =>
      .ok (.orderAck placementId orderId state.toState activeAtMs)
  | .orderRejected placementId orderId =>
      .ok (.orderRejected placementId orderId)
  | .orderCancelled orderId => .ok (.orderCancelled orderId)
  | .fill orderId market outcome price size side fee => do
      let market ← parseMarket market
      return .fill orderId market outcome.toOutcome price size side.toSide fee
  | .settlement market outcome settledSize proceeds => do
      let market ← parseMarket market
      return .settlement market outcome.toOutcome settledSize proceeds

/-- The part of `from_value` after the JSON library: version, identity,
event. -/
def WireEntry.toEntry (wire : WireEntry) :
    Except PaperLedgerError PaperLedgerEntry :=
  if wire.schemaVersion ≠ paperLedgerSchemaVersion then
    .error (.unsupportedVersion wire.schemaVersion)
  else if wire.eventId ≠ ledgerEventId wire.sequence then
    .error (.invalidRecord "event identity does not match its sequence")
  else do
    let event ← wire.event.toEvent
    return {
      eventId := wire.eventId
      sequence := wire.sequence
      timestampMs := wire.timestampMs
      event := event }

theorem parseId_value {kind : IdKind} (id : Id kind) :
    parseId kind id.value = .ok id := by
  simp [parseId, Id.new, id.notBlank, Except.mapError]

theorem WireOrder.toOrder_ofOrder (order : RecordedOrder) :
    (WireOrder.ofOrder order).toOrder = .ok order := by
  have strategy : (order.strategy.map Id.value).mapM parseStrategy =
      .ok order.strategy := by
    cases order.strategy with
    | none => rfl
    | some id =>
        simp only [Option.map_some, Option.mapM_some, parseStrategy,
          parseId_value]
        rfl
  have market : parseMarket order.market.value = .ok order.market :=
    parseId_value order.market
  simp only [toOrder, ofOrder, strategy, market, bind, Except.bind, pure,
    Except.pure, WireOutcome.toOutcome_ofOutcome, WireSide.toSide_ofSide]
  cases order with
  | mk market strategy outcome side price qty postOnly tif =>
      cases tif with
      | gtc => rfl
      | gtd expireAtMs => rfl

theorem WireEvent.toEvent_ofEvent (event : PaperLedgerEvent) :
    (WireEvent.ofEvent event).toEvent = .ok event := by
  cases event with
  | orderPlaced order =>
      simp only [ofEvent, toEvent, WireOrder.toOrder_ofOrder]
      rfl
  | fill orderId market outcome price size side fee =>
      have parsed : parseMarket market.value = .ok market :=
        parseId_value market
      simp only [ofEvent, toEvent, parsed, bind, Except.bind, pure,
        Except.pure, WireOutcome.toOutcome_ofOutcome, WireSide.toSide_ofSide]
  | settlement market outcome settledSize proceeds =>
      have parsed : parseMarket market.value = .ok market :=
        parseId_value market
      simp only [ofEvent, toEvent, parsed, bind, Except.bind, pure,
        Except.pure, WireOutcome.toOutcome_ofOutcome]
  | orderAck placementId orderId state activeAtMs =>
      simp [ofEvent, toEvent]
  | cashMovement amount => rfl
  | orderRejected placementId orderId => rfl
  | orderCancelled orderId => rfl

/-- A record is read back as the entry it was written from, when that entry
has the identity of its sequence. -/
theorem WireEntry.toEntry_ofEntry {entry : PaperLedgerEntry}
    (identity : entry.eventId = ledgerEventId entry.sequence) :
    (WireEntry.ofEntry entry).toEntry = .ok entry := by
  simp only [toEntry, ofEntry, ne_eq, not_true_eq_false, if_false, identity,
    WireEvent.toEvent_ofEvent, bind, Except.bind, pure, Except.pure]
  rw [← identity]

/-- What the ledger uses of the JSON library: writing a record, reading one,
and the text under `record_type`. -/
structure JsonLibrary (Value : Type) where
  toValue : WireEntry → Except String Value
  fromValue : Value → Except String WireEntry
  recordType : Value → Option String

/-- A written record is read back, and carries its tag. -/
def JsonLibrary.Faithful {Value : Type} (json : JsonLibrary Value) : Prop :=
  ∀ wire, ∃ value, json.toValue wire = .ok value ∧
    json.fromValue value = .ok wire ∧
    json.recordType value = some wire.recordType

namespace PaperLedgerEntry

variable {Value : Type}

/-- `to_value`. -/
def toValue (json : JsonLibrary Value) (entry : PaperLedgerEntry) :
    Except PaperLedgerError Value :=
  (json.toValue (.ofEntry entry)).mapError .invalidRecord

/-- `from_value`: other payloads are ignored. -/
def fromValue (json : JsonLibrary Value) (value : Value) :
    Except PaperLedgerError (Option PaperLedgerEntry) :=
  if json.recordType value ≠ some paperLedgerRecordType then
    .ok none
  else do
    let wire ← (json.fromValue value).mapError .invalidRecord
    let entry ← wire.toEntry
    return some entry

theorem fromValue_toValue {json : JsonLibrary Value} (faithful : json.Faithful)
    {entry : PaperLedgerEntry}
    (identity : entry.eventId = ledgerEventId entry.sequence) {value : Value}
    (written : entry.toValue json = .ok value) :
    json.recordType value = some paperLedgerRecordType ∧
      fromValue json value = .ok (some entry) := by
  obtain ⟨stored, encoded, decoded, tag⟩ := faithful (.ofEntry entry)
  rw [toValue, encoded] at written
  cases written
  refine ⟨tag, ?_⟩
  have tagged : json.recordType value = some paperLedgerRecordType := tag
  simp only [fromValue, tagged, ne_eq, not_true_eq_false, if_false, decoded,
    Except.mapError, bind, Except.bind, WireEntry.toEntry_ofEntry identity]
  rfl

end PaperLedgerEntry

end Pmkit
