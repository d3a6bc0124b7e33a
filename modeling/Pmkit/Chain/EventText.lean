import Pmkit.Chain.Log
import Pmkit.Library.Fallible
import Pmkit.Library.Json

/-!
# Chain events as text

A log is stored with the JSON of its event: an object tagged with the kind of
the event, whose amounts are decimal texts.  The JSON library and the text of a
decimal are parameters; what the store relies on is that a text it wrote is
read back.
-/

namespace Pmkit

open JsonValue

/-- The texts of the libraries; `eventError` is the message for a text that is
no event. -/
structure ChainText where
  writeJson : JsonValue → String
  readJson : String → Option JsonValue
  decimal : Decimal → String
  readDecimal : JsonValue → Option Decimal
  eventError : String → String

namespace ChainText

variable (text : ChainText)

def decimalJson (amount : Decimal) : JsonValue :=
  string (text.decimal amount)

def field {A : Type} (value : JsonValue) (name : String)
    (read : JsonValue → Option A) : Option A :=
  (value.get name).bind read

theorem field_object {A : Type} (fields : List (String × JsonValue))
    (name : String) (read : JsonValue → Option A) :
    field (object fields) name read = (fields.lookup name).bind read := rfl

def readAddress (value : JsonValue) : Option Address :=
  value.asStr.map Address.mk

end ChainText

def Address.json (address : Address) : JsonValue :=
  string address.value

@[simp]
theorem ChainText.readAddress_json (address : Address) :
    readAddress address.json = some address := rfl

namespace TradeSide

def json : TradeSide → JsonValue
  | buy => string "BUY"
  | sell => string "SELL"

def ofJson (value : JsonValue) : Option TradeSide :=
  value.asStr.bind fun name =>
    if name = "BUY" then
      some buy
    else if name = "SELL" then
      some sell
    else
      none

@[simp]
theorem ofJson_json (side : TradeSide) : ofJson side.json = some side := by
  cases side with
  | buy => rfl
  | sell => rfl

end TradeSide

namespace OutcomeTokenAmount

variable (text : ChainText)

def json (token : OutcomeTokenAmount) : JsonValue :=
  object
    [("asset_id", string token.assetId),
      ("amount", text.decimalJson token.amount)]

def ofJson (value : JsonValue) : Option OutcomeTokenAmount := do
  let assetId ← ChainText.field value "asset_id" asStr
  let amount ← ChainText.field value "amount" text.readDecimal
  return ⟨assetId, amount⟩

variable {text}

@[simp]
theorem ofJson_json {token : OutcomeTokenAmount}
    (reads : text.readDecimal (text.decimalJson token.amount) =
      some token.amount) :
    ofJson text (token.json text) = some token := by
  simp [ofJson, json, ChainText.field_object, List.lookup_cons, asStr, reads]

theorem mapM_ofJson_json {tokens : List OutcomeTokenAmount}
    (reads : ∀ token ∈ tokens,
      text.readDecimal (text.decimalJson token.amount) = some token.amount) :
    (tokens.map (json text)).mapM (ofJson text) = some tokens :=
  (Fallible.mapM_map_eq_some fun token mem => ofJson_json (reads token mem)).trans
    (congrArg some (List.map_id tokens))

end OutcomeTokenAmount

/-! ## Events -/

/-- The kinds of events, as their tags tell them apart. -/
inductive ChainEventKind where
  | collateralTransfer
  | outcomeTransferSingle
  | outcomeTransferBatch
  | positionSplit
  | positionsMerge
  | payoutRedemption
  | orderFilled
  | ordersMatched
  | feeCharged
  deriving DecidableEq

namespace ChainEventKind

/-- The tag, `rename_all = "snake_case"`. -/
def tag : ChainEventKind → String
  | collateralTransfer => "collateral_transfer"
  | outcomeTransferSingle => "outcome_transfer_single"
  | outcomeTransferBatch => "outcome_transfer_batch"
  | positionSplit => "position_split"
  | positionsMerge => "positions_merge"
  | payoutRedemption => "payout_redemption"
  | orderFilled => "order_filled"
  | ordersMatched => "orders_matched"
  | feeCharged => "fee_charged"

def all : List ChainEventKind :=
  [collateralTransfer, outcomeTransferSingle, outcomeTransferBatch,
    positionSplit, positionsMerge, payoutRedemption, orderFilled,
    ordersMatched, feeCharged]

def ofTag (name : String) : Option ChainEventKind :=
  all.find? fun kind => kind.tag = name

@[simp]
theorem ofTag_tag (kind : ChainEventKind) : ofTag kind.tag = some kind := by
  cases kind with
  | _ => decide +kernel

end ChainEventKind

namespace ChainEvent

def amounts : ChainEvent → List Decimal
  | collateralTransfer _ _ amount => [amount]
  | outcomeTransferSingle _ _ _ amount => [amount]
  | outcomeTransferBatch _ _ transfers =>
      transfers.map OutcomeTokenAmount.amount
  | positionSplit _ _ amount => [amount]
  | positionsMerge _ _ amount => [amount]
  | payoutRedemption _ _ payout => [payout]
  | orderFilled _ _ _ _ _ makerAmount takerAmount fee =>
      [makerAmount, takerAmount, fee]
  | ordersMatched _ _ amount => [amount]
  | feeCharged _ _ amount => [amount]

def kind : ChainEvent → ChainEventKind
  | collateralTransfer .. => .collateralTransfer
  | outcomeTransferSingle .. => .outcomeTransferSingle
  | outcomeTransferBatch .. => .outcomeTransferBatch
  | positionSplit .. => .positionSplit
  | positionsMerge .. => .positionsMerge
  | payoutRedemption .. => .payoutRedemption
  | orderFilled .. => .orderFilled
  | ordersMatched .. => .ordersMatched
  | feeCharged .. => .feeCharged

variable (text : ChainText)

def fields : ChainEvent → List (String × JsonValue)
  | collateralTransfer sender recipient amount =>
      [("from", sender.json), ("to", recipient.json),
        ("amount", text.decimalJson amount)]
  | outcomeTransferSingle sender recipient assetId amount =>
      [("from", sender.json), ("to", recipient.json),
        ("asset_id", string assetId), ("amount", text.decimalJson amount)]
  | outcomeTransferBatch sender recipient transfers =>
      [("from", sender.json), ("to", recipient.json),
        ("transfers", array (transfers.map (OutcomeTokenAmount.json text)))]
  | positionSplit stakeholder conditionId amount =>
      [("stakeholder", stakeholder.json), ("condition_id", string conditionId),
        ("amount", text.decimalJson amount)]
  | positionsMerge stakeholder conditionId amount =>
      [("stakeholder", stakeholder.json), ("condition_id", string conditionId),
        ("amount", text.decimalJson amount)]
  | payoutRedemption redeemer conditionId payout =>
      [("redeemer", redeemer.json), ("condition_id", string conditionId),
        ("payout", text.decimalJson payout)]
  | orderFilled maker taker makerAssetId takerAssetId makerSide makerAmount
      takerAmount fee =>
      [("maker", maker.json), ("taker", taker.json),
        ("maker_asset_id", string makerAssetId),
        ("taker_asset_id", string takerAssetId),
        ("maker_side", makerSide.json),
        ("maker_amount", text.decimalJson makerAmount),
        ("taker_amount", text.decimalJson takerAmount),
        ("fee", text.decimalJson fee)]
  | ordersMatched trader assetId amount =>
      [("trader", trader.json), ("asset_id", string assetId),
        ("amount", text.decimalJson amount)]
  | feeCharged payer recipient amount =>
      [("payer", payer.json), ("recipient", recipient.json),
        ("amount", text.decimalJson amount)]

/-- The derived `Serialize`: the tag and the fields. -/
def json (event : ChainEvent) : JsonValue :=
  object (("kind", string event.kind.tag) :: event.fields text)

def ofFields (value : JsonValue) : ChainEventKind → Option ChainEvent
  | .collateralTransfer => do
      return .collateralTransfer
        (← ChainText.field value "from" ChainText.readAddress)
        (← ChainText.field value "to" ChainText.readAddress)
        (← ChainText.field value "amount" text.readDecimal)
  | .outcomeTransferSingle => do
      return .outcomeTransferSingle
        (← ChainText.field value "from" ChainText.readAddress)
        (← ChainText.field value "to" ChainText.readAddress)
        (← ChainText.field value "asset_id" asStr)
        (← ChainText.field value "amount" text.readDecimal)
  | .outcomeTransferBatch => do
      return .outcomeTransferBatch
        (← ChainText.field value "from" ChainText.readAddress)
        (← ChainText.field value "to" ChainText.readAddress)
        (← ChainText.field value "transfers" fun items =>
          items.asArray.bind (List.mapM (OutcomeTokenAmount.ofJson text)))
  | .positionSplit => do
      return .positionSplit
        (← ChainText.field value "stakeholder" ChainText.readAddress)
        (← ChainText.field value "condition_id" asStr)
        (← ChainText.field value "amount" text.readDecimal)
  | .positionsMerge => do
      return .positionsMerge
        (← ChainText.field value "stakeholder" ChainText.readAddress)
        (← ChainText.field value "condition_id" asStr)
        (← ChainText.field value "amount" text.readDecimal)
  | .payoutRedemption => do
      return .payoutRedemption
        (← ChainText.field value "redeemer" ChainText.readAddress)
        (← ChainText.field value "condition_id" asStr)
        (← ChainText.field value "payout" text.readDecimal)
  | .orderFilled => do
      return .orderFilled
        (← ChainText.field value "maker" ChainText.readAddress)
        (← ChainText.field value "taker" ChainText.readAddress)
        (← ChainText.field value "maker_asset_id" asStr)
        (← ChainText.field value "taker_asset_id" asStr)
        (← ChainText.field value "maker_side" TradeSide.ofJson)
        (← ChainText.field value "maker_amount" text.readDecimal)
        (← ChainText.field value "taker_amount" text.readDecimal)
        (← ChainText.field value "fee" text.readDecimal)
  | .ordersMatched => do
      return .ordersMatched
        (← ChainText.field value "trader" ChainText.readAddress)
        (← ChainText.field value "asset_id" asStr)
        (← ChainText.field value "amount" text.readDecimal)
  | .feeCharged => do
      return .feeCharged
        (← ChainText.field value "payer" ChainText.readAddress)
        (← ChainText.field value "recipient" ChainText.readAddress)
        (← ChainText.field value "amount" text.readDecimal)

/-- The derived `Deserialize`, on an object.  The library reads a field by its
name wherever it stands. -/
def ofJson (value : JsonValue) : Option ChainEvent := do
  let name ← ChainText.field value "kind" asStr
  let kind ← ChainEventKind.ofTag name
  ofFields text value kind

end ChainEvent

namespace ChainText

/-- What the store relies on for one event: its JSON and its amounts are read
back. -/
structure ReadsBack (text : ChainText) (event : ChainEvent) : Prop where
  json : text.readJson (text.writeJson (event.json text)) =
    some (event.json text)
  amounts : ∀ amount ∈ event.amounts,
    text.readDecimal (text.decimalJson amount) = some amount

/-- The text of the `event_json` column. -/
def event (text : ChainText) (event : ChainEvent) : String :=
  text.writeJson (event.json text)

/-- `serde_json::from_str` of the column. -/
def readEvent (text : ChainText) (written : String) : Option ChainEvent :=
  (text.readJson written).bind (ChainEvent.ofJson text)

end ChainText

variable {text : ChainText}

theorem ChainEvent.ofFields_json {event : ChainEvent}
    (reads : ∀ amount ∈ event.amounts,
      text.readDecimal (text.decimalJson amount) = some amount) :
    ofFields text (event.json text) event.kind = some event := by
  cases event with
  | outcomeTransferBatch sender recipient transfers =>
      have tokens := OutcomeTokenAmount.mapM_ofJson_json
        fun token mem => reads token.amount (List.mem_map_of_mem mem)
      simp [json, fields, kind, ofFields, ChainText.field_object,
        List.lookup_cons, asArray, tokens]
  | orderFilled maker taker makerAssetId takerAssetId makerSide makerAmount
      takerAmount fee =>
      simp only [amounts, List.mem_cons, List.not_mem_nil, or_false,
        forall_eq_or_imp, forall_eq] at reads
      simp [json, fields, kind, ofFields, ChainText.field_object,
        List.lookup_cons, asStr, reads]
  | _ =>
      simp only [amounts, List.mem_singleton, forall_eq] at reads
      simp [json, fields, kind, ofFields, ChainText.field_object,
        List.lookup_cons, asStr, reads]

theorem ChainEvent.ofJson_json {event : ChainEvent}
    (reads : ∀ amount ∈ event.amounts,
      text.readDecimal (text.decimalJson amount) = some amount) :
    ofJson text (event.json text) = some event := by
  have tag : ChainText.field (event.json text) "kind" asStr =
      some event.kind.tag := by
    simp [json, ChainText.field_object, asStr]
  rw [ofJson, tag, Option.bind_eq_bind, Option.bind_some,
    ChainEventKind.ofTag_tag, Option.bind_eq_bind, Option.bind_some]
  exact ofFields_json reads

theorem ChainText.ReadsBack.readEvent
    {event : ChainEvent} (reads : text.ReadsBack event) :
    text.readEvent (text.event event) = some event := by
  rw [ChainText.readEvent, ChainText.event, reads.json, Option.bind_some,
    ChainEvent.ofJson_json reads.amounts]

end Pmkit
