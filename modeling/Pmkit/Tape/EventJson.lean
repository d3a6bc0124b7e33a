import Pmkit.Feed.Order
import Pmkit.Library.Json

/-!
# Normalized facts as JSON

The portable payload of each Polymarket fact, and the envelope around it.  A
decimal is written as its text, and a missing strategy as `null`.
-/

namespace Pmkit

open MachineInt JsonValue

def I64.json (value : I64) : JsonValue :=
  number value.1

theorem asI64_val (value : I64) : asI64 (number value.1) = some value.1 :=
  asI64_number ⟨value.2.1, Int.lt_of_le_sub_one value.2.2⟩

/-- `side_str`. -/
def Side.str : Side → String
  | .buy => "buy"
  | .sell => "sell"

/-- `liquidity_str`. -/
def Liquidity.str : Liquidity → String
  | .maker => "maker"
  | .taker => "taker"

/-- `strategy.as_ref().map(ToString::to_string)`. -/
def StrategyId.json : Option StrategyId → JsonValue
  | none => null
  | some strategy => string strategy.value

/-- `fill_identity_json` and `settlement_identity_json`. -/
def EventIdentity.json : EventIdentity → JsonValue
  | .venue id =>
      object [("source", string "venue"), ("id", string id)]
  | .transport sourceId connectionId connectionEpoch frameSequence =>
      object
        [("source", string "transport"), ("source_id", string sourceId),
          ("connection_id", string connectionId),
          ("connection_epoch", I64.json connectionEpoch),
          ("frame_sequence", I64.json frameSequence)]

section Payloads

variable {D : Type} (format : EventFormat D)

def EventFormat.json (value : D) : JsonValue :=
  string (format.text value)

/-- `levels`. -/
def levelsJson (levels : List (D × D)) : JsonValue :=
  array (levels.map fun level =>
    array [format.json level.1, format.json level.2])

def FillEvent.fields (filled : FillEvent D) : List (String × JsonValue) :=
  [("strategy", StrategyId.json filled.strategy),
    ("order_id", string filled.orderId),
    ("market", string filled.market.value),
    ("outcome", string filled.outcome.display),
    ("price", format.json filled.price), ("size", format.json filled.size),
    ("side", string filled.side.str), ("fee", format.json filled.fee),
    ("liquidity", string filled.liquidity.str)]

/-- `event_json`. -/
def eventJson : MarketEvent D → JsonValue
  | .bookUpdate market outcome bids asks timestampMs =>
      object
        [("kind", string "book_update"), ("ts", I64.json timestampMs),
          ("market", string market.value), ("outcome", string outcome.display),
          ("bids", levelsJson format bids), ("asks", levelsJson format asks)]
  | .bestBidAsk market outcome bid ask timestampMs =>
      object
        [("kind", string "best_bid_ask"), ("ts", I64.json timestampMs),
          ("market", string market.value), ("outcome", string outcome.display),
          ("bid", format.json bid), ("ask", format.json ask)]
  | .lastTrade market outcome price side size timestampMs =>
      object
        [("kind", string "last_trade"), ("ts", I64.json timestampMs),
          ("market", string market.value), ("outcome", string outcome.display),
          ("price", format.json price), ("side", string side.str),
          ("size", format.json size)]
  | .fill filled =>
      object ([("kind", string "fill"), ("ts", I64.json filled.timestampMs)] ++
        filled.fields format)
  | .orderAck strategy orderId timestampMs =>
      object
        [("kind", string "order_ack"), ("ts", I64.json timestampMs),
          ("strategy", StrategyId.json strategy), ("order_id", string orderId)]
  | .tick timestampMs =>
      object [("kind", string "tick"), ("ts", I64.json timestampMs)]

/-- The payload of `account_envelope_json`. -/
def accountEventJson : PmAccountEvent D → JsonValue
  | .fill identity filled =>
      object ([("kind", string "fill"), ("ts", I64.json filled.timestampMs),
        ("identity", identity.json)] ++ filled.fields format)
  | .orderAck strategy orderId timestampMs =>
      object
        [("kind", string "order_ack"), ("ts", I64.json timestampMs),
          ("strategy", StrategyId.json strategy), ("order_id", string orderId)]
  | .orderCancelled strategy orderId timestampMs =>
      object
        [("kind", string "order_cancelled"), ("ts", I64.json timestampMs),
          ("strategy", StrategyId.json strategy), ("order_id", string orderId)]
  | .orderRejected strategy orderId reason timestampMs =>
      object
        [("kind", string "order_rejected"), ("ts", I64.json timestampMs),
          ("strategy", StrategyId.json strategy), ("order_id", string orderId),
          ("reason", string reason)]
  | .orderStatus strategy orderId status timestampMs =>
      object
        [("kind", string "order_status"), ("ts", I64.json timestampMs),
          ("strategy", StrategyId.json strategy), ("order_id", string orderId),
          ("status", string status)]
  | .settlement identity market outcome settledSize proceeds timestampMs =>
      object
        [("kind", string "settlement"), ("ts", I64.json timestampMs),
          ("identity", identity.json), ("market", string market.value),
          ("outcome", string outcome.display),
          ("settled_size", format.json settledSize),
          ("proceeds", format.json proceeds)]

/-- The fields of `envelope_json`. -/
def envelopeFields (metadata : StreamMetadata) (payload : JsonValue) :
    List (String × JsonValue) :=
  [("schema_version", number metadata.schemaVersion.toNat),
    ("source_id", string metadata.sourceId),
    ("source_time_ms", I64.json metadata.sourceTimeMs),
    ("canonical_source_rank", I64.json metadata.canonicalSourceRank),
    ("receipt_time_ms", I64.json metadata.receiptTimeMs),
    ("connection_id", string metadata.connectionId),
    ("connection_epoch", I64.json metadata.connectionEpoch),
    ("frame_sequence", I64.json metadata.frameSequence),
    ("ingest_sequence", number metadata.ingestSequence.toNat),
    ("payload", payload)]

/-- `market_envelope_json`. -/
def marketEnvelopeJson (envelope : PmMarketEnvelope D) : JsonValue :=
  object (envelopeFields envelope.metadata (eventJson format envelope.fact))

/-- `account_envelope_json`. -/
def accountEnvelopeJson (envelope : PmAccountEnvelope D) : JsonValue :=
  (object (envelopeFields envelope.metadata
    (accountEventJson format envelope.fact))).set "portfolio"
      (string envelope.portfolio.value)

end Payloads

namespace PmAccountEvent

variable {D : Type}

def marketOutcome : PmAccountEvent D → Option (MarketId × Outcome)
  | fill _ filled => some (filled.market, filled.outcome)
  | settlement _ market outcome _ _ _ => some (market, outcome)
  | orderAck _ _ _ => none
  | orderCancelled _ _ _ => none
  | orderRejected _ _ _ _ => none
  | orderStatus _ _ _ _ => none

end PmAccountEvent

variable {D : Type} (format : EventFormat D)

theorem eventJson_outcome (fact : MarketEvent D) :
    (eventJson format fact).get "outcome" =
      fact.marketOutcome.map fun about => string about.2.display := by
  cases fact <;> rfl

end Pmkit
