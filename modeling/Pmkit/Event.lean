import Pmkit.Domain

/-!
# Market, account and reference events

The facts a strategy may see, the envelopes that carry them through the merge,
and the canonical key of an envelope.  Prices and sizes are of a type `D`: the
merge compares their values and their texts, and two texts can show one value.
-/

namespace Pmkit

open MachineInt

/-- The identity of a fill or of a settlement: the venue's own, or the
coordinates of the frame that carried it. -/
inductive EventIdentity where
  | venue (id : String)
  | transport (sourceId connectionId : String)
      (connectionEpoch frameSequence : I64)
  deriving DecidableEq

inductive MarketEvent (D : Type) where
  | bookUpdate (market : MarketId) (outcome : Outcome)
      (bids asks : List (D × D)) (timestampMs : I64)
  | bestBidAsk (market : MarketId) (outcome : Outcome) (bid ask : D)
      (timestampMs : I64)
  | lastTrade (market : MarketId) (outcome : Outcome) (price : D) (side : Side)
      (size : D) (timestampMs : I64)
  | fill (fill : FillEvent D)
  | orderAck (strategy : Option StrategyId) (orderId : String)
      (timestampMs : I64)
  | tick (timestampMs : I64)
  deriving DecidableEq

namespace MarketEvent

variable {D : Type}

/-- `timestamp_ms`. -/
def timestampMs : MarketEvent D → I64
  | bookUpdate _ _ _ _ timestampMs => timestampMs
  | bestBidAsk _ _ _ _ timestampMs => timestampMs
  | lastTrade _ _ _ _ _ timestampMs => timestampMs
  | fill filled => filled.timestampMs
  | orderAck _ _ timestampMs => timestampMs
  | tick timestampMs => timestampMs

def marketOutcome : MarketEvent D → Option (MarketId × Outcome)
  | bookUpdate market outcome _ _ _ => some (market, outcome)
  | bestBidAsk market outcome _ _ _ => some (market, outcome)
  | lastTrade market outcome _ _ _ _ => some (market, outcome)
  | fill filled => some (filled.market, filled.outcome)
  | orderAck _ _ _ => none
  | tick _ => none

end MarketEvent

inductive PmAccountEvent (D : Type) where
  | fill (identity : EventIdentity) (fill : FillEvent D)
  | orderAck (strategy : Option StrategyId) (orderId : String)
      (timestampMs : I64)
  | orderCancelled (strategy : Option StrategyId) (orderId : String)
      (timestampMs : I64)
  | orderRejected (strategy : Option StrategyId) (orderId reason : String)
      (timestampMs : I64)
  | orderStatus (strategy : Option StrategyId) (orderId status : String)
      (timestampMs : I64)
  | settlement (identity : EventIdentity) (market : MarketId)
      (outcome : Outcome) (settledSize proceeds : D) (timestampMs : I64)
  deriving DecidableEq

inductive Asset where
  | btc
  | eth
  | sol
  | xrp
  deriving DecidableEq

inductive Exchange where
  | binance
  | chainlink
  | vatic
  | bybit
  | coinbase
  | okx
  | kraken
  deriving DecidableEq

structure CexReferenceEvent (D : Type) where
  asset : Asset
  exchange : Exchange
  aggregateTradeId : UInt64
  price : D
  qty : D
  isBuyerMaker : Bool
  timestampMs : I64
  deriving DecidableEq

inductive StrategyFact (D : Type) where
  | market (fact : MarketEvent D)
  | account (fact : PmAccountEvent D)
  | reference (fact : CexReferenceEvent D)
  deriving DecidableEq

structure StreamMetadata where
  schemaVersion : UInt16
  sourceId : String
  sourceTimeMs : I64
  canonicalSourceRank : I64
  receiptTimeMs : I64
  connectionId : String
  connectionEpoch : I64
  frameSequence : I64
  ingestSequence : UInt64
  deriving DecidableEq

structure PmMarketEnvelope (D : Type) where
  metadata : StreamMetadata
  rawFrame : List UInt8
  fact : MarketEvent D
  deriving DecidableEq

structure PmAccountEnvelope (D : Type) where
  portfolio : PortfolioId
  metadata : StreamMetadata
  rawFrame : List UInt8
  fact : PmAccountEvent D
  deriving DecidableEq

structure CexReferenceEnvelope (D : Type) where
  metadata : StreamMetadata
  fact : CexReferenceEvent D
  deriving DecidableEq

inductive SourceEnvelope (D : Type) where
  | pmMarket (envelope : PmMarketEnvelope D)
  | pmAccount (envelope : PmAccountEnvelope D)
  | cexReference (envelope : CexReferenceEnvelope D)
  deriving DecidableEq

inductive DataSourceError where
  | unavailable (message : String)
  | notAvailable
  | historyUnavailable (exchange : Exchange)
  | sinkClosed
  | replayGap (message : String)
  deriving DecidableEq

/-- How much corroboration a replay asks for. -/
inductive EvidenceRequirement where
  | corroboratedOnly
  | allowSingleSource
  deriving DecidableEq

/-- The coordinates both kinds of key share come first. -/
inductive CanonicalSourceKey where
  | pm (sourceTimestampMs canonicalSourceRank : I64) (streamId : String)
      (connectionEpoch frameSequence : I64)
  | cex (sourceTimestampMs canonicalSourceRank : I64)
      (aggregateTradeId : UInt64)
  deriving DecidableEq

namespace CanonicalSourceKey

/-- `timestamp_ms`. -/
def timestampMs : CanonicalSourceKey → I64
  | pm timestampMs _ _ _ _ => timestampMs
  | cex timestampMs _ _ => timestampMs

/-- `canonical_source_rank`. -/
def canonicalSourceRank : CanonicalSourceKey → I64
  | pm _ rank _ _ _ => rank
  | cex _ rank _ => rank

/-- The stream, the connection and the frame of a PM key. -/
def comparePm : String × I64 × I64 → String × I64 × I64 → Ordering :=
  compareLex (compareLex (compareOn fun key => key.1)
    (compareOn fun key => key.2.1)) (compareOn fun key => key.2.2)

/-- The match of `cmp` on the two variants. -/
def compareIdentity : CanonicalSourceKey → CanonicalSourceKey → Ordering
  | pm _ _ leftStream leftEpoch leftFrame,
      pm _ _ rightStream rightEpoch rightFrame =>
      comparePm (leftStream, leftEpoch, leftFrame)
        (rightStream, rightEpoch, rightFrame)
  | cex _ _ leftId, cex _ _ rightId => compare leftId rightId
  | pm _ _ _ _ _, cex _ _ _ => .lt
  | cex _ _ _, pm _ _ _ _ _ => .gt

/-- `cmp`. -/
def cmp : CanonicalSourceKey → CanonicalSourceKey → Ordering :=
  compareLex (compareLex (compareOn timestampMs)
    (compareOn canonicalSourceRank)) compareIdentity

instance : Ord CanonicalSourceKey where
  compare := cmp

instance : Std.TransCmp comparePm :=
  inferInstanceAs (Std.TransCmp (compareLex _ _))

instance : Std.OrientedCmp compareIdentity where
  eq_swap := by
    intro left right
    cases left with
    | pm =>
        cases right with
        | pm =>
            change comparePm _ _ = (comparePm _ _).swap
            exact Std.OrientedCmp.eq_swap
        | cex => rfl
    | cex =>
        cases right with
        | pm => rfl
        | cex =>
            change compare _ _ = (compare _ _).swap
            exact Std.OrientedCmp.eq_swap

instance : Std.TransCmp compareIdentity where
  isLE_trans := by
    intro first second third before after
    cases first with
    | pm =>
        cases third with
        | cex => rfl
        | pm =>
            cases second with
            | pm =>
                simp only [compareIdentity] at before after ⊢
                exact Std.TransCmp.isLE_trans before after
            | cex => cases after
    | cex =>
        cases second with
        | pm => cases before
        | cex =>
            cases third with
            | pm => cases after
            | cex =>
                simp only [compareIdentity] at before after ⊢
                exact Std.TransCmp.isLE_trans before after

instance : Std.TransOrd CanonicalSourceKey :=
  inferInstanceAs (Std.TransCmp (compareLex _ _))

end CanonicalSourceKey

/-- `market_stream_id`. -/
def marketStreamId {D : Type} (envelope : PmMarketEnvelope D) : String :=
  match envelope.fact.marketOutcome with
  | some (market, outcome) =>
      "market:" ++ market.value ++ ":" ++ outcome.lowercase
  | none => "market-source:" ++ envelope.metadata.sourceId

namespace SourceEnvelope

variable {D : Type}

/-- `metadata`. -/
def metadata : SourceEnvelope D → StreamMetadata
  | pmMarket envelope => envelope.metadata
  | pmAccount envelope => envelope.metadata
  | cexReference envelope => envelope.metadata

/-- `canonical_key`. -/
def canonicalKey (source : SourceEnvelope D) : CanonicalSourceKey :=
  match source with
  | pmMarket envelope =>
      .pm source.metadata.sourceTimeMs source.metadata.canonicalSourceRank
        (marketStreamId envelope) source.metadata.connectionEpoch
        source.metadata.frameSequence
  | pmAccount envelope =>
      .pm source.metadata.sourceTimeMs source.metadata.canonicalSourceRank
        ("account:" ++ envelope.portfolio.value)
        source.metadata.connectionEpoch source.metadata.frameSequence
  | cexReference envelope =>
      .cex source.metadata.sourceTimeMs source.metadata.canonicalSourceRank
        envelope.fact.aggregateTradeId

/-- `into_strategy_fact`. -/
def intoStrategyFact : SourceEnvelope D → StrategyFact D
  | pmMarket envelope => .market envelope.fact
  | pmAccount envelope => .account envelope.fact
  | cexReference envelope => .reference envelope.fact

@[simp]
theorem canonicalKey_timestampMs (source : SourceEnvelope D) :
    source.canonicalKey.timestampMs = source.metadata.sourceTimeMs := by
  cases source with
  | pmMarket envelope => rfl
  | pmAccount envelope => rfl
  | cexReference envelope => rfl

end SourceEnvelope

end Pmkit
