import Pmkit.Event
import Pmkit.Library.PriorityQueue

/-!
# The order of queued facts

Facts are compared by canonical key, and facts with one key by their content.
Each comparison is a total preorder; the details of two market events are only
compared when their kinds agree, and would not be one on their own.
-/

namespace Pmkit

open MachineInt

/-- How the formatting of the language shows a decimal and a string, and the
value a decimal is compared by. -/
structure EventFormat (D : Type) where
  value : D → Decimal
  text : D → String
  debug : String → String

/-- `Debug` of a side. -/
def Side.debug : Side → String
  | .buy => "Buy"
  | .sell => "Sell"

def I64.text (value : I64) : String :=
  toString value.1

/-- `Debug` of an identity. -/
def EventIdentity.debug {D : Type} (format : EventFormat D) :
    EventIdentity → String
  | .venue id => "Venue(" ++ format.debug id ++ ")"
  | .transport sourceId connectionId connectionEpoch frameSequence =>
      "Transport \x7b source_id: " ++ format.debug sourceId ++
        ", connection_id: " ++ format.debug connectionId ++
        ", connection_epoch: " ++ I64.text connectionEpoch ++
        ", frame_sequence: " ++ I64.text frameSequence ++ " \x7d"

namespace MarketEvent

variable {D : Type}

/-- `market_event_market_key`. -/
def marketKey (event : MarketEvent D) : String :=
  match event.marketOutcome with
  | some (market, _) => market.value
  | none => ""

/-- `outcome_rank` of `market_event_outcome`. -/
def outcomeRank (event : MarketEvent D) : Nat :=
  match event.marketOutcome with
  | some (_, outcome) => outcome.rank
  | none => Outcome.up.rank

/-- `market_event_kind_rank`. -/
def kindRank : MarketEvent D → Nat
  | bookUpdate _ _ _ _ _ => 0
  | bestBidAsk _ _ _ _ _ => 1
  | lastTrade _ _ _ _ _ _ => 2
  | fill _ => 3
  | orderAck _ _ _ => 4
  | tick _ => 5

/-- `market_event_detail_key`. -/
def detailKey (format : EventFormat D) : MarketEvent D → String
  | bookUpdate _ _ _ _ _ => "book"
  | bestBidAsk _ _ bid ask _ => format.text bid ++ ":" ++ format.text ask
  | lastTrade _ _ price side size _ =>
      format.text price ++ ":" ++ side.debug ++ ":" ++ format.text size
  | fill filled =>
      filled.orderId ++ ":" ++ format.text filled.price ++ ":" ++
        format.text filled.size ++ ":" ++ filled.side.debug ++ ":" ++
        format.text filled.fee
  | orderAck _ orderId _ => orderId
  | tick _ => "tick"

def compareLevel (format : EventFormat D) : D × D → D × D → Ordering :=
  compareLex (compareOn fun level => format.value level.1)
    (compareOn fun level => format.value level.2)

def compareLevels (format : EventFormat D) :
    List (D × D) → List (D × D) → Ordering :=
  List.compareLex (compareLevel format)

/-- `compare_market_event_detail`. -/
def compareDetail (format : EventFormat D) :
    MarketEvent D → MarketEvent D → Ordering
  | bookUpdate _ _ leftBids leftAsks _, bookUpdate _ _ rightBids rightAsks _ =>
      (compareLevels format leftBids rightBids).then
        (compareLevels format leftAsks rightAsks)
  | left, right => compare (left.detailKey format) (right.detailKey format)

/-- The chain of `compare_pm_envelopes` for two market facts. -/
def compareFacts (format : EventFormat D) (left right : MarketEvent D) :
    Ordering :=
  ((((compare left.timestampMs right.timestampMs).then
    (compare left.marketKey right.marketKey)).then
    (compare left.outcomeRank right.outcomeRank)).then
    (compare left.kindRank right.kindRank)).then
    (compareDetail format left right)

end MarketEvent

namespace PmAccountEvent

variable {D : Type}

/-- `account_event_kind_rank`. -/
def kindRank : PmAccountEvent D → Nat
  | fill _ _ => 0
  | orderAck _ _ _ => 1
  | orderCancelled _ _ _ => 2
  | orderRejected _ _ _ _ => 3
  | orderStatus _ _ _ _ => 4
  | settlement _ _ _ _ _ _ => 5

/-- `account_event_detail_key`. -/
def detailKey (format : EventFormat D) : PmAccountEvent D → String
  | fill identity filled =>
      identity.debug format ++ ":" ++ filled.orderId ++ ":" ++
        filled.market.value ++ ":" ++ filled.outcome.debug ++ ":" ++
        format.text filled.price ++ ":" ++ format.text filled.size ++ ":" ++
        filled.side.debug ++ ":" ++ format.text filled.fee ++ ":" ++
        I64.text filled.timestampMs
  | orderAck _ orderId timestampMs => orderId ++ ":" ++ I64.text timestampMs
  | orderCancelled _ orderId timestampMs =>
      orderId ++ ":" ++ I64.text timestampMs
  | orderRejected _ orderId reason timestampMs =>
      orderId ++ ":" ++ reason ++ ":" ++ I64.text timestampMs
  | orderStatus _ orderId status timestampMs =>
      orderId ++ ":" ++ status ++ ":" ++ I64.text timestampMs
  | settlement identity market outcome settledSize proceeds timestampMs =>
      identity.debug format ++ ":" ++ market.value ++ ":" ++ outcome.debug ++
        ":" ++ format.text settledSize ++ ":" ++ format.text proceeds ++ ":" ++
        I64.text timestampMs

end PmAccountEvent

/-- The chain of `compare_pm_envelopes` for two account facts. -/
def PmAccountEnvelope.compareFacts {D : Type} (format : EventFormat D) :
    PmAccountEnvelope D → PmAccountEnvelope D → Ordering :=
  compareLex (compareLex (compareOn fun envelope => envelope.portfolio.value)
    (compareOn fun envelope => envelope.fact.kindRank))
    (compareOn fun envelope => envelope.fact.detailKey format)

/-- `compare_pm_envelopes`. -/
def comparePmEnvelopes {D : Type} (format : EventFormat D) :
    SourceEnvelope D → SourceEnvelope D → Ordering
  | .pmMarket left, .pmMarket right =>
      MarketEvent.compareFacts format left.fact right.fact
  | .pmAccount left, .pmAccount right =>
      PmAccountEnvelope.compareFacts format left right
  | .cexReference _, .cexReference _ => .eq
  | .pmMarket _, .pmAccount _ => .lt
  | .pmMarket _, .cexReference _ => .lt
  | .pmAccount _, .cexReference _ => .lt
  | .pmAccount _, .pmMarket _ => .gt
  | .cexReference _, .pmMarket _ => .gt
  | .cexReference _, .pmAccount _ => .gt

/-- A fact with what storage and causality need of its envelope. -/
structure MergedFact (D : Type) where
  fact : StrategyFact D
  source : SourceEnvelope D
  metadata : StreamMetadata
  accountPortfolio : Option PortfolioId
  deriving DecidableEq

/-- `merged_fact`. -/
def mergedFact {D : Type} (envelope : SourceEnvelope D) : MergedFact D where
  fact := envelope.intoStrategyFact
  source := envelope
  metadata := envelope.metadata
  accountPortfolio :=
    match envelope with
    | .pmAccount account => some account.portfolio
    | .pmMarket _ => none
    | .cexReference _ => none

structure QueuedFact (D : Type) where
  source : String
  key : CanonicalSourceKey
  fact : MergedFact D
  deriving DecidableEq

namespace QueuedFact

variable {D : Type}

def ofEnvelope (source : String) (envelope : SourceEnvelope D) :
    QueuedFact D where
  source := source
  key := envelope.canonicalKey
  fact := mergedFact envelope

def timestampMs (queued : QueuedFact D) : I64 :=
  queued.key.timestampMs

/-- `cmp`. -/
def cmp (format : EventFormat D) : QueuedFact D → QueuedFact D → Ordering :=
  compareLex (compareOn key)
    (comapCmp (fun queued => queued.fact.source) (comparePmEnvelopes format))

end QueuedFact

namespace MarketEvent

variable {D : Type}

def bookBids : MarketEvent D → List (D × D)
  | bookUpdate _ _ bids _ _ => bids
  | _ => []

def bookAsks : MarketEvent D → List (D × D)
  | bookUpdate _ _ _ asks _ => asks
  | _ => []

/-- The chain of two market facts with its last two links as lexicographic
comparisons. -/
def compareContent (format : EventFormat D) :
    MarketEvent D → MarketEvent D → Ordering :=
  compareLex (compareOn kindRank)
    (compareLex (compareLex (comapCmp bookBids (compareLevels format))
      (comapCmp bookAsks (compareLevels format)))
      (compareOn (detailKey format)))

theorem compareContent_eq
    (format : EventFormat D) (left right : MarketEvent D) :
    compareContent format left right =
      (compare left.kindRank right.kindRank).then
        (compareDetail format left right) := by
  cases left <;> cases right <;> try rfl
  -- Two books: their texts agree, so the sides decide.
  simp [compareContent, compareLex, comapCmp, compareOn, bookBids, bookAsks,
    kindRank, detailKey, compareDetail]

instance (format : EventFormat D) : Std.TransCmp (compareLevel format) :=
  inferInstanceAs (Std.TransCmp (compareLex _ _))

instance (format : EventFormat D) : Std.TransCmp (compareLevels format) :=
  inferInstanceAs (Std.TransCmp (List.compareLex _))

instance (format : EventFormat D) : Std.TransCmp (compareContent format) :=
  inferInstanceAs (Std.TransCmp (compareLex _ _))

theorem compareFacts_eq (format : EventFormat D) :
    compareFacts format =
      compareLex (compareLex (compareLex (compareOn timestampMs)
        (compareOn marketKey)) (compareOn outcomeRank))
        (compareContent format) := by
  funext left right
  simp only [compareFacts, compareLex, compareContent_eq, compareOn,
    Ordering.then_assoc]

instance (format : EventFormat D) : Std.TransCmp (compareFacts format) := by
  rw [compareFacts_eq]
  infer_instance

end MarketEvent

section Envelopes

variable {D : Type} (format : EventFormat D)

instance : Std.TransCmp (PmAccountEnvelope.compareFacts format) :=
  inferInstanceAs (Std.TransCmp (compareLex _ _))

instance : Std.OrientedCmp (comparePmEnvelopes format) where
  eq_swap := by
    intro left right
    cases left <;> cases right <;> try rfl
    · simp only [comparePmEnvelopes]
      exact Std.OrientedCmp.eq_swap
    · simp only [comparePmEnvelopes]
      exact Std.OrientedCmp.eq_swap

instance : Std.TransCmp (comparePmEnvelopes format) where
  isLE_trans := by
    intro first second third before after
    cases first <;> cases second <;> cases third <;>
      simp only [comparePmEnvelopes] at before after ⊢ <;>
      first
      | rfl
      | exact Std.TransCmp.isLE_trans before after
      | exact absurd before (by decide)
      | exact absurd after (by decide)

end Envelopes

namespace QueuedFact

variable {D : Type} {format : EventFormat D}

instance : Std.TransCmp (cmp format) :=
  inferInstanceAs (Std.TransCmp (compareLex _ _))

theorem cmp_of_timestampMs_lt {left right : QueuedFact D}
    (earlier : left.timestampMs < right.timestampMs) :
    cmp format left right = .lt := by
  have first : compare left.timestampMs right.timestampMs = .lt :=
    compare_lt_iff_lt.mpr earlier
  have key : compare left.key right.key = .lt := by
    change ((compare left.timestampMs right.timestampMs).then _).then _ = _
    rw [first]
    rfl
  simp only [cmp, compareLex, compareOn, key]
  rfl

theorem timestampMs_le_of_cmp
    {left right : QueuedFact D} (before : (cmp format left right).isLE) :
    left.timestampMs ≤ right.timestampMs := by
  by_contra later
  have after : cmp format right left = .lt :=
    cmp_of_timestampMs_lt (not_le.mp later)
  rw [Std.OrientedCmp.gt_of_lt after] at before
  cases before

end QueuedFact

end Pmkit
