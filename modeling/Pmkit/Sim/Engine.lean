import Mathlib.Data.List.Sort
import Pmkit.Domain
import Pmkit.Library.Delimited
import Pmkit.Library.KeyedMap

/-!
# The fill simulator

`SimEngine` holds one book per market outcome, the resting maker orders and
the taker orders still waiting for their activation latency.  Makers rest and
fill when a later book crosses them; takers walk the book.
-/

namespace Pmkit

open MachineInt

/-- Market categories and their taker-fee coefficient. -/
inductive MarketCategory where
  | crypto
  | sports
  | finance
  | politics
  | economics
  | culture
  | weather
  | mentions
  | tech
  | geopolitics
  | other
  deriving DecidableEq, Repr

def MarketCategory.feeRateBps : MarketCategory → ℤ
  | .crypto => 700
  | .sports => 300
  | .finance | .politics | .mentions | .tech => 400
  | .economics | .culture | .weather | .other => 500
  | .geopolitics => 0

inductive FeeModelError where
  | makerOutOfRange (makerBps : ℤ)
  | takerOutOfRange (takerBps : ℤ)
  deriving DecidableEq

/-- Fee coefficients inside the range that `try_new` accepts. -/
structure FeeModel where
  makerBps : ℤ
  takerBps : ℤ
  makerRange : -10000 ≤ makerBps ∧ makerBps ≤ 10000
  takerRange : 0 ≤ takerBps ∧ takerBps ≤ 10000
  deriving DecidableEq

namespace FeeModel

def tryNew (makerBps takerBps : ℤ) : Except FeeModelError FeeModel :=
  if makerRange : -10000 ≤ makerBps ∧ makerBps ≤ 10000 then
    if takerRange : 0 ≤ takerBps ∧ takerBps ≤ 10000 then
      .ok ⟨makerBps, takerBps, makerRange, takerRange⟩
    else
      .error (.takerOutOfRange takerBps)
  else
    .error (.makerOutOfRange makerBps)

/-- The legacy model of a category: no maker fee, the category's taker fee. -/
def forCategory (category : MarketCategory) : FeeModel where
  makerBps := 0
  takerBps := category.feeRateBps
  makerRange := by decide
  takerRange := by cases category <;> decide

/-- The fee of one fill; `none` when an intermediate product overflows. -/
def feeOrder (model : FeeModel) (size price : Decimal)
    (liquidity : Liquidity) : Option Decimal := do
  let bps := match liquidity with
    | .maker => model.makerBps
    | .taker => model.takerBps
  let rate : Decimal := bps / 10000
  let sized ← Decimal.checkedMul size rate
  let priced ← Decimal.checkedMul sized price
  let complement ← Decimal.checkedSub 1 price
  let fee ← Decimal.checkedMul priced complement
  return Decimal.roundDp 5 fee

end FeeModel

/-! ## The engine -/

structure SimulationConfig where
  activationLatencyMs : I64
  makerQueueAheadBps : UInt16
  slippageBps : UInt16
  marketImpactBps : UInt16
  feeModel : Option FeeModel
  marketLimits : Option MarketLimits
  deriving DecidableEq

/-- A resting maker or a taker waiting for activation. -/
structure WorkingOrder where
  orderId : String
  order : PlaceOrder
  submittedMs : I64
  activeAtMs : I64
  strategy : Option StrategyId
  deriving DecidableEq

abbrev RestingOrder := WorkingOrder
abbrev DelayedOrder := WorkingOrder

/-- The projection of an open order that reports read. -/
structure SimOpenOrder where
  orderId : String
  market : MarketId
  strategy : Option StrategyId
  price : Decimal
  remainingQty : Decimal
  deriving DecidableEq

structure SimEngine where
  books : KeyedMap (MarketId × Outcome) OrderBookL2
  resting : KeyedMap String RestingOrder
  delayed : List DelayedOrder
  pendingFills : List (FillEvent Decimal)
  nextId : Nat
  idPrefix : String
  feeModel : FeeModel
  config : SimulationConfig

/-- The `n`-th order identity of a simulator or a ledger. -/
def mintedId (idPrefix : String) (number : Nat) : String :=
  s!"{idPrefix}-{number}"

@[simp]
theorem mintedId_inj {idPrefix : String} {left right : Nat} :
    mintedId idPrefix left = mintedId idPrefix right ↔ left = right := by
  constructor
  · intro same
    have lists := congrArg String.toList same
    exact Delimited.toDigits_injective (by simpa [mintedId] using lists)
  · rintro rfl
    rfl

/-- Whether a time in force has run out; expiry at `now` counts. -/
def expired (order : PlaceOrder) (nowMs : I64) : Bool :=
  match order.tif with
  | .gtc => false
  | .gtd expireAtMs => expireAtMs ≤ nowMs

/-- Whether the opposite top of book reaches the limit price of an order. -/
def crosses (book : OrderBookL2) (order : PlaceOrder) : Bool :=
  match order.side with
  | .buy => book.bestAsk.any fun level => decide (level.1 ≤ order.price)
  | .sell => book.bestBid.any fun level => decide (order.price ≤ level.1)

def onBook (market : MarketId) (outcome : Outcome) (order : PlaceOrder) : Bool :=
  order.market = market && order.outcome = outcome

namespace SimEngine

/-- `with_fee_config`: an engine from a fee-resolved configuration. -/
def withFeeConfig (idPrefix : String) (startId : Nat)
    (config : SimulationConfig) : SimEngine where
  books := ∅
  resting := ∅
  delayed := []
  pendingFills := []
  nextId := startId
  idPrefix := idPrefix
  feeModel := config.feeModel.getD (FeeModel.forCategory .crypto)
  config := config

/-- `violates_market_limits`. -/
def violatesMarketLimits (engine : SimEngine) (order : PlaceOrder) : Bool :=
  match engine.config.marketLimits with
  | none => false
  | some limits => (limits.check order).toOption.isNone

/-- The fill a taker gets from the current book, as `submit_taker` computes
it, or `none` when there is no book, no quantity or no fee. -/
def takerFill (engine : SimEngine) (orderId : String) (order : PlaceOrder)
    (submittedMs fillMs : I64) : Option (FillEvent Decimal) := do
  let book ← engine.books.lookup (order.market, order.outcome)
  let (levels, isBuy) := match order.side with
    | .buy => (book.asks, true)
    | .sell => (book.bids, false)
  let (vwap, fillQty) ← walkBook levels order.qty order.price isBuy
  let adverseBps : Decimal :=
    (engine.config.slippageBps.toNat + engine.config.marketImpactBps.toNat : Nat) /
      10000
  let fillPrice := match order.side with
    | .buy => min (vwap * (1 + adverseBps)) order.price
    | .sell => max (vwap * (1 - adverseBps)) order.price
  let fee ← engine.feeModel.feeOrder fillQty fillPrice .taker
  return {
    strategy := none
    orderId := orderId
    market := order.market
    outcome := order.outcome
    price := fillPrice
    size := fillQty
    side := order.side
    fee := fee
    liquidity := .taker
    timestampMs := max fillMs submittedMs }

/-- `submit_taker`. -/
def submitTaker (engine : SimEngine) (orderId : String) (order : PlaceOrder)
    (submittedMs fillMs : I64) : SimEngine × Option String :=
  match engine.takerFill orderId order submittedMs fillMs with
  | none => (engine, none)
  | some fill =>
      ({ engine with pendingFills := engine.pendingFills ++ [fill] },
        some orderId)

/-- `submit_maker`: a post-only order rests unless it would cross. -/
def submitMaker (engine : SimEngine) (orderId : String) (order : PlaceOrder)
    (strategy : Option StrategyId) (nowMs : I64) :
    SimEngine × Option String :=
  match engine.books.lookup (order.market, order.outcome) with
  | none => (engine, none)
  | some book =>
      if crosses book order then
        (engine, none)
      else
        ({ engine with
            resting := AList.insert orderId
              { orderId := orderId
                order := order
                submittedMs := nowMs
                activeAtMs :=
                  nowMs.saturatingAdd engine.config.activationLatencyMs
                strategy := strategy } engine.resting }, some orderId)

/-- `submit_with_strategy`.  An expired or limit-violating order mints no
identity; every other order mints one, whether or not it is accepted. -/
def submitWithStrategy (engine : SimEngine) (order : PlaceOrder)
    (strategy : Option StrategyId) (nowMs : I64) :
    SimEngine × Option String :=
  if expired order nowMs || engine.violatesMarketLimits order then
    (engine, none)
  else
    let orderId := mintedId engine.idPrefix engine.nextId
    let engine := { engine with nextId := engine.nextId + 1 }
    if order.postOnly then
      engine.submitMaker orderId order strategy nowMs
    else if 0 < engine.config.activationLatencyMs then
      ({ engine with
          delayed := engine.delayed ++
            [{ orderId := orderId
               order := order
               submittedMs := nowMs
               activeAtMs :=
                 nowMs.saturatingAdd engine.config.activationLatencyMs
               strategy := strategy }] }, some orderId)
    else
      engine.submitTaker orderId order nowMs nowMs

def submit (engine : SimEngine) (order : PlaceOrder) (nowMs : I64) :
    SimEngine × Option String :=
  engine.submitWithStrategy order none nowMs

def submitForStrategy (engine : SimEngine) (order : PlaceOrder)
    (strategy : StrategyId) (nowMs : I64) : SimEngine × Option String :=
  engine.submitWithStrategy order (some strategy) nowMs

def removeDelayed (orderId : String) (delayed : List DelayedOrder) :
    List DelayedOrder :=
  delayed.eraseP fun order => order.orderId = orderId

/-- Cancel a resting or delayed order, returning the notional it freed. -/
def cancel (engine : SimEngine) (orderId : String) :
    SimEngine × Option Decimal :=
  match engine.resting.lookup orderId with
  | some resting =>
      ({ engine with resting := engine.resting.erase orderId },
        some (resting.order.qty * resting.order.price))
  | none =>
      match engine.delayed.find? fun order => order.orderId = orderId with
      | some delayed =>
          ({ engine with delayed := removeDelayed orderId engine.delayed },
            some (delayed.order.qty * delayed.order.price))
      | none => (engine, none)

def openOrderOf (order : WorkingOrder) : SimOpenOrder where
  orderId := order.orderId
  market := order.order.market
  strategy := order.strategy
  price := order.order.price
  remainingQty := order.order.qty

/-- All resting and delayed orders, sorted by identity. -/
def openOrders (engine : SimEngine) : List SimOpenOrder :=
  ((engine.resting.values.map openOrderOf) ++
      engine.delayed.map openOrderOf).insertionSort
    fun left right => left.orderId ≤ right.orderId

/-- Cancel everything, returning the total notional freed. -/
def cancelAll (engine : SimEngine) : SimEngine × Decimal :=
  ({ engine with resting := ∅, delayed := [] },
    (engine.openOrders.map fun order => order.remainingQty * order.price).sum)

def drainFills (engine : SimEngine) :
    SimEngine × List (FillEvent Decimal) :=
  ({ engine with pendingFills := [] }, engine.pendingFills)

/-- `expire_orders`: drop the expired orders of one book. -/
def expireOrders (engine : SimEngine) (market : MarketId) (outcome : Outcome)
    (nowMs : I64) : SimEngine :=
  let keeps (order : WorkingOrder) : Bool :=
    !onBook market outcome order.order || !expired order.order nowMs
  { engine with
    resting := engine.resting.retain fun _ resting => keeps resting
    delayed := engine.delayed.filter keeps }

def matures (market : MarketId) (outcome : Outcome) (nowMs : I64)
    (delayed : DelayedOrder) : Bool :=
  onBook market outcome delayed.order && delayed.activeAtMs ≤ nowMs

/-- One iteration of `activate_delayed`: a matured order takes and leaves, the
others stay. -/
def activateOne (market : MarketId) (outcome : Outcome) (nowMs : I64)
    (engine : SimEngine) (delayed : DelayedOrder) : SimEngine :=
  if matures market outcome nowMs delayed then
    (engine.submitTaker delayed.orderId delayed.order delayed.submittedMs
      nowMs).1
  else
    { engine with delayed := engine.delayed ++ [delayed] }

def activateDelayed (engine : SimEngine) (market : MarketId)
    (outcome : Outcome) : SimEngine :=
  match engine.books.lookup (market, outcome) with
  | none => engine
  | some book =>
      engine.delayed.foldl (activateOne market outcome book.timestampMs)
        { engine with delayed := [] }

/-- The quantity a crossed maker gets: the top of the opposite side less the
share assumed ahead in the queue. -/
def makerFillQuantity (config : SimulationConfig) (book : OrderBookL2)
    (order : PlaceOrder) : Decimal :=
  let topQuantity : Decimal := match order.side with
    | .buy => (book.bestAsk.map Prod.snd).getD 0
    | .sell => (book.bestBid.map Prod.snd).getD 0
  let available :=
    topQuantity * (1 - (config.makerQueueAheadBps.toNat : Decimal) / 10000)
  min order.qty (max available 0)

/-- The fill of a crossed maker, or `none` when nothing is available to it or
its fee overflows. -/
def makerFill (engine : SimEngine) (book : OrderBookL2)
    (resting : RestingOrder) : Option (FillEvent Decimal) :=
  let fillQuantity := makerFillQuantity engine.config book resting.order
  if fillQuantity = 0 then
    none
  else
    match engine.feeModel.feeOrder fillQuantity resting.order.price .maker with
    | none => none
    | some fee =>
        some {
          strategy := none
          orderId := resting.orderId
          market := resting.order.market
          outcome := resting.order.outcome
          price := resting.order.price
          size := fillQuantity
          side := resting.order.side
          fee := fee
          liquidity := .maker
          timestampMs := max book.timestampMs resting.submittedMs }

def fillOrder (order : WorkingOrder) (size : Decimal) : WorkingOrder :=
  { order with order := { order.order with qty := order.order.qty - size } }

/-- One iteration of the fill loop of `check_resting_fills`. -/
def fillResting (book : OrderBookL2) (engine : SimEngine)
    (orderId : String) : SimEngine :=
  match engine.resting.lookup orderId with
  | none => engine
  | some resting =>
      let removed := engine.resting.erase orderId
      match engine.makerFill book resting with
      | none =>
          { engine with resting := AList.insert orderId resting removed }
      | some fill =>
          let remainder := fillOrder resting fill.size
          { engine with
            pendingFills := engine.pendingFills ++ [fill]
            resting :=
              if remainder.order.qty = 0 then
                removed
              else
                AList.insert orderId remainder removed }

def fillable (market : MarketId) (outcome : Outcome) (book : OrderBookL2)
    (resting : RestingOrder) : Bool :=
  onBook market outcome resting.order &&
    decide (resting.activeAtMs ≤ book.timestampMs) &&
    crosses book resting.order

/-- `check_resting_fills`, visiting the resting orders in one map order. -/
def checkRestingFills (order : IterationOrder String) (engine : SimEngine)
    (market : MarketId) (outcome : Outcome) : SimEngine :=
  match engine.books.lookup (market, outcome) with
  | none => engine
  | some book =>
      let toFill :=
        ((engine.resting.visit order).filter fun entry =>
          fillable market outcome book entry.2).map fun entry =>
            entry.2.orderId
      toFill.foldl (fillResting book) engine

/-- `update_book`: replace the book, expire, activate, then fill makers. -/
def updateBook (order : IterationOrder String) (engine : SimEngine)
    (market : MarketId) (outcome : Outcome) (book : OrderBookL2) :
    SimEngine :=
  let engine :=
    { engine with books := AList.insert (market, outcome) book engine.books }
  let engine := engine.expireOrders market outcome book.timestampMs
  let engine := engine.activateDelayed market outcome
  engine.checkRestingFills order market outcome

end SimEngine

end Pmkit
