import Pmkit.Event
import Pmkit.Library.KeyedMap

/-!
# Live risk

The limits of a run, the risk state of a live portfolio, and the gate that an
order passes before it is submitted.  The state takes fills and settlements
once by identity, marks positions at the last mid price, and latches a breach
of the loss limit.
-/

namespace Pmkit

open MachineInt

structure RiskLimits where
  maxOrderNotional : Money
  maxPositionNotional : Money
  maxPortfolioNotional : Money
  maxMarketNotional : Money
  maxStrategyNotional : Money
  maxOpenOrders : ℕ+
  maxLoss : Money
  maxDailyLoss : Money

structure PartialRiskLimits where
  maxOrderNotional : Option Money
  maxPositionNotional : Option Money
  maxPortfolioNotional : Option Money
  maxMarketNotional : Option Money
  maxStrategyNotional : Option Money
  maxOpenOrders : Option ℕ+
  maxLoss : Option Money
  maxDailyLoss : Option Money

def tightened {α : Type} [LinearOrder α] (limit : α) : Option α → α
  | none => limit
  | some value => min limit value

/-- `tighten`. -/
def PartialRiskLimits.tighten (overrides : PartialRiskLimits)
    (limits : RiskLimits) : RiskLimits where
  maxOrderNotional :=
    tightened limits.maxOrderNotional overrides.maxOrderNotional
  maxPositionNotional :=
    tightened limits.maxPositionNotional overrides.maxPositionNotional
  maxPortfolioNotional :=
    tightened limits.maxPortfolioNotional overrides.maxPortfolioNotional
  maxMarketNotional :=
    tightened limits.maxMarketNotional overrides.maxMarketNotional
  maxStrategyNotional :=
    tightened limits.maxStrategyNotional overrides.maxStrategyNotional
  maxOpenOrders := tightened limits.maxOpenOrders overrides.maxOpenOrders
  maxLoss := tightened limits.maxLoss overrides.maxLoss
  maxDailyLoss := tightened limits.maxDailyLoss overrides.maxDailyLoss

structure RiskLimitOverrides where
  perMarket : KeyedMap MarketId PartialRiskLimits
  perStrategy : KeyedMap StrategyId PartialRiskLimits

namespace RiskLimitOverrides

def apply (limits : RiskLimits) : Option PartialRiskLimits → RiskLimits
  | none => limits
  | some overrides => overrides.tighten limits

/-- `effective_limits`. -/
def effectiveLimits (overrides : RiskLimitOverrides) (global : RiskLimits)
    (market : MarketId) (strategy : StrategyId) : RiskLimits :=
  apply (apply global (overrides.perMarket.lookup market))
    (overrides.perStrategy.lookup strategy)

end RiskLimitOverrides

structure Position where
  outcome : Outcome
  qty : Decimal
  avgEntry : Decimal
  unrealizedPnl : Decimal
  deriving DecidableEq

namespace Position

def filled (position : Position) (side : Side) (price quantity : Decimal) :
    Position :=
  let delta := match side with
    | .buy => quantity
    | .sell => -quantity
  let prior := |position.qty|
  let total := prior + quantity
  let increasing := (0 ≤ position.qty ∧ 0 < delta) ∨
    (position.qty ≤ 0 ∧ delta < 0)
  let avgEntry :=
    if increasing ∧ 0 < total then
      (position.avgEntry * prior + price * quantity) / total
    else
      position.avgEntry
  { position with
    qty := position.qty + delta
    avgEntry := if position.qty + delta = 0 then 0 else avgEntry }

/-- `book::apply_fill`: the first position of the outcome takes the fill, or a
new one is added. -/
def applyFill (outcome : Outcome) (side : Side) (price quantity : Decimal) :
    List Position → List Position
  | [] =>
      [{ outcome := outcome
         qty := match side with
          | .buy => quantity
          | .sell => -quantity
         avgEntry := price
         unrealizedPnl := 0 }]
  | position :: rest =>
      if position.outcome = outcome then
        position.filled side price quantity :: rest
      else
        position :: applyFill outcome side price quantity rest

def find (outcome : Outcome) (positions : List Position) : Option Position :=
  positions.find? fun position => position.outcome = outcome

def settle (outcome : Outcome) (settledSize : Decimal) :
    List Position → List Position
  | [] => []
  | position :: rest =>
      if position.outcome = outcome then
        { position with qty := position.qty - settledSize } :: rest
      else
        position :: settle outcome settledSize rest

end Position

/-- `passes_risk`. -/
def passesRisk (order : PlaceOrder) (limits : RiskLimits)
    (positions : List Position) (portfolioUnrealizedPnl : Option Decimal) :
    Bool :=
  match portfolioUnrealizedPnl with
  | none => false
  | some portfolioUnrealizedPnl =>
      if portfolioUnrealizedPnl ≤ -limits.maxLoss ∨
          limits.maxOrderNotional < order.qty * order.price then
        false
      else
        let signed := match order.side with
          | .buy => order.qty
          | .sell => -order.qty
        let held := ((Position.find order.outcome positions).map
          Position.qty).getD 0
        |held + signed| * order.price ≤ limits.maxPositionNotional

structure PortfolioRiskExposure where
  portfolioNotional : Decimal
  marketNotional : Decimal
  strategyNotional : Decimal
  dailyPnl : Decimal
  openOrders : Nat

/-- `passes_aggregated_risk`. -/
def passesAggregatedRisk (order : PlaceOrder) (limits : RiskLimits)
    (positions : List Position) (exposure : PortfolioRiskExposure) : Bool :=
  let orderNotional := order.qty * order.price
  passesRisk order limits positions (some exposure.dailyPnl) &&
    exposure.portfolioNotional + orderNotional ≤ limits.maxPortfolioNotional &&
    exposure.marketNotional + orderNotional ≤ limits.maxMarketNotional &&
    exposure.strategyNotional + orderNotional ≤ limits.maxStrategyNotional &&
    -limits.maxDailyLoss < exposure.dailyPnl &&
    exposure.openOrders < (limits.maxOpenOrders : ℕ)

def OrderBookL2.midPrice (book : OrderBookL2) : Option Decimal := do
  let (bid, _) ← book.bestBid
  let (ask, _) ← book.bestAsk
  return (bid + ask) / 2

abbrev Marks : Type :=
  KeyedMap (MarketId × Outcome) Decimal

def markMarket (marks : Marks) (market : MarketId) :
    List Position → List Position × Option Decimal
  | [] => ([], some 0)
  | position :: rest =>
      if position.qty = 0 then
        let (marked, total) := markMarket marks market rest
        ({ position with unrealizedPnl := 0 } :: marked, total)
      else
        match marks.lookup (market, position.outcome) with
        | none => (position :: rest, none)
        | some mark =>
            let pnl := position.qty * (mark - position.avgEntry)
            let (marked, total) := markMarket marks market rest
            ({ position with unrealizedPnl := pnl } :: marked,
              total.map (pnl + ·))

abbrev PositionsByMarket : Type :=
  KeyedMap MarketId (List Position)

/-- The loop of `mark_positions` over the markets. -/
def markMarkets (marks : Marks) :
    List MarketId → PositionsByMarket → PositionsByMarket × Option Decimal
  | [], positions => (positions, some 0)
  | market :: rest, positions =>
      let (marked, total) :=
        markMarket marks market ((positions.lookup market).getD [])
      let positions := AList.insert market marked positions
      match total with
      | none => (positions, none)
      | some pnl =>
          let (positions, total) := markMarkets marks rest positions
          (positions, total.map (pnl + ·))

/-- `mark_positions`, visiting the markets in one map order. -/
def markPositions (order : IterationOrder MarketId) (marks : Marks)
    (positions : PositionsByMarket) : PositionsByMarket × Option Decimal :=
  markMarkets marks (order.arrange positions.keys) positions

/-! ## The state -/

structure LiveRiskState where
  positionsByMarket : PositionsByMarket
  marks : Marks
  appliedFills : Finset EventIdentity
  filledQtyByOrder : KeyedMap String Decimal
  feesByOrder : KeyedMap String Decimal
  appliedSettlements : Finset EventIdentity
  realizedPnl : Decimal
  fees : Decimal
  fillCount : Nat
  lossBreached : Bool

def addAt (map : KeyedMap String Decimal) (key : String) (amount : Decimal) :
    KeyedMap String Decimal :=
  AList.insert key ((map.lookup key).getD 0 + amount) map

/-- A failure of the risk reducer. -/
inductive RiskStateError where
  | corruptRecord (message : String)
  deriving DecidableEq

namespace LiveRiskState

/-- `LiveRiskState::default`. -/
def default : LiveRiskState where
  positionsByMarket := ∅
  marks := ∅
  appliedFills := ∅
  filledQtyByOrder := ∅
  feesByOrder := ∅
  appliedSettlements := ∅
  realizedPnl := 0
  fees := 0
  fillCount := 0
  lossBreached := false

/-- `positions`. -/
def positions (state : LiveRiskState) (market : MarketId) : List Position :=
  (state.positionsByMarket.lookup market).getD []

/-- `refresh_marks`: with the daily profit, when every position is marked. -/
def refreshMarks (order : IterationOrder MarketId) (limits : RiskLimits)
    (state : LiveRiskState) : LiveRiskState × Option Decimal :=
  let (positions, total) :=
    markPositions order state.marks state.positionsByMarket
  let dailyPnl := total.map fun unrealizedPnl =>
    state.realizedPnl - state.fees + unrealizedPnl
  ({ state with
      positionsByMarket := positions
      lossBreached := state.lossBreached ||
        dailyPnl.any fun pnl => pnl ≤ -limits.maxLoss },
    dailyPnl)

/-- `update_book`. -/
def updateBook (order : IterationOrder MarketId) (limits : RiskLimits)
    (state : LiveRiskState) (market : MarketId) (outcome : Outcome)
    (book : OrderBookL2) : LiveRiskState × Option Decimal :=
  let marks := match book.midPrice with
    | some mark => AList.insert (market, outcome) mark state.marks
    | none => state.marks.erase (market, outcome)
  refreshMarks order limits { state with marks := marks }

def realizedBy (position : Position) (side : Side) (price size : Decimal) :
    Decimal :=
  let closingSize :=
    if (0 < position.qty ∧ side = .sell) ∨
        (position.qty < 0 ∧ side = .buy) then
      min |position.qty| size
    else
      0
  if 0 < position.qty then
    (price - position.avgEntry) * closingSize
  else
    (position.avgEntry - price) * closingSize

/-- `apply_fill`: with whether the fill was new. -/
def applyFill (order : IterationOrder MarketId) (limits : RiskLimits)
    (state : LiveRiskState) (identity : EventIdentity)
    (fill : FillEvent Decimal) : LiveRiskState × Bool :=
  if identity ∈ state.appliedFills then
    (state, false)
  else
    let held := (state.positionsByMarket.lookup fill.market).getD []
    let realized := match Position.find fill.outcome held with
      | none => 0
      | some position => realizedBy position fill.side fill.price fill.size
    ((refreshMarks order limits { state with
        appliedFills := insert identity state.appliedFills
        filledQtyByOrder :=
          addAt state.filledQtyByOrder fill.orderId fill.size
        feesByOrder := addAt state.feesByOrder fill.orderId fill.fee
        positionsByMarket := AList.insert fill.market
          (Position.applyFill fill.outcome fill.side fill.price fill.size held)
          state.positionsByMarket
        realizedPnl := state.realizedPnl + realized
        fees := state.fees + fill.fee
        fillCount := state.fillCount + 1 }).1, true)

/-- `apply_settlement`. -/
def applySettlement (order : IterationOrder MarketId) (limits : RiskLimits)
    (state : LiveRiskState) (identity : EventIdentity) (market : MarketId)
    (outcome : Outcome) (settledSize proceeds : Decimal) :
    Except RiskStateError LiveRiskState :=
  if identity ∈ state.appliedSettlements then
    .ok state
  else if settledSize ≤ 0 ∨ proceeds < 0 then
    .error (.corruptRecord
      "settlement size or proceeds is outside its valid range")
  else
    let held := (state.positionsByMarket.lookup market).getD []
    match Position.find outcome held with
    | none =>
        .error (.corruptRecord "settlement has no matching position")
    | some position =>
        if position.qty < settledSize then
          .error (.corruptRecord "settlement exceeds the matching position")
        else
          .ok (refreshMarks order limits { state with
              appliedSettlements := insert identity state.appliedSettlements
              realizedPnl := state.realizedPnl +
                (proceeds - position.avgEntry * settledSize)
              positionsByMarket := AList.insert market
                ((Position.settle outcome settledSize held).filter
                  fun position => position.qty ≠ 0)
                state.positionsByMarket }).1

/-- `apply_account_event`: with whether a fill was applied. -/
def applyAccountEvent (order : IterationOrder MarketId) (limits : RiskLimits)
    (state : LiveRiskState) :
    PmAccountEvent Decimal → Except RiskStateError (LiveRiskState × Bool)
  | .fill identity fill => .ok (state.applyFill order limits identity fill)
  | .settlement identity market outcome settledSize proceeds _ =>
      (state.applySettlement order limits identity market outcome settledSize
        proceeds).map fun next => (next, false)
  | .orderAck _ _ _ => .ok (state, false)
  | .orderCancelled _ _ _ => .ok (state, false)
  | .orderRejected _ _ _ _ => .ok (state, false)
  | .orderStatus _ _ _ _ => .ok (state, false)

/-- `filled_qty`. -/
def filledQty (state : LiveRiskState) (orderId : String) : Decimal :=
  (state.filledQtyByOrder.lookup orderId).getD 0

def openPositions (state : LiveRiskState) : List (MarketId × Position) :=
  (state.positionsByMarket.entries.flatMap fun entry =>
    entry.2.map fun position => (entry.1, position)).filter
      fun position => position.2.qty ≠ 0

/-- `daily_pnl`. -/
def dailyPnl (state : LiveRiskState) : Option Decimal :=
  if state.openPositions.all fun position =>
      (state.marks.lookup (position.1, position.2.outcome)).isSome then
    some (state.realizedPnl - state.fees +
      (state.openPositions.map fun position => position.2.unrealizedPnl).sum)
  else
    none

/-- `marked_notional`. -/
def markedNotional (state : LiveRiskState) (market : MarketId)
    (positions : List Position) : Decimal :=
  (positions.map fun position =>
    match state.marks.lookup (market, position.outcome) with
    | none => 0
    | some mark => |position.qty| * mark).sum

/-- `portfolio_notional`. -/
def portfolioNotional (state : LiveRiskState) : Decimal :=
  (state.positionsByMarket.entries.map fun entry =>
    state.markedNotional entry.1 entry.2).sum

/-- `market_notional`. -/
def marketNotional (state : LiveRiskState) (market : MarketId) : Decimal :=
  state.markedNotional market (state.positions market)

section Changes

variable (order : IterationOrder MarketId) (limits : RiskLimits)
  (state : LiveRiskState)

/-- Marking touches nothing but positions and the latch. -/
theorem refreshMarks_frame :
    (state.refreshMarks order limits).1 =
      { state with
        positionsByMarket :=
          (state.refreshMarks order limits).1.positionsByMarket
        lossBreached := (state.refreshMarks order limits).1.lossBreached } :=
  rfl

/-- The latch stays. -/
theorem refreshMarks_lossBreached (breached : state.lossBreached = true) :
    (state.refreshMarks order limits).1.lossBreached = true := by
  simp [refreshMarks, breached]

theorem updateBook_lossBreached (market : MarketId) (outcome : Outcome)
    (book : OrderBookL2) (breached : state.lossBreached = true) :
    (state.updateBook order limits market outcome book).1.lossBreached =
      true :=
  refreshMarks_lossBreached order limits _ breached

theorem applyFill_lossBreached (identity : EventIdentity)
    (fill : FillEvent Decimal) (breached : state.lossBreached = true) :
    (state.applyFill order limits identity fill).1.lossBreached = true := by
  unfold applyFill
  split
  · exact breached
  · exact refreshMarks_lossBreached order limits _ breached

theorem applySettlement_lossBreached
    {identity : EventIdentity} {market : MarketId} {outcome : Outcome}
    {settledSize proceeds : Decimal} {next : LiveRiskState}
    (applied : state.applySettlement order limits identity market outcome
      settledSize proceeds = .ok next)
    (breached : state.lossBreached = true) : next.lossBreached = true := by
  unfold applySettlement at applied
  split at applied
  · cases applied
    exact breached
  · split at applied
    · cases applied
    · simp only at applied
      split at applied
      · cases applied
      · split at applied
        · cases applied
        · cases applied
          exact refreshMarks_lossBreached order limits _ breached

theorem applyAccountEvent_lossBreached
    {event : PmAccountEvent Decimal} {next : LiveRiskState} {isNew : Bool}
    (applied : state.applyAccountEvent order limits event = .ok (next, isNew))
    (breached : state.lossBreached = true) : next.lossBreached = true := by
  cases event with
  | fill identity fill =>
      have same : (state.applyFill order limits identity fill).1 = next :=
        congrArg Prod.fst (Except.ok.inj applied)
      rw [← same]
      exact applyFill_lossBreached order limits state identity fill breached
  | settlement identity market outcome settledSize proceeds timestampMs =>
      cases done : state.applySettlement order limits identity market outcome
          settledSize proceeds with
      | error failure =>
          rw [applyAccountEvent, done] at applied
          cases applied
      | ok settled =>
          rw [applyAccountEvent, done] at applied
          cases applied
          exact applySettlement_lossBreached order limits state done breached
  | orderAck strategy orderId timestampMs =>
      cases applied
      exact breached
  | orderCancelled strategy orderId timestampMs =>
      cases applied
      exact breached
  | orderRejected strategy orderId reason timestampMs =>
      cases applied
      exact breached
  | orderStatus strategy orderId status timestampMs =>
      cases applied
      exact breached

end Changes

end LiveRiskState

def Position.holding (position : Position) : Outcome × Decimal × Decimal :=
  (position.outcome, position.qty, position.avgEntry)

/-- Two risk states that know the same fills and settlements. -/
structure LiveRiskState.Agrees (left right : LiveRiskState) : Prop where
  positions : ∀ market, (left.positions market).map Position.holding =
    (right.positions market).map Position.holding
  realizedPnl : left.realizedPnl = right.realizedPnl
  fees : left.fees = right.fees
  fillCount : left.fillCount = right.fillCount
  filledQty : ∀ orderId, left.filledQty orderId = right.filledQty orderId
  appliedFills : left.appliedFills = right.appliedFills
  appliedSettlements : left.appliedSettlements = right.appliedSettlements

namespace LiveRiskState

theorem Agrees.refl (state : LiveRiskState) : state.Agrees state where
  positions := fun _ => rfl
  realizedPnl := rfl
  fees := rfl
  fillCount := rfl
  filledQty := fun _ => rfl
  appliedFills := rfl
  appliedSettlements := rfl

theorem Agrees.trans
    {left middle right : LiveRiskState} (first : left.Agrees middle)
    (second : middle.Agrees right) : left.Agrees right where
  positions := fun market =>
    (first.positions market).trans (second.positions market)
  realizedPnl := first.realizedPnl.trans second.realizedPnl
  fees := first.fees.trans second.fees
  fillCount := first.fillCount.trans second.fillCount
  filledQty := fun orderId =>
    (first.filledQty orderId).trans (second.filledQty orderId)
  appliedFills := first.appliedFills.trans second.appliedFills
  appliedSettlements :=
    first.appliedSettlements.trans second.appliedSettlements

theorem markMarket_holding
    (marks : Marks) (market : MarketId) (positions : List Position) :
    (markMarket marks market positions).1.map Position.holding =
      positions.map Position.holding := by
  induction positions with
  | nil =>
      rfl
  | cons position rest ih =>
      rw [markMarket]
      split
      · simp only [List.map_cons, ih]
        rfl
      · split
        · rfl
        · simp only [List.map_cons, ih]
          rfl

theorem markMarkets_holding
    (marks : Marks) (markets : List MarketId) (positions : PositionsByMarket)
    (market : MarketId) :
    (((markMarkets marks markets positions).1.lookup market).getD []).map
        Position.holding =
      ((positions.lookup market).getD []).map Position.holding := by
  induction markets generalizing positions with
  | nil =>
      rfl
  | cons first rest ih =>
      have one : (((AList.insert first (markMarket marks first
          ((positions.lookup first).getD [])).1
            positions : PositionsByMarket).lookup market).getD []).map
              Position.holding =
            ((positions.lookup market).getD []).map Position.holding := by
        rw [KeyedMap.lookup_insert_eq]
        by_cases same : market = first
        · rw [if_pos same, Option.getD_some, markMarket_holding, same]
        · rw [if_neg same]
      rw [markMarkets]
      simp only
      split
      · exact one
      · rw [ih]
        exact one

theorem updateBook_agrees
    (order : IterationOrder MarketId) (limits : RiskLimits)
    (state : LiveRiskState) (market : MarketId) (outcome : Outcome)
    (book : OrderBookL2) :
    state.Agrees (state.updateBook order limits market outcome book).1 where
  positions := fun market => (markMarkets_holding _ _ _ market).symm
  realizedPnl := rfl
  fees := rfl
  fillCount := rfl
  filledQty := fun _ => rfl
  appliedFills := rfl
  appliedSettlements := rfl

end LiveRiskState

end Pmkit
