import Pmkit.Live.Marks

/-!
# The daily profit and the money made

The profit that fills and settlements realize and the entries of the positions
together hold the cash that went in and out.  Only a fill that takes a position
through zero departs from this: what is left of the position keeps the entry of
the other side, and the profit is off by what that entry differs from the price.
-/

namespace Pmkit

/-! ## One fill of one position -/

/-- The cash that a fill brings, without its fee. -/
def tradeCash (side : Side) (price size : Decimal) : Decimal :=
  match side with
  | .buy => -(price * size)
  | .sell => price * size

namespace Position

def cost (position : Position) : Decimal :=
  position.qty * position.avgEntry

/-- A fill of a position after which the sign of its quantity is the other
one. -/
def ThroughZero (position : Position) (side : Side) (size : Decimal) : Prop :=
  match side with
  | .buy => position.qty < 0 ∧ 0 < position.qty + size
  | .sell => 0 < position.qty ∧ position.qty - size < 0

instance (position : Position) (side : Side) (size : Decimal) :
    Decidable (position.ThroughZero side size) :=
  match side with
  | .buy => inferInstanceAs (Decidable (_ ∧ _))
  | .sell => inferInstanceAs (Decidable (_ ∧ _))

/-- The quantity that a fill takes through zero, times what its price differs
from the entry that is kept. -/
def keptEntry (position : Position) (side : Side) (price size : Decimal) :
    Decimal :=
  if position.ThroughZero side size then
    (position.filled side price size).qty * (price - position.avgEntry)
  else
    0

variable {size : Decimal}

theorem cost_filled_buy (position : Position) (price : Decimal)
    (positive : 0 < size) :
    (position.filled .buy price size).cost =
      position.cost + LiveRiskState.realizedBy position .buy price size +
        price * size - position.keptEntry .buy price size := by
  have buys : Side.buy ≠ .sell := Side.noConfusion
  by_cases short : position.qty < 0
  · have notLong : ¬ 0 ≤ position.qty := not_le.mpr short
    have notGrowing : ¬ size < 0 := not_lt.mpr positive.le
    have held : ¬ 0 < position.qty := not_lt.mpr short.le
    have cost : (position.filled .buy price size).cost =
        (position.qty + size) * position.avgEntry := by
      unfold Position.cost filled
      by_cases closed : position.qty + size = 0
      · simp [closed]
      · simp [closed, notLong, notGrowing]
    rw [cost]
    by_cases through : 0 < position.qty + size
    · have closing : min |position.qty| size = -position.qty := by
        rw [abs_of_neg short]
        exact min_eq_left (by linarith)
      simp only [LiveRiskState.realizedBy, keptEntry, ThroughZero, Position.cost,
        filled, short, held, through, buys, closing, and_self, false_or,
        if_true, if_false]
      ring
    · have closing : min |position.qty| size = size := by
        rw [abs_of_neg short]
        exact min_eq_right (by linarith)
      simp only [LiveRiskState.realizedBy, keptEntry, ThroughZero, Position.cost,
        short, held, through, buys, closing, and_self, and_false, false_or,
        if_true, if_false]
      ring
  · have long : 0 ≤ position.qty := not_lt.mp short
    have total : 0 < position.qty + size := by linarith
    have cost : (position.filled .buy price size).cost =
        position.avgEntry * position.qty + price * size := by
      simp only [Position.cost, filled, long, positive, total, total.ne',
        abs_of_nonneg long, and_self, true_or, if_true, if_false]
      field_simp
    rw [cost]
    simp only [LiveRiskState.realizedBy, keptEntry, ThroughZero, Position.cost,
      short, buys, false_and, and_false, or_self, if_false, mul_zero, ite_self]
    ring

theorem cost_filled_sell (position : Position) (price : Decimal)
    (positive : 0 < size) :
    (position.filled .sell price size).cost =
      position.cost + LiveRiskState.realizedBy position .sell price size -
        price * size - position.keptEntry .sell price size := by
  have sells : Side.sell ≠ .buy := Side.noConfusion
  by_cases long : 0 < position.qty
  · have notShort : ¬ position.qty ≤ 0 := not_le.mpr long
    have notGrowing : ¬ 0 < -size := by linarith
    have cost : (position.filled .sell price size).cost =
        (position.qty - size) * position.avgEntry := by
      unfold Position.cost filled
      by_cases closed : position.qty + -size = 0
      · have zero : position.qty - size = 0 := by linarith
        simp [closed, zero]
      · simp only [closed, notShort, notGrowing, and_false, false_and, or_self,
          if_false]
        ring
    rw [cost]
    by_cases through : position.qty - size < 0
    · have closing : min |position.qty| size = position.qty := by
        rw [abs_of_pos long]
        exact min_eq_left (by linarith)
      simp only [LiveRiskState.realizedBy, keptEntry, ThroughZero, Position.cost,
        filled, long, through, closing, and_self, true_or, if_true]
      ring
    · have closing : min |position.qty| size = size := by
        rw [abs_of_pos long]
        exact min_eq_right (by linarith)
      simp only [LiveRiskState.realizedBy, keptEntry, ThroughZero, Position.cost,
        long, through, closing, and_self, true_or, and_false, if_true, if_false]
      ring
  · have short : position.qty ≤ 0 := not_lt.mp long
    have falls : -size < 0 := by linarith
    have total : 0 < -position.qty + size := by linarith
    have left : position.qty + -size ≠ 0 := by
      intro zero
      linarith
    have cost : (position.filled .sell price size).cost =
        position.avgEntry * position.qty - price * size := by
      simp only [Position.cost, filled, short, falls, total, left,
        abs_of_nonpos short, and_self, or_true, if_true, if_false]
      field_simp
      ring
    rw [cost]
    simp only [LiveRiskState.realizedBy, keptEntry, ThroughZero, Position.cost,
      long, sells, false_and, and_false, or_self, if_false, mul_zero]
    ring

theorem cost_filled (position : Position) (side : Side) (price : Decimal)
    (positive : 0 < size) :
    (position.filled side price size).cost =
      position.cost + LiveRiskState.realizedBy position side price size -
        tradeCash side price size - position.keptEntry side price size := by
  cases side with
  | buy =>
      rw [cost_filled_buy position price positive, tradeCash, sub_neg_eq_add]
  | sell =>
      rw [cost_filled_sell position price positive, tradeCash]

theorem cost_applyFill (outcome : Outcome) (side : Side) (price : Decimal)
    (positive : 0 < size) (positions : List Position) :
    ((applyFill outcome side price size positions).map cost).sum =
      (positions.map cost).sum +
          (find outcome positions).elim 0 (fun position =>
            LiveRiskState.realizedBy position side price size) -
        tradeCash side price size -
        (find outcome positions).elim 0 (fun position =>
          position.keptEntry side price size) := by
  unfold find
  induction positions with
  | nil =>
      unfold applyFill
      cases side with
      | buy =>
          simp [cost, tradeCash]
          ring
      | sell =>
          simp [cost, tradeCash]
          ring
  | cons position rest ih =>
      rw [applyFill]
      by_cases own : position.outcome = outcome
      · rw [if_pos own, List.map_cons, List.sum_cons,
          cost_filled position side price positive, List.find?_cons]
        simp only [own, decide_true, Option.elim_some, List.map_cons,
          List.sum_cons]
        ring
      · rw [if_neg own, List.map_cons, List.sum_cons, ih, List.find?_cons]
        simp only [own, decide_false, List.map_cons, List.sum_cons]
        ring

theorem sum_cost_filter (positions : List Position) :
    ((positions.filter fun position => position.qty ≠ 0).map cost).sum =
      (positions.map cost).sum := by
  induction positions with
  | nil =>
      rfl
  | cons position rest ih =>
      rw [List.filter_cons]
      split
      · rw [List.map_cons, List.map_cons, List.sum_cons, List.sum_cons, ih]
      · rename_i isClosed
        have zero : position.qty = 0 := by simpa using isClosed
        rw [ih, List.map_cons, List.sum_cons, cost, zero, zero_mul, zero_add]

/-- A settlement takes its shares off at the entry of the position. -/
theorem cost_settle
    {outcome : Outcome} {positions : List Position} {position : Position}
    (found : find outcome positions = some position) (settledSize : Decimal) :
    ((settle outcome settledSize positions).map cost).sum =
      (positions.map cost).sum - position.avgEntry * settledSize := by
  unfold find at found
  induction positions with
  | nil =>
      cases found
  | cons first rest ih =>
      rw [settle]
      by_cases own : first.outcome = outcome
      · rw [List.find?_cons_of_pos (by simpa using own)] at found
        cases found
        rw [if_pos own, List.map_cons, List.map_cons, List.sum_cons,
          List.sum_cons]
        simp only [cost]
        ring
      · rw [List.find?_cons_of_neg (by simpa using own)] at found
        rw [if_neg own, List.map_cons, List.map_cons, List.sum_cons,
          List.sum_cons, ih found]
        ring

/-- What is held decides what it cost. -/
theorem sum_cost_congr {left right : List Position}
    (same : left.map holding = right.map holding) :
    (left.map cost).sum = (right.map cost).sum := by
  have split : ∀ positions : List Position,
      positions.map cost = (positions.map holding).map fun held =>
        held.2.1 * held.2.2 := by
    intro positions
    rw [List.map_map]
    rfl
  rw [split, split, same]

end Position

/-! ## One call -/

namespace LiveRiskState

def totalCost (state : LiveRiskState) : Decimal :=
  state.positionsByMarket.total fun _ => Position.cost

def markedValue (state : LiveRiskState) : Decimal :=
  (state.openPositions.map fun position =>
    position.2.qty *
      (state.marks.lookup (position.1, position.2.outcome)).getD 0).sum

def cashOf : RiskAction → Decimal
  | .book _ _ _ => 0
  | .fill (.fill fill) _ => tradeCash fill.side fill.price fill.size - fill.fee
  | .fill (.bookUpdate _ _ _ _ _) _ => 0
  | .fill (.bestBidAsk _ _ _ _ _) _ => 0
  | .fill (.lastTrade _ _ _ _ _ _) _ => 0
  | .fill (.orderAck _ _ _) _ => 0
  | .fill (.tick _) _ => 0
  | .account (.fill _ fill) =>
      tradeCash fill.side fill.price fill.size - fill.fee
  | .account (.settlement _ _ _ _ proceeds _) => proceeds
  | .account (.orderAck _ _ _) => 0
  | .account (.orderCancelled _ _ _) => 0
  | .account (.orderRejected _ _ _ _) => 0
  | .account (.orderStatus _ _ _ _) => 0

def fillOf : RiskAction → Option (FillEvent Decimal)
  | .book _ _ _ => none
  | .fill (.fill fill) _ => some fill
  | .fill (.bookUpdate _ _ _ _ _) _ => none
  | .fill (.bestBidAsk _ _ _ _ _) _ => none
  | .fill (.lastTrade _ _ _ _ _ _) _ => none
  | .fill (.orderAck _ _ _) _ => none
  | .fill (.tick _) _ => none
  | .account (.fill _ fill) => some fill
  | .account (.settlement _ _ _ _ _ _) => none
  | .account (.orderAck _ _ _) => none
  | .account (.orderCancelled _ _ _) => none
  | .account (.orderRejected _ _ _ _) => none
  | .account (.orderStatus _ _ _ _) => none

def keptByFill (state : LiveRiskState) (fill : FillEvent Decimal) : Decimal :=
  (Position.find fill.outcome (state.positions fill.market)).elim 0
    fun position => position.keptEntry fill.side fill.price fill.size

/-- What an action leaves at the entry of the other side when it is applied. -/
def keptOf (state : LiveRiskState) (action : RiskAction) : Decimal :=
  (fillOf action).elim 0 state.keptByFill

def PositiveSize (action : RiskAction) : Prop :=
  ∀ fill, fillOf action = some fill → 0 < fill.size

def TakesThroughZero (state : LiveRiskState) (action : RiskAction) : Prop :=
  ∃ fill position, fillOf action = some fill ∧
    Position.find fill.outcome (state.positions fill.market) = some position ∧
      position.ThroughZero fill.side fill.size

instance (state : LiveRiskState) (identity : AppliedIdentity) :
    Decidable (state.Applied identity) :=
  match identity with
  | .fill identity =>
      inferInstanceAs (Decidable (identity ∈ state.appliedFills))
  | .settlement identity =>
      inferInstanceAs (Decidable (identity ∈ state.appliedSettlements))

def applies (limits : RiskLimits) (state : LiveRiskState) (call : RiskCall) :
    Bool :=
  (identityOf call.action).any fun identity =>
    ¬ state.Applied identity ∧ (state.step limits call).Applied identity

/-- The realized profit without the fees, less what the positions cost. -/
def cashFlow (state : LiveRiskState) : Decimal :=
  state.realizedPnl - state.fees - state.totalCost

section Change

variable {state changed : LiveRiskState} {action : RiskAction}

theorem Change.applied (change : Change state action changed)
    {identity : AppliedIdentity} (same : identityOf action = some identity) :
    ¬ state.Applied identity ∧ changed.Applied identity := by
  cases change with
  | book market outcome book =>
      cases same
  | marketFill fill isNew =>
      cases same
      exact ⟨isNew, Finset.mem_insert_self _ _⟩
  | accountFill fill isNew =>
      cases same
      exact ⟨isNew, Finset.mem_insert_self _ _⟩
  | settlement timestampMs isNew positive nonneg found covered =>
      cases same
      exact ⟨isNew, Finset.mem_insert_self _ _⟩

theorem Change.cashFlow_of_book (change : Change state action changed)
    (book : identityOf action = none) :
    changed.cashFlow = state.cashFlow := by
  cases change with
  | book market outcome book => rfl
  | marketFill fill isNew => cases book
  | accountFill fill isNew => cases book
  | settlement timestampMs isNew positive nonneg found covered => cases book

theorem cashFlow_withFill (state : LiveRiskState) (identity : EventIdentity)
    {fill : FillEvent Decimal} (positive : 0 < fill.size) :
    (state.withFill identity fill).cashFlow =
      state.cashFlow +
        (tradeCash fill.side fill.price fill.size - fill.fee) +
        state.keptByFill fill := by
  have realized : state.realizedByFill fill =
      (Position.find fill.outcome (state.positions fill.market)).elim 0
        fun position =>
          realizedBy position fill.side fill.price fill.size := by
    unfold realizedByFill
    cases Position.find fill.outcome (state.positions fill.market) <;> rfl
  have cost : (state.withFill identity fill).totalCost =
      state.totalCost + state.realizedByFill fill -
        tradeCash fill.side fill.price fill.size - state.keptByFill fill := by
    have replaced := PositionsByMarket.total_insert state.positionsByMarket
      fill.market (Position.applyFill fill.outcome fill.side fill.price
        fill.size (state.positions fill.market)) (fun _ => Position.cost)
    rw [Position.cost_applyFill _ _ _ positive, ← realized] at replaced
    unfold totalCost withFill
    rw [replaced, keptByFill]
    unfold positions
    ring
  unfold cashFlow
  rw [cost]
  simp only [withFill]
  ring

theorem cashFlow_withSettlement
    (state : LiveRiskState) (identity : EventIdentity) {market : MarketId}
    {outcome : Outcome} (settledSize proceeds : Decimal) {position : Position}
    (found : Position.find outcome (state.positions market) = some position) :
    (state.withSettlement identity market outcome settledSize proceeds
        position).cashFlow = state.cashFlow + proceeds := by
  have cost : (state.withSettlement identity market outcome settledSize
      proceeds position).totalCost =
      state.totalCost - position.avgEntry * settledSize := by
    have replaced := PositionsByMarket.total_insert state.positionsByMarket
      market ((Position.settle outcome settledSize
        (state.positions market)).filter fun position => position.qty ≠ 0)
      (fun _ => Position.cost)
    rw [Position.sum_cost_filter, Position.cost_settle found] at replaced
    unfold totalCost withSettlement
    rw [replaced]
    unfold positions
    ring
  unfold cashFlow
  rw [cost]
  simp only [withSettlement]
  ring

/-- An action that is applied brings its cash and what it leaves at the other
entry. -/
theorem Change.cashFlow (change : Change state action changed)
    (positive : PositiveSize action) :
    changed.cashFlow = state.cashFlow + cashOf action + state.keptOf action := by
  cases change with
  | book market outcome book =>
      exact ((add_zero _).trans (add_zero _)).symm
  | marketFill fill isNew =>
      exact state.cashFlow_withFill _ (positive fill rfl)
  | accountFill fill isNew =>
      exact state.cashFlow_withFill _ (positive fill rfl)
  | settlement timestampMs isNew positive nonneg found covered =>
      rw [state.cashFlow_withSettlement _ _ _ found]
      exact (add_zero _).symm

theorem refreshMarks_cashFlow
    (order : IterationOrder MarketId) (limits : RiskLimits)
    (state : LiveRiskState) :
    (state.refreshMarks order limits).1.cashFlow = state.cashFlow := by
  have cost : (state.refreshMarks order limits).1.totalCost =
      state.totalCost := by
    apply PositionsByMarket.total_congr
    intro market
    exact Position.sum_cost_congr
      (state.refreshMarks_positions order limits market)
  exact congrArg (fun cost => state.realizedPnl - state.fees - cost) cost

theorem step_cashFlow
    (limits : RiskLimits) (state : LiveRiskState) {call : RiskCall}
    (positive : PositiveSize call.action) :
    (state.step limits call).cashFlow =
      if state.applies limits call then
        state.cashFlow + cashOf call.action + state.keptOf call.action
      else
        state.cashFlow := by
  rcases step_cases limits state call with ⟨changed, change, same⟩ |
    ⟨unchanged, same⟩
  · rw [same, refreshMarks_cashFlow]
    cases named : identityOf call.action with
    | none =>
        rw [applies, named, change.cashFlow_of_book named]
        rfl
    | some identity =>
        obtain ⟨isNew, done⟩ := change.applied named
        have after : (state.step limits call).Applied identity := by
          rw [same]
          cases identity <;> exact done
        rw [applies, named, Option.any_some, if_pos, change.cashFlow positive]
        simpa using ⟨isNew, after⟩
  · rw [applies, same, if_neg]
    rw [Option.any_eq_true]
    rintro ⟨identity, _, both⟩
    simp at both

theorem markedPnl_eq_cashFlow (state : LiveRiskState) :
    state.markedPnl = state.cashFlow + state.markedValue := by
  have value : state.markedValue = state.positionsByMarket.total
      fun market position => position.qty *
        (state.marks.lookup (market, position.outcome)).getD 0 := by
    refine @sum_openPositions state (fun market position => position.qty *
      (state.marks.lookup (market, position.outcome)).getD 0) ?_
    intro market position closed
    rw [closed, zero_mul]
  have split : state.positionsByMarket.total (fun market position =>
      position.qty * (state.marks.lookup (market, position.outcome)).getD 0) =
      state.positionsByMarket.total (gain state.marks) + state.totalCost := by
    rw [totalCost, ← PositionsByMarket.total_add]
    congr 1
    funext market position
    rw [gain, Position.cost]
    ring
  rw [markedPnl_eq, value, split, cashFlow]
  ring

end Change

end LiveRiskState

/-! ## Runs -/

/-- A risk state with the cash that its fills and settlements brought, and what
they left at the entry of the other side. -/
structure MoneyRun where
  state : LiveRiskState
  cash : Decimal
  kept : Decimal

namespace MoneyRun

open LiveRiskState

def start : MoneyRun where
  state := default
  cash := 0
  kept := 0

def step (limits : RiskLimits) (run : MoneyRun) (call : RiskCall) : MoneyRun where
  state := run.state.step limits call
  cash :=
    if run.state.applies limits call then
      run.cash + cashOf call.action
    else
      run.cash
  kept :=
    if run.state.applies limits call then
      run.kept + run.state.keptOf call.action
    else
      run.kept

/-- The daily profit is the money made: the cash with the value of the
positions. -/
def MoneyMade (run : MoneyRun) : Prop :=
  ∀ pnl, run.state.dailyPnl = some pnl →
    pnl = run.cash + run.state.markedValue

/-- The daily profit is the money made with what was left at the entry of the
other side. -/
def MoneyMadeAndKept (run : MoneyRun) : Prop :=
  ∀ pnl, run.state.dailyPnl = some pnl →
    pnl = run.cash + run.state.markedValue + run.kept

/-- A call that is applied takes no position through zero. -/
def StaysOnItsSide (limits : RiskLimits) (run : MoneyRun) (call : RiskCall) :
    Prop :=
  run.state.applies limits call = true →
    ¬ run.state.TakesThroughZero call.action

structure Counted (run : MoneyRun) : Prop where
  fresh : run.state.Fresh
  cash : run.state.cashFlow = run.cash + run.kept

variable {limits : RiskLimits} {run : MoneyRun} {call : RiskCall}

theorem Counted.moneyMade (counted : run.Counted) : run.MoneyMadeAndKept := by
  intro pnl known
  by_cases marked : run.state.AllMarked
  · rw [dailyPnl_of_marked counted.fresh marked] at known
    cases known
    rw [markedPnl_eq_cashFlow, counted.cash]
    ring
  · rw [dailyPnl_of_unmarked marked] at known
    cases known

theorem Counted.step (counted : run.Counted)
    (positive : PositiveSize call.action) : (run.step limits call).Counted where
  fresh := counted.fresh.step call
  cash := by
    change (run.state.step limits call).cashFlow = _
    rw [step_cashFlow limits run.state positive, counted.cash, MoneyRun.step]
    simp only
    split
    · ring
    · rfl

theorem keptOf_of_stays (stays : ¬ run.state.TakesThroughZero call.action) :
    run.state.keptOf call.action = 0 := by
  unfold keptOf
  cases filled : fillOf call.action with
  | none =>
      rfl
  | some fill =>
      rw [Option.elim_some, keptByFill]
      cases found : Position.find fill.outcome
          (run.state.positions fill.market) with
      | none =>
          rfl
      | some position =>
          rw [Option.elim_some, Position.keptEntry, if_neg]
          intro through
          exact stays ⟨fill, position, filled, found, through⟩

theorem step_kept (stays : run.StaysOnItsSide limits call) :
    (run.step limits call).kept = run.kept := by
  rw [MoneyRun.step]
  simp only
  split
  · rename_i applied
    rw [keptOf_of_stays (stays applied), add_zero]
  · rfl

theorem start_counted : start.Counted where
  fresh := default_fresh
  cash := by decide +kernel

/-- In every state of a run the daily profit, when it is known, is the money
made with what fills through zero left at the entry of the other side; until
there is such a fill it is the money made. -/
theorem moneyMade_everyState
    (limits : RiskLimits) {calls : List RiskCall}
    (positive : ∀ call ∈ calls, PositiveSize call.action) :
    Trace.EveryState (step limits) MoneyMadeAndKept start calls ∧
      (Trace.EveryStep (step limits) (StaysOnItsSide limits) start calls →
        Trace.EveryState (step limits) MoneyMade start calls) := by
  have every : Trace.EveryStep (step limits)
      (fun _ call => PositiveSize call.action) start calls :=
    Trace.everyStep_of_forall positive
  constructor
  · have counted : Trace.EveryState (step limits) Counted start calls :=
      Trace.everyState_of_everyStep
        (fun run call counted positive => counted.step positive)
        start_counted every
    exact counted.imp fun run counted => counted.moneyMade
  · intro stays
    have counted : Trace.EveryState (step limits)
        (fun run => run.Counted ∧ run.kept = 0) start calls := by
      refine Trace.everyState_of_everyStep ?_ ⟨start_counted, rfl⟩
        (every.and stays)
      rintro run call ⟨counted, none⟩ ⟨positive, stays⟩
      exact ⟨counted.step positive, (step_kept stays).trans none⟩
    refine counted.imp ?_
    rintro run ⟨counted, none⟩ pnl known
    rw [counted.moneyMade pnl known, none, add_zero]

section Example

def flipLimits : RiskLimits where
  maxOrderNotional := 100
  maxPositionNotional := 100
  maxPortfolioNotional := 100
  maxMarketNotional := 100
  maxStrategyNotional := 100
  maxOpenOrders := ⟨6, by decide⟩
  maxLoss := 100
  maxDailyLoss := 100

def flipMarket : MarketId := ⟨"bnb-5m", by decide⟩

def flipFill (orderId : String) (side : Side) (price size : Decimal) :
    FillEvent Decimal where
  strategy := none
  orderId := orderId
  market := flipMarket
  outcome := .up
  price := price
  size := size
  side := side
  fee := 0
  liquidity := .taker
  timestampMs := MachineInt.I64.clamp 0

def flipCall (action : RiskAction) : RiskCall where
  order := .stored MarketId
  action := action

def fillCall (orderId : String) (side : Side) (price size : Decimal) :
    RiskCall :=
  flipCall (.account
    (.fill (.venue orderId) (flipFill orderId side price size)))

def bookCall (bid ask : Decimal) : RiskCall :=
  flipCall (.book flipMarket .up
    { bids := [(bid, 10)]
      asks := [(ask, 10)]
      timestampMs := MachineInt.I64.clamp 0
      lastTradePrice := none })

/-- A long position that one sale takes through zero at the mark. -/
def flipCalls : List RiskCall :=
  [bookCall (7 / 10) (8 / 10), fillCall "order-1" .buy (1 / 2) 4,
    fillCall "order-2" .sell (3 / 4) 8]

theorem flipCalls_positive :
    ∀ call ∈ flipCalls, PositiveSize call.action := by
  intro call mem fill same
  simp only [flipCalls, List.mem_cons, List.not_mem_nil, or_false] at mem
  rcases mem with rfl | rfl | rfl
  · cases same
  · cases same
    decide +kernel
  · cases same
    decide +kernel

theorem moneyMade_everyState_flipCalls :
    Trace.EveryState (step flipLimits) MoneyMadeAndKept start flipCalls :=
  (moneyMade_everyState flipLimits flipCalls_positive).1

/-- The four shares that were bought brought one, and the profit says nothing
was made: the short position keeps the entry of the long one. -/
theorem flipCalls_not_moneyMade :
    (Trace.run (step flipLimits) start flipCalls).state.dailyPnl = some 0 ∧
      ¬ Trace.EveryState (step flipLimits) MoneyMade start flipCalls := by
  have known :
      (Trace.run (step flipLimits) start flipCalls).state.dailyPnl = some 0 := by
    decide +kernel
  refine ⟨known, fun every => ?_⟩
  exact absurd (every.last 0 known) (by decide +kernel)

end Example

end MoneyRun

end Pmkit
