import Pmkit.Library.Capped
import Pmkit.Sim.Fills

/-!
# What a book gives to makers

Each crossed maker reads the top of the book and takes up to what the queue
leaves of it, whatever the others took.  The volume of one side is therefore a
sum of quantities capped by the same number, and `SharesBook` says when such a
sum stays within it.
-/

namespace Pmkit

open MachineInt

namespace SimEngine

def availableTo (config : SimulationConfig) (book : OrderBookL2)
    (side : Side) : Decimal :=
  let topQuantity : Decimal := match side with
    | .buy => (book.bestAsk.map Prod.snd).getD 0
    | .sell => (book.bestBid.map Prod.snd).getD 0
  max (topQuantity *
    (1 - (config.makerQueueAheadBps.toNat : Decimal) / 10000)) 0

theorem availableTo_nonneg (config : SimulationConfig) (book : OrderBookL2)
    (side : Side) : 0 ≤ availableTo config book side :=
  le_max_right _ _

theorem makerFillQuantity_eq (config : SimulationConfig) (book : OrderBookL2)
    (order : PlaceOrder) :
    makerFillQuantity config book order =
      min order.qty (availableTo config book order.side) := rfl

def charged (engine : SimEngine) (book : OrderBookL2)
    (resting : RestingOrder) : Bool :=
  (engine.feeModel.feeOrder (makerFillQuantity engine.config book resting.order)
    resting.order.price .maker).isSome

variable {engine : SimEngine} {book : OrderBookL2} {resting : RestingOrder}
  {fill : FillEvent Decimal}

theorem makerFill_liquidity
    (filled : engine.makerFill book resting = some fill) :
    fill.liquidity = .maker := by
  unfold makerFill at filled
  simp only at filled
  split at filled
  · cases filled
  · split at filled
    · cases filled
    · cases filled
      rfl

theorem takerFill_liquidity {orderId : String} {order : PlaceOrder}
    {submittedMs fillMs : I64}
    (filled : engine.takerFill orderId order submittedMs fillMs = some fill) :
    fill.liquidity = .taker := by
  unfold takerFill at filled
  simp only [Option.bind_eq_bind, Option.bind_eq_some_iff] at filled
  obtain ⟨book, _, pair, _, fee, _, built⟩ := filled
  injection built with built
  subst built
  rfl

/-- A crossed maker takes its capped quantity if the fee is defined, and
nothing otherwise. -/
theorem makerFill_size
    (engine : SimEngine) (book : OrderBookL2) (resting : RestingOrder) :
    totalSize (engine.makerFill book resting).toList =
      if engine.charged book resting then
        min resting.order.qty
          (availableTo engine.config book resting.order.side)
      else
        0 := by
  rw [← makerFillQuantity_eq]
  unfold charged makerFill
  simp only
  by_cases nothing : makerFillQuantity engine.config book resting.order = 0
  · simp [nothing]
  · rw [if_neg nothing]
    cases engine.feeModel.feeOrder
        (makerFillQuantity engine.config book resting.order)
        resting.order.price .maker with
    | none => simp
    | some fee => simp [totalSize]

/-! ## The volume of one side -/

def emittedBy (engine : SimEngine) (order : IterationOrder String)
    (market : MarketId) (outcome : Outcome) (book : OrderBookL2) :
    List (FillEvent Decimal) :=
  (engine.updateBook order market outcome book).pendingFills.drop
    engine.pendingFills.length

def makerVolume (engine : SimEngine) (order : IterationOrder String)
    (market : MarketId) (outcome : Outcome) (book : OrderBookL2)
    (side : Side) : Decimal :=
  totalSize ((engine.emittedBy order market outcome book).filter fun fill =>
    fill.liquidity = .maker && fill.market = market &&
      fill.outcome = outcome && fill.side = side)

def crossedOrders (engine : SimEngine) (market : MarketId) (outcome : Outcome)
    (book : OrderBookL2) : List RestingOrder :=
  engine.resting.values.filter fun resting =>
    survives market outcome book.timestampMs resting &&
      fillable market outcome book resting

def crossedOn (engine : SimEngine) (market : MarketId) (outcome : Outcome)
    (book : OrderBookL2) (side : Side) : List RestingOrder :=
  (engine.crossedOrders market outcome book).filter fun resting =>
    decide (resting.order.side = side) && engine.charged book resting

def askedOn (engine : SimEngine) (market : MarketId) (outcome : Outcome)
    (book : OrderBookL2) (side : Side) : List Decimal :=
  (engine.crossedOn market outcome book side).map fun resting =>
    resting.order.qty

theorem WellFormed.values_orderId (wellFormed : engine.WellFormed) :
    engine.resting.values.map WorkingOrder.orderId = engine.resting.keys := by
  change (engine.resting.entries.map Sigma.snd).map WorkingOrder.orderId =
    engine.resting.entries.map Sigma.fst
  rw [List.map_map]
  apply List.map_congr_left
  rintro ⟨key, resting⟩ mem
  exact wellFormed.restingKey (KeyedMap.lookup_iff_mem_entries.mpr mem)

theorem mem_crossedOrders (wellFormed : engine.WellFormed)
    {market : MarketId} {outcome : Outcome}
    :
    resting ∈ engine.crossedOrders market outcome book ↔
      engine.resting.lookup resting.orderId = some resting ∧
        survives market outcome book.timestampMs resting = true ∧
        fillable market outcome book resting = true := by
  rw [crossedOrders, List.mem_filter, Bool.and_eq_true, KeyedMap.mem_values]
  constructor
  · rintro ⟨⟨key, stored⟩, both⟩
    have identity := wellFormed.restingKey stored
    subst identity
    exact ⟨stored, both⟩
  · rintro ⟨stored, both⟩
    exact ⟨⟨resting.orderId, stored⟩, both⟩

/-- The crossed identities are those of the crossed orders, in some order. -/
theorem crossedIds_perm (wellFormed : engine.WellFormed)
    (order : IterationOrder String) (market : MarketId) (outcome : Outcome)
    (book : OrderBookL2) :
    (engine.crossedIds order market outcome book).Perm
      ((engine.crossedOrders market outcome book).map
        WorkingOrder.orderId) := by
  have nodup : ((engine.crossedOrders market outcome book).map
      WorkingOrder.orderId).Nodup := by
    have keys := engine.resting.keys_nodup
    rw [← wellFormed.values_orderId] at keys
    exact keys.sublist (List.filter_sublist.map WorkingOrder.orderId)
  apply (List.perm_ext_iff_of_nodup
    (crossedIds_nodup wellFormed order market outcome book) nodup).mpr
  intro key
  rw [mem_crossedIds wellFormed, List.mem_map]
  constructor
  · rintro ⟨resting, stored, both⟩
    have identity := wellFormed.restingKey stored
    subst identity
    exact ⟨resting, (mem_crossedOrders wellFormed).mpr ⟨stored, both⟩, rfl⟩
  · rintro ⟨resting, mem, rfl⟩
    exact ⟨resting, (mem_crossedOrders wellFormed).mp mem⟩

theorem totalSize_filterMap (pick : FillEvent Decimal → Bool)
    (fillOf : String → Option (FillEvent Decimal)) (ids : List String) :
    totalSize ((ids.filterMap fillOf).filter pick) =
      (ids.map fun key => totalSize ((fillOf key).toList.filter pick)).sum := by
  induction ids with
  | nil =>
      rfl
  | cons key rest ih =>
      rw [List.map_cons, List.sum_cons, ← ih,
        ← totalSize_append, ← List.filter_append]
      cases found : fillOf key with
      | none => simp [found]
      | some fill => simp [found]

theorem sum_map_ite
    {I : Type} (items : List I) (pick : I → Bool) (weight : I → Decimal) :
    (items.map fun item => if pick item then weight item else 0).sum =
      ((items.filter pick).map weight).sum := by
  induction items with
  | nil =>
      rfl
  | cons item rest ih =>
      rw [List.map_cons, List.sum_cons, ih]
      cases picked : pick item with
      | true => simp [picked]
      | false => simp [picked]

def onSide (market : MarketId) (outcome : Outcome) (side : Side)
    (fill : FillEvent Decimal) : Bool :=
  fill.liquidity = .maker && fill.market = market &&
    fill.outcome = outcome && fill.side = side

theorem crossedOrder_size (wellFormed : engine.WellFormed)
    {market : MarketId} {outcome : Outcome} (side : Side)
    (mem : resting ∈ engine.crossedOrders market outcome book) :
    totalSize ((((engine.resting.lookup resting.orderId).filter
        (survives market outcome book.timestampMs)).bind
        (engine.makerFill book)).toList.filter (onSide market outcome side)) =
      if decide (resting.order.side = side) && engine.charged book resting then
        min resting.order.qty (availableTo engine.config book side)
      else
        0 := by
  obtain ⟨stored, alive, crossed⟩ := (mem_crossedOrders wellFormed).mp mem
  have here : resting.order.market = market ∧
      resting.order.outcome = outcome := by
    simp only [fillable, onBook, Bool.and_eq_true, decide_eq_true_eq]
      at crossed
    exact crossed.1.1
  have carried : ∀ fill ∈ (engine.makerFill book resting).toList,
      onSide market outcome side fill = decide (resting.order.side = side) := by
    intro fill made
    have made := Option.mem_toList.mp made
    obtain ⟨_, sameMarket, sameOutcome, sameSide, _⟩ := makerFill_fields made
    simp [onSide, makerFill_liquidity made, sameMarket, sameOutcome, sameSide,
      here]
  simp only [stored, Option.filter_some, alive, if_true, Option.bind_some]
  rw [List.filter_congr carried]
  by_cases same : resting.order.side = side
  · subst same
    simpa using makerFill_size engine book resting
  · simp [same]

/-- The volume of one side is what its crossed orders take under the common
cap. -/
theorem makerVolume_eq (wellFormed : engine.WellFormed)
    (order : IterationOrder String) (market : MarketId) (outcome : Outcome)
    (book : OrderBookL2) (side : Side) :
    engine.makerVolume order market outcome book side =
      Capped.total (availableTo engine.config book side)
        (engine.askedOn market outcome book side) := by
  obtain ⟨_, _, _, _, _, _, _, pending⟩ :=
    updateBook_spec wellFormed order market outcome book
  have noTaker : ((engine.withBook market outcome book).maturedFills market
      outcome book.timestampMs (engine.delayed.filter
        (survives market outcome book.timestampMs))).filter
          (onSide market outcome side) = [] := by
    apply List.filter_eq_nil_iff.mpr
    intro fill mem
    obtain ⟨delayed, _, taken⟩ := List.mem_filterMap.mp mem
    split at taken
    · simp [onSide, takerFill_liquidity taken]
    · cases taken
  change totalSize ((engine.emittedBy order market outcome book).filter
    (onSide market outcome side)) = _
  rw [emittedBy, pending, List.drop_left, bookFills, List.filter_append,
    noTaker, List.nil_append, totalSize_filterMap,
    ((crossedIds_perm wellFormed order market outcome book).map _).sum_eq,
    List.map_map]
  rw [Capped.total, askedOn, List.map_map, crossedOn]
  refine Eq.trans (congrArg List.sum (List.map_congr_left ?_))
    (sum_map_ite _ _ _)
  intro resting mem
  exact crossedOrder_size wellFormed side mem

/-- When the makers of one side stay within what the book leaves them. -/
def SharesBook (engine : SimEngine) (market : MarketId) (outcome : Outcome)
    (book : OrderBookL2) (side : Side) : Prop :=
  let available := availableTo engine.config book side
  let asked := engine.askedOn market outcome book side
  available = 0 ∨ asked.sum ≤ available ∨
    (Capped.takers asked).length ≤ 1 ∨
    ((∃ quantity ∈ asked, quantity < 0) ∧
      Capped.total available (Capped.takers asked) ≤
        available + Capped.givenBack asked)

end SimEngine

namespace SimRun

/-- In every state of every run, one side of a book update stays within the
available liquidity just when it is empty, the crossed orders ask for no more,
or no two of them take anything. -/
theorem makerVolume_le_iff
    (idPrefix : String) (startId : Nat) (config : SimulationConfig)
    (calls : List SimCall) (order : IterationOrder String)
    (market : MarketId) (outcome : Outcome) (book : OrderBookL2)
    (side : Side) :
    (fresh idPrefix startId config calls).engine.makerVolume order market
        outcome book side ≤
      SimEngine.availableTo config book side ↔
    (fresh idPrefix startId config calls).engine.SharesBook market outcome book
      side := by
  have tracked := run_tracked idPrefix startId config calls
  rw [SimEngine.makerVolume_eq tracked.wellFormed, SimEngine.SharesBook,
    tracked.configured]
  exact Capped.sum_capped_le_iff
    (SimEngine.availableTo_nonneg config book side) _

/-- Two makers of ten each under a crossing ask of eight, half of it queued. -/
def pairedRun : List SimCall :=
  [smallBook (3 / 5) 0, .submit (smallOrder true .gtc) none 1,
    .submit (smallOrder true .gtc) none 2]

/-- Each of two crossed makers takes the four shares that are there. -/
theorem pairedRun_takes_twice :
    ¬ (fresh "sim" 1 smallConfig pairedRun).engine.makerVolume
        (.stored String) smallMarket .up
        { bids := []
          asks := [(2 / 5, 8)]
          timestampMs := 10
          lastTradePrice := none } .buy ≤
      SimEngine.availableTo smallConfig
        { bids := []
          asks := [(2 / 5, 8)]
          timestampMs := 10
          lastTradePrice := none } .buy := by
  decide +kernel

end SimRun

end Pmkit
