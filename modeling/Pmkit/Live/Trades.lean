import Mathlib.Algebra.BigOperators.Group.Finset.Basic
import Pmkit.Library.Fallible
import Pmkit.Library.Trace
import Pmkit.Live.Risk

/-!
# Trades of the user stream

The venue reports one trade in several messages: matched, mined, confirmed, or
failed in the end.  Each message is mapped to an account event and applied to
the risk state, which takes a fill once by the id of its trade.
-/

namespace Pmkit

open MachineInt Fallible

/-! ## Messages -/

/-- A condition id and a token id of the venue are 256-bit numbers. -/
abbrev B256 : Type := BitVec 256

abbrev U256 : Type := BitVec 256

/-- The venue's side of an order, with the text of any other value. -/
inductive VenueSide where
  | buy
  | sell
  | other (debug : String)
  deriving DecidableEq

/-- The `Debug` text of a side. -/
def VenueSide.debug : VenueSide → String
  | .buy => "Buy"
  | .sell => "Sell"
  | .other debug => debug

/-- `from_venue_side`. -/
def fromVenueSide : VenueSide → Option Side
  | .buy => some .buy
  | .sell => some .sell
  | .other _ => none

inductive TraderSide where
  | maker
  | taker
  | unknown (value : String)
  | unsupported
  deriving DecidableEq

inductive TradeMessageStatus where
  | matched
  | mined
  | confirmed
  | failed
  | retrying
  | unknown (status : String)
  | unsupported
  deriving DecidableEq

def TradeMessageStatus.IsFill : TradeMessageStatus → Prop
  | .matched => True
  | .mined => True
  | .confirmed => True
  | .failed => False
  | .retrying => False
  | .unknown _ => False
  | .unsupported => False

instance : DecidablePred TradeMessageStatus.IsFill := fun status => by
  cases status <;> unfold TradeMessageStatus.IsFill <;> infer_instance

structure TradeMessage where
  id : String
  market : B256
  assetId : U256
  side : VenueSide
  size : Decimal
  price : Decimal
  feeRateBps : Option Decimal
  status : TradeMessageStatus
  timestamp : Option I64
  matchtime : Option I64
  lastUpdate : Option I64
  traderSide : Option TraderSide
  takerOrderId : Option String
  /-- The order ids of `maker_orders`. -/
  makerOrders : List String
  deriving DecidableEq

structure MarketTokens where
  market : MarketId
  up : U256
  down : U256
  deriving DecidableEq

/-- `MarketTokens::outcome`. -/
def MarketTokens.outcome (tokens : MarketTokens) (token : U256) :
    Option Outcome :=
  if token = tokens.up then
    some .up
  else if token = tokens.down then
    some .down
  else
    none

/-- What an authenticated user source is configured with. -/
structure PolymarketUserData where
  tokens : MarketTokens
  marketCondition : B256
  deriving DecidableEq

namespace PolymarketUserData

/-- `validate_market`. -/
def validateMarket (source : PolymarketUserData) (market : B256)
    (asset : U256) : Except DataSourceError Unit :=
  if market ≠ source.marketCondition ∨
      source.tokens.outcome asset = none then
    .error (.replayGap
      "Polymarket user event is outside the configured market")
  else
    .ok ()

/-- `trade_order_id`. -/
def tradeOrderId (trade : TradeMessage) : Except DataSourceError String :=
  let found := match trade.traderSide with
    | some .taker => trade.takerOrderId
    | some .maker => trade.makerOrders.head?.or trade.takerOrderId
    | some (.unknown _) => trade.makerOrders.head?.or trade.takerOrderId
    | some .unsupported => trade.makerOrders.head?.or trade.takerOrderId
    | none => trade.makerOrders.head?.or trade.takerOrderId
  match found with
  | some orderId => .ok orderId
  | none =>
      .error (.replayGap "Polymarket trade has no associated order id")

def tradeLiquidity : Option TraderSide → Except DataSourceError Liquidity
  | some .maker => .ok .maker
  | some .taker => .ok .taker
  | some (.unknown value) =>
      .error (.replayGap ("unknown Polymarket trader side: " ++ value))
  | some .unsupported =>
      .error (.replayGap "unsupported Polymarket trader side")
  | none => .error (.replayGap "Polymarket trade has no trader side")

def tradeFill (source : PolymarketUserData) (trade : TradeMessage)
    (orderId : String) (timestampMs : I64) :
    Except DataSourceError (PmAccountEvent Decimal) :=
  match source.tokens.outcome trade.assetId with
  | none =>
      .error (.replayGap
        ("unknown Polymarket asset id: " ++ toString trade.assetId.toNat))
  | some outcome =>
      match fromVenueSide trade.side with
      | none =>
          .error (.replayGap
            ("unknown Polymarket order side: " ++ trade.side.debug))
      | some side =>
          (tradeLiquidity trade.traderSide).map fun liquidity =>
            .fill (.venue trade.id)
              { strategy := none
                orderId := orderId
                market := source.tokens.market
                outcome := outcome
                price := trade.price
                size := trade.size
                side := side
                fee := trade.feeRateBps.getD 0 * trade.price * trade.size /
                  10000
                liquidity := liquidity
                timestampMs := timestampMs }

def tradeTimestamp (trade : TradeMessage) : Except DataSourceError I64 :=
  match (trade.timestamp.or trade.matchtime).or trade.lastUpdate with
  | some timestampMs => .ok timestampMs
  | none => .error (.replayGap "Polymarket trade event has no timestamp")

/-- `trade_event`. -/
def tradeEvent (source : PolymarketUserData) (trade : TradeMessage) :
    Except DataSourceError (PmAccountEvent Decimal) := do
  source.validateMarket trade.market trade.assetId
  let timestampMs ← tradeTimestamp trade
  let orderId ← tradeOrderId trade
  match trade.status with
  | .matched => source.tradeFill trade orderId timestampMs
  | .mined => source.tradeFill trade orderId timestampMs
  | .confirmed => source.tradeFill trade orderId timestampMs
  | .failed => .ok (.orderRejected none orderId "trade failed" timestampMs)
  | .retrying => .ok (.orderStatus none orderId "retrying" timestampMs)
  | .unknown status => .ok (.orderStatus none orderId status timestampMs)
  | .unsupported =>
      .error (.replayGap
        "Polymarket trade event has an unsupported status")

end PolymarketUserData

structure TradeDelivery where
  source : PolymarketUserData
  message : TradeMessage
  deriving DecidableEq

/-- A run of trade messages: the risk state, the messages applied so far, the
last one first, and whether a source has failed. -/
structure TradeRun where
  risk : LiveRiskState
  taken : List TradeDelivery
  ended : Bool

namespace TradeRun

def start : TradeRun where
  risk := .default
  taken := []
  ended := false

/-- Map one message and apply its event.  A message that cannot be mapped ends
the run. -/
def apply (order : IterationOrder MarketId) (limits : RiskLimits)
    (run : TradeRun) (delivery : TradeDelivery) : TradeRun :=
  if run.ended then
    run
  else
    match delivery.source.tradeEvent delivery.message with
    | .error _ => { run with ended := true }
    | .ok event =>
        match run.risk.applyAccountEvent order limits event with
        | .error _ => { run with ended := true }
        | .ok (risk, _) =>
            { run with
              risk := risk
              taken := delivery :: run.taken }

end TradeRun

def TradeMessage.signedSize (message : TradeMessage) : Decimal :=
  match message.side with
  | .buy => message.size
  | .sell => -message.size
  | .other _ => 0

def TradeDelivery.amount (delivery : TradeDelivery) (market : MarketId)
    (outcome : Outcome) : Decimal :=
  if delivery.source.tokens.market = market ∧
      delivery.source.tokens.outcome delivery.message.assetId =
        some outcome then
    delivery.message.signedSize
  else
    0

/-- What a trade counts for after some messages: nothing when the last one
about it says that it failed. -/
def countedAmount (taken : List TradeDelivery) (market : MarketId)
    (outcome : Outcome) (tradeId : String) : Decimal :=
  match taken.find? fun delivery => delivery.message.id = tradeId with
  | none => 0
  | some last =>
      if last.message.status = .failed then 0 else last.amount market outcome

/-- The signed sum of the trades whose last status is not failed. -/
def netAmount (taken : List TradeDelivery) (market : MarketId)
    (outcome : Outcome) : Decimal :=
  ∑ tradeId ∈ (taken.map fun delivery => delivery.message.id).toFinset,
    countedAmount taken market outcome tradeId

def LiveRiskState.heldQty (state : LiveRiskState) (market : MarketId)
    (outcome : Outcome) : Decimal :=
  (((state.positions market).filter fun position =>
    position.outcome = outcome).map Position.qty).sum

def TradeRun.PositionsMatch (run : TradeRun) : Prop :=
  ∀ market outcome,
    run.risk.heldQty market outcome = netAmount run.taken market outcome

def SameTrades (deliveries : List TradeDelivery) : Prop :=
  ∀ first ∈ deliveries, ∀ second ∈ deliveries,
    first.message.id = second.message.id →
      first.source = second.source ∧
        first.message.assetId = second.message.assetId ∧
        first.message.side = second.message.side ∧
        first.message.size = second.message.size

def TradeRun.HasFill (run : TradeRun) (delivery : TradeDelivery) : Prop :=
  EventIdentity.venue delivery.message.id ∈ run.risk.appliedFills

instance (run : TradeRun) (delivery : TradeDelivery) :
    Decidable (run.HasFill delivery) :=
  inferInstanceAs (Decidable (_ ∈ _))

/-- A message that the risk state is right to pass over: a failure of a trade
that was never applied, or another status of one that was. -/
def TradeRun.PassesOver (run : TradeRun) (delivery : TradeDelivery) : Prop :=
  match delivery.message.status with
  | .failed => ¬ run.HasFill delivery
  | .retrying => run.HasFill delivery
  | .unknown _ => run.HasFill delivery
  | .matched => True
  | .mined => True
  | .confirmed => True
  | .unsupported => True

instance (run : TradeRun) (delivery : TradeDelivery) :
    Decidable (run.PassesOver delivery) := by
  unfold TradeRun.PassesOver
  cases delivery.message.status <;> infer_instance

/-- A message that can be mapped: it is of the configured market, has a time and
an order id, and a fill says who made it and on which side. -/
def PolymarketUserData.Maps (source : PolymarketUserData)
    (trade : TradeMessage) : Prop :=
  trade.market = source.marketCondition ∧
    source.tokens.outcome trade.assetId ≠ none ∧
    (trade.timestamp.or trade.matchtime).or trade.lastUpdate ≠ none ∧
    (trade.takerOrderId ≠ none ∨
      trade.traderSide ≠ some .taker ∧ trade.makerOrders ≠ []) ∧
    trade.status ≠ .unsupported ∧
    (trade.status.IsFill → fromVenueSide trade.side ≠ none ∧
      (trade.traderSide = some .maker ∨ trade.traderSide = some .taker))

instance (source : PolymarketUserData) (trade : TradeMessage) :
    Decidable (source.Maps trade) :=
  inferInstanceAs (Decidable (_ ∧ _))

/-- The positions are right after a message: it ends the run or comes after
its end, it trades nothing, or it may be passed over. -/
def TradeRun.Settles (run : TradeRun) (delivery : TradeDelivery) : Prop :=
  run.ended = true ∨
    ¬ delivery.source.Maps delivery.message ∨
    delivery.message.signedSize = 0 ∨ run.PassesOver delivery

instance (run : TradeRun) (delivery : TradeDelivery) :
    Decidable (run.Settles delivery) :=
  inferInstanceAs (Decidable (_ ∨ _))

/-! ## Quantities -/

def Side.signed (side : Side) (size : Decimal) : Decimal :=
  match side with
  | .buy => size
  | .sell => -size

def heldOf (outcome : Outcome) (positions : List Position) : Decimal :=
  ((positions.filter fun position => position.outcome = outcome).map
    Position.qty).sum

theorem heldOf_cons (outcome : Outcome) (position : Position)
    (rest : List Position) :
    heldOf outcome (position :: rest) =
      (if position.outcome = outcome then position.qty else 0) +
        heldOf outcome rest := by
  unfold heldOf
  by_cases same : position.outcome = outcome
  · simp [same]
  · simp [same]

/-- Marks do not change quantities. -/
theorem heldOf_congr {left right : List Position} (outcome : Outcome)
    (same : left.map Position.holding = right.map Position.holding) :
    heldOf outcome left = heldOf outcome right := by
  induction left generalizing right with
  | nil =>
      cases right with
      | nil => rfl
      | cons position rest => cases same
  | cons position rest ih =>
      cases right with
      | nil => cases same
      | cons other others =>
          simp only [List.map_cons, List.cons.injEq, Position.holding,
            Prod.mk.injEq] at same
          obtain ⟨⟨sameOutcome, sameQty, _⟩, later⟩ := same
          rw [heldOf_cons, heldOf_cons, sameOutcome, sameQty, ih later]

theorem heldOf_applyFill
    (filled outcome : Outcome) (side : Side) (price quantity : Decimal)
    (positions : List Position) :
    heldOf outcome
        (Position.applyFill filled side price quantity positions) =
      heldOf outcome positions +
        if filled = outcome then side.signed quantity else 0 := by
  induction positions with
  | nil =>
      unfold Position.applyFill
      rw [heldOf_cons]
      simp only [heldOf, List.filter_nil, List.map_nil, List.sum_nil, add_zero,
        zero_add]
      rfl
  | cons position rest ih =>
      rw [Position.applyFill]
      by_cases own : position.outcome = filled
      · rw [if_pos own, heldOf_cons, heldOf_cons, ← own]
        have kept : (position.filled side price quantity).outcome =
            position.outcome := rfl
        have moved : (position.filled side price quantity).qty =
            position.qty + side.signed quantity := rfl
        rw [kept, moved]
        by_cases same : position.outcome = outcome
        · simp only [same, if_true]
          ring
        · simp only [same, if_false]
          ring
      · rw [if_neg own, heldOf_cons, heldOf_cons, ih]
        ring

namespace LiveRiskState

theorem heldQty_eq (state : LiveRiskState) (market : MarketId)
    (outcome : Outcome) :
    state.heldQty market outcome = heldOf outcome (state.positions market) :=
  rfl

theorem refreshMarks_heldQty
    (order : IterationOrder MarketId) (limits : RiskLimits)
    (state : LiveRiskState) (market : MarketId) (outcome : Outcome) :
    (state.refreshMarks order limits).1.heldQty market outcome =
      state.heldQty market outcome :=
  heldOf_congr outcome (markMarkets_holding _ _ _ market)

/-- A new fill adds its signed size, a known one nothing. -/
theorem applyFill_heldQty
    (order : IterationOrder MarketId) (limits : RiskLimits)
    (state : LiveRiskState) (identity : EventIdentity)
    (fill : FillEvent Decimal) (market : MarketId) (outcome : Outcome) :
    (state.applyFill order limits identity fill).1.heldQty market outcome =
      state.heldQty market outcome +
        if identity ∈ state.appliedFills then 0
        else if fill.market = market ∧ fill.outcome = outcome then
          fill.side.signed fill.size
        else 0 := by
  unfold applyFill
  by_cases known : identity ∈ state.appliedFills
  · simp [known]
  · simp only [known, if_false]
    rw [refreshMarks_heldQty, heldQty_eq, heldQty_eq]
    unfold positions
    simp only
    rw [KeyedMap.lookup_insert_eq]
    by_cases same : market = fill.market
    · subst same
      simp only [if_true, Option.getD_some, heldOf_applyFill, true_and]
    · rw [if_neg same, if_neg (fun both => same both.1.symm), add_zero]

theorem applyFill_appliedFills
    (order : IterationOrder MarketId) (limits : RiskLimits)
    (state : LiveRiskState) (identity : EventIdentity)
    (fill : FillEvent Decimal) :
    (state.applyFill order limits identity fill).1.appliedFills =
      insert identity state.appliedFills := by
  unfold applyFill
  by_cases known : identity ∈ state.appliedFills
  · simp [known]
  · simp only [known, if_false]
    rfl

end LiveRiskState

section Amounts

variable (delivery : TradeDelivery) (taken : List TradeDelivery)
  (market : MarketId) (outcome : Outcome)

theorem countedAmount_cons_self :
    countedAmount (delivery :: taken) market outcome delivery.message.id =
      if delivery.message.status = .failed then 0
      else delivery.amount market outcome := by
  simp [countedAmount]

theorem countedAmount_cons_other
    {tradeId : String} (ne : delivery.message.id ≠ tradeId) :
    countedAmount (delivery :: taken) market outcome tradeId =
      countedAmount taken market outcome tradeId := by
  simp [countedAmount, ne]

theorem countedAmount_unseen {tradeId : String}
    (unseen : tradeId ∉ taken.map fun delivery => delivery.message.id) :
    countedAmount taken market outcome tradeId = 0 := by
  have none : (taken.find? fun delivery =>
      delivery.message.id = tradeId) = none := by
    rw [List.find?_eq_none]
    intro other mem same
    exact unseen (List.mem_map.mpr ⟨other, mem, by simpa using same⟩)
  simp [countedAmount, none]

/-- One more message replaces what its trade counts for. -/
theorem netAmount_cons :
    netAmount (delivery :: taken) market outcome +
        countedAmount taken market outcome delivery.message.id =
      netAmount taken market outcome +
        countedAmount (delivery :: taken) market outcome
          delivery.message.id := by
  have others : ∀ ids : Finset String,
      ∑ tradeId ∈ ids.erase delivery.message.id,
          countedAmount (delivery :: taken) market outcome tradeId =
        ∑ tradeId ∈ ids.erase delivery.message.id,
          countedAmount taken market outcome tradeId := by
    intro ids
    apply Finset.sum_congr rfl
    intro tradeId mem
    exact countedAmount_cons_other _ _ _ _
      (Finset.ne_of_mem_erase mem).symm
  unfold netAmount
  rw [List.map_cons, List.toFinset_cons]
  by_cases seen :
      delivery.message.id ∈ taken.map fun delivery => delivery.message.id
  · rw [Finset.insert_eq_of_mem (List.mem_toFinset.mpr seen),
      ← Finset.sum_erase_add _ _ (List.mem_toFinset.mpr seen),
      ← Finset.sum_erase_add _ _ (List.mem_toFinset.mpr seen), others]
    ring
  · have fresh := fun mem => seen (List.mem_toFinset.mp mem)
    have kept := others (taken.map fun delivery =>
      delivery.message.id).toFinset
    rw [Finset.erase_eq_of_notMem fresh] at kept
    rw [Finset.sum_insert fresh, kept,
      countedAmount_unseen taken market outcome seen]
    ring

end Amounts

/-! ## One message -/

namespace PolymarketUserData

variable {source : PolymarketUserData} {trade : TradeMessage}
  {event : PmAccountEvent Decimal}

theorem tradeFill_eq_ok {orderId : String} {timestampMs : I64}
    (mapped : source.tradeFill trade orderId timestampMs = .ok event) :
    ∃ fill, event = .fill (.venue trade.id) fill ∧
      fill.market = source.tokens.market ∧
      source.tokens.outcome trade.assetId = some fill.outcome ∧
      fill.side.signed fill.size = trade.signedSize := by
  unfold tradeFill at mapped
  split at mapped
  · cases mapped
  · rename_i outcome known
    split at mapped
    · cases mapped
    · rename_i side sided
      cases liquid : tradeLiquidity trade.traderSide with
      | error error =>
          rw [liquid] at mapped
          cases mapped
      | ok liquidity =>
          rw [liquid] at mapped
          cases mapped
          refine ⟨_, rfl, rfl, known, ?_⟩
          unfold fromVenueSide at sided
          unfold TradeMessage.signedSize Side.signed
          cases venueSide : trade.side with
          | buy =>
              rw [venueSide] at sided
              cases sided
              rfl
          | sell =>
              rw [venueSide] at sided
              cases sided
              rfl
          | other debug =>
              rw [venueSide] at sided
              cases sided

theorem validateMarket_eq_ok {market : B256} {asset : U256}
    (valid : source.validateMarket market asset = .ok ()) :
    ∃ outcome, source.tokens.outcome asset = some outcome := by
  unfold validateMarket at valid
  split at valid
  · cases valid
  · rename_i inside
    exact Option.ne_none_iff_exists'.mp fun none => inside (Or.inr none)

/-- A mapped trade is of an outcome of the market, and is a fill just for the
statuses of a match. -/
theorem tradeEvent_eq_ok (mapped : source.tradeEvent trade = .ok event) :
    (∃ outcome, source.tokens.outcome trade.assetId = some outcome) ∧
      ((trade.status.IsFill ∧ ∃ fill, event = .fill (.venue trade.id) fill ∧
            fill.market = source.tokens.market ∧
            source.tokens.outcome trade.assetId = some fill.outcome ∧
            fill.side.signed fill.size = trade.signedSize) ∨
        (¬ trade.status.IsFill ∧ ((∃ orderId timestampMs,
              event = .orderRejected none orderId "trade failed"
                timestampMs) ∨ ∃ orderId status timestampMs,
              event = .orderStatus none orderId status timestampMs))) := by
  unfold tradeEvent at mapped
  obtain ⟨_, valid, mapped⟩ := bind_eq_ok.mp mapped
  obtain ⟨timestampMs, _, mapped⟩ := bind_eq_ok.mp mapped
  obtain ⟨orderId, _, mapped⟩ := bind_eq_ok.mp mapped
  refine ⟨validateMarket_eq_ok valid, ?_⟩
  cases status : trade.status with
  | matched =>
      rw [status] at mapped
      exact .inl ⟨trivial, tradeFill_eq_ok mapped⟩
  | mined =>
      rw [status] at mapped
      exact .inl ⟨trivial, tradeFill_eq_ok mapped⟩
  | confirmed =>
      rw [status] at mapped
      exact .inl ⟨trivial, tradeFill_eq_ok mapped⟩
  | failed =>
      rw [status] at mapped
      cases mapped
      exact .inr ⟨id, Or.inl ⟨_, _, rfl⟩⟩
  | retrying =>
      rw [status] at mapped
      cases mapped
      exact .inr ⟨id, Or.inr ⟨_, _, _, rfl⟩⟩
  | unknown value =>
      rw [status] at mapped
      cases mapped
      exact .inr ⟨id, Or.inr ⟨_, _, _, rfl⟩⟩
  | unsupported =>
      rw [status] at mapped
      cases mapped

theorem validateMarket_isOk_iff (market : B256) (asset : U256) :
    (source.validateMarket market asset).isOk = true ↔
      market = source.marketCondition ∧
        source.tokens.outcome asset ≠ none := by
  unfold validateMarket
  split
  · rename_i outside
    simp only [Except.isOk, Except.toBool, Bool.false_eq_true, false_iff]
    tauto
  · rename_i inside
    simp only [Except.isOk, Except.toBool, true_iff]
    tauto

theorem tradeTimestamp_isOk_iff (trade : TradeMessage) :
    (tradeTimestamp trade).isOk = true ↔
      (trade.timestamp.or trade.matchtime).or trade.lastUpdate ≠ none := by
  unfold tradeTimestamp
  split
  · rename_i found
    simp [Except.isOk, Except.toBool, found]
  · rename_i missing
    simp [Except.isOk, Except.toBool, missing]

theorem tradeOrderId_isOk_iff (trade : TradeMessage) :
    (tradeOrderId trade).isOk = true ↔
      trade.takerOrderId ≠ none ∨
        trade.traderSide ≠ some .taker ∧ trade.makerOrders ≠ [] := by
  have viaMaker : ∀ found : Option String,
      (match found with
        | some orderId => Except.ok orderId
        | none => Except.error (DataSourceError.replayGap
            "Polymarket trade has no associated order id")).isOk = true ↔
        found ≠ none := by
    intro found
    cases found <;> simp [Except.isOk, Except.toBool]
  unfold tradeOrderId
  simp only [viaMaker]
  cases side : trade.traderSide with
  | none =>
      cases trade.makerOrders <;> simp
  | some traderSide =>
      cases traderSide <;> cases trade.makerOrders <;> simp

theorem tradeLiquidity_isOk_iff (side : Option TraderSide) :
    (tradeLiquidity side).isOk = true ↔
      side = some .maker ∨ side = some .taker := by
  unfold tradeLiquidity
  split <;> simp [Except.isOk, Except.toBool]

theorem tradeFill_isOk_iff
    (known : source.tokens.outcome trade.assetId ≠ none) (orderId : String)
    (timestampMs : I64) :
    (source.tradeFill trade orderId timestampMs).isOk = true ↔
      fromVenueSide trade.side ≠ none ∧
        (trade.traderSide = some .maker ∨ trade.traderSide = some .taker) := by
  obtain ⟨outcome, found⟩ := Option.ne_none_iff_exists'.mp known
  rw [← tradeLiquidity_isOk_iff]
  unfold tradeFill
  simp only [found]
  cases sided : fromVenueSide trade.side with
  | none =>
      simp [Except.isOk, Except.toBool]
  | some side =>
      cases tradeLiquidity trade.traderSide <;>
        simp [Except.isOk, Except.toBool, Except.map]

theorem tradeEvent_isOk_iff :
    (source.tradeEvent trade).isOk = true ↔ source.Maps trade := by
  unfold tradeEvent Maps
  rw [← and_assoc, ← validateMarket_isOk_iff]
  by_cases valid : (source.validateMarket trade.market trade.assetId).isOk
      = true
  · have known := ((validateMarket_isOk_iff _ _).mp valid).2
    rw [isOk_bind_iff fun _ => isOk_bind_iff fun timestampMs =>
      isOk_bind_iff fun orderId => ?_, tradeTimestamp_isOk_iff,
      tradeOrderId_isOk_iff]
    cases status : trade.status with
    | matched =>
        simp [TradeMessageStatus.IsFill,
          tradeFill_isOk_iff known orderId timestampMs]
    | mined =>
        simp [TradeMessageStatus.IsFill,
          tradeFill_isOk_iff known orderId timestampMs]
    | confirmed =>
        simp [TradeMessageStatus.IsFill,
          tradeFill_isOk_iff known orderId timestampMs]
    | failed =>
        simp [TradeMessageStatus.IsFill, Except.isOk, Except.toBool]
    | retrying =>
        simp [TradeMessageStatus.IsFill, Except.isOk, Except.toBool]
    | unknown value =>
        simp [TradeMessageStatus.IsFill, Except.isOk, Except.toBool]
    | unsupported =>
        simp [Except.isOk, Except.toBool]
  · cases failed : source.validateMarket trade.market trade.assetId with
    | error error =>
        constructor
        · intro no
          cases no
        · rintro ⟨no, _⟩
          cases no
    | ok value =>
        rw [failed] at valid
        exact absurd rfl valid

theorem tradeEvent_supported (mapped : source.tradeEvent trade = .ok event) :
    trade.status ≠ .unsupported := by
  intro unsupported
  unfold tradeEvent at mapped
  obtain ⟨_, _, mapped⟩ := bind_eq_ok.mp mapped
  obtain ⟨_, _, mapped⟩ := bind_eq_ok.mp mapped
  obtain ⟨_, _, mapped⟩ := bind_eq_ok.mp mapped
  rw [unsupported] at mapped
  cases mapped

end PolymarketUserData

/-! ## One step of a run -/

namespace TradeDelivery

variable {delivery : TradeDelivery}

theorem amount_own {outcome : Outcome}
    (known : delivery.source.tokens.outcome delivery.message.assetId =
      some outcome) :
    delivery.amount delivery.source.tokens.market outcome =
      delivery.message.signedSize := by
  simp [amount, known]

theorem amount_eq_zero (zero : delivery.message.signedSize = 0)
    (market : MarketId) (outcome : Outcome) :
    delivery.amount market outcome = 0 := by
  simp [amount, zero]

end TradeDelivery

namespace TradeRun

variable {order : IterationOrder MarketId} {limits : RiskLimits}
  {run : TradeRun} {delivery : TradeDelivery}

theorem apply_ended (ended : run.ended = true) :
    run.apply order limits delivery = run := by
  rw [apply, if_pos ended]

theorem apply_unmapped
    (unmapped : (delivery.source.tradeEvent delivery.message).isOk = false) :
    ∃ ended, run.apply order limits delivery = { run with ended := ended } := by
  by_cases ended : run.ended = true
  · exact ⟨run.ended, apply_ended ended⟩
  · cases mapped : delivery.source.tradeEvent delivery.message with
    | error error =>
        refine ⟨true, ?_⟩
        rw [apply, if_neg ended, mapped]
    | ok event =>
        rw [mapped] at unmapped
        cases unmapped

/-- A mapped message is taken; a fill of a new trade adds its amount and the
id of the trade, any other message changes neither. -/
theorem apply_mapped (going : run.ended = false)
    (mapped : (delivery.source.tradeEvent delivery.message).isOk = true) :
    (run.apply order limits delivery).taken = delivery :: run.taken ∧
      (∀ market outcome,
        (run.apply order limits delivery).risk.heldQty market outcome =
          run.risk.heldQty market outcome +
            if delivery.message.status.IsFill ∧ ¬ run.HasFill delivery then
              delivery.amount market outcome
            else 0) ∧
      (run.apply order limits delivery).risk.appliedFills =
        if delivery.message.status.IsFill then
          insert (.venue delivery.message.id) run.risk.appliedFills
        else run.risk.appliedFills := by
  cases found : delivery.source.tradeEvent delivery.message with
  | error error =>
      rw [found] at mapped
      cases mapped
  | ok event =>
      obtain ⟨_, ⟨isFill, fill, rfl, market, outcome, size⟩ |
        ⟨notFill, orderEvent⟩⟩ := PolymarketUserData.tradeEvent_eq_ok found
      · have applied : run.apply order limits delivery =
            { run with
              risk := (run.risk.applyFill order limits
                (.venue delivery.message.id) fill).1
              taken := delivery :: run.taken } := by
          rw [apply, if_neg (by simp [going]), found]
          rfl
        rw [applied]
        refine ⟨rfl, ?_, ?_⟩
        · intro otherMarket otherOutcome
          rw [LiveRiskState.applyFill_heldQty, size, market]
          simp only [isFill, true_and, HasFill, ite_not]
          congr 1
          by_cases known :
              EventIdentity.venue delivery.message.id ∈ run.risk.appliedFills
          · simp [known]
          · simp [known, TradeDelivery.amount, outcome]
        · rw [LiveRiskState.applyFill_appliedFills, if_pos isFill]
      · have applied : run.apply order limits delivery =
            { run with taken := delivery :: run.taken } := by
          rw [apply, if_neg (by simp [going]), found]
          rcases orderEvent with ⟨_, _, rfl⟩ | ⟨_, _, _, rfl⟩
          · rfl
          · rfl
        rw [applied]
        refine ⟨rfl, ?_, ?_⟩
        · simp [notFill]
        · simp [notFill]

def Describes (amounts : String → MarketId → Outcome → Decimal)
    (delivery : TradeDelivery) : Prop :=
  ∀ market outcome,
    amounts delivery.message.id market outcome = delivery.amount market outcome

/-- Every trade counts for its amount just when it has been applied. -/
structure Tracks (amounts : String → MarketId → Outcome → Decimal)
    (run : TradeRun) : Prop where
  counted : ∀ tradeId market outcome,
    countedAmount run.taken market outcome tradeId =
      if EventIdentity.venue tradeId ∈ run.risk.appliedFills then
        amounts tradeId market outcome
      else 0
  held : run.PositionsMatch

theorem start_tracks (amounts : String → MarketId → Outcome → Decimal) :
    start.Tracks amounts where
  counted := fun _ _ _ => rfl
  held := fun _ _ => rfl

variable {amounts : String → MarketId → Outcome → Decimal}

theorem Tracks.counted_now (tracks : run.Tracks amounts)
    (described : Describes amounts delivery) (market : MarketId)
    (outcome : Outcome) :
    countedAmount run.taken market outcome delivery.message.id =
      if run.HasFill delivery then delivery.amount market outcome else 0 := by
  rw [tracks.counted, described]
  rfl

/-- The two sides of the property after a mapped message. -/
theorem Tracks.after (tracks : run.Tracks amounts)
    (described : Describes amounts delivery)
    (going : run.ended = false)
    (mapped : (delivery.source.tradeEvent delivery.message).isOk = true)
    (market : MarketId) (outcome : Outcome) :
    (run.apply order limits delivery).risk.heldQty market outcome +
        (if delivery.message.status = .failed then 0
          else delivery.amount market outcome) =
      netAmount (run.apply order limits delivery).taken market outcome +
        if delivery.message.status.IsFill ∨ run.HasFill delivery then
          delivery.amount market outcome
        else 0 := by
  obtain ⟨taken, held, _⟩ := @apply_mapped order _ _ _ going mapped
  have moved := netAmount_cons delivery run.taken market outcome
  rw [countedAmount_cons_self, tracks.counted_now described] at moved
  rw [taken, held, tracks.held market outcome]
  by_cases isFill : delivery.message.status.IsFill <;>
    by_cases known : run.HasFill delivery <;>
    simp only [isFill, known, not_true_eq_false, not_false_eq_true, and_true,
      and_false, true_or, or_true, or_self, if_true, if_false, add_zero]
        at moved ⊢ <;>
    linarith

theorem passesOver_iff (supported : delivery.message.status ≠ .unsupported) :
    run.PassesOver delivery ↔
      (delivery.message.status = .failed → ¬ run.HasFill delivery) ∧
        (delivery.message.status ≠ .failed →
          delivery.message.status.IsFill ∨ run.HasFill delivery) := by
  unfold PassesOver
  cases status : delivery.message.status with
  | matched => simp [TradeMessageStatus.IsFill]
  | mined => simp [TradeMessageStatus.IsFill]
  | confirmed => simp [TradeMessageStatus.IsFill]
  | failed => simp
  | retrying => simp [TradeMessageStatus.IsFill]
  | unknown value => simp [TradeMessageStatus.IsFill]
  | unsupported => exact absurd status supported

/-- A mapped message settles when its trade stands just if it is applied. -/
theorem settles_iff (going : run.ended = false)
    (mapped : (delivery.source.tradeEvent delivery.message).isOk = true) :
    run.Settles delivery ↔ ∀ market outcome,
      (if delivery.message.status = .failed then 0
        else delivery.amount market outcome) =
        if delivery.message.status.IsFill ∨ run.HasFill delivery then
          delivery.amount market outcome
        else 0 := by
  obtain ⟨event, found⟩ : ∃ event,
      delivery.source.tradeEvent delivery.message = .ok event := by
    cases found : delivery.source.tradeEvent delivery.message with
    | error error =>
        rw [found] at mapped
        cases mapped
    | ok event => exact ⟨event, rfl⟩
  obtain ⟨⟨outcome, known⟩, _⟩ := PolymarketUserData.tradeEvent_eq_ok found
  have supported : delivery.message.status ≠ .unsupported :=
    PolymarketUserData.tradeEvent_supported found
  have settles : run.Settles delivery ↔
      delivery.message.signedSize = 0 ∨ run.PassesOver delivery := by
    simp [Settles, going, PolymarketUserData.tradeEvent_isOk_iff.mp mapped]
  rw [settles]
  constructor
  · rintro (zero | passes) market outcome
    · simp [TradeDelivery.amount_eq_zero zero]
    · rw [passesOver_iff supported] at passes
      by_cases failed : delivery.message.status = .failed
      · simp [failed, TradeMessageStatus.IsFill, passes.1 failed]
      · simp [failed, passes.2 failed]
  · intro same
    have own := same delivery.source.tokens.market outcome
    rw [TradeDelivery.amount_own known] at own
    by_cases zero : delivery.message.signedSize = 0
    · exact .inl zero
    · right
      rw [passesOver_iff supported]
      constructor
      · intro failed applied
        rw [if_pos failed, if_pos (Or.inr applied)] at own
        exact zero own.symm
      · intro standing
        rw [if_neg standing] at own
        by_contra unapplied
        rw [if_neg unapplied] at own
        exact zero own

theorem Tracks.match_iff_settles (tracks : run.Tracks amounts)
    (described : Describes amounts delivery) (going : run.ended = false)
    (mapped : (delivery.source.tradeEvent delivery.message).isOk = true) :
    (run.apply order limits delivery).PositionsMatch ↔
      run.Settles delivery := by
  rw [settles_iff going mapped]
  constructor
  · intro holds market outcome
    have after := @Tracks.after order limits _ _ _ tracks described going mapped
      market outcome
    rw [holds market outcome] at after
    exact add_left_cancel after
  · intro same market outcome
    have after := @Tracks.after order limits _ _ _ tracks described going mapped
      market outcome
    rw [same market outcome] at after
    exact add_right_cancel after

theorem Tracks.apply (tracks : run.Tracks amounts)
    (described : Describes amounts delivery)
    (settles : run.Settles delivery) :
    (run.apply order limits delivery).Tracks amounts := by
  by_cases ended : run.ended = true
  · rw [apply_ended ended]
    exact tracks
  have going : run.ended = false := by simpa using ended
  by_cases mapped :
      (delivery.source.tradeEvent delivery.message).isOk = true
  · refine ⟨?_, (tracks.match_iff_settles described going mapped).mpr settles⟩
    obtain ⟨taken, _, applied⟩ :=
      @apply_mapped order limits _ _ going mapped
    have same := (settles_iff going mapped).mp settles
    intro tradeId market outcome
    rw [taken, applied]
    by_cases own : delivery.message.id = tradeId
    · subst own
      rw [countedAmount_cons_self, same, described]
      by_cases isFill : delivery.message.status.IsFill
      · simp [isFill]
      · simp [isFill, HasFill]
    · rw [countedAmount_cons_other _ _ _ _ own, tracks.counted]
      have other : EventIdentity.venue tradeId ≠
          .venue delivery.message.id := by
        intro equal
        cases equal
        exact own rfl
      by_cases isFill : delivery.message.status.IsFill
      · simp [isFill, other]
      · simp [isFill]
  · obtain ⟨ended, same⟩ := @apply_unmapped order limits run delivery
      (by simpa using mapped)
    rw [same]
    exact ⟨tracks.counted, tracks.held⟩

/-- A message after which the positions are still right was one to settle. -/
theorem Tracks.settles (tracks : run.Tracks amounts)
    (described : Describes amounts delivery)
    (holds : (run.apply order limits delivery).PositionsMatch) :
    run.Settles delivery := by
  by_cases ended : run.ended = true
  · exact .inl ended
  by_cases mapped :
      (delivery.source.tradeEvent delivery.message).isOk = true
  · exact (tracks.match_iff_settles described (by simpa using ended)
      mapped).mp holds
  · rw [PolymarketUserData.tradeEvent_isOk_iff] at mapped
    exact .inr (Or.inl mapped)

end TradeRun

/-- The messages of trades that are told alike have amounts by trade id. -/
theorem SameTrades.amounts
    {deliveries : List TradeDelivery} (same : SameTrades deliveries) :
    ∃ amounts : String → MarketId → Outcome → Decimal,
      ∀ delivery ∈ deliveries, TradeRun.Describes amounts delivery := by
  refine ⟨fun tradeId market outcome =>
    ((deliveries.find? fun other => other.message.id = tradeId).map
      fun first => first.amount market outcome).getD 0, ?_⟩
  intro delivery mem market outcome
  cases found : deliveries.find? fun other =>
      other.message.id = delivery.message.id with
  | none =>
      have against := List.find?_eq_none.mp found delivery mem
      simp at against
  | some first =>
      have sameId : first.message.id = delivery.message.id := by
        simpa using List.find?_some found
      obtain ⟨source, asset, side, size⟩ :=
        same first (List.mem_of_find?_eq_some found) delivery mem sameId
      unfold TradeDelivery.amount TradeMessage.signedSize
      simp only [found, Option.map_some, Option.getD_some, source, asset, side,
        size]

namespace TradeRun

/-- The positions are the sums of the standing trades after every message just
when each message may be passed over or is applied: a failure comes only for a
trade that was never a fill, and no other status comes before the fill. -/
theorem positionsMatch_iff
    (order : IterationOrder MarketId) (limits : RiskLimits)
    (deliveries : List TradeDelivery) (same : SameTrades deliveries) :
    Trace.EveryState (apply order limits) PositionsMatch start deliveries ↔
      Trace.EveryStep (apply order limits) Settles start deliveries := by
  obtain ⟨amounts, described⟩ := same.amounts
  exact @Trace.everyState_iff_everyStep_of _ _ _ (Describes amounts)
    (Tracks amounts) _ _ (fun _ tracks => tracks.held)
    (fun _ _ describes tracks settles => tracks.apply describes settles)
    (fun _ _ describes tracks holds => tracks.settles describes holds)
    _ _ described (start_tracks amounts)

end TradeRun

section Example

def wideLimits : RiskLimits where
  maxOrderNotional := 100
  maxPositionNotional := 100
  maxPortfolioNotional := 100
  maxMarketNotional := 100
  maxStrategyNotional := 100
  maxOpenOrders := ⟨5, by decide⟩
  maxLoss := 100
  maxDailyLoss := 100

def tradeSource : PolymarketUserData where
  tokens := ⟨⟨"xrp-5m", by decide⟩, 1, 2⟩
  marketCondition := 9

def buyMessage (tradeId : String) (size : Decimal)
    (status : TradeMessageStatus) : TradeDelivery where
  source := tradeSource
  message :=
    { id := tradeId
      market := 9
      assetId := 1
      side := .buy
      size := size
      price := 1 / 2
      feeRateBps := none
      status := status
      timestamp := some (I64.clamp 42)
      matchtime := none
      lastUpdate := none
      traderSide := some .taker
      takerOrderId := some "order-1"
      makerOrders := [] }

/-- One trade goes through its statuses, another fails before it matches. -/
def standingTrades : List TradeDelivery :=
  [buyMessage "trade-1" 2 .matched, buyMessage "trade-2" 5 .failed,
    buyMessage "trade-1" 2 .retrying, buyMessage "trade-1" 2 .confirmed]

theorem positionsMatch_iff_standingTrades :
    (Trace.EveryState (TradeRun.apply (.stored MarketId) wideLimits)
        TradeRun.PositionsMatch .start standingTrades ↔
      Trace.EveryStep (TradeRun.apply (.stored MarketId) wideLimits)
        TradeRun.Settles .start standingTrades) ∧
      Trace.EveryStep (TradeRun.apply (.stored MarketId) wideLimits)
        TradeRun.Settles .start standingTrades :=
  ⟨TradeRun.positionsMatch_iff (.stored MarketId) wideLimits standingTrades
      (by unfold SameTrades; decide +kernel),
    by decide +kernel, by decide +kernel, by decide +kernel,
    by decide +kernel, trivial⟩

def failedTrade : List TradeDelivery :=
  [buyMessage "trade-1" 2 .matched, buyMessage "trade-1" 2 .failed]

/-- The position of the trade stays after its failure. -/
theorem failedTrade_stays :
    SameTrades failedTrade ∧
      ¬ (Trace.run (TradeRun.apply (.stored MarketId) wideLimits) .start
        failedTrade).PositionsMatch := by
  refine ⟨by unfold SameTrades; decide +kernel, fun holds => ?_⟩
  have held := holds tradeSource.tokens.market .up
  revert held
  decide +kernel

end Example

end Pmkit
