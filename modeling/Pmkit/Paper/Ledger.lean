import Pmkit.Accounting
import Pmkit.Sim.Engine

/-!
# The paper ledger

Every change of a paper account is an entry with a stable identity and a
sequence number.  The live ledger applies an entry and then records it;
`reconstruct` applies recorded entries to an empty ledger and checks that no
placement and no immediate order is left open.
-/

namespace Pmkit

open MachineInt

/-- Failures of a ledger transition. -/
inductive PaperLedgerError where
  | invalidRecord (message : String)
  | unsupportedVersion (version : UInt16)
  | sequenceGap (expected actual : Nat)
  | conflictingDuplicate (eventId : String)
  | inconsistent (eventId message : String)
  | accounting (error : AccountingError)
  deriving DecidableEq

structure PaperOpenOrder where
  orderId : String
  market : MarketId
  strategy : Option StrategyId
  outcome : Outcome
  side : Side
  price : Decimal
  remainingQty : Decimal
  submittedMs : I64
  activeAtMs : I64
  deriving DecidableEq

structure PaperAccountState where
  cash : Money
  fees : Money
  realizedPnl : Money
  positions : List LedgerPosition
  restingOrders : List PaperOpenOrder
  delayedOrders : List PaperOpenOrder
  nextOrderId : Nat
  deriving DecidableEq

inductive OrderState where
  | immediate
  | resting
  | delayed
  deriving DecidableEq, Repr

structure RecordedOrder where
  market : MarketId
  strategy : Option StrategyId
  outcome : Outcome
  side : Side
  price : Decimal
  qty : Decimal
  postOnly : Bool
  tif : TimeInForce
  deriving DecidableEq

namespace RecordedOrder

def fromOrder (order : PlaceOrder) (strategy : Option StrategyId) :
    RecordedOrder where
  market := order.market
  strategy := strategy
  outcome := order.outcome
  side := order.side
  price := order.price
  qty := order.qty
  postOnly := order.postOnly
  tif := order.tif

def toOrder (recorded : RecordedOrder) : PlaceOrder where
  market := recorded.market
  outcome := recorded.outcome
  side := recorded.side
  price := recorded.price
  qty := recorded.qty
  postOnly := recorded.postOnly
  tif := recorded.tif

@[simp]
theorem toOrder_fromOrder (order : PlaceOrder) (strategy : Option StrategyId) :
    (fromOrder order strategy).toOrder = order := rfl

end RecordedOrder

inductive PaperLedgerEvent where
  | cashMovement (amount : Decimal)
  | orderPlaced (order : RecordedOrder)
  | orderAck (placementId orderId : String) (state : OrderState)
      (activeAtMs : I64)
  | orderRejected (placementId orderId : String)
  | orderCancelled (orderId : String)
  | fill (orderId : String) (market : MarketId) (outcome : Outcome)
      (price size : Decimal) (side : Side) (fee : Decimal)
  | settlement (market : MarketId) (outcome : Outcome)
      (settledSize proceeds : Decimal)
  deriving DecidableEq

structure PaperLedgerEntry where
  eventId : String
  sequence : Nat
  timestampMs : I64
  event : PaperLedgerEvent
  deriving DecidableEq

inductive PlacementOutcome where
  | ack (state : OrderState)
  | rejected
  deriving DecidableEq

structure Placement where
  order : RecordedOrder
  expectedOrderId : String
  terminal : Option PlacementOutcome
  deriving DecidableEq

structure TrackedOrder where
  order : RecordedOrder
  state : OrderState
  submittedMs : I64
  activeAtMs : I64
  deriving DecidableEq

structure PaperLedger where
  account : PortfolioLedger
  entries : List PaperLedgerEntry
  pending : List PaperLedgerEntry
  placements : KeyedMap String Placement
  orders : KeyedMap String TrackedOrder
  nextSequence : Nat
  nextOrderId : Nat
  fillCount : Nat
  idPrefix : String
  cashFunded : Bool

def ledgerEventId (sequence : Nat) : String :=
  mintedId "paper-ledger" sequence

namespace PaperLedger

def empty (account : PortfolioLedger) (idPrefix : String) : PaperLedger where
  account := account
  entries := []
  pending := []
  placements := ∅
  orders := ∅
  nextSequence := 0
  nextOrderId := 0
  fillCount := 0
  idPrefix := idPrefix
  cashFunded := false

def nextEventId (ledger : PaperLedger) : String :=
  ledgerEventId ledger.nextSequence

def openingEntry (initialCash : Money) : PaperLedgerEntry where
  eventId := ledgerEventId 0
  sequence := 0
  timestampMs := 0
  event := .cashMovement initialCash

/-- `new`: a ledger whose only entry is its cash movement. -/
def new (initialCash : Money) (idPrefix : String) : PaperLedger :=
  { empty (.new initialCash) idPrefix with
    cashFunded := 0 < initialCash
    nextSequence := 1
    entries := [openingEntry initialCash]
    pending := [openingEntry initialCash] }

/-! ## Applying one entry -/

/-- `apply_placement`. -/
def applyPlacement (ledger : PaperLedger) (entry : PaperLedgerEntry)
    (order : RecordedOrder) : PaperLedger × Except PaperLedgerError Unit :=
  let placement : Placement :=
    { order := order
      expectedOrderId := mintedId ledger.idPrefix ledger.nextOrderId
      terminal := none }
  let inserted :=
    { ledger with
      placements := AList.insert entry.eventId placement ledger.placements }
  if (ledger.placements.lookup entry.eventId).isSome then
    (inserted, .error (.conflictingDuplicate entry.eventId))
  else
    ({ inserted with nextOrderId := inserted.nextOrderId + 1 }, .ok ())

/-- `apply_ack`. -/
def applyAck (ledger : PaperLedger) (entry : PaperLedgerEntry)
    (placementId orderId : String) (state : OrderState) (activeAtMs : I64) :
    PaperLedger × Except PaperLedgerError Unit :=
  match ledger.placements.lookup placementId with
  | none =>
      (ledger, .error (.inconsistent entry.eventId
        s!"ack references unknown placement {placementId}"))
  | some placement =>
      if placement.terminal.isSome ∨ placement.expectedOrderId ≠ orderId then
        (ledger, .error (.inconsistent entry.eventId
          s!"ack does not match pending placement {placementId}"))
      else
        ({ ledger with
            orders := AList.insert orderId
              { order := placement.order
                state := state
                submittedMs := entry.timestampMs
                activeAtMs := activeAtMs } ledger.orders
            placements := AList.insert placementId
              { placement with terminal := some (.ack state) }
              ledger.placements }, .ok ())

/-- `apply_rejection`. -/
def applyRejection (ledger : PaperLedger) (entry : PaperLedgerEntry)
    (placementId orderId : String) :
    PaperLedger × Except PaperLedgerError Unit :=
  match ledger.placements.lookup placementId with
  | none =>
      (ledger, .error (.inconsistent entry.eventId
        s!"rejection references unknown placement {placementId}"))
  | some placement =>
      if placement.terminal.isSome ∨ placement.expectedOrderId ≠ orderId then
        (ledger, .error (.inconsistent entry.eventId
          s!"rejection does not match pending placement {placementId}"))
      else
        ({ ledger with
            placements := AList.insert placementId
              { placement with terminal := some .rejected }
              ledger.placements }, .ok ())

/-- The cancellation branch of `apply`. -/
def applyCancellation (ledger : PaperLedger) (entry : PaperLedgerEntry)
    (orderId : String) : PaperLedger × Except PaperLedgerError Unit :=
  match ledger.orders.lookup orderId with
  | none =>
      (ledger, .error (.inconsistent entry.eventId
        s!"cancel references unknown order {orderId}"))
  | some _ =>
      ({ ledger with orders := ledger.orders.erase orderId }, .ok ())

def fillMismatch (tracked : TrackedOrder) (market : MarketId)
    (outcome : Outcome) (fillSize : Decimal) (direction : Side) : Bool :=
  tracked.order.market ≠ market ∨ tracked.order.outcome ≠ outcome ∨
    tracked.order.side ≠ direction ∨ fillSize > tracked.order.qty

/-- What a ledger keeps of an order after a fill: a partly filled maker stays,
every other order leaves. -/
def ordersAfterFill (orders : KeyedMap String TrackedOrder) (orderId : String)
    (tracked : TrackedOrder) (fillSize : Decimal) :
    KeyedMap String TrackedOrder :=
  if tracked.state = .resting ∧ fillSize < tracked.order.qty then
    AList.insert orderId
      { tracked with
        order := { tracked.order with qty := tracked.order.qty - fillSize } }
      orders
  else
    orders.erase orderId

/-- `apply_fill`.  An accounting failure keeps the account as the failed call
left it. -/
def applyFill (ledger : PaperLedger) (entry : PaperLedgerEntry)
    (orderId : String) (market : MarketId) (outcome : Outcome)
    (price fillSize : Decimal) (direction : Side) (fee : Decimal) :
    PaperLedger × Except PaperLedgerError Unit :=
  match ledger.orders.lookup orderId with
  | none =>
      (ledger, .error (.inconsistent entry.eventId
        s!"fill references unknown order {orderId}"))
  | some tracked =>
      if fillMismatch tracked market outcome fillSize direction then
        (ledger, .error (.inconsistent entry.eventId
          s!"fill does not match order {orderId}"))
      else
        let (account, result) := ledger.account.applyFill
          { market := market
            outcome := outcome
            side := direction
            price := price
            quantity := fillSize
            fee := fee }
        match result with
        | .error error =>
            ({ ledger with account := account }, .error (.accounting error))
        | .ok () =>
            ({ ledger with
                account := account
                orders := ordersAfterFill ledger.orders orderId tracked fillSize
                fillCount := ledger.fillCount + 1 }, .ok ())

/-- `apply_settlement`. -/
def applySettlement (ledger : PaperLedger) (entry : PaperLedgerEntry)
    (market : MarketId) (outcome : Outcome) (settledSize proceeds : Decimal) :
    PaperLedger × Except PaperLedgerError Unit :=
  let held := (ledger.account.position market outcome).quantity
  if settledSize ≤ 0 ∨ proceeds < 0 ∨ held ≠ settledSize then
    (ledger, .error (.inconsistent entry.eventId
      "settlement does not exactly consume the held position"))
  else
    let (account, result) := ledger.account.settle
      { market := market
        outcome := outcome
        payoutPerShare := proceeds / settledSize }
    match result with
    | .error error =>
        ({ ledger with account := account }, .error (.accounting error))
    | .ok () =>
        ({ ledger with account := account }, .ok ())

/-- `apply`: one entry, by the kind of its event. -/
def apply (ledger : PaperLedger) (entry : PaperLedgerEntry) :
    PaperLedger × Except PaperLedgerError Unit :=
  match entry.event with
  | .cashMovement _ => (ledger, .ok ())
  | .orderPlaced order => ledger.applyPlacement entry order
  | .orderAck placementId orderId state activeAtMs =>
      ledger.applyAck entry placementId orderId state activeAtMs
  | .orderRejected placementId orderId =>
      ledger.applyRejection entry placementId orderId
  | .orderCancelled orderId => ledger.applyCancellation entry orderId
  | .fill orderId market outcome price size side fee =>
      ledger.applyFill entry orderId market outcome price size side fee
  | .settlement market outcome settledSize proceeds =>
      ledger.applySettlement entry market outcome settledSize proceeds

/-! ## Recording live changes -/

def nextEntry (ledger : PaperLedger) (timestampMs : I64)
    (event : PaperLedgerEvent) : PaperLedgerEntry where
  eventId := ledger.nextEventId
  sequence := ledger.nextSequence
  timestampMs := timestampMs
  event := event

def record (ledger : PaperLedger) (entry : PaperLedgerEntry) : PaperLedger :=
  { ledger with
    nextSequence := ledger.nextSequence + 1
    entries := ledger.entries ++ [entry]
    pending := ledger.pending ++ [entry] }

/-- `append`: apply, then record. -/
def append (ledger : PaperLedger) (timestampMs : I64)
    (event : PaperLedgerEvent) : PaperLedger × Except PaperLedgerError Unit :=
  let entry := ledger.nextEntry timestampMs event
  match ledger.apply entry with
  | (applied, .error error) => (applied, .error error)
  | (applied, .ok ()) => (applied.record entry, .ok ())

/-- `begin_order`: the placement identity and the order identity that the
simulator is expected to mint. -/
def beginOrder (ledger : PaperLedger) (order : PlaceOrder)
    (strategy : Option StrategyId) (timestampMs : I64) :
    PaperLedger × Except PaperLedgerError (String × String) :=
  let placementId := ledger.nextEventId
  let expectedOrderId := mintedId ledger.idPrefix ledger.nextOrderId
  match ledger.append timestampMs
      (.orderPlaced (.fromOrder order strategy)) with
  | (appended, .error error) => (appended, .error error)
  | (appended, .ok ()) => (appended, .ok (placementId, expectedOrderId))

def acknowledge (ledger : PaperLedger) (placementId orderId : String)
    (state : OrderState) (activeAtMs timestampMs : I64) :
    PaperLedger × Except PaperLedgerError Unit :=
  ledger.append timestampMs (.orderAck placementId orderId state activeAtMs)

def reject (ledger : PaperLedger) (placementId orderId : String)
    (timestampMs : I64) : PaperLedger × Except PaperLedgerError Unit :=
  ledger.append timestampMs (.orderRejected placementId orderId)

/-- `cancel`: an order the ledger does not track is left alone. -/
def cancel (ledger : PaperLedger) (orderId : String) (timestampMs : I64) :
    PaperLedger × Except PaperLedgerError Unit :=
  if (ledger.orders.lookup orderId).isSome then
    ledger.append timestampMs (.orderCancelled orderId)
  else
    (ledger, .ok ())

/-- `record_fill`. -/
def recordFill (ledger : PaperLedger) (fill : FillEvent Decimal) :
    PaperLedger × Except PaperLedgerError Unit :=
  ledger.append fill.timestampMs
    (.fill fill.orderId fill.market fill.outcome fill.price fill.size fill.side
      fill.fee)

def settle (ledger : PaperLedger) (market : MarketId) (outcome : Outcome)
    (settledSize proceeds : Decimal) (timestampMs : I64) :
    PaperLedger × Except PaperLedgerError Unit :=
  ledger.append timestampMs (.settlement market outcome settledSize proceeds)

/-- `available_cash`: cash less the notional of the open buys, or `none` for
an unfunded run. -/
def availableCash (ledger : PaperLedger) : Option Money :=
  if ledger.cashFunded then
    let committed :=
      ((ledger.orders.values.filter fun tracked => tracked.order.side = .buy).map
        fun tracked => tracked.order.price * tracked.order.qty).sum
    some (ledger.account.cash - committed)
  else
    none

/-- Whether the ledger expects a delayed order to activate. -/
def maturing (market : MarketId) (outcome : Outcome) (timestampMs : I64)
    (tracked : TrackedOrder) : Bool :=
  tracked.state = .delayed && tracked.order.market = market &&
    tracked.order.outcome = outcome && tracked.activeAtMs ≤ timestampMs

/-- `maturing_delayed`, in the order of one traversal of the order map. -/
def maturingDelayed (order : IterationOrder String) (ledger : PaperLedger)
    (market : MarketId) (outcome : Outcome) (timestampMs : I64) :
    List String :=
  ((ledger.orders.visit order).filter fun entry =>
    maturing market outcome timestampMs entry.2).map Prod.fst

/-- `last_timestamp_ms`. -/
def lastTimestampMs (ledger : PaperLedger) : I64 :=
  (ledger.entries.getLast?.map PaperLedgerEntry.timestampMs).getD 0

def openOrderOf (orderId : String) (tracked : TrackedOrder) :
    PaperOpenOrder where
  orderId := orderId
  market := tracked.order.market
  strategy := tracked.order.strategy
  outcome := tracked.order.outcome
  side := tracked.order.side
  price := tracked.order.price
  remainingQty := tracked.order.qty
  submittedMs := tracked.submittedMs
  activeAtMs := tracked.activeAtMs

def openOrdersIn (ledger : PaperLedger) (state : OrderState) :
    List PaperOpenOrder :=
  ((ledger.orders.entries.filter fun entry => entry.2.state = state).map
    fun entry => openOrderOf entry.1 entry.2).insertionSort
      fun left right => left.orderId ≤ right.orderId

/-- The order positions are listed in: market identity, then outcome. -/
def positionLe (left right : LedgerPosition) : Prop :=
  left.market.value < right.market.value ∨
    (left.market.value = right.market.value ∧
      left.outcome.rank ≤ right.outcome.rank)

instance : DecidableRel positionLe := fun left right => by
  unfold positionLe
  infer_instance

/-- `state`: the account projection. -/
def state (ledger : PaperLedger) : PaperAccountState where
  cash := ledger.account.cash
  fees := ledger.account.fees
  realizedPnl := ledger.account.realizedPnl
  positions := ledger.account.positions.insertionSort positionLe
  restingOrders := ledger.openOrdersIn .resting
  delayedOrders := ledger.openOrdersIn .delayed
  nextOrderId := ledger.nextOrderId

/-- `deduplicate`: drop exact repetitions, refuse contradicting ones. -/
def deduplicate (seen : KeyedMap String PaperLedgerEntry) :
    List PaperLedgerEntry → Except PaperLedgerError (List PaperLedgerEntry)
  | [] => .ok []
  | entry :: rest =>
      match seen.lookup entry.eventId with
      | some previous =>
          if previous ≠ entry then
            .error (.conflictingDuplicate entry.eventId)
          else
            deduplicate seen rest
      | none =>
          (deduplicate (AList.insert entry.eventId entry seen) rest).map
            (entry :: ·)

def cashOf (entry : PaperLedgerEntry) : Option Decimal :=
  match entry.event with
  | .cashMovement amount => some amount
  | _ => none

/-- The loop of `reconstruct`: contiguous sequences, each entry applied. -/
def replay : PaperLedger → List PaperLedgerEntry →
    Except PaperLedgerError PaperLedger
  | ledger, [] => .ok ledger
  | ledger, entry :: rest =>
      if entry.sequence ≠ ledger.nextSequence then
        .error (.sequenceGap ledger.nextSequence entry.sequence)
      else
        match ledger.apply entry with
        | (_, .error error) => .error error
        | (applied, .ok ()) =>
            replay { applied with nextSequence := applied.nextSequence + 1 }
              rest

/-- The ledger `reconstruct` starts replaying from. -/
def replayStart (unique : List PaperLedgerEntry) (idPrefix : String) :
    PaperLedger :=
  let initialCash := (unique.filterMap cashOf).sum
  { empty (.new initialCash) idPrefix with cashFunded := 0 < initialCash }

/-- The two whole-ledger checks at the end of `reconstruct`. -/
def checkClosed (order : IterationOrder String) (ledger : PaperLedger) :
    Except PaperLedgerError Unit :=
  match (ledger.placements.visit order).find? fun entry =>
      entry.2.terminal.isNone with
  | some (eventId, _) =>
      .error (.inconsistent eventId
        "order placement has no acknowledgement or rejection")
  | none =>
      match (ledger.orders.visit order).find? fun entry =>
          entry.2.state = .immediate with
      | some (orderId, _) =>
          .error (.inconsistent orderId "immediate order has no terminal fill")
      | none => .ok ()

/-- `reconstruct`. -/
def reconstruct (order : IterationOrder String)
    (entries : List PaperLedgerEntry) (idPrefix : String) :
    Except PaperLedgerError PaperLedger := do
  let unique ← deduplicate ∅ entries
  let ledger ← replay (replayStart unique idPrefix) unique
  checkClosed order ledger
  return { ledger with entries := unique }

/-- `close_replayed_order`. -/
def closeReplayedOrder (order : IterationOrder String) (engine : SimEngine)
    (placed : PlaceOrder) (orderId : Option String) (submittedMs : I64)
    (config : SimulationConfig) : SimEngine :=
  let engine := match orderId with
    | some orderId => (engine.cancel orderId).1
    | none => engine
  if !placed.postOnly && decide (0 < config.activationLatencyMs) then
    engine.updateBook order placed.market placed.outcome
      (.empty (submittedMs.saturatingAdd config.activationLatencyMs))
  else
    engine

/-- The order a placement is replayed with: its recorded order, with the
remaining quantity when the ledger still tracks it. -/
def restoredOrder (ledger : PaperLedger) (recorded : RecordedOrder)
    (placement : Placement) : PlaceOrder :=
  match ledger.orders.lookup placement.expectedOrderId with
  | some tracked => { recorded with qty := tracked.order.qty }.toOrder
  | none => recorded.toOrder

/-- One placement of the loop in `rebuild_engine`: the identity and the time
of its entry, and its recorded order. -/
def replayPlacement (order : IterationOrder String) (ledger : PaperLedger)
    (config : SimulationConfig) (engine : SimEngine) (eventId : String)
    (timestampMs : I64) (recorded : RecordedOrder) :
    Except PaperLedgerError SimEngine :=
  match ledger.placements.lookup eventId with
  | none =>
      .error (.inconsistent eventId
        "order placement disappeared during replay")
  | some placement =>
      let restored := ledger.restoredOrder recorded placement
      let engine :=
        if restored.postOnly then
          engine.updateBook order restored.market restored.outcome
            (.empty I64.minValue)
        else
          engine
      let (engine, restoredId) := engine.submit restored timestampMs
      match placement.terminal with
      | some (.ack _) =>
          if restoredId.any fun actual => actual ≠ placement.expectedOrderId then
            .error (.inconsistent eventId
              "simulator order id diverged during reconstruction")
          else if (ledger.orders.lookup placement.expectedOrderId).isSome then
            .ok engine
          else
            .ok (closeReplayedOrder order engine restored restoredId
              timestampMs config)
      | some .rejected | none =>
          .ok (closeReplayedOrder order engine restored restoredId
            timestampMs config)

/-- The loop of `rebuild_engine`. -/
def replayPlacements (order : IterationOrder String) (ledger : PaperLedger)
    (config : SimulationConfig) :
    SimEngine → List PaperLedgerEntry → Except PaperLedgerError SimEngine
  | engine, [] => .ok engine
  | engine, entry :: rest =>
      match entry.event with
      | .orderPlaced recorded => do
          let engine ← ledger.replayPlacement order config engine
            entry.eventId entry.timestampMs recorded
          replayPlacements order ledger config engine rest
      | _ => replayPlacements order ledger config engine rest

/-- `rebuild_engine`. -/
def rebuildEngine (order : IterationOrder String) (ledger : PaperLedger)
    (config : SimulationConfig) : Except PaperLedgerError SimEngine := do
  let engine ← ledger.replayPlacements order config
    (.withFeeConfig ledger.idPrefix 0 config) ledger.entries
  return engine.drainFills.1

end PaperLedger

end Pmkit
