import Pmkit.Library.Trace
import Pmkit.Paper.Ledger

/-!
# The paper executor

One lock guards a simulator and a ledger.  Each call moves both, and a call
that fails in the middle keeps what it did before it failed: the executor
stays in use.  Delivering fills to the receiver happens after the lock is
released and changes nothing but the result.
-/

namespace Pmkit

open MachineInt

/-- Failures of an executor call.  The first three are rejections, the others
transport failures. -/
inductive ExecError where
  | marketLimits (violation : LimitViolation)
  | exceedsBalance (cost available : Money)
  | noFillAvailable
  | orderIdDiverged
  | ledger (error : PaperLedgerError)
  | receiverClosed
  deriving DecidableEq

structure ExecutorState where
  engine : SimEngine
  ledger : PaperLedger
  config : SimulationConfig
  lastTimestampMs : I64

/-- `ensure_market_limits`. -/
def ensureMarketLimits (order : PlaceOrder) (config : SimulationConfig) :
    Except ExecError Unit :=
  match config.marketLimits with
  | none => .ok ()
  | some limits =>
      match limits.check order with
      | .ok () => .ok ()
      | .error violation => .error (.marketLimits violation)

/-- `ensure_sufficient_cash`. -/
def ensureSufficientCash (order : PlaceOrder) (ledger : PaperLedger) :
    Except ExecError Unit :=
  if order.side ≠ .buy then
    .ok ()
  else
    match ledger.availableCash with
    | none => .ok ()
    | some available =>
        if order.price * order.qty > available then
          .error (.exceedsBalance (order.price * order.qty) available)
        else
          .ok ()

def ensureSubmittable (order : PlaceOrder) (config : SimulationConfig)
    (ledger : PaperLedger) : Except ExecError Unit := do
  ensureMarketLimits order config
  ensureSufficientCash order ledger

def acceptedState (order : PlaceOrder) (config : SimulationConfig) :
    OrderState :=
  if order.postOnly then
    .resting
  else if 0 < config.activationLatencyMs then
    .delayed
  else
    .immediate

/-- `deliver`: sending fails when the receiver is closed. -/
def deliver (receiverOpen : Bool) (fills : List (FillEvent Decimal)) :
    Except ExecError Unit :=
  if receiverOpen || fills.isEmpty then .ok () else .error .receiverClosed

namespace PaperLedger

def recordFills : PaperLedger → List (FillEvent Decimal) →
    PaperLedger × Except PaperLedgerError Unit
  | ledger, [] => (ledger, .ok ())
  | ledger, fill :: rest =>
      match ledger.recordFill fill with
      | (recorded, .error error) => (recorded, .error error)
      | (recorded, .ok ()) => recorded.recordFills rest

/-- The loop that cancels orders at one time.  The membership test that
`update_book` makes before each call repeats the one inside `cancel`. -/
def cancelEach (timestampMs : I64) : PaperLedger → List String →
    PaperLedger × Except PaperLedgerError Unit
  | ledger, [] => (ledger, .ok ())
  | ledger, orderId :: rest =>
      match ledger.cancel orderId timestampMs with
      | (cancelled, .error error) => (cancelled, .error error)
      | (cancelled, .ok ()) => cancelEach timestampMs cancelled rest

end PaperLedger

namespace ExecutorState

/-- `with_account_fee_config`. -/
def withAccountFeeConfig (idPrefix : String) (config : SimulationConfig)
    (initialCash : Money) : ExecutorState where
  engine := .withFeeConfig idPrefix 0 config
  ledger := .new initialCash idPrefix
  config := config
  lastTimestampMs := 0

/-- `reconstruct_with_fee_config`. -/
def reconstructWithFeeConfig (order : IterationOrder String)
    (idPrefix : String) (config : SimulationConfig)
    (entries : List PaperLedgerEntry) :
    Except PaperLedgerError ExecutorState := do
  let ledger ← PaperLedger.reconstruct order entries idPrefix
  let engine ← ledger.rebuildEngine order config
  return {
    engine := engine
    ledger := ledger
    config := config
    lastTimestampMs := ledger.lastTimestampMs }

/-- The tail both submit paths share: acknowledge or reject the placement,
then drain and record the fills. -/
def completeSubmission (receiverOpen : Bool) (state : ExecutorState)
    (placementId expectedOrderId : String) (id : Option String)
    (order : PlaceOrder) (nowMs : I64) :
    ExecutorState × Except ExecError String :=
  let (answered, answer) := match id with
    | some actual =>
        state.ledger.acknowledge placementId actual
          (acceptedState order state.config)
          (nowMs.saturatingAdd state.config.activationLatencyMs) nowMs
    | none => state.ledger.reject placementId expectedOrderId nowMs
  match answer with
  | .error error =>
      ({ state with ledger := answered }, .error (.ledger error))
  | .ok () =>
      let (engine, drained) := state.engine.drainFills
      match answered.recordFills drained with
      | (ledger, .error error) =>
          ({ state with engine := engine, ledger := ledger },
            .error (.ledger error))
      | (ledger, .ok ()) =>
          ({ state with
              engine := engine
              ledger := ledger
              lastTimestampMs := nowMs },
            match deliver receiverOpen drained with
            | .error error => .error error
            | .ok () =>
                match id with
                | some actual => .ok actual
                | none => .error .noFillAvailable)

/-- `submit`: the path of the `Executor` trait, which compares the minted
identity with the expected one. -/
def submit (receiverOpen : Bool) (state : ExecutorState) (order : PlaceOrder)
    (nowMs : I64) : ExecutorState × Except ExecError String :=
  match ensureSubmittable order state.config state.ledger with
  | .error error => (state, .error error)
  | .ok () =>
      match state.ledger.beginOrder order none nowMs with
      | (ledger, .error error) =>
          ({ state with ledger := ledger }, .error (.ledger error))
      | (ledger, .ok (placementId, expectedOrderId)) =>
          let (engine, id) := state.engine.submit order nowMs
          let state := { state with engine := engine, ledger := ledger }
          if id.any fun actual => actual ≠ expectedOrderId then
            (state, .error .orderIdDiverged)
          else
            completeSubmission receiverOpen state placementId expectedOrderId
              id order nowMs

/-- `submit_for_strategy`, for any recorded owner.  It leaves the comparison
of identities to the ledger. -/
def submitOwned (receiverOpen : Bool) (state : ExecutorState)
    (order : PlaceOrder) (strategy : Option StrategyId) (nowMs : I64) :
    ExecutorState × Except ExecError String :=
  match ensureSubmittable order state.config state.ledger with
  | .error error => (state, .error error)
  | .ok () =>
      match state.ledger.beginOrder order strategy nowMs with
      | (ledger, .error error) =>
          ({ state with ledger := ledger }, .error (.ledger error))
      | (ledger, .ok (placementId, expectedOrderId)) =>
          let (engine, id) :=
            state.engine.submitWithStrategy order strategy nowMs
          completeSubmission receiverOpen
            { state with engine := engine, ledger := ledger }
            placementId expectedOrderId id order nowMs

def submitForStrategy (receiverOpen : Bool) (state : ExecutorState)
    (order : PlaceOrder) (strategy : StrategyId) (nowMs : I64) :
    ExecutorState × Except ExecError String :=
  state.submitOwned receiverOpen order (some strategy) nowMs

/-- `update_book`.  The two iteration orders are those of the simulator's
resting orders and of the ledger's orders. -/
def updateBook (receiverOpen : Bool) (fillOrder cancelOrder : IterationOrder String)
    (state : ExecutorState) (market : MarketId) (outcome : Outcome)
    (book : OrderBookL2) : ExecutorState × Except ExecError Unit :=
  let maturing := state.ledger.maturingDelayed cancelOrder market outcome
    book.timestampMs
  let (engine, drained) :=
    (state.engine.updateBook fillOrder market outcome book).drainFills
  match state.ledger.recordFills drained with
  | (ledger, .error error) =>
      ({ state with engine := engine, ledger := ledger },
        .error (.ledger error))
  | (ledger, .ok ()) =>
      match ledger.cancelEach book.timestampMs maturing with
      | (ledger, .error error) =>
          ({ state with engine := engine, ledger := ledger },
            .error (.ledger error))
      | (ledger, .ok ()) =>
          ({ state with
              engine := engine
              ledger := ledger
              lastTimestampMs := book.timestampMs },
            deliver receiverOpen drained)

/-- `cancel`. -/
def cancel (state : ExecutorState) (orderId : String) :
    ExecutorState × Except ExecError Unit :=
  match state.engine.cancel orderId with
  | (engine, none) => ({ state with engine := engine }, .ok ())
  | (engine, some _) =>
      match state.ledger.cancel orderId state.lastTimestampMs with
      | (ledger, .error error) =>
          ({ state with engine := engine, ledger := ledger },
            .error (.ledger error))
      | (ledger, .ok ()) =>
          ({ state with engine := engine, ledger := ledger }, .ok ())

/-- `cancel_all`. -/
def cancelAll (state : ExecutorState) : ExecutorState × Except ExecError Unit :=
  let openIds := state.engine.openOrders.map SimOpenOrder.orderId
  let (engine, _) := state.engine.cancelAll
  match state.ledger.cancelEach state.lastTimestampMs openIds with
  | (ledger, .error error) =>
      ({ state with engine := engine, ledger := ledger },
        .error (.ledger error))
  | (ledger, .ok ()) =>
      ({ state with engine := engine, ledger := ledger }, .ok ())

/-- `settle`. -/
def settle (state : ExecutorState) (market : MarketId) (outcome : Outcome)
    (settledSize proceeds : Decimal) (timestampMs : I64) :
    ExecutorState × Except PaperLedgerError Unit :=
  match state.ledger.settle market outcome settledSize proceeds timestampMs with
  | (ledger, .error error) => ({ state with ledger := ledger }, .error error)
  | (ledger, .ok ()) =>
      ({ state with ledger := ledger, lastTimestampMs := timestampMs }, .ok ())

end ExecutorState

/-- One call of the executor, with what its environment decides: whether the
fill receiver is open and how hash maps are traversed. -/
inductive ExecutorCall where
  | submit (receiverOpen : Bool) (order : PlaceOrder) (nowMs : I64)
  | submitForStrategy (receiverOpen : Bool) (order : PlaceOrder)
      (strategy : StrategyId) (nowMs : I64)
  | updateBook (receiverOpen : Bool)
      (fillOrder cancelOrder : IterationOrder String)
      (market : MarketId) (outcome : Outcome) (book : OrderBookL2)
  | cancel (orderId : String)
  | cancelAll
  | settle (market : MarketId) (outcome : Outcome)
      (settledSize proceeds : Decimal) (timestampMs : I64)

namespace ExecutorState

def step (state : ExecutorState) : ExecutorCall → ExecutorState
  | .submit receiverOpen order nowMs =>
      (state.submit receiverOpen order nowMs).1
  | .submitForStrategy receiverOpen order strategy nowMs =>
      (state.submitForStrategy receiverOpen order strategy nowMs).1
  | .updateBook receiverOpen fillOrder cancelOrder market outcome book =>
      (state.updateBook receiverOpen fillOrder cancelOrder market outcome book).1
  | .cancel orderId => (state.cancel orderId).1
  | .cancelAll => state.cancelAll.1
  | .settle market outcome settledSize proceeds timestampMs =>
      (state.settle market outcome settledSize proceeds timestampMs).1

end ExecutorState

end Pmkit
