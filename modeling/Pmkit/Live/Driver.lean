import Mathlib.Data.Finset.Card
import Pmkit.Feed.Replay
import Pmkit.Live.Decision
import Pmkit.Live.Durable
import Pmkit.Live.Rates

/-!
# The live driver

A live run takes the facts of its feed one by one.  It stores a fact, updates
its risk state, and lets its strategies act; each order they ask for passes the
capacity, the risk gate and the rate limits before it is submitted.
-/

namespace Pmkit

open MachineInt

/-- A single intent returned by a strategy. -/
inductive Action where
  | place (order : PlaceOrder)
  | cancel (orderId : String)
  | replaceQuotes (cancel : List String) (place : List PlaceOrder)
  | cancelAll
  deriving DecidableEq

structure StrategyContext where
  fact : StrategyFact Decimal
  market : MarketId
  book : OrderBookL2
  positions : List Position
  nowMs : I64

structure StrategyInstance (S : Type) where
  id : StrategyId
  market : MarketId
  state : S

/-- The calls of an executor that a run makes.  A call that times out answers
with a transport error. -/
structure Executor (V : Type) where
  preflight : V → V × Except VenueError (List String)
  reconcile : V → V × Except VenueError (List String)
  queryStatus : V → String → Except VenueError OrderStatus
  submit : V → PlaceOrder → I64 → V × Except VenueError String

/-! ## Runs -/

structure LiveStore where
  envelopes : EnvelopeTable
  decisions : List (CausalDecision JsonValue)
  intents : IntentTable
  killStates : KeyedMap PortfolioId Bool

/-- `kill_state`. -/
def LiveStore.killState (store : LiveStore) (portfolio : PortfolioId) : Bool :=
  (store.killStates.lookup portfolio).getD false

/-- `set_kill_state`. -/
def LiveStore.setKillState (store : LiveStore) (portfolio : PortfolioId)
    (killed : Bool) : LiveStore :=
  { store with
    killStates := AList.insert portfolio killed store.killStates }

/-- The configuration of a live run: its strategies with what each does on an
event, its executor, and the texts of the libraries it calls. -/
structure LiveRun (S V : Type) where
  id : RunId
  portfolio : PortfolioId
  risk : RiskLimits
  strategies : List (StrategyRegistration S)
  accountData : Bool
  executor : Executor V
  onEvent : S → StrategyContext → S × Except String (List Action)
  rateLimits : OrderRateLimits
  text : StoreText
  format : EventFormat Decimal
  parseDecimal : String → Except String Decimal
  markets : IterationOrder MarketId

inductive StartError where
  | source (message : String)
  | strategyInit (message : String)
  | executionState (source : VenueError)
  | storage (source : StoreError)
  | killSwitchActive
  deriving DecidableEq

structure Reservation where
  strategy : StrategyId
  market : MarketId
  price : Decimal
  remainingQty : Decimal
  deriving DecidableEq

/-- `notional`. -/
def Reservation.notional (reservation : Reservation) : Decimal :=
  reservation.remainingQty * reservation.price

/-- What a crash leaves: the store, and the admitted submissions that have
reached it. -/
structure CrashPoint where
  store : LiveStore
  admitted : List (StrategyId × I64)

/-- What a run learns of its orders: those that the venue says are open,
beside those the run tracks; an order that the venue accepted; a fill that was
new. -/
inductive OrderEvent where
  | openOrders (tracked answered : Finset String)
  | accepted (orderId : String) (order : PlaceOrder)
  | filled (fill : FillEvent Decimal)

/-- What a run has done so far, the last first.  Nothing in the run reads
it. -/
structure LiveTrace where
  submitted : List PlaceOrder
  orders : List OrderEvent
  admitted : List (StrategyId × I64)
  left : List CrashPoint

def LiveTrace.empty : LiveTrace where
  submitted := []
  orders := []
  admitted := []
  left := []

/-- A run between two facts.  It has a result when it has stopped. -/
structure LiveState (S V : Type) where
  venue : V
  strategies : List (StrategyInstance S)
  risk : LiveRiskState
  openOrders : Finset String
  reservations : KeyedMap String Reservation
  rates : OrderRateState
  store : Option LiveStore
  trace : LiveTrace
  result : Option StartError

namespace LiveRun

variable {S V : Type} (run : LiveRun S V)

def scope : OwnerScope where
  portfolioId := run.portfolio
  runId := run.id

/-- `DurableFillAuthority::for_run`. -/
def fillAuthority : DurableFillAuthority :=
  if run.accountData then .account else .market

/-- `effective_limits_by_strategy`: a strategy that is registered twice has
the limits of its last registration. -/
def effectiveLimitsByStrategy : KeyedMap StrategyId RiskLimits :=
  run.strategies.foldl (fun limits registration =>
    AList.insert registration.id
      (registration.riskOverrides.effectiveLimits run.risk registration.market
        registration.id) limits) ∅

end LiveRun

namespace LiveState

variable {S V : Type}

def fail (state : LiveState S V) (error : StartError) : LiveState S V :=
  { state with result := some error }

def write (state : LiveState S V) (store : LiveStore) : LiveState S V :=
  { state with
    store := some store
    trace :=
      { state.trace with
        left := { store := store, admitted := state.trace.admitted } ::
          state.trace.left } }

/-- `reconcile_open_orders`, into the open orders of the run. -/
def reconcileOpenOrders (run : LiveRun S V) (state : LiveState S V) :
    LiveState S V :=
  let (venue, answer) := run.executor.reconcile state.venue
  let state := { state with venue := venue }
  match answer with
  | .error source => state.fail (.executionState source)
  | .ok orders =>
      { state with
        openOrders := orders.toFinset
        trace :=
          { state.trace with
            orders := .openOrders state.openOrders orders.toFinset ::
              state.trace.orders } }

inductive PlaceFailure where
  | transport (source : VenueError)
  | storage (source : StoreError)

def PlaceFailure.error : PlaceFailure → StartError
  | transport source => .executionState source
  | storage source => .storage source

def submit (run : LiveRun S V) (order : PlaceOrder) (nowMs : I64)
    (state : LiveState S V) : LiveState S V × Except VenueError String :=
  let (venue, answer) := run.executor.submit state.venue order nowMs
  ({ state with
      venue := venue
      trace :=
        { state.trace with submitted := order :: state.trace.submitted } },
    answer)

/-- What `place_order` makes of a submission that was recorded. -/
def recordedAnswer :
    Except RecorderError SubmissionReceipt → Except PlaceFailure (Option String)
  | .ok receipt => .ok (some receipt.orderId)
  | .error (.venueRejected _) => .ok none
  | .error (.venueUnknown source) => .error (.transport source)
  | .error (.acceptedButUnrecorded source) =>
      .error (.storage (.causal source))
  | .error (.store source) => .error (.storage (.causal source))

/-- What `place_order` makes of a submission without a store. -/
def plainAnswer : Except VenueError String → Except PlaceFailure (Option String)
  | .ok orderId => .ok (some orderId)
  | .error (.transport message) => .error (.transport (.transport message))
  | .error (.rejected _) => .ok none
  | .error (.notFound _) => .ok none

/-- `place_order`.  With a store the intent is written before the venue is
called, and its answer after. -/
def placeOrder (run : LiveRun S V) (strategy : StrategyId)
    (request : IntentRequest) (state : LiveState S V) :
    LiveState S V × Except PlaceFailure (Option String) :=
  match state.store with
  | none =>
      let (state, answer) :=
        state.submit run request.order request.submittedMs
      (state, plainAnswer answer)
  | some store =>
      let intent := request.intent run.format.text
      match store.intents.storeIntentPending intent.identity
          intent.payload with
      | .error source => (state, .error (.storage (.causal source)))
      | .ok pending =>
          let store := { store with intents := pending }
          let admitted :=
            { state with
              trace :=
                { state.trace with
                  admitted := (strategy, request.submittedMs) ::
                    state.trace.admitted } }
          let (state, answer) := (admitted.write store).submit run
            request.order request.submittedMs
          let (intents, result) :=
            CausalRecorder.recordAnswer pending intent answer none
          (state.write { store with intents := intents }, recordedAnswer result)

def reserve (orderId : String) (strategy : StrategyId) (market : MarketId)
    (order : PlaceOrder) (state : LiveState S V) : LiveState S V :=
  { state with
    reservations := AList.insert orderId
      { strategy := strategy
        market := market
        price := order.price
        remainingQty := order.qty } state.reservations
    openOrders := insert orderId state.openOrders
    trace :=
      { state.trace with
        orders := .accepted orderId order :: state.trace.orders } }

/-! ## The pipeline -/

structure Evaluation where
  identity : CausalIdentity
  strategy : StrategyId
  market : MarketId
  limits : RiskLimits
  dailyPnl : Option Decimal
  timestampMs : I64

/-- The sum of the notional of the reservations a predicate accepts. -/
def reserved (state : LiveState S V) (keep : Reservation → Bool) : Decimal :=
  ((state.reservations.values.filter keep).map Reservation.notional).sum

def exposure (evaluation : Evaluation) (state : LiveState S V) :
    Option PortfolioRiskExposure :=
  evaluation.dailyPnl.map fun dailyPnl =>
    { portfolioNotional :=
        state.risk.portfolioNotional + state.reserved fun _ => true
      marketNotional :=
        state.risk.marketNotional evaluation.market +
          state.reserved fun reservation =>
            reservation.market = evaluation.market
      strategyNotional :=
        state.reserved fun reservation =>
          reservation.strategy = evaluation.strategy
      dailyPnl := dailyPnl
      openOrders := state.openOrders.card }

/-- The risk gate of `dispatch_live_pipeline`. -/
def passesGate (evaluation : Evaluation) (order : PlaceOrder)
    (state : LiveState S V) : Bool :=
  !state.risk.lossBreached &&
    (state.exposure evaluation).any fun exposure =>
      passesAggregatedRisk order evaluation.limits
        (state.risk.positions evaluation.market) exposure

/-- Ask the venue for the open orders when the run tracks too many. -/
def refreshCapacity (run : LiveRun S V) (state : LiveState S V) :
    LiveState S V :=
  if (run.risk.maxOpenOrders : ℕ) ≤ state.openOrders.card then
    state.reconcileOpenOrders run
  else
    state

def placeAccepted (run : LiveRun S V) (evaluation : Evaluation)
    (actionIndex : UInt32) (order : PlaceOrder) (state : LiveState S V) :
    LiveState S V :=
  match state.placeOrder run evaluation.strategy
      { decision := evaluation.identity
        actionIndex := actionIndex
        submittedMs := evaluation.timestampMs
        order := order } with
  | (state, .ok (some orderId)) =>
      state.reserve orderId evaluation.strategy evaluation.market order
  | (state, .ok none) => state
  | (state, .error failure) =>
      let state := state.reconcileOpenOrders run
      if state.result.isSome then state else state.fail failure.error

def placeAction (run : LiveRun S V) (evaluation : Evaluation)
    (actionIndex : UInt32) (order : PlaceOrder) (state : LiveState S V) :
    LiveState S V × Option RiskVerdict :=
  let state := state.refreshCapacity run
  if state.result.isSome then
    (state, none)
  else if (run.risk.maxOpenOrders : ℕ) ≤ state.openOrders.card then
    (state, some (.rejected "open order capacity"))
  else if state.passesGate evaluation order = false then
    (state, some (.rejected "risk gate"))
  else
    match state.rates.tryAccept run.rateLimits evaluation.strategy
        evaluation.timestampMs with
    | (rates, false) =>
        ({ state with rates := rates },
          some (.rejected "order submission rate limit"))
    | (rates, true) =>
        (placeAccepted run evaluation actionIndex order
          { state with rates := rates }, some .accepted)

/-- The place of an action as an unsigned 32-bit number. -/
def actionIndexOf (index : Nat) : UInt32 :=
  UInt32.ofNat (min index (2 ^ 32 - 1))

def runActions (run : LiveRun S V) (evaluation : Evaluation) :
    Nat → List Action → LiveState S V → List ActionRiskVerdict →
      LiveState S V × List ActionRiskVerdict
  | _, [], state, verdicts => (state, verdicts)
  | index, .place order :: rest, state, verdicts =>
      let (state, verdict) :=
        state.placeAction run evaluation (actionIndexOf index) order
      let verdicts := verdicts ++ verdict.toList.map fun verdict =>
        { actionIndex := actionIndexOf index, verdict := verdict }
      if state.result.isSome then
        (state, verdicts)
      else
        runActions run evaluation (index + 1) rest state verdicts
  | index, _ :: rest, state, verdicts =>
      runActions run evaluation (index + 1) rest state verdicts

/-- `record_evaluation`. -/
def recordDecision (evaluation : Evaluation) (decision : DecisionKind)
    (state : LiveState S V) : LiveState S V :=
  match state.store with
  | none => state
  | some store =>
      match CausalDecision.store store.decisions
          { identity := evaluation.identity
            payload := decisionPayload evaluation.timestampMs decision } with
      | .error source => state.fail (.storage (.causal source))
      | .ok decisions => state.write { store with decisions := decisions }

structure PipelineInput where
  fact : StrategyFact Decimal
  market : Option MarketId
  book : OrderBookL2
  timestampMs : I64
  sourceTimestampMs : I64
  ingestSequence : UInt64
  sourceKind : String
  sourceId : String
  aggregateTradeId : Option UInt64

def evaluationOf (run : LiveRun S V) (input : PipelineInput)
    (dailyPnl : Option Decimal) (id : StrategyId) (registered : MarketId) :
    Evaluation :=
  let market := input.market.getD registered
  { identity :=
      { scope := run.scope
        correlationId := strategyEventCorrelationId id market
          input.timestampMs input.sourceKind input.sourceId
          input.aggregateTradeId input.ingestSequence
        sourceTimestampMs := input.sourceTimestampMs
        ingestSequence := I64.clamp input.ingestSequence.toNat }
    strategy := id
    market := market
    limits := (run.effectiveLimitsByStrategy.lookup id).getD run.risk
    dailyPnl := dailyPnl
    timestampMs := input.timestampMs }

/-- One instance: its strategy acts, and its decision is recorded. -/
def evaluate (run : LiveRun S V) (input : PipelineInput)
    (dailyPnl : Option Decimal) (strategy : StrategyInstance S)
    (state : LiveState S V) : StrategyInstance S × LiveState S V :=
  let evaluation :=
    evaluationOf run input dailyPnl strategy.id strategy.market
  let (next, outcome) := run.onEvent strategy.state
    { fact := input.fact
      market := evaluation.market
      book := input.book
      positions := state.risk.positions evaluation.market
      nowMs := input.timestampMs }
  let strategy := { strategy with state := next }
  match outcome with
  | .error message =>
      (strategy, state.recordDecision evaluation (.strategyError message))
  | .ok actions =>
      let (state, verdicts) := state.runActions run evaluation 0 actions []
      if state.result.isSome then
        (strategy, state)
      else
        (strategy, state.recordDecision evaluation
          (if verdicts = [] then .noAction else .actions verdicts))

def dispatchInstances (run : LiveRun S V) (input : PipelineInput)
    (dailyPnl : Option Decimal) :
    List (StrategyInstance S) → LiveState S V →
      List (StrategyInstance S) × LiveState S V
  | [], state => ([], state)
  | strategy :: rest, state =>
      if input.market.any fun market => strategy.market ≠ market then
        let (others, state) := dispatchInstances run input dailyPnl rest state
        (strategy :: others, state)
      else
        let (strategy, state) := state.evaluate run input dailyPnl strategy
        if state.result.isSome then
          (strategy :: rest, state)
        else
          let (others, state) :=
            dispatchInstances run input dailyPnl rest state
          (strategy :: others, state)

/-- `dispatch_live_pipeline`. -/
def dispatch (run : LiveRun S V) (input : PipelineInput)
    (dailyPnl : Option Decimal) (state : LiveState S V) : LiveState S V :=
  let (strategies, next) :=
    dispatchInstances run input dailyPnl state.strategies state
  { next with strategies := strategies }

/-! ## The events -/

/-- `apply_reservation_fill` for a fill that was new. -/
def applyReservationFill (fill : FillEvent Decimal) (state : LiveState S V) :
    LiveState S V :=
  let state :=
    { state with
      trace :=
        { state.trace with orders := .filled fill :: state.trace.orders } }
  match state.reservations.lookup fill.orderId with
  | none => state
  | some reservation =>
      if reservation.remainingQty < fill.size then
        state.fail (.storage (riskStorageError
          (.corruptRecord "fill exceeds known reservation")))
      else if reservation.remainingQty - fill.size = 0 then
        { state with
          reservations := state.reservations.erase fill.orderId
          openOrders := state.openOrders.erase fill.orderId }
      else
        { state with
          reservations := AList.insert fill.orderId
            { reservation with
              remainingQty := reservation.remainingQty - fill.size }
            state.reservations }

def close (orderId : String) (state : LiveState S V) : LiveState S V :=
  { state with
    reservations := state.reservations.erase orderId
    openOrders := state.openOrders.erase orderId }

def accountEvent (run : LiveRun S V) (fact : PmAccountEvent Decimal)
    (state : LiveState S V) : LiveState S V :=
  match state.risk.applyAccountEvent run.markets run.risk fact with
  | .error source => state.fail (.storage (riskStorageError source))
  | .ok (risk, isNew) =>
      let state := { state with risk := risk }
      match fact with
      | .fill _ fill => if isNew then state.applyReservationFill fill else state
      | .orderCancelled _ orderId _ => state.close orderId
      | .orderRejected _ orderId _ _ => state.close orderId
      | .orderAck _ _ _ => state
      | .orderStatus _ _ _ _ => state
      | .settlement _ _ _ _ _ _ => state

/-- The kill row of a portfolio whose loss limit is breached. -/
def recordBreach (run : LiveRun S V) (state : LiveState S V) :
    LiveState S V :=
  match state.store with
  | none => state
  | some store =>
      if state.risk.lossBreached then
        state.write (store.setKillState run.portfolio true)
      else
        state

def bookUpdate (run : LiveRun S V) (metadata : StreamMetadata)
    (fact : MarketEvent Decimal) (market : MarketId) (outcome : Outcome)
    (bids asks : List (Decimal × Decimal)) (timestampMs : I64)
    (state : LiveState S V) : LiveState S V :=
  let book : OrderBookL2 :=
    { bids := bids
      asks := asks
      timestampMs := timestampMs
      lastTradePrice := none }
  let (risk, dailyPnl) :=
    state.risk.updateBook run.markets run.risk market outcome book
  ({ state with risk := risk }.recordBreach run).dispatch run
    { fact := .market fact
      market := some market
      book := book
      timestampMs := timestampMs
      sourceTimestampMs := metadata.sourceTimeMs
      ingestSequence := metadata.ingestSequence
      sourceKind := "book"
      sourceId := metadata.sourceId
      aggregateTradeId := none } dailyPnl

/-- `FillIdentity::transport`. -/
def transportIdentity (metadata : StreamMetadata) : EventIdentity :=
  .transport metadata.sourceId metadata.connectionId metadata.connectionEpoch
    metadata.frameSequence

def marketEvent (run : LiveRun S V) (metadata : StreamMetadata)
    (fact : MarketEvent Decimal) (state : LiveState S V) : LiveState S V :=
  match fact with
  | .bookUpdate market outcome bids asks timestampMs =>
      state.bookUpdate run metadata fact market outcome bids asks timestampMs
  | .fill fill =>
      match run.fillAuthority with
      | .account => state
      | .market =>
          let (risk, isNew) := state.risk.applyFill run.markets run.risk
            (transportIdentity metadata) fill
          let state := { state with risk := risk }
          if isNew then state.applyReservationFill fill else state
  | .bestBidAsk _ _ _ _ _ => state
  | .lastTrade _ _ _ _ _ _ => state
  | .orderAck _ _ _ => state
  | .tick _ => state

def referenceEvent (run : LiveRun S V)
    (envelope : CexReferenceEnvelope Decimal) (state : LiveState S V) :
    LiveState S V :=
  state.dispatch run
    { fact := .reference envelope.fact
      market := none
      book := OrderBookL2.empty 0
      timestampMs := envelope.fact.timestampMs
      sourceTimestampMs := envelope.metadata.sourceTimeMs
      ingestSequence := envelope.metadata.ingestSequence
      sourceKind := "cex-trade"
      sourceId := envelope.metadata.sourceId
      aggregateTradeId := some envelope.fact.aggregateTradeId }
    state.risk.dailyPnl

/-- `validate_account_owner`. -/
def ownerError (run : LiveRun S V) :
    SourceEnvelope Decimal → Option StartError
  | .pmAccount envelope =>
      if envelope.portfolio = run.portfolio then
        none
      else
        some (.source ("account event owner " ++ envelope.portfolio.value ++
          " does not match run " ++ run.portfolio.value))
  | .pmMarket _ => none
  | .cexReference _ => none

/-- `store_signal` of the driver. -/
def storeFact (run : LiveRun S V) (envelope : SourceEnvelope Decimal)
    (state : LiveState S V) : LiveState S V :=
  match state.store with
  | none => state
  | some store =>
      match storeSignal run.text run.format run.scope store.envelopes
          (.data envelope) with
      | .error source => state.fail (.storage (.tape source))
      | .ok envelopes => state.write { store with envelopes := envelopes }

/-- What a fact does after it is stored. -/
def processEvent (run : LiveRun S V) (envelope : SourceEnvelope Decimal)
    (state : LiveState S V) : LiveState S V :=
  match envelope with
  | .cexReference envelope => state.referenceEvent run envelope
  | .pmAccount envelope => state.accountEvent run envelope.fact
  | .pmMarket envelope => state.marketEvent run envelope.metadata envelope.fact

/-- One pass of the loop of `drive_with_control`.  A run that has stopped
takes no fact. -/
def step (run : LiveRun S V) (state : LiveState S V)
    (envelope : SourceEnvelope Decimal) : LiveState S V :=
  if state.result.isSome then
    state
  else
    match ownerError run envelope with
    | some error => state.fail error
    | none =>
        let stored := state.storeFact run envelope
        if stored.result.isSome then
          stored
        else
          stored.processEvent run envelope

variable {run : LiveRun S V} {keeps : LiveState S V → Prop}

theorem refreshCapacity_keeps
    (reconcile : ∀ state, keeps state → keeps (state.reconcileOpenOrders run))
    {state : LiveState S V} (holds : keeps state) :
    keeps (state.refreshCapacity run) := by
  unfold refreshCapacity
  split
  · exact reconcile state holds
  · exact holds

variable {state : LiveState S V} {dailyPnl : Option Decimal}

/-- A place action asks for the open orders, counts in the rate windows, and
places an order that passed the gate. -/
theorem placeAction_keeps
    (reconcile : ∀ state, keeps state → keeps (state.reconcileOpenOrders run))
    (rates : ∀ state rates, keeps state → keeps { state with rates := rates })
    (accepted : ∀ evaluation actionIndex order state, keeps state →
      state.passesGate evaluation order = true →
      keeps (placeAccepted run evaluation actionIndex order state))
    (holds : keeps state) (evaluation : Evaluation)
    (actionIndex : UInt32) (order : PlaceOrder) :
    keeps (state.placeAction run evaluation actionIndex order).1 := by
  have refreshed : keeps (state.refreshCapacity run) :=
    refreshCapacity_keeps reconcile holds
  unfold placeAction
  simp only
  split
  · exact refreshed
  · split
    · exact refreshed
    · split
      · exact refreshed
      · rename_i gate
        have passes : (state.refreshCapacity run).passesGate evaluation order =
            true := by
          simpa using gate
        split
        · exact rates _ _ refreshed
        · rename_i next _
          exact accepted evaluation actionIndex order
            { state.refreshCapacity run with rates := next }
            (rates _ _ refreshed) passes

theorem runActions_keeps
    (place : ∀ evaluation actionIndex order state, keeps state →
      keeps (state.placeAction run evaluation actionIndex order).1)
    (evaluation : Evaluation) (index : Nat) (actions : List Action)
    (verdicts : List ActionRiskVerdict)
    (holds : keeps state) :
    keeps (state.runActions run evaluation index actions verdicts).1 := by
  induction actions generalizing index state verdicts with
  | nil =>
      exact holds
  | cons action rest ih =>
      cases action with
      | place order =>
          have placed := place evaluation (actionIndexOf index) order state
            holds
          simp only [runActions]
          split
          · exact placed
          · exact ih (index + 1) _ placed
      | cancel orderId => exact ih (index + 1) verdicts holds
      | replaceQuotes cancel place =>
          exact ih (index + 1) verdicts holds
      | cancelAll => exact ih (index + 1) verdicts holds

theorem evaluate_keeps
    (place : ∀ evaluation actionIndex order state, keeps state →
      keeps (state.placeAction run evaluation actionIndex order).1)
    (record : ∀ evaluation decision state, keeps state →
      keeps (recordDecision evaluation decision state))
    (input : PipelineInput) (dailyPnl : Option Decimal)
    (strategy : StrategyInstance S)
    (holds : keeps state) :
    keeps (state.evaluate run input dailyPnl strategy).2 := by
  unfold evaluate
  simp only
  split
  · exact record _ _ _ holds
  · rename_i actions _
    have acted := runActions_keeps place
      (evaluationOf run input dailyPnl strategy.id strategy.market) 0 actions
      [] holds
    split
    · exact acted
    · exact record _ _ _ acted

theorem dispatchInstances_keeps {input : PipelineInput}
    (evaluated : ∀ strategy state, keeps state →
      keeps (state.evaluate run input dailyPnl strategy).2)
    (strategies : List (StrategyInstance S))
    (holds : keeps state) :
    keeps (dispatchInstances run input dailyPnl strategies state).2 := by
  induction strategies generalizing state with
  | nil =>
      exact holds
  | cons strategy rest ih =>
      simp only [dispatchInstances]
      split
      · exact ih holds
      · split
        · exact evaluated strategy state holds
        · exact ih (evaluated strategy state holds)

/-- The rule for the pipeline: a property of the evaluations that does not
read the strategies. -/
theorem dispatch_keeps {input : PipelineInput}
    (strategies : ∀ state strategies, keeps state →
      keeps { state with strategies := strategies })
    (evaluated : ∀ strategy state, keeps state →
      keeps (state.evaluate run input dailyPnl strategy).2)
    (holds : keeps state) :
    keeps (state.dispatch run input dailyPnl) :=
  strategies _ _ (dispatchInstances_keeps evaluated state.strategies holds)

/-- The parts of a run that only the arms of the facts change. -/
structure SameFacts (before after : LiveState S V) : Prop where
  risk : after.risk = before.risk
  envelopes : after.store.map LiveStore.envelopes =
    before.store.map LiveStore.envelopes
  killStates : after.store.map LiveStore.killStates =
    before.store.map LiveStore.killStates

theorem SameFacts.refl (state : LiveState S V) : SameFacts state state :=
  ⟨rfl, rfl, rfl⟩

theorem SameFacts.trans
    {before middle after : LiveState S V} (first : SameFacts before middle)
    (second : SameFacts middle after) : SameFacts before after where
  risk := second.risk.trans first.risk
  envelopes := second.envelopes.trans first.envelopes
  killStates := second.killStates.trans first.killStates

/-- A write that changes the causal tables only. -/
theorem write_sameFacts {store next : LiveStore}
    (found : state.store = some store)
    (envelopes : next.envelopes = store.envelopes)
    (killStates : next.killStates = store.killStates) :
    SameFacts state (state.write next) where
  risk := rfl
  envelopes := by
    rw [found]
    exact congrArg some envelopes
  killStates := by
    rw [found]
    exact congrArg some killStates

theorem reconcileOpenOrders_sameFacts
    (run : LiveRun S V) (state : LiveState S V) :
    SameFacts state (state.reconcileOpenOrders run) := by
  unfold reconcileOpenOrders
  simp only
  split
  · exact ⟨rfl, rfl, rfl⟩
  · exact ⟨rfl, rfl, rfl⟩

theorem placeOrder_sameFacts
    (run : LiveRun S V) (strategy : StrategyId) (request : IntentRequest)
    (state : LiveState S V) :
    SameFacts state (state.placeOrder run strategy request).1 := by
  unfold placeOrder
  cases found : state.store with
  | none =>
      simp only
      exact ⟨rfl, rfl, rfl⟩
  | some store =>
      simp only
      cases store.intents.storeIntentPending
          (request.intent run.format.text).identity
          (request.intent run.format.text).payload with
      | error source =>
          exact .refl state
      | ok pending =>
          exact ⟨rfl, by rw [found]; rfl, by rw [found]; rfl⟩

theorem placeAccepted_sameFacts
    (run : LiveRun S V) (evaluation : Evaluation) (actionIndex : UInt32)
    (order : PlaceOrder) (state : LiveState S V) :
    SameFacts state (placeAccepted run evaluation actionIndex order state) := by
  unfold placeAccepted
  have placed := placeOrder_sameFacts run evaluation.strategy
    { decision := evaluation.identity
      actionIndex := actionIndex
      submittedMs := evaluation.timestampMs
      order := order } state
  split
  · rename_i found
    rw [found] at placed
    exact ⟨placed.risk, placed.envelopes, placed.killStates⟩
  · rename_i found
    rw [found] at placed
    exact placed
  · rename_i next failure found
    rw [found] at placed
    have reconciled := placed.trans (reconcileOpenOrders_sameFacts run next)
    simp only
    split
    · exact reconciled
    · exact ⟨reconciled.risk, reconciled.envelopes, reconciled.killStates⟩

theorem recordDecision_sameFacts
    (evaluation : Evaluation) (decision : DecisionKind)
    (state : LiveState S V) :
    SameFacts state (recordDecision evaluation decision state) := by
  unfold recordDecision
  cases found : state.store with
  | none =>
      exact .refl state
  | some store =>
      simp only
      split
      · exact ⟨rfl, rfl, rfl⟩
      · exact write_sameFacts found rfl rfl

theorem placeAction_sameFacts
    (run : LiveRun S V) (evaluation : Evaluation) (actionIndex : UInt32)
    (order : PlaceOrder) (state : LiveState S V) :
    SameFacts state (state.placeAction run evaluation actionIndex order).1 :=
  placeAction_keeps
    (fun _ same => same.trans (reconcileOpenOrders_sameFacts run _))
    (fun _ _ same => ⟨same.risk, same.envelopes, same.killStates⟩)
    (fun _ _ _ _ same _ => same.trans (placeAccepted_sameFacts run _ _ _ _))
    (.refl state) evaluation actionIndex order

theorem dispatch_sameFacts
    (run : LiveRun S V) (input : PipelineInput) (dailyPnl : Option Decimal)
    (state : LiveState S V) :
    SameFacts state (state.dispatch run input dailyPnl) := by
  refine dispatch_keeps ?_ ?_ (.refl state)
  · intro next strategies same
    exact ⟨same.risk, same.envelopes, same.killStates⟩
  · intro strategy next same
    refine evaluate_keeps ?_ ?_ input dailyPnl strategy same
    · intro evaluation actionIndex order middle same
      exact same.trans (placeAction_sameFacts run _ _ _ _)
    · intro evaluation decision middle same
      exact same.trans (recordDecision_sameFacts _ _ _)

/-! ## What a fact does -/

/-- A fact that passes its checks and is stored. -/
def Takes (run : LiveRun S V) (state : LiveState S V)
    (envelope : SourceEnvelope Decimal) : Prop :=
  state.result = none ∧ ownerError run envelope = none ∧
    (state.storeFact run envelope).result = none

def riskAfter (run : LiveRun S V) (risk : LiveRiskState) :
    SourceEnvelope Decimal → LiveRiskState
  | .pmAccount envelope =>
      match risk.applyAccountEvent run.markets run.risk envelope.fact with
      | .ok (next, _) => next
      | .error _ => risk
  | .pmMarket envelope =>
      match envelope.fact, run.fillAuthority with
      | .bookUpdate market outcome bids asks timestampMs, _ =>
          (risk.updateBook run.markets run.risk market outcome
            { bids := bids
              asks := asks
              timestampMs := timestampMs
              lastTradePrice := none }).1
      | .fill fill, .market =>
          (risk.applyFill run.markets run.risk
            (transportIdentity envelope.metadata) fill).1
      | _, _ => risk
  | .cexReference _ => risk

def isBookUpdate : SourceEnvelope Decimal → Bool
  | .pmMarket envelope =>
      match envelope.fact with
      | .bookUpdate _ _ _ _ _ => true
      | _ => false
  | .pmAccount _ => false
  | .cexReference _ => false

variable {state : LiveState S V} {envelope : SourceEnvelope Decimal}

theorem step_of_not_takes (refused : ¬ state.Takes run envelope) :
    ∃ result, state.step run envelope = { state with result := result } := by
  unfold step
  split
  · exact ⟨state.result, rfl⟩
  · rename_i running
    split
    · rename_i error _
      exact ⟨some error, rfl⟩
    · rename_i owned
      simp only
      split
      · rename_i stopped
        unfold storeFact at stopped ⊢
        split
        · rename_i noStore
          rw [noStore] at stopped
          exact absurd stopped running
        · rename_i store found
          rw [found] at stopped
          simp only at stopped ⊢
          split
          · exact ⟨_, rfl⟩
          · rename_i stored
            rw [stored] at stopped
            exact absurd stopped running
      · rename_i stored
        exact absurd ⟨by simpa using running, owned, by simpa using stored⟩
          refused

theorem step_of_takes (takes : state.Takes run envelope) :
    state.step run envelope =
      (state.storeFact run envelope).processEvent run envelope := by
  obtain ⟨running, owned, stored⟩ := takes
  simp [step, running, owned, stored]

/-- A fact that is stored changes the envelopes and nothing else that the run
reads. -/
theorem storeFact_eq (stored : (state.storeFact run envelope).result = none) :
    (state.store = none ∧ state.storeFact run envelope = state) ∨
      ∃ store envelopes, state.store = some store ∧
        storeSignal run.text run.format run.scope store.envelopes
          (.data envelope) = .ok envelopes ∧
        state.storeFact run envelope =
          state.write { store with envelopes := envelopes } := by
  unfold storeFact at stored ⊢
  split
  · rename_i noStore
    exact .inl ⟨noStore, rfl⟩
  · rename_i store found
    right
    rw [found] at stored
    simp only at stored ⊢
    split
    · rename_i failed
      rw [failed] at stored
      cases stored
    · rename_i envelopes written
      exact ⟨store, envelopes, found, written, rfl⟩

theorem storeFact_risk (stored : (state.storeFact run envelope).result = none) :
    (state.storeFact run envelope).risk = state.risk := by
  rcases storeFact_eq stored with ⟨_, same⟩ | ⟨store, envelopes, _, _, same⟩
  · rw [same]
  · rw [same]
    rfl

theorem applyReservationFill_sameRisk (fill : FillEvent Decimal)
    (state : LiveState S V) :
    (state.applyReservationFill fill).risk = state.risk ∧
      (state.applyReservationFill fill).store = state.store ∧
      (state.applyReservationFill fill).trace.submitted =
        state.trace.submitted := by
  unfold applyReservationFill
  simp only
  split
  · exact ⟨rfl, rfl, rfl⟩
  · split
    · exact ⟨rfl, rfl, rfl⟩
    · split
      · exact ⟨rfl, rfl, rfl⟩
      · exact ⟨rfl, rfl, rfl⟩

theorem recordBreach_risk (run : LiveRun S V) (state : LiveState S V) :
    (state.recordBreach run).risk = state.risk := by
  unfold recordBreach
  split
  · rfl
  · split
    · rfl
    · rfl

theorem accountEvent_risk (run : LiveRun S V)
    (account : PmAccountEnvelope Decimal) (state : LiveState S V) :
    (state.accountEvent run account.fact).risk =
      riskAfter run state.risk (.pmAccount account) := by
  simp only [accountEvent, riskAfter]
  cases state.risk.applyAccountEvent run.markets run.risk account.fact with
  | error source => rfl
  | ok applied =>
      obtain ⟨risk, isNew⟩ := applied
      simp only
      cases account.fact with
      | fill identity fill =>
          simp only
          split
          · exact (applyReservationFill_sameRisk fill _).1
          · rfl
      | orderAck strategy orderId timestampMs => rfl
      | orderCancelled strategy orderId timestampMs => rfl
      | orderRejected strategy orderId reason timestampMs => rfl
      | orderStatus strategy orderId status timestampMs => rfl
      | settlement identity market outcome settledSize proceeds timestampMs =>
          rfl

theorem marketEvent_risk (run : LiveRun S V)
    (market : PmMarketEnvelope Decimal) (state : LiveState S V) :
    (state.marketEvent run market.metadata market.fact).risk =
      riskAfter run state.risk (.pmMarket market) := by
  simp only [marketEvent, riskAfter]
  cases market.fact with
  | bookUpdate id outcome bids asks timestampMs =>
      simp only [bookUpdate]
      rw [(dispatch_sameFacts run _ _ _).risk, recordBreach_risk]
  | fill fill =>
      cases run.fillAuthority with
      | account => rfl
      | market =>
          simp only
          split
          · exact (applyReservationFill_sameRisk fill _).1
          · rfl
  | bestBidAsk id outcome bid ask timestampMs => rfl
  | lastTrade id outcome price side size timestampMs => rfl
  | orderAck strategy orderId timestampMs => rfl
  | tick timestampMs => rfl

/-- A fact that is taken moves the risk state by its reducer alone. -/
theorem step_risk (takes : state.Takes run envelope) :
    (state.step run envelope).risk = riskAfter run state.risk envelope := by
  rw [step_of_takes takes, ← storeFact_risk takes.2.2]
  cases envelope with
  | pmMarket market => exact marketEvent_risk run market _
  | pmAccount account => exact accountEvent_risk run account _
  | cexReference reference => exact (dispatch_sameFacts run _ _ _).risk

end LiveState

end Pmkit
