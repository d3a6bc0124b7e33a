import Pmkit.Library.JsonText
import Pmkit.Live.Driver
import Pmkit.Store.Gaps

/-!
# The start of a live run

A start refuses a killed portfolio, asks the venue for its open orders, and
rebuilds from the store what an earlier start knew: the risk state, the
submissions of the rate windows, the outcome of intents that were left
unsettled, and the orders that are still open.
-/

namespace Pmkit

open MachineInt JsonValue

/-- `Display` of a venue error. -/
def VenueError.text : VenueError → String
  | rejected reason => "order rejected: " ++ reason
  | transport message => "execution transport error: " ++ message
  | notFound orderId => "order not found: " ++ orderId

/-- `Display` of a failure of the causal tables. -/
def CausalStoreError.text : CausalStoreError → String
  | storage message => "storage failed: " ++ message
  | duplicateCausalIdentity => "causal identity already exists"
  | pendingIntentNotFound => "pending intent was not found"

def RecorderError.storeError : RecorderError → CausalStoreError
  | store source => source
  | venueRejected source =>
      .storage ("venue rejected order: " ++ source.text)
  | venueUnknown source =>
      .storage ("venue outcome is unknown: " ++ source.text)
  | acceptedButUnrecorded source =>
      .storage ("venue accepted order but outcome was not persisted: " ++
        source.text)

/-- The `ORDER BY` of the causal queries. -/
def causalCmp : CausalIdentity → CausalIdentity → Ordering :=
  compareLex (compareOn CausalIdentity.sourceTimestampMs)
    (compareOn CausalIdentity.ingestSequence)

/-- `read_decisions`.  Rows that tie are read as they were written. -/
def readDecisions (rows : List (CausalDecision JsonValue))
    (scope : OwnerScope) : List (CausalDecision JsonValue) :=
  Table.orderBy (fun left right => causalCmp left.identity right.identity)
    (rows.filter fun row => row.identity.scope = scope)

/-- `read_intents_by_state`. -/
def IntentTable.readByState (table : IntentTable) (scope : OwnerScope)
    (state : IntentState) : List OrderIntent :=
  Table.orderBy (fun left right => causalCmp left.identity right.identity)
    ((table.entries.filter fun entry =>
      entry.1.scope = scope ∧ entry.2.state = state).map fun entry =>
        { identity := entry.1, payload := entry.2.payload })

/-- The accepted actions of a decision: the correlation id of the intent of
each, its strategy and its time. -/
def decisionHistory {S : Type} (registrations : List (StrategyRegistration S))
    (decision : CausalDecision JsonValue) :
    Except CausalStoreError (List (String × Option StrategyId × I64)) :=
  (decisionSubmissions decision.payload).map fun submissions =>
    submissions.map fun submission =>
      (intentCorrelationId decision.identity.correlationId submission.1,
        correlationStrategy decision.identity.correlationId registrations,
        submission.2)

def intentHistory {S : Type} (registrations : List (StrategyRegistration S))
    (intent : OrderIntent) :
    Except CausalStoreError (Option StrategyId × I64) :=
  match (intent.payload.get "submitted_ms").bind asI64 with
  | none => corruptRateHistory "intent logical timestamp is missing"
  | some timestampMs =>
      .ok (correlationStrategy intent.identity.correlationId registrations,
        I64.clamp timestampMs)

/-- `accepted_submissions`, of the decisions and the intents it reads. -/
def acceptedSubmissions {S : Type}
    (registrations : List (StrategyRegistration S))
    (decisions : List (CausalDecision JsonValue))
    (intents : List OrderIntent) :
    Except CausalStoreError (List (Option StrategyId × I64)) := do
  let decided ← decisions.mapM (decisionHistory registrations)
  let ids := decided.flatten.map Prod.fst
  let undecided ← (intents.filter fun intent =>
    intent.identity.correlationId ∉ ids).mapM (intentHistory registrations)
  return decided.flatten.map Prod.snd ++ undecided

/-! ## The orders that are still open -/

/-- `corrupt_order`. -/
def corruptOrder {A : Type} (message : String) : Except StartError A :=
  .error (.storage (.causal
    (.storage ("invalid durable order recovery: " ++ message))))

/-- What recovery takes from the payload of an intent. -/
structure IntentPayload where
  actionIndex : Nat
  market : String
  price : Decimal
  qty : Decimal
  venueOrderId : String

def decimalOf (parseDecimal : String → Except String Decimal)
    (value : JsonValue) (field : String) : Option Decimal :=
  (((value.get field).bind asStr).map parseDecimal).bind Except.toOption

/-- The derived reader of `IntentPayload`. -/
def IntentPayload.read (parseDecimal : String → Except String Decimal)
    (payload : JsonValue) : Option IntentPayload := do
  let order ← payload.get "order"
  return {
    actionIndex := ← (payload.get "action_index").bind (asUnsigned 32)
    market := ← (order.get "market").bind asStr
    price := ← decimalOf parseDecimal order "price"
    qty := ← decimalOf parseDecimal order "qty"
    venueOrderId := ← (payload.get "venue_order_id").bind asStr }

/-- `str::parse` of an unsigned 32-bit number. -/
def parseU32 (text : List Char) : Option Nat :=
  let digits := match text with
    | '+' :: digits => digits
    | digits => digits
  if digits ≠ [] ∧ digits.all Char.isDigit then
    let value := Nat.ofDigitChars 10 digits 0
    if value < 2 ^ 32 then some value else none
  else
    none

structure DurableOrder where
  orderId : String
  strategy : StrategyId
  market : MarketId
  price : Decimal
  qty : Decimal

section Orders

variable {S V : Type} (run : LiveRun S V)

/-- `durable_order`.  The text of the JSON library for a payload that it
cannot read is left out of the message. -/
def durableOrder (intent : OrderIntent) : Except StartError DurableOrder :=
  match IntentPayload.read run.parseDecimal intent.payload with
  | none => corruptOrder "intent payload is invalid"
  | some payload =>
      if payload.venueOrderId = "" then
        corruptOrder "venue order id is missing"
      else
        match rsplitColon intent.identity.correlationId.toList with
        | none => corruptOrder "intent correlation has no action index"
        | some (decision, actionIndex) =>
            if parseU32 actionIndex ≠ some payload.actionIndex then
              corruptOrder
                "intent correlation and payload action index differ"
            else
              match correlationStrategy (String.ofList decision)
                  run.strategies, Id.new .market payload.market with
              | none, _ =>
                  corruptOrder "intent strategy is missing or ambiguous"
              | some _, .error error => corruptOrder (emptyIdMessage error)
              | some strategy, .ok market =>
                  if (run.strategies.find? fun registration =>
                      registration.id = strategy).all fun registration =>
                        registration.market ≠ market then
                    corruptOrder ("intent market does not match its " ++
                      "strategy registration")
                  else if payload.price < 0 ∨ payload.qty ≤ 0 then
                    corruptOrder ("order price or quantity is outside " ++
                      "its valid range")
                  else
                    .ok
                      { orderId := payload.venueOrderId
                        strategy := strategy
                        market := market
                        price := payload.price
                        qty := payload.qty }

/-- `apply_status_fill`. -/
def applyStatusFill (order : DurableOrder) (details : OrderStatusDetails)
    (risk : LiveRiskState) : Except StartError Decimal :=
  match details.filledQty with
  | none => corruptOrder "venue filled quantity is missing"
  | some filledQty =>
      if filledQty < 0 ∨ order.qty < filledQty then
        corruptOrder ("venue filled quantity is outside the durable " ++
          "order quantity")
      else if risk.filledQty order.orderId ≠ filledQty then
        corruptOrder "venue filled quantity differs from exact durable fills"
      else
        .ok filledQty

structure RecoveredOrders where
  reservations : KeyedMap String Reservation
  openOrders : Finset String
  seen : Finset String

def recoverStatus (risk : LiveRiskState) (recovered : RecoveredOrders)
    (order : DurableOrder) : OrderStatus → Except StartError RecoveredOrders
  | .opened details => do
      let filledQty ← applyStatusFill order details risk
      if order.qty - filledQty = 0 then
        corruptOrder "open order has no remaining quantity"
      else
        return { recovered with
          openOrders := insert order.orderId recovered.openOrders
          reservations := AList.insert order.orderId
            { strategy := order.strategy
              market := order.market
              price := order.price
              remainingQty := order.qty - filledQty } recovered.reservations }
  | .accepted details => do
      if (← applyStatusFill order details risk) ≠ order.qty then
        corruptOrder ("matched order filled quantity differs from " ++
          "durable order quantity")
      else
        return recovered
  | .rejected details => do
      let _ ← applyStatusFill order details risk
      return recovered
  | .cancelled details => do
      let _ ← applyStatusFill order details risk
      return recovered
  | .unknown _ =>
      .error (.executionState (.transport
        ("venue status is unknown for order " ++ order.orderId)))

/-- One pass of the loop of `reconstruct_accepted_orders`. -/
def recoverOrder (queryStatus : String → Except VenueError OrderStatus)
    (risk : LiveRiskState) (recovered : RecoveredOrders)
    (intent : OrderIntent) : Except StartError RecoveredOrders :=
  match durableOrder run intent with
  | .error error => .error error
  | .ok order =>
      if order.orderId ∈ recovered.seen then
        corruptOrder ("venue order " ++ order.orderId ++
          " has multiple durable intents")
      else
        match queryStatus order.orderId with
        | .error source => .error (.executionState source)
        | .ok status =>
            recoverStatus risk
              { recovered with
                seen := insert order.orderId recovered.seen } order status

/-- `reconstruct_accepted_orders`. -/
def reconstructAcceptedOrders
    (queryStatus : String → Except VenueError OrderStatus)
    (risk : LiveRiskState) (intents : List OrderIntent) :
    Except StartError RecoveredOrders :=
  intents.foldlM (recoverOrder run queryStatus risk)
    { reservations := ∅, openOrders := ∅, seen := ∅ }

end Orders

/-! ## Starting -/

namespace LiveState

variable {S V : Type} (run : LiveRun S V)

/-- The next part of a start, unless it has failed. -/
def andThen (state : LiveState S V) (next : LiveState S V → LiveState S V) :
    LiveState S V :=
  if state.result.isSome then state else next state

/-- A run before its start has done anything. -/
def unstarted (store : Option LiveStore) (venue : V) : LiveState S V where
  venue := venue
  strategies := []
  risk := .default
  openOrders := ∅
  reservations := ∅
  rates := .default
  store := store
  trace := .empty
  result := none

/-- `instantiate_strategies`. -/
def instantiate (state : LiveState S V) : LiveState S V :=
  match run.strategies.mapM fun registration =>
      registration.create.map fun strategy =>
        ({ id := registration.id
           market := registration.market
           state := strategy } : StrategyInstance S) with
  | .error message => state.fail (.strategyInit message)
  | .ok strategies => { state with strategies := strategies }

def checkKillState (state : LiveState S V) : LiveState S V :=
  if state.store.any fun store => store.killState run.portfolio then
    state.fail .killSwitchActive
  else
    state

/-- `initial_open_orders`. -/
def initialOpenOrders (state : LiveState S V) : LiveState S V :=
  let (venue, answer) := run.executor.preflight state.venue
  let state := { state with venue := venue }
  match answer with
  | .error source => state.fail (.executionState source)
  | .ok _ => state.reconcileOpenOrders run

def recoverRisk (store : LiveStore) (state : LiveState S V) :
    LiveState S V :=
  match reconstructRiskState run.parseDecimal run.markets run.risk run.text
      store.envelopes run.scope run.fillAuthority with
  | .error source => state.fail (.storage source)
  | .ok risk => { state with risk := risk }

/-- The intents of a scope in the order `accepted_submissions` reads them. -/
def allIntents (store : LiveStore) (scope : OwnerScope) : List OrderIntent :=
  store.intents.readByState scope .pending ++
    store.intents.readByState scope .unknown ++
    store.intents.readByState scope .accepted ++
    store.intents.readByState scope .rejected

/-- The submissions of an earlier start, in the rate windows. -/
def recoverRates (store : LiveStore) (state : LiveState S V) :
    LiveState S V :=
  match acceptedSubmissions run.strategies
      (readDecisions store.decisions run.scope)
      (allIntents store run.scope) with
  | .error source => state.fail (.storage (.causal source))
  | .ok submissions =>
      { state with
        rates := state.rates.restore run.rateLimits submissions }

/-- `recover_intents`: each intent that is settled is a durable write. -/
def recoverIntents (store : LiveStore) :
    List OrderIntent → LiveState S V → LiveState S V
  | [], state => state
  | intent :: rest, state =>
      match CausalRecorder.recoverIntents
          (run.executor.queryStatus state.venue) [intent] store.intents with
      | (_, .error (.executionState source)) =>
          state.fail (.executionState source)
      | (_, .error (.storage source)) =>
          state.fail (.storage (.causal source.storeError))
      | (intents, .ok ()) =>
          let store := { store with intents := intents }
          recoverIntents store rest (state.write store)

/-- The orders of an earlier start.  They must be those the venue says are
open. -/
def recoverOrders (state : LiveState S V) : LiveState S V :=
  match state.store with
  | none => state
  | some store =>
      match reconstructAcceptedOrders run
          (run.executor.queryStatus state.venue) state.risk
          (store.intents.readByState run.scope .accepted) with
      | .error error => state.fail error
      | .ok recovered =>
          if recovered.openOrders ≠ state.openOrders then
            state.fail (.storage (.causal (.storage
              ("invalid durable order recovery: executor open-order " ++
                "snapshot differs from durable accepted intents"))))
          else
            { state with reservations := recovered.reservations }

/-- What a start takes from its store. -/
def recover (state : LiveState S V) : LiveState S V :=
  match state.store with
  | none => state
  | some store =>
      (((state.recoverRisk run store).andThen (recoverRates run store)).andThen
          (recoverIntents run store
            (store.intents.readByState run.scope .pending ++
              store.intents.readByState run.scope .unknown))).andThen
        (recoverOrders run)

/-- `drive_with_control` up to its loop. -/
def start (store : Option LiveStore) (venue : V) : LiveState S V :=
  ((((unstarted store venue).instantiate run).andThen
    (checkKillState run)).andThen (initialOpenOrders run)).andThen
      (recover run)

variable {run}

theorem andThen_running
    {state : LiveState S V} {next : LiveState S V → LiveState S V}
    (running : (state.andThen next).result = none) :
    state.result = none ∧ state.andThen next = next state := by
  unfold andThen at running ⊢
  split
  · rename_i stopped
    rw [if_pos stopped] at running
    rw [running] at stopped
    cases stopped
  · rename_i going
    exact ⟨by simpa using going, rfl⟩

end LiveState

/-! ## A small run -/

namespace SmallRun

def market : MarketId := ⟨"eth-5m", by decide⟩

def portfolio : PortfolioId := ⟨"desk-7", by decide⟩

def maker : StrategyId := ⟨"maker-1", by decide⟩

/-- A loss of one share ends the trading of the run, which has room for one
open order. -/
def limits : RiskLimits where
  maxOrderNotional := 1000
  maxPositionNotional := 1000
  maxPortfolioNotional := 1000
  maxMarketNotional := 1000
  maxStrategyNotional := 1000
  maxOpenOrders := 1
  maxLoss := 1
  maxDailyLoss := 1

def registration : StrategyRegistration Unit where
  id := maker
  market := market
  riskOverrides := { perMarket := ∅, perStrategy := ∅ }
  create := .ok ()

def format : EventFormat Decimal where
  value := id
  text := fun value =>
    if value = 1 / 2 then "0.5" else if value = 2 / 5 then "0.4" else toString value
  debug := id

def fill (number : Nat) (side : Side) (price : Decimal) :
    PmAccountEnvelope Decimal where
  portfolio := portfolio
  metadata :=
    { schemaVersion := 4
      sourceId := "polymarket:user-ws"
      sourceTimeMs := I64.clamp (1000 * number)
      canonicalSourceRank := 0
      receiptTimeMs := I64.clamp (1000 * number)
      connectionId := "polymarket:user-ws"
      connectionEpoch := 0
      frameSequence := I64.clamp number
      ingestSequence := UInt64.ofNat number }
  rawFrame := []
  fact := .fill (.venue ("trade-" ++ toString number))
    { strategy := none
      orderId := "v-" ++ toString number
      market := market
      outcome := .up
      price := price
      size := 10
      side := side
      fee := 0
      liquidity := .taker
      timestampMs := I64.clamp (1000 * number) }

/-- Ten shares bought, and sold again at a loss of one. -/
def buy : PmAccountEnvelope Decimal :=
  fill 1 .buy (1 / 2)

def sell : PmAccountEnvelope Decimal :=
  fill 2 .sell (2 / 5)

/-- The digests of the empty frame and of the two texts. -/
def text : StoreText where
  sha256Hex := fun bytes =>
    if bytes = [] then
      "e3b0c44298fc1c149afbf4c8996fb92427ae41e4649b934ca495991b7852b855"
    else if bytes = (compact toString sortFields
        (accountEnvelopeJson format buy)).toUTF8.toList then
      "60913af8551fc9c10e4e6dd698b1af3a829061bc7abaea81b1f95ab4196965cb"
    else
      "2cc10e5fb5be8c99d07222f350fe4637ac81e1319097ebc64b0e3b66692ba19b"
  writeJson := compact toString sortFields
  parseJson := fun written =>
    [accountEnvelopeJson format buy, accountEnvelopeJson format sell].find?
      fun value => compact toString sortFields value = written
  toLowercase := String.toLower
  toLowercase_display := toLower_display

def run {V : Type} (accountData : Bool) (executor : Executor V)
    (onEvent : Unit → StrategyContext → Unit × Except String (List Action)) :
    LiveRun Unit V where
  id := ⟨"live-1", by decide⟩
  portfolio := portfolio
  risk := limits
  strategies := [registration]
  accountData := accountData
  executor := executor
  onEvent := onEvent
  rateLimits := .default
  text := text
  format := format
  parseDecimal := fun written =>
    if written = "0.5" then
      .ok (1 / 2)
    else if written = "0.4" then
      .ok (2 / 5)
    else
      match written.toNat? with
      | some value => .ok value
      | none => .error "Invalid decimal: unknown character"
  markets := .stored _

def quietVenue : Executor Unit where
  preflight := fun venue => (venue, .ok [])
  reconcile := fun venue => (venue, .ok [])
  queryStatus := fun _ orderId => .error (.notFound orderId)
  submit := fun venue _ _ => (venue, .error (.rejected "market is closed"))

def accountRun : LiveRun Unit Unit :=
  run true quietVenue fun state _ => (state, .ok [])

def store : LiveStore where
  envelopes := .empty
  decisions := []
  intents := ∅
  killStates := ∅

theorem accountRun_starts :
    (LiveState.start accountRun (some store) ()).result = none := rfl

def book (sourceId : String) (ingestSequence : Nat) (outcome : Outcome) :
    PmMarketEnvelope Decimal where
  metadata :=
    { schemaVersion := 4
      sourceId := sourceId
      sourceTimeMs := I64.clamp 1000
      canonicalSourceRank := 0
      receiptTimeMs := I64.clamp 1000
      connectionId := sourceId
      connectionEpoch := 0
      frameSequence := I64.clamp ingestSequence
      ingestSequence := UInt64.ofNat ingestSequence }
  rawFrame := []
  fact := .bookUpdate market outcome [(2 / 5, 100)] [(1 / 2, 100)]
    (I64.clamp 1000)

/-- The two books of the market at one time, and the second of them from
another source. -/
def upBook : PmMarketEnvelope Decimal :=
  book "clob-a" 1 .up

def downBook : PmMarketEnvelope Decimal :=
  book "clob-a" 2 .down

def otherBook : PmMarketEnvelope Decimal :=
  book "clob-b" 1 .down

/-- The digests of the empty frame and of the texts of the three books. -/
def bookText : StoreText where
  sha256Hex := fun bytes =>
    if bytes = [] then
      "e3b0c44298fc1c149afbf4c8996fb92427ae41e4649b934ca495991b7852b855"
    else if bytes = (compact toString sortFields
        (marketEnvelopeJson format upBook)).toUTF8.toList then
      "db77e35a1b3b2a6af75788cc8450d992e9efb7c444863b8dae965dc18510b743"
    else if bytes = (compact toString sortFields
        (marketEnvelopeJson format downBook)).toUTF8.toList then
      "16c6ec57f813864d2019e7ca7fae042cf19c2181a2541b51f2460238204ec219"
    else
      "bc5cbde083fe4f5fa61dcd2ea471d079572c730e78c731634075ed354b0ca6c3"
  writeJson := compact toString sortFields
  parseJson := fun written =>
    [upBook, downBook, otherBook].map (marketEnvelopeJson format) |>.find?
      fun value => compact toString sortFields value = written
  toLowercase := String.toLower
  toLowercase_display := toLower_display

/-- A venue that numbers the orders it accepts and says that none is open. -/
def takingVenue : Executor Nat where
  preflight := fun next => (next, .ok [])
  reconcile := fun next => (next, .ok [])
  queryStatus := fun _ orderId => .error (.notFound orderId)
  submit := fun next _ _ => (next + 1, .ok ("v-" ++ toString next))

def buyerRun : LiveRun Unit Nat :=
  { run false takingVenue fun state context =>
      (state, .ok [.place
        { market := context.market
          outcome := .up
          side := .buy
          price := 1 / 2
          qty := 1
          postOnly := false
          tif := .gtc }]) with
    text := bookText }

theorem buyerRun_starts :
    (LiveState.start buyerRun (some store) 1).result = none := rfl

end SmallRun

end Pmkit
