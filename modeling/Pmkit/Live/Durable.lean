import Pmkit.Live.Risk
import Pmkit.Store.Paging

/-!
# The risk state from stored envelopes

A restart reads the envelopes of its scope in replay order, takes the fills
and settlements out of their JSON again, and applies them to an empty risk
state.  An envelope it cannot read ends the start.
-/

namespace Pmkit

open MachineInt

/-- The failures of the store: those of the envelope table and those of the
causal tables. -/
inductive StoreError where
  | tape (source : TapeStoreError)
  | causal (source : CausalStoreError)
  deriving DecidableEq

/-- `risk_storage_error`. -/
def riskStorageError : RiskStateError → StoreError
  | .corruptRecord message =>
      .tape (.storage
        ("durable risk history is corrupt or inconsistent: " ++ message))

/-- Whose fills a run counts: those of its account source, or those of its
market source when it has none. -/
inductive DurableFillAuthority where
  | account
  | market
  deriving DecidableEq

/-- `RiskStateError::corrupt`. -/
def corrupt {A : Type} (message : String) : Except RiskStateError A :=
  .error (.corruptRecord message)

/-- `string_field`. -/
def stringField (payload : JsonValue) (field : String) :
    Except RiskStateError String :=
  match (payload.get field).bind JsonValue.asStr with
  | some value => .ok value
  | none => corrupt (field ++ " is missing or invalid")

def signedField (payload : JsonValue) (field name : String) :
    Except RiskStateError I64 :=
  match (payload.get field).bind JsonValue.asI64 with
  | some value => .ok (I64.clamp value)
  | none => corrupt (name ++ " is missing or invalid")

/-- `outcome_field`. -/
def outcomeField (payload : JsonValue) : Except RiskStateError Outcome := do
  match ← stringField payload "outcome" with
  | "up" => return .up
  | "down" => return .down
  | outcome => corrupt ("unsupported outcome " ++ outcome)

def sideField (payload : JsonValue) : Except RiskStateError Side := do
  match ← stringField payload "side" with
  | "buy" => return .buy
  | "sell" => return .sell
  | side => corrupt ("unsupported side " ++ side)

def liquidityField (payload : JsonValue) :
    Except RiskStateError Liquidity := do
  match ← stringField payload "liquidity" with
  | "maker" => return .maker
  | "taker" => return .taker
  | liquidity => corrupt ("unsupported liquidity " ++ liquidity)

/-- An identifier made again from its text. -/
def newId (kind : IdKind) (value : String) :
    Except RiskStateError (Id kind) :=
  match Id.new kind value with
  | .ok id => .ok id
  | .error error => corrupt (emptyIdMessage error)

def marketField (payload : JsonValue) : Except RiskStateError MarketId := do
  newId .market (← stringField payload "market")

/-- The strategy of a fill.  An account fill names it, if only by `null`; a
market fill may leave it out. -/
def strategyField (payload : JsonValue)
    (absent : Except RiskStateError (Option StrategyId)) (message : String) :
    Except RiskStateError (Option StrategyId) :=
  match payload.get "strategy" with
  | none => absent
  | some .null => .ok none
  | some (.string strategy) => (newId .strategy strategy).map some
  | some _ => corrupt message

section Reducers

variable (parseDecimal : String → Except String Decimal)

/-- `decimal_field`.  The parser of decimals is that of the decimal library. -/
def decimalField (payload : JsonValue) (field : String) :
    Except RiskStateError Decimal := do
  match parseDecimal (← stringField payload field) with
  | .ok value => return value
  | .error error => corrupt (field ++ " is invalid: " ++ error)

def amountFields (payload : JsonValue) :
    Except RiskStateError (Decimal × Decimal × Decimal) := do
  let price ← decimalField parseDecimal payload "price"
  let size ← decimalField parseDecimal payload "size"
  let fee ← decimalField parseDecimal payload "fee"
  if price < 0 ∨ size ≤ 0 ∨ fee < 0 then
    corrupt "fill price, size, or fee is outside its valid range"
  else
    return (price, size, fee)

def PmEnvelope.transport (record : PmEnvelope) : EventIdentity :=
  .transport record.sourceId record.connectionId record.connectionEpoch
    record.frameSequence

/-- The identity of a payload.  Schema versions up to `legacy` may leave it
out, and are then known by their frame. -/
def durableIdentity (name : String) (legacy : Nat) (record : PmEnvelope)
    (payload : JsonValue) (accountSchemaVersion : Nat) :
    Except RiskStateError EventIdentity :=
  match payload.get "identity" with
  | none =>
      if 1 ≤ accountSchemaVersion ∧ accountSchemaVersion ≤ legacy then
        .ok record.transport
      else if legacy < accountSchemaVersion ∧ accountSchemaVersion ≤ 4 then
        corrupt (name ++ " identity is missing")
      else
        corrupt ("unsupported account schema version " ++
          toString accountSchemaVersion)
  | some identity => do
      match ← stringField identity "source" with
      | "venue" => return .venue (← stringField identity "id")
      | "transport" =>
          let sourceId ← stringField identity "source_id"
          let connectionId ← stringField identity "connection_id"
          let connectionEpoch ←
            signedField identity "connection_epoch" "connection_epoch"
          let frameSequence ←
            signedField identity "frame_sequence" "frame_sequence"
          return .transport sourceId connectionId connectionEpoch frameSequence
      | source => corrupt ("unsupported " ++ name ++ " identity source " ++ source)

/-- `durable_fill_identity`. -/
def durableFillIdentity : PmEnvelope → JsonValue → Nat →
    Except RiskStateError EventIdentity :=
  durableIdentity "fill" 2

/-- `durable_settlement_identity`. -/
def durableSettlementIdentity : PmEnvelope → JsonValue → Nat →
    Except RiskStateError EventIdentity :=
  durableIdentity "settlement" 3

/-! ## Records -/

def durableAccountFill (record : PmEnvelope) (payload : JsonValue)
    (accountSchemaVersion : Nat) (timestampMs : I64) :
    Except RiskStateError (PmAccountEvent Decimal) := do
  let strategy ← strategyField payload
    (corrupt "strategy is missing or invalid") "strategy is missing or invalid"
  let market ← marketField payload
  let (price, size, fee) ← amountFields parseDecimal payload
  let identity ← durableFillIdentity record payload accountSchemaVersion
  let orderId ← stringField payload "order_id"
  let outcome ← outcomeField payload
  let side ← sideField payload
  let liquidity ← liquidityField payload
  return .fill identity
    { strategy := strategy
      orderId := orderId
      market := market
      outcome := outcome
      price := price
      size := size
      side := side
      fee := fee
      liquidity := liquidity
      timestampMs := timestampMs }

def durableAccountSettlement (record : PmEnvelope) (payload : JsonValue)
    (accountSchemaVersion : Nat) (timestampMs : I64) :
    Except RiskStateError (PmAccountEvent Decimal) := do
  let identity ← durableSettlementIdentity record payload accountSchemaVersion
  let market ← marketField payload
  let outcome ← outcomeField payload
  let settledSize ← decimalField parseDecimal payload "settled_size"
  let proceeds ← decimalField parseDecimal payload "proceeds"
  return .settlement identity market outcome settledSize proceeds timestampMs

def durableAccountEvent (portfolio : PortfolioId) (record : PmEnvelope) :
    Except RiskStateError (Option (PmAccountEvent Decimal)) :=
  match record.normalized.get "portfolio" with
  | none => .ok none
  | some recordPortfolio =>
      match recordPortfolio.asStr with
      | none => corrupt "portfolio is invalid"
      | some recordPortfolio =>
          if recordPortfolio ≠ portfolio.value then
            corrupt ("record owner " ++ recordPortfolio ++
              " does not match " ++ portfolio.value)
          else
            match (record.normalized.get "schema_version").bind
                (JsonValue.asUnsigned 64) with
            | none => corrupt "account schema version is missing or invalid"
            | some version =>
                if version = 0 ∨ 4 < version then
                  corrupt ("unsupported account schema version " ++
                    toString version)
                else
                  match record.normalized.get "payload" with
                  | none => corrupt "account payload is missing"
                  | some payload => do
                      let timestampMs ←
                        signedField payload "ts" "event timestamp"
                      match ← stringField payload "kind" with
                      | "fill" =>
                          some <$> durableAccountFill parseDecimal record
                            payload version timestampMs
                      | "settlement" =>
                          some <$> durableAccountSettlement parseDecimal
                            record payload version timestampMs
                      | "order_ack" => return none
                      | "order_cancelled" => return none
                      | "order_rejected" => return none
                      | "order_status" => return none
                      | kind =>
                          corrupt ("unsupported account event kind " ++ kind)

def durableMarketFill (record : PmEnvelope) :
    Except RiskStateError (Option (FillEvent Decimal)) :=
  match record.normalized.get "portfolio" with
  | some _ => .ok none
  | none =>
      match record.normalized.get "payload" with
      | none => corrupt "market payload is missing"
      | some payload => do
          if (← stringField payload "kind") ≠ "fill" then
            return none
          let strategy ← strategyField payload (.ok none) "strategy is invalid"
          let (price, size, fee) ← amountFields parseDecimal payload
          let orderId ← stringField payload "order_id"
          let market ← marketField payload
          let outcome ← outcomeField payload
          let side ← sideField payload
          let liquidity ← liquidityField payload
          let timestampMs ← signedField payload "ts" "event timestamp"
          return some
            { strategy := strategy
              orderId := orderId
              market := market
              outcome := outcome
              price := price
              size := size
              side := side
              fee := fee
              liquidity := liquidity
              timestampMs := timestampMs }

variable (order : IterationOrder MarketId) (limits : RiskLimits)

namespace LiveRiskState

/-- `apply_durable_account_record`. -/
def applyDurableAccountRecord (portfolio : PortfolioId)
    (state : LiveRiskState) (record : PmEnvelope) :
    Except RiskStateError LiveRiskState :=
  match durableAccountEvent parseDecimal portfolio record with
  | .error error => .error error
  | .ok none => .ok state
  | .ok (some event) =>
      (state.applyAccountEvent order limits event).map Prod.fst

/-- `apply_durable_market_record`. -/
def applyDurableMarketRecord (state : LiveRiskState) (record : PmEnvelope) :
    Except RiskStateError LiveRiskState :=
  match durableMarketFill parseDecimal record with
  | .error error => .error error
  | .ok none => .ok state
  | .ok (some fill) =>
      .ok (state.applyFill order limits record.transport fill).1

def applyItem (portfolio : PortfolioId) (authority : DurableFillAuthority)
    (state : LiveRiskState) : ReplayItem → Except StoreError LiveRiskState
  | .envelope record =>
      (match authority with
      | .account => state.applyDurableAccountRecord parseDecimal order limits
          portfolio record
      | .market => state.applyDurableMarketRecord parseDecimal order limits
          record).mapError riskStorageError
  | .gap gap =>
      .error (.tape (.storage
        ("durable risk history has a replay gap at ingest " ++
          toString gap.ingestSequence.1 ++ ": " ++ gap.reason.debug)))

end LiveRiskState

/-- The page size of `reconstruct_risk_state`. -/
def riskPageSize : ℕ+ := ⟨256, by decide⟩

/-- `reconstruct_risk_state`. -/
def reconstructRiskState (text : StoreText) (table : EnvelopeTable)
    (scope : OwnerScope) (authority : DurableFillAuthority) :
    Except StoreError LiveRiskState :=
  table.forAll text scope riskPageSize (fun _ error => .tape error)
    (LiveRiskState.applyItem parseDecimal order limits scope.portfolioId
      authority) .default

end Reducers

end Pmkit
