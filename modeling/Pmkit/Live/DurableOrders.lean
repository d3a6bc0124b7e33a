import Pmkit.Live.Admissions

/-!
# What recovery reads of an accepted order

An accepted intent holds its order as JSON and its strategy in the text of its
correlation id.  Recovery takes both apart again and looks for the first
registration of the strategy, whose market has to be the market of the order.
-/

namespace Pmkit

open MachineInt JsonValue

theorem rsplitColon_eq_none {text : List Char} (absent : ':' ∉ text) :
    rsplitColon text = none := by
  induction text with
  | nil => rfl
  | cons letter rest ih =>
      rw [rsplitColon, ih fun mem => absent (List.mem_cons_of_mem letter mem)]
      simp only
      rw [if_neg]
      rintro rfl
      exact absent List.mem_cons_self

/-- A text is cut at its last colon. -/
theorem rsplitColon_append {before after : List Char} (absent : ':' ∉ after) :
    rsplitColon (before ++ ':' :: after) = some (before, after) := by
  induction before with
  | nil =>
      rw [List.nil_append, rsplitColon, rsplitColon_eq_none absent]
      rfl
  | cons letter rest ih =>
      rw [List.cons_append, rsplitColon, ih]

theorem parseU32_digits (value : UInt32) :
    parseU32 (Nat.toDigits 10 value.toNat) = some value.toNat := by
  have digit : ∀ letter ∈ Nat.toDigits 10 value.toNat, letter.isDigit = true :=
    fun letter mem =>
      Nat.isDigit_of_mem_toDigits (by decide) (by decide) mem
  have read := @Nat.ofDigitChars_ten_toDigits value.toNat
  have some : Nat.toDigits 10 value.toNat ≠ [] := Nat.toDigits_ne_nil
  generalize Nat.toDigits 10 value.toNat = text at *
  cases text with
  | nil => exact absurd rfl some
  | cons first rest =>
      have unsigned : first ≠ '+' := by
        rintro rfl
        exact absurd (digit '+' List.mem_cons_self) (by decide)
      have all : (first :: rest).all Char.isDigit = true :=
        List.all_eq_true.mpr digit
      simpa [parseU32, unsigned, all, read] using value.toNat_lt

/-! ## Intents that are read back -/

/-- The market that recovery takes a strategy to be registered on: that of its
first registration. -/
def LiveRun.registeredMarket {S V : Type} (run : LiveRun S V)
    (strategy : StrategyId) : Option MarketId :=
  (run.strategies.find? fun registration =>
    registration.id = strategy).map StrategyRegistration.market

/-- An order of a strategy that recovery takes for what it is: it names the
registered market, its price and its quantity are in range and read back from
their texts, and the venue has named it. -/
structure PlaceOrder.ReadsBack {S V : Type} (run : LiveRun S V)
    (strategy : StrategyId) (order : PlaceOrder) (orderId : String) :
    Prop where
  market : run.registeredMarket strategy = some order.market
  price : 0 ≤ order.price
  qty : 0 < order.qty
  priceText : run.parseDecimal (run.format.text order.price) = .ok order.price
  qtyText : run.parseDecimal (run.format.text order.qty) = .ok order.qty
  named : orderId ≠ ""

section Reading

variable {parseDecimal : String → Except String Decimal}

theorem decimalOf_of_text {value : JsonValue}
    {field text : String} {number : Decimal}
    (found : value.get field = some (string text))
    (read : parseDecimal text = .ok number) :
    decimalOf parseDecimal value field = some number := by
  simp only [decimalOf, found, Option.bind_some, asStr, Option.map_some, read,
    Except.toOption]

theorem IntentPayload.read_of_fields
    {payload order : JsonValue} {index : Nat} {market orderId : String}
    {price qty : Decimal} (isOrder : payload.get "order" = some order)
    (actionIndex : (payload.get "action_index").bind (asUnsigned 32) =
      some index)
    (named : order.get "market" = some (string market))
    (priced : decimalOf parseDecimal order "price" = some price)
    (sized : decimalOf parseDecimal order "qty" = some qty)
    (accepted : payload.get "venue_order_id" = some (string orderId)) :
    IntentPayload.read parseDecimal payload =
      some
        { actionIndex := index
          market := market
          price := price
          qty := qty
          venueOrderId := orderId } := by
  simp only [IntentPayload.read, isOrder, actionIndex, named, priced, sized,
    accepted, asStr, Option.bind_eq_bind, Option.bind_some, pure]

variable {S V : Type} {run : LiveRun S V} {strategy : StrategyId}
  {request : IntentRequest} {orderId : String}

theorem IntentPayload.read_accepted
    (reads : request.order.ReadsBack run strategy orderId) :
    IntentPayload.read run.parseDecimal
        ((request.intent run.format.text).payload.set "venue_order_id"
          (string orderId)) =
      some
        { actionIndex := request.actionIndex.toNat
          market := request.order.market.value
          price := request.order.price
          qty := request.order.qty
          venueOrderId := orderId } := by
  have small : request.actionIndex.toNat < 2 ^ 32 := by
    have bound := request.actionIndex.toNat_lt
    omega
  obtain ⟨order, isOrder, market, price, qty⟩ : ∃ order,
      ((request.intent run.format.text).payload.set "venue_order_id"
        (string orderId)).get "order" = some order ∧
      order.get "market" = some (string request.order.market.value) ∧
      order.get "price" = some (string (run.format.text request.order.price)) ∧
      order.get "qty" = some (string (run.format.text request.order.qty)) :=
    ⟨_, rfl, rfl, rfl, rfl⟩
  have isIndex : ((request.intent run.format.text).payload.set "venue_order_id"
      (string orderId)).get "action_index" =
        some (number request.actionIndex.toNat) := rfl
  have index : (((request.intent run.format.text).payload.set "venue_order_id"
      (string orderId)).get "action_index").bind (asUnsigned 32) =
        some request.actionIndex.toNat := by
    rw [isIndex, Option.bind_some, asUnsigned_number small]
  exact IntentPayload.read_of_fields isOrder index market
    (decimalOf_of_text price reads.priceText)
    (decimalOf_of_text qty reads.qtyText) rfl

theorem IntentRequest.correlation_cut
    (decimalText : Decimal → String) (request : IntentRequest) :
    rsplitColon (request.intent decimalText).identity.correlationId.toList =
      some (request.decision.correlationId.toList,
        Nat.toDigits 10 request.actionIndex.toNat) := by
  have named : (request.intent decimalText).identity.correlationId =
    intentCorrelationId request.decision.correlationId request.actionIndex :=
      rfl
  rw [named, intentCorrelationId_toList]
  exact rsplitColon_append (colon_not_mem_digits _)

theorem durableOrder_of_parts
    {identity : CausalIdentity} {json : JsonValue} {payload : IntentPayload}
    {decision index : List Char} {market : MarketId}
    (read : IntentPayload.read run.parseDecimal json = some payload)
    (named : payload.venueOrderId ≠ "")
    (cut : rsplitColon identity.correlationId.toList = some (decision, index))
    (sameIndex : parseU32 index = some payload.actionIndex)
    (found : correlationStrategy (String.ofList decision) run.strategies =
      some strategy)
    (marketRead : Id.new .market payload.market = .ok market)
    (registered : run.registeredMarket strategy = some market)
    (price : 0 ≤ payload.price) (qty : 0 < payload.qty) :
    durableOrder run { identity := identity, payload := json } =
      .ok
        { orderId := payload.venueOrderId
          strategy := strategy
          market := market
          price := payload.price
          qty := payload.qty } := by
  obtain ⟨registration, first, isMarket⟩ :=
    Option.map_eq_some_iff.mp registered
  have inRange : ¬ (payload.price < 0 ∨ payload.qty ≤ 0) := by
    rintro (negative | none)
    · exact absurd price (not_le.mpr negative)
    · exact absurd qty (not_lt.mpr none)
  simp only [durableOrder, read, named, if_false, cut, sameIndex, ne_eq,
    not_true_eq_false, found, marketRead, first, Option.all_some, isMarket,
    decide_false, Bool.false_eq_true, inRange]

theorem durableOrder_accepted
    (reads : request.order.ReadsBack run strategy orderId)
    (starts : startsWith request.decision.correlationId
      (strategyPrefix strategy) = true) :
    durableOrder run
        { identity := (request.intent run.format.text).identity
          payload := (request.intent run.format.text).payload.set
            "venue_order_id" (string orderId) } =
      .ok
        { orderId := orderId
          strategy := strategy
          market := request.order.market
          price := request.order.price
          qty := request.order.qty } := by
  obtain ⟨registration, first, market⟩ :=
    Option.map_eq_some_iff.mp reads.market
  have isStrategy : registration.id = strategy := by
    simpa using List.find?_some first
  have found : correlationStrategy
      (String.ofList request.decision.correlationId.toList) run.strategies =
        some strategy := by
    rw [String.ofList_toList, ← isStrategy]
    exact correlationStrategy_eq (List.mem_of_find?_eq_some first)
      (isStrategy ▸ starts)
  have read := IntentPayload.read_accepted reads
  have cut := IntentRequest.correlation_cut run.format.text request
  generalize (request.intent run.format.text).payload.set "venue_order_id"
    (string orderId) = json at read ⊢
  exact durableOrder_of_parts read reads.named cut
    (parseU32_digits request.actionIndex) found
    (dif_pos request.order.market.notBlank) reads.market reads.price reads.qty

end Reading

/-- The ids of the decisions of a registered strategy, and of their intents, are
found to be of that strategy; the id of an intent is cut into its decision and
the place of its action. -/
theorem correlationStrategy_names
    {S : Type} (registrations : List (StrategyRegistration S))
    (registration : StrategyRegistration S)
    (registered : registration ∈ registrations) (market : MarketId)
    (timestampMs : I64) (sourceKind sourceId : String)
    (aggregateTradeId : Option UInt64) (ingestSequence : UInt64)
    (actionIndex : UInt32) :
    correlationStrategy (strategyEventCorrelationId registration.id market
        timestampMs sourceKind sourceId aggregateTradeId ingestSequence)
        registrations = some registration.id ∧
      correlationStrategy (intentCorrelationId
        (strategyEventCorrelationId registration.id market timestampMs
          sourceKind sourceId aggregateTradeId ingestSequence) actionIndex)
        registrations = some registration.id ∧
      ∀ (decimalText : Decimal → String) (request : IntentRequest),
        ∃ index, rsplitColon
            (request.intent decimalText).identity.correlationId.toList =
              some (request.decision.correlationId.toList, index) ∧
          parseU32 index = some request.actionIndex.toNat := by
  have starts := startsWith_event registration.id market timestampMs
    sourceKind sourceId aggregateTradeId ingestSequence
  refine ⟨correlationStrategy_eq registered starts, ?_, ?_⟩
  · apply correlationStrategy_eq registered
    unfold intentCorrelationId
    iterate 2 apply startsWith_append
    exact starts
  · intro decimalText request
    exact ⟨_, request.correlation_cut decimalText,
      parseU32_digits request.actionIndex⟩

namespace ColonSample

def registration (id : StrategyId) : StrategyRegistration Unit where
  id := id
  market := ⟨"market:1:a", by decide⟩
  riskOverrides := { perMarket := ∅, perStrategy := ∅ }
  create := .ok ()

def registrations : List (StrategyRegistration Unit) :=
  [registration ⟨"1:a", by decide⟩,
    registration ⟨"1:a:market:1", by decide⟩]

end ColonSample

theorem correlationStrategy_names_colons :
    correlationStrategy (strategyEventCorrelationId
        ⟨"1:a:market:1", by decide⟩ ⟨"market:1:a", by decide⟩ 1000 "cex-trade"
        "1:a" (some 7) 1) ColonSample.registrations =
      some ⟨"1:a:market:1", by decide⟩ :=
  (correlationStrategy_names ColonSample.registrations
    (ColonSample.registration ⟨"1:a:market:1", by decide⟩)
    (List.mem_cons_of_mem _ List.mem_cons_self) ⟨"market:1:a", by decide⟩ 1000
    "cex-trade" "1:a" (some 7) 1 0).1

end Pmkit
