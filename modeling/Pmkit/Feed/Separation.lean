import Pmkit.Feed.Order
import Pmkit.Library.Delimited

/-!
# What the order of queued facts tells apart

Facts that compare equal leave the heap in any order.  The order reads keys and
rendered texts: it reads nothing but the key of a reference trade, never a
strategy nor a liquidity, and it joins two names with a colon that either of
them may hold.
-/

namespace Pmkit

open MachineInt

section Map

variable {D E : Type} (convert : D → E)

def FillEvent.map (filled : FillEvent D) : FillEvent E where
  strategy := filled.strategy
  orderId := filled.orderId
  market := filled.market
  outcome := filled.outcome
  price := convert filled.price
  size := convert filled.size
  side := filled.side
  fee := convert filled.fee
  liquidity := filled.liquidity
  timestampMs := filled.timestampMs

def mapLevel (level : D × D) : E × E :=
  (convert level.1, convert level.2)

def MarketEvent.map : MarketEvent D → MarketEvent E
  | .bookUpdate market outcome bids asks timestampMs =>
      .bookUpdate market outcome (bids.map (mapLevel convert))
        (asks.map (mapLevel convert)) timestampMs
  | .bestBidAsk market outcome bid ask timestampMs =>
      .bestBidAsk market outcome (convert bid) (convert ask) timestampMs
  | .lastTrade market outcome price side size timestampMs =>
      .lastTrade market outcome (convert price) side (convert size) timestampMs
  | .fill filled => .fill (filled.map convert)
  | .orderAck strategy orderId timestampMs =>
      .orderAck strategy orderId timestampMs
  | .tick timestampMs => .tick timestampMs

def PmAccountEvent.map : PmAccountEvent D → PmAccountEvent E
  | .fill identity filled => .fill identity (filled.map convert)
  | .orderAck strategy orderId timestampMs =>
      .orderAck strategy orderId timestampMs
  | .orderCancelled strategy orderId timestampMs =>
      .orderCancelled strategy orderId timestampMs
  | .orderRejected strategy orderId reason timestampMs =>
      .orderRejected strategy orderId reason timestampMs
  | .orderStatus strategy orderId status timestampMs =>
      .orderStatus strategy orderId status timestampMs
  | .settlement identity market outcome settledSize proceeds timestampMs =>
      .settlement identity market outcome (convert settledSize)
        (convert proceeds) timestampMs

def CexReferenceEvent.map (trade : CexReferenceEvent D) :
    CexReferenceEvent E where
  asset := trade.asset
  exchange := trade.exchange
  aggregateTradeId := trade.aggregateTradeId
  price := convert trade.price
  qty := convert trade.qty
  isBuyerMaker := trade.isBuyerMaker
  timestampMs := trade.timestampMs

def StrategyFact.map : StrategyFact D → StrategyFact E
  | .market fact => .market (fact.map convert)
  | .account fact => .account (fact.map convert)
  | .reference fact => .reference (fact.map convert)

end Map

/-- `eq` of two facts: decimals are equal when their values are. -/
def StrategyFact.Same {D : Type} (format : EventFormat D)
    (left right : StrategyFact D) : Prop :=
  left.map format.value = right.map format.value

/-! ## Texts that read back -/

def Whole (text : String) : Prop :=
  ':' ∉ text.toList

instance (text : String) : Decidable (Whole text) :=
  inferInstanceAs (Decidable (':' ∉ text.toList))

/-- What the formatting of the language promises: the text of a decimal shows
its value and has no colon, and a quoted string shows where it ends. -/
structure EventFormat.Legible {D : Type} (format : EventFormat D) :
    Prop where
  value_of_text : ∀ left right,
    format.text left = format.text right → format.value left = format.value right
  whole_text : ∀ value, Whole (format.text value)
  debug_ends : Delimited.SelfDelimiting fun text => (format.debug text).toList

theorem append_colon_inj {left right leftEnd rightEnd : String}
    (whole : Whole leftEnd) (whole' : Whole rightEnd) :
    left ++ ":" ++ leftEnd = right ++ ":" ++ rightEnd ↔
      left = right ∧ leftEnd = rightEnd := by
  constructor
  · intro same
    have lists := congrArg String.toList same
    have colon : ":".toList = [':'] := rfl
    simp only [String.toList_append, colon, List.append_assoc,
      List.singleton_append] at lists
    obtain ⟨front, back⟩ := Delimited.cut_last whole whole' lists
    exact ⟨String.toList_injective front, String.toList_injective back⟩
  · rintro ⟨rfl, rfl⟩
    rfl

theorem Side.whole_debug (side : Side) : Whole side.debug := by
  cases side <;> decide

theorem Side.debug_inj {left right : Side} :
    left.debug = right.debug ↔ left = right := by
  cases left <;> cases right <;> decide

theorem Outcome.whole_debug (outcome : Outcome) : Whole outcome.debug := by
  cases outcome <;> decide

theorem Outcome.debug_inj {left right : Outcome} :
    left.debug = right.debug ↔ left = right := by
  cases left <;> cases right <;> decide

theorem I64.letter_of_text
    {value : I64} {letter : Char} (mem : letter ∈ (I64.text value).toList) :
    letter = '-' ∨ letter.isDigit = true :=
  Delimited.letter_of_mem_toString mem

theorem I64.text_inj {left right : I64} :
    I64.text left = I64.text right ↔ left = right := by
  constructor
  · intro same
    exact Subtype.ext
      (Delimited.toString_injective (congrArg String.toList same))
  · rintro rfl
    rfl

theorem I64.absent_of_text
    {stop : Char} (noDigit : stop.isDigit = false) (noSign : stop ≠ '-')
    (value : I64) : stop ∉ (I64.text value).toList := by
  intro mem
  rcases I64.letter_of_text mem with minus | digit
  · exact noSign minus
  · rw [noDigit] at digit
    cases digit

theorem I64.whole_text (value : I64) : Whole (I64.text value) :=
  I64.absent_of_text (by decide) (by decide) value

theorem append_time_inj {left right : String} {time time' : I64} :
    left ++ ":" ++ I64.text time = right ++ ":" ++ I64.text time' ↔
      left = right ∧ time = time' := by
  rw [append_colon_inj (I64.whole_text time) (I64.whole_text time'),
    I64.text_inj]

namespace EventIdentity

variable {D : Type} {format : EventFormat D}

theorem debug_venue (id : String) :
    debug format (.venue id) = "Venue(" ++ format.debug id ++ ")" :=
  rfl

theorem debug_transport (source connection : String) (epoch frame : I64) :
    debug format (.transport source connection epoch frame) =
      "Transport \x7b source_id: " ++ format.debug source ++
        ", connection_id: " ++ format.debug connection ++
        ", connection_epoch: " ++ I64.text epoch ++
        ", frame_sequence: " ++ I64.text frame ++ " \x7d" :=
  rfl

theorem debug_ends (legible : format.Legible) :
    Delimited.SelfDelimiting fun identity => (debug format identity).toList := by
  have first : ∀ (id source connection : String) (epoch frame : I64)
      (leftRest rightRest : List Char),
      (debug format (.venue id)).toList ++ leftRest ≠
        (debug format (.transport source connection epoch frame)).toList ++
          rightRest := by
    intro id source connection epoch frame leftRest rightRest same
    have venue : "Venue(".toList = 'V' :: "enue(".toList := rfl
    have transport : "Transport \x7b source_id: ".toList =
      'T' :: "ransport \x7b source_id: ".toList := rfl
    rw [debug_venue, debug_transport] at same
    simp only [String.toList_append, List.append_assoc, venue, transport,
      List.cons_append] at same
    exact absurd (List.cons.inj same).1 (by decide)
  intro left right leftRest rightRest same
  cases left with
  | venue id =>
      cases right with
      | venue id' =>
          simp only [debug_venue, String.toList_append, List.append_assoc]
            at same
          obtain ⟨rfl, rest⟩ :=
            legible.debug_ends _ _ _ _ (List.append_cancel_left same)
          exact ⟨rfl, List.append_cancel_left rest⟩
      | transport => exact absurd same (first _ _ _ _ _ _ _)
  | transport source connection epoch frame =>
      cases right with
      | venue id' => exact absurd same.symm (first _ _ _ _ _ _ _)
      | transport source' connection' epoch' frame' =>
          have comma : ", frame_sequence: ".toList =
            ',' :: " frame_sequence: ".toList := rfl
          have brace : " \x7d".toList = ' ' :: "\x7d".toList := rfl
          simp only [debug_transport, String.toList_append, List.append_assoc,
            comma, brace, List.cons_append] at same
          obtain ⟨rfl, connections⟩ :=
            legible.debug_ends _ _ _ _ (List.append_cancel_left same)
          obtain ⟨rfl, epochs⟩ :=
            legible.debug_ends _ _ _ _ (List.append_cancel_left connections)
          have commaAbsent := fun value =>
            @I64.absent_of_text ',' (by decide) (by decide) value
          have blankAbsent := fun value =>
            @I64.absent_of_text ' ' (by decide) (by decide) value
          obtain ⟨epochTexts, frames⟩ := Delimited.cut_first
            (commaAbsent epoch) (commaAbsent epoch')
            (List.append_cancel_left epochs)
          obtain ⟨frameTexts, rests⟩ := Delimited.cut_first
            (blankAbsent frame) (blankAbsent frame')
            (List.append_cancel_left frames)
          rw [I64.text_inj.mp (String.toList_injective epochTexts),
            I64.text_inj.mp (String.toList_injective frameTexts)]
          exact ⟨rfl, List.append_cancel_left rests⟩

theorem debug_append_inj (legible : format.Legible) {left right : EventIdentity}
    {leftRest rightRest : String} :
    debug format left ++ ":" ++ leftRest =
        debug format right ++ ":" ++ rightRest ↔
      left = right ∧ leftRest = rightRest := by
  constructor
  · intro same
    have lists := congrArg String.toList same
    simp only [String.toList_append, List.append_assoc] at lists
    obtain ⟨rfl, rests⟩ := debug_ends legible _ _ _ _ lists
    exact ⟨rfl, String.toList_injective (List.append_cancel_left rests)⟩
  · rintro ⟨rfl, rfl⟩
    rfl

theorem debug_append_pair_inj
    (legible : format.Legible) {left right : EventIdentity}
    {first first' second second' : String} :
    debug format left ++ ":" ++ first ++ ":" ++ second =
        debug format right ++ ":" ++ first' ++ ":" ++ second' ↔
      left = right ∧ first ++ ":" ++ second = first' ++ ":" ++ second' := by
  have joined : ∀ start first second : String,
      start ++ ":" ++ first ++ ":" ++ second =
        start ++ ":" ++ (first ++ ":" ++ second) := by
    intro start first second
    simp only [String.append_assoc]
  rw [joined, joined, debug_append_inj legible]

end EventIdentity

section Apart

variable {D : Type} (format : EventFormat D)

def FillEvent.figures (filled : FillEvent D) :
    Outcome × String × String × Side × String × I64 :=
  (filled.outcome, format.text filled.price, format.text filled.size,
    filled.side, format.text filled.fee, filled.timestampMs)

def MarketEvent.ToldApart : MarketEvent D → MarketEvent D → Prop
  | .fill left, .fill right =>
      left.market = right.market → left.orderId = right.orderId →
        left.figures format = right.figures format →
          left.strategy = right.strategy ∧ left.liquidity = right.liquidity
  | .orderAck strategy orderId timestampMs,
      .orderAck strategy' orderId' timestampMs' =>
      orderId = orderId' → timestampMs = timestampMs' → strategy = strategy'
  | _, _ => True

/-- Two account facts do not differ in a strategy or a liquidity only, nor in
where the colon between two of their texts stands. -/
def PmAccountEvent.ToldApart : PmAccountEvent D → PmAccountEvent D → Prop
  | .fill identity left, .fill identity' right =>
      identity = identity' →
      left.orderId ++ ":" ++ left.market.value =
        right.orderId ++ ":" ++ right.market.value →
      left.figures format = right.figures format →
        left.orderId = right.orderId ∧ left.strategy = right.strategy ∧
          left.liquidity = right.liquidity
  | .orderAck strategy orderId timestampMs,
      .orderAck strategy' orderId' timestampMs' =>
      orderId = orderId' → timestampMs = timestampMs' → strategy = strategy'
  | .orderCancelled strategy orderId timestampMs,
      .orderCancelled strategy' orderId' timestampMs' =>
      orderId = orderId' → timestampMs = timestampMs' → strategy = strategy'
  | .orderRejected strategy orderId reason timestampMs,
      .orderRejected strategy' orderId' reason' timestampMs' =>
      orderId ++ ":" ++ reason = orderId' ++ ":" ++ reason' →
        timestampMs = timestampMs' → orderId = orderId' ∧ strategy = strategy'
  | .orderStatus strategy orderId status timestampMs,
      .orderStatus strategy' orderId' status' timestampMs' =>
      orderId ++ ":" ++ status = orderId' ++ ":" ++ status' →
        timestampMs = timestampMs' → orderId = orderId' ∧ strategy = strategy'
  | _, _ => True

/-- Two envelopes of one canonical key differ in something the order reads, or
carry one fact: a key holds one reference trade. -/
def SourceEnvelope.ToldApart (left right : SourceEnvelope D) : Prop :=
  left.canonicalKey = right.canonicalKey →
    match left, right with
    | .pmMarket left, .pmMarket right =>
        MarketEvent.ToldApart format left.fact right.fact
    | .pmAccount left, .pmAccount right =>
        PmAccountEvent.ToldApart format left.fact right.fact
    | .cexReference left, .cexReference right =>
        left.fact.map format.value = right.fact.map format.value
    | _, _ => True

end Apart

/-! ## Comparisons that end in equality -/

section Equal

variable {D : Type} {format : EventFormat D}

theorem FillEvent.map_of_figures
    (legible : format.Legible) {left right : FillEvent D}
    (same : left.figures format = right.figures format)
    (market : left.market = right.market)
    (orderId : left.orderId = right.orderId) :
    left.map format.value = right.map format.value ↔
      left.strategy = right.strategy ∧ left.liquidity = right.liquidity := by
  simp only [figures, Prod.mk.injEq] at same
  obtain ⟨outcome, price, size, side, fee, timestampMs⟩ := same
  have values := legible.value_of_text
  simp only [map, FillEvent.mk.injEq, market, orderId, outcome, side,
    timestampMs, values _ _ price, values _ _ size, values _ _ fee, true_and,
    and_true]

namespace MarketEvent

theorem values_of_compareLevels {left right : List (D × D)}
    (same : compareLevels format left right = .eq) :
    left.map (mapLevel format.value) = right.map (mapLevel format.value) := by
  induction left generalizing right with
  | nil =>
      cases right with
      | nil => rfl
      | cons level rest => cases same
  | cons level rest ih =>
      cases right with
      | nil => cases same
      | cons level' rest' =>
          rw [compareLevels, List.compareLex_cons_cons, Ordering.then_eq_eq]
            at same
          obtain ⟨first, later⟩ := same
          rw [compareLevel, compareLex_eq_eq] at first
          rw [List.map_cons, List.map_cons, ih later]
          have prices : format.value level.1 = format.value level'.1 :=
            compare_eq_iff_eq.mp first.1
          have sizes : format.value level.2 = format.value level'.2 :=
            compare_eq_iff_eq.mp first.2
          rw [mapLevel, mapLevel, prices, sizes]

theorem compareFacts_eq_eq_iff {left right : MarketEvent D} :
    compareFacts format left right = .eq ↔
      left.timestampMs = right.timestampMs ∧
        left.marketKey = right.marketKey ∧
        left.outcomeRank = right.outcomeRank ∧
        left.kindRank = right.kindRank ∧
        compareDetail format left right = .eq := by
  simp only [compareFacts, Ordering.then_eq_eq, and_assoc]
  exact and_congr compare_eq_iff_eq
    (and_congr Std.LawfulEqOrd.compare_eq_iff_eq
      (and_congr compare_eq_iff_eq (and_congr_left' compare_eq_iff_eq)))

theorem market_of_marketKey
    {market market' : MarketId} (same : market.value = market'.value) :
    market = market' :=
  Id.ext_value same

theorem outcome_of_rank
    {outcome outcome' : Outcome} (same : outcome.rank = outcome'.rank) :
    outcome = outcome' := by
  cases outcome <;> cases outcome' <;> first | rfl | cases same

/-- Texts that are joined with colons agree when each part does. -/
theorem detailKey_bestBidAsk
    (legible : format.Legible) {market market' : MarketId}
    {outcome outcome' : Outcome} {bid bid' ask ask' : D}
    {timestampMs timestampMs' : I64} :
    detailKey format (.bestBidAsk market outcome bid ask timestampMs) =
        detailKey format (.bestBidAsk market' outcome' bid' ask' timestampMs') ↔
      format.text bid = format.text bid' ∧
        format.text ask = format.text ask' :=
  append_colon_inj (legible.whole_text ask) (legible.whole_text ask')

theorem detailKey_lastTrade
    (legible : format.Legible) {market market' : MarketId}
    {outcome outcome' : Outcome} {price price' size size' : D}
    {side side' : Side} {timestampMs timestampMs' : I64} :
    detailKey format (.lastTrade market outcome price side size timestampMs) =
        detailKey format
          (.lastTrade market' outcome' price' side' size' timestampMs') ↔
      (format.text price = format.text price' ∧ side = side') ∧
        format.text size = format.text size' := by
  show _ ++ ":" ++ _ ++ ":" ++ _ = _ ++ ":" ++ _ ++ ":" ++ _ ↔ _
  rw [append_colon_inj (legible.whole_text size) (legible.whole_text size'),
    append_colon_inj side.whole_debug side'.whole_debug, Side.debug_inj]

theorem detailKey_fill (legible : format.Legible) {left right : FillEvent D} :
    detailKey format (.fill left) = detailKey format (.fill right) ↔
      (((left.orderId = right.orderId ∧
        format.text left.price = format.text right.price) ∧
        format.text left.size = format.text right.size) ∧
        left.side = right.side) ∧
        format.text left.fee = format.text right.fee := by
  show _ ++ ":" ++ _ ++ ":" ++ _ ++ ":" ++ _ ++ ":" ++ _ =
    _ ++ ":" ++ _ ++ ":" ++ _ ++ ":" ++ _ ++ ":" ++ _ ↔ _
  have whole := legible.whole_text
  rw [append_colon_inj (whole left.fee) (whole right.fee),
    append_colon_inj left.side.whole_debug right.side.whole_debug,
    append_colon_inj (whole left.size) (whole right.size),
    append_colon_inj (whole left.price) (whole right.price), Side.debug_inj]

theorem compareFacts_fill
    (legible : format.Legible) {left right : FillEvent D} :
    compareFacts format (.fill left) (.fill right) = .eq ↔
      left.market = right.market ∧ left.orderId = right.orderId ∧
        left.figures format = right.figures format := by
  have details : compareDetail format (.fill left) (.fill right) = .eq ↔ _ :=
    Std.LawfulEqOrd.compare_eq_iff_eq
  rw [compareFacts_eq_eq_iff, details, detailKey_fill legible]
  simp only [FillEvent.figures, Prod.mk.injEq]
  constructor
  · rintro ⟨time, market, outcome, -, ⟨⟨⟨orderId, price⟩, size⟩, side⟩, fee⟩
    exact ⟨market_of_marketKey market, orderId, outcome_of_rank outcome, price,
      size, side, fee, time⟩
  · rintro ⟨market, orderId, outcome, price, size, side, fee, time⟩
    exact ⟨time, congrArg Id.value market, congrArg Outcome.rank outcome, rfl,
      ⟨⟨⟨orderId, price⟩, size⟩, side⟩, fee⟩

theorem compareFacts_orderAck
    {strategy strategy' : Option StrategyId} {orderId orderId' : String}
    {timestampMs timestampMs' : I64} :
    compareFacts format (.orderAck strategy orderId timestampMs)
        (.orderAck strategy' orderId' timestampMs') = .eq ↔
      orderId = orderId' ∧ timestampMs = timestampMs' := by
  have details : compareDetail format (.orderAck strategy orderId timestampMs)
      (.orderAck strategy' orderId' timestampMs') = .eq ↔ orderId = orderId' :=
    Std.LawfulEqOrd.compare_eq_iff_eq
  rw [compareFacts_eq_eq_iff, details]
  constructor
  · rintro ⟨time, -, -, -, id⟩
    exact ⟨id, time⟩
  · rintro ⟨id, time⟩
    exact ⟨time, rfl, rfl, rfl, id⟩

theorem toldApart_of_kindRank_ne
    {left right : MarketEvent D} (differ : left.kindRank ≠ right.kindRank) :
    ToldApart format left right := by
  cases left <;> cases right <;> trivial

theorem separates_iff (legible : format.Legible) (left right : MarketEvent D) :
    (compareFacts format left right = .eq →
        left.map format.value = right.map format.value) ↔
      ToldApart format left right := by
  by_cases kinds : left.kindRank = right.kindRank
  swap
  · refine iff_of_true (fun same => ?_) (toldApart_of_kindRank_ne kinds)
    exact absurd (compareFacts_eq_eq_iff.mp same).2.2.2.1 kinds
  have values := legible.value_of_text
  cases left with
  | bookUpdate market outcome bids asks time =>
      cases right with
      | bookUpdate market' outcome' bids' asks' time' =>
          refine iff_of_true (fun same => ?_) trivial
          obtain ⟨times, markets, outcomes, -, details⟩ :=
            compareFacts_eq_eq_iff.mp same
          obtain ⟨bidLevels, askLevels⟩ := Ordering.then_eq_eq.mp details
          have times : time = time' := times
          rw [map, map, values_of_compareLevels bidLevels,
            values_of_compareLevels askLevels, times,
            market_of_marketKey markets, outcome_of_rank outcomes]
      | _ => cases kinds
  | bestBidAsk market outcome bid ask time =>
      cases right with
      | bestBidAsk market' outcome' bid' ask' time' =>
          refine iff_of_true (fun same => ?_) trivial
          obtain ⟨times, markets, outcomes, -, details⟩ :=
            compareFacts_eq_eq_iff.mp same
          obtain ⟨bids, asks⟩ := (detailKey_bestBidAsk legible).mp
            (Std.LawfulEqOrd.compare_eq_iff_eq.mp details)
          have times : time = time' := times
          rw [map, map, values _ _ bids, values _ _ asks, times,
            market_of_marketKey markets, outcome_of_rank outcomes]
      | _ => cases kinds
  | lastTrade market outcome price side size time =>
      cases right with
      | lastTrade market' outcome' price' side' size' time' =>
          refine iff_of_true (fun same => ?_) trivial
          obtain ⟨times, markets, outcomes, -, details⟩ :=
            compareFacts_eq_eq_iff.mp same
          obtain ⟨⟨prices, sides⟩, sizes⟩ := (detailKey_lastTrade legible).mp
            (Std.LawfulEqOrd.compare_eq_iff_eq.mp details)
          have times : time = time' := times
          rw [map, map, values _ _ prices, values _ _ sizes, sides, times,
            market_of_marketKey markets, outcome_of_rank outcomes]
      | _ => cases kinds
  | fill filled =>
      cases right with
      | fill filled' =>
          rw [compareFacts_fill legible]
          constructor
          · intro separated market orderId figures
            have equal := separated ⟨market, orderId, figures⟩
            exact (FillEvent.map_of_figures legible figures market orderId).mp
              (MarketEvent.fill.inj equal)
          · rintro apart ⟨market, orderId, figures⟩
            exact congrArg MarketEvent.fill
              ((FillEvent.map_of_figures legible figures market orderId).mpr
                (apart market orderId figures))
      | _ => cases kinds
  | orderAck strategy orderId time =>
      cases right with
      | orderAck strategy' orderId' time' =>
          rw [compareFacts_orderAck]
          constructor
          · intro separated id times
            exact (MarketEvent.orderAck.inj (separated ⟨id, times⟩)).1
          · rintro apart ⟨id, times⟩
            rw [map, map, apart id times, id, times]
      | _ => cases kinds
  | tick time =>
      cases right with
      | tick time' =>
          refine iff_of_true (fun same => ?_) trivial
          exact congrArg MarketEvent.tick (compareFacts_eq_eq_iff.mp same).1
      | _ => cases kinds

end MarketEvent

namespace PmAccountEvent

def compareKinds (format : EventFormat D) :
    PmAccountEvent D → PmAccountEvent D → Ordering :=
  compareLex (compareOn kindRank) (compareOn (detailKey format))

theorem compareKinds_eq_eq_iff {left right : PmAccountEvent D} :
    compareKinds format left right = .eq ↔
      left.kindRank = right.kindRank ∧
        left.detailKey format = right.detailKey format := by
  rw [compareKinds, compareLex_eq_eq]
  exact and_congr compare_eq_iff_eq Std.LawfulEqOrd.compare_eq_iff_eq

theorem detailKey_fill
    (legible : format.Legible) {identity identity' : EventIdentity}
    {left right : FillEvent D} :
    detailKey format (.fill identity left) =
        detailKey format (.fill identity' right) ↔
      identity = identity' ∧
        left.orderId ++ ":" ++ left.market.value =
          right.orderId ++ ":" ++ right.market.value ∧
        left.figures format = right.figures format := by
  show _ ++ ":" ++ _ ++ ":" ++ _ ++ ":" ++ _ ++ ":" ++ _ ++ ":" ++ _ ++ ":" ++
      _ ++ ":" ++ _ ++ ":" ++ _ =
    _ ++ ":" ++ _ ++ ":" ++ _ ++ ":" ++ _ ++ ":" ++ _ ++ ":" ++ _ ++ ":" ++
      _ ++ ":" ++ _ ++ ":" ++ _ ↔ _
  have whole := legible.whole_text
  rw [append_time_inj, append_colon_inj (whole left.fee) (whole right.fee),
    append_colon_inj left.side.whole_debug right.side.whole_debug,
    append_colon_inj (whole left.size) (whole right.size),
    append_colon_inj (whole left.price) (whole right.price),
    append_colon_inj left.outcome.whole_debug right.outcome.whole_debug,
    Side.debug_inj, Outcome.debug_inj,
    EventIdentity.debug_append_pair_inj legible]
  simp only [FillEvent.figures, Prod.mk.injEq, and_assoc]

theorem detailKey_settlement
    (legible : format.Legible) {identity identity' : EventIdentity}
    {market market' : MarketId} {outcome outcome' : Outcome}
    {size size' proceeds proceeds' : D} {time time' : I64} :
    detailKey format (.settlement identity market outcome size proceeds time) =
        detailKey format
          (.settlement identity' market' outcome' size' proceeds' time') ↔
      ((((identity = identity' ∧ market.value = market'.value) ∧
        outcome = outcome') ∧ format.text size = format.text size') ∧
        format.text proceeds = format.text proceeds') ∧ time = time' := by
  show _ ++ ":" ++ _ ++ ":" ++ _ ++ ":" ++ _ ++ ":" ++ _ ++ ":" ++ _ =
    _ ++ ":" ++ _ ++ ":" ++ _ ++ ":" ++ _ ++ ":" ++ _ ++ ":" ++ _ ↔ _
  have whole := legible.whole_text
  rw [append_time_inj, append_colon_inj (whole proceeds) (whole proceeds'),
    append_colon_inj (whole size) (whole size'),
    append_colon_inj outcome.whole_debug outcome'.whole_debug,
    EventIdentity.debug_append_inj legible, Outcome.debug_inj]

theorem toldApart_of_kindRank_ne
    {left right : PmAccountEvent D} (differ : left.kindRank ≠ right.kindRank) :
    ToldApart format left right := by
  cases left <;> cases right <;> trivial

theorem named_separates_iff
    {strategy strategy' : Option StrategyId} {orderId orderId' : String}
    {time time' : I64} {Fact : Type}
    {fact : Option StrategyId → String → I64 → Fact}
    (injective : ∀ {strategy strategy' orderId orderId' time time'},
      fact strategy orderId time = fact strategy' orderId' time' →
        strategy = strategy') :
    (orderId ++ ":" ++ I64.text time = orderId' ++ ":" ++ I64.text time' →
        fact strategy orderId time = fact strategy' orderId' time') ↔
      (orderId = orderId' → time = time' → strategy = strategy') := by
  rw [append_time_inj]
  constructor
  · intro separated id times
    exact injective (separated ⟨id, times⟩)
  · rintro apart ⟨id, times⟩
    rw [apart id times, id, times]

theorem remarked_separates_iff {strategy strategy' : Option StrategyId}
    {orderId orderId' remark remark' : String} {time time' : I64} {Fact : Type}
    {fact : Option StrategyId → String → String → I64 → Fact}
    (injective : ∀ {strategy strategy' orderId orderId' remark remark' time
        time'}, fact strategy orderId remark time =
          fact strategy' orderId' remark' time' →
        strategy = strategy' ∧ orderId = orderId') :
    (orderId ++ ":" ++ remark ++ ":" ++ I64.text time =
          orderId' ++ ":" ++ remark' ++ ":" ++ I64.text time' →
        fact strategy orderId remark time =
          fact strategy' orderId' remark' time') ↔
      (orderId ++ ":" ++ remark = orderId' ++ ":" ++ remark' →
        time = time' → orderId = orderId' ∧ strategy = strategy') := by
  rw [append_time_inj]
  constructor
  · intro separated joined times
    obtain ⟨strategies, ids⟩ := injective (separated ⟨joined, times⟩)
    exact ⟨ids, strategies⟩
  · rintro apart ⟨joined, times⟩
    obtain ⟨ids, strategies⟩ := apart joined times
    rw [ids, String.append_right_inj] at joined
    rw [ids, strategies, joined, times]

/-- The order separates two account facts exactly when they are told apart. -/
theorem separates_iff
    (legible : format.Legible) (left right : PmAccountEvent D) :
    (compareKinds format left right = .eq →
        left.map format.value = right.map format.value) ↔
      ToldApart format left right := by
  by_cases kinds : left.kindRank = right.kindRank
  swap
  · refine iff_of_true (fun same => ?_) (toldApart_of_kindRank_ne kinds)
    exact absurd (compareKinds_eq_eq_iff.mp same).1 kinds
  rw [compareKinds_eq_eq_iff, and_iff_right kinds]
  cases left with
  | fill identity filled =>
      cases right with
      | fill identity' filled' =>
          rw [detailKey_fill legible]
          constructor
          · intro separated identities placed figures
            obtain ⟨-, fills⟩ :=
              PmAccountEvent.fill.inj (separated ⟨identities, placed, figures⟩)
            obtain ⟨strategy, orderId, -, -, -, -, -, -, liquidity, -⟩ :=
              FillEvent.mk.inj fills
            exact ⟨orderId, strategy, liquidity⟩
          · rintro apart ⟨identities, placed, figures⟩
            obtain ⟨orderId, rest⟩ := apart identities placed figures
            rw [orderId, String.append_right_inj] at placed
            have fills := (FillEvent.map_of_figures legible figures
              (Id.ext_value placed) orderId).mpr rest
            rw [map, map, identities, fills]
      | _ => cases kinds
  | orderAck strategy orderId time =>
      cases right with
      | orderAck strategy' orderId' time' =>
          exact named_separates_iff fun same =>
            (PmAccountEvent.orderAck.inj same).1
      | _ => cases kinds
  | orderCancelled strategy orderId time =>
      cases right with
      | orderCancelled strategy' orderId' time' =>
          exact named_separates_iff fun same =>
            (PmAccountEvent.orderCancelled.inj same).1
      | _ => cases kinds
  | orderRejected strategy orderId reason time =>
      cases right with
      | orderRejected strategy' orderId' reason' time' =>
          exact remarked_separates_iff fun same =>
            ⟨(PmAccountEvent.orderRejected.inj same).1,
              (PmAccountEvent.orderRejected.inj same).2.1⟩
      | _ => cases kinds
  | orderStatus strategy orderId status time =>
      cases right with
      | orderStatus strategy' orderId' status' time' =>
          exact remarked_separates_iff fun same =>
            ⟨(PmAccountEvent.orderStatus.inj same).1,
              (PmAccountEvent.orderStatus.inj same).2.1⟩
      | _ => cases kinds
  | settlement identity market outcome size proceeds time =>
      cases right with
      | settlement identity' market' outcome' size' proceeds' time' =>
          refine iff_of_true (fun same => ?_) trivial
          obtain ⟨⟨⟨⟨⟨identities, markets⟩, outcomes⟩, sizes⟩, paid⟩, times⟩ :=
            (detailKey_settlement legible).mp same
          rw [map, map, legible.value_of_text _ _ sizes,
            legible.value_of_text _ _ paid, identities, outcomes, times,
            Id.ext_value markets]
      | _ => cases kinds

end PmAccountEvent

end Equal

/-! ## Queued facts -/

section Queued

variable {D : Type} {format : EventFormat D}

theorem CanonicalSourceKey.eq_of_compare
    {left right : CanonicalSourceKey} (same : compare left right = .eq) :
    left = right := by
  change cmp left right = .eq at same
  rw [cmp, compareLex_eq_eq, compareLex_eq_eq] at same
  obtain ⟨⟨times, ranks⟩, identities⟩ := same
  have times := compare_eq_iff_eq.mp times
  have ranks := compare_eq_iff_eq.mp ranks
  cases left with
  | pm time rank stream epoch frame =>
      cases right with
      | pm time' rank' stream' epoch' frame' =>
          rw [compareIdentity, comparePm, compareLex_eq_eq, compareLex_eq_eq]
            at identities
          obtain ⟨⟨streams, epochs⟩, frames⟩ := identities
          have times : time = time' := times
          have ranks : rank = rank' := ranks
          have streams : stream = stream' :=
            Std.LawfulEqOrd.compare_eq_iff_eq.mp streams
          have epochs : epoch = epoch' := compare_eq_iff_eq.mp epochs
          have frames : frame = frame' := compare_eq_iff_eq.mp frames
          rw [times, ranks, streams, epochs, frames]
      | cex => cases identities
  | cex time rank trade =>
      cases right with
      | pm => cases identities
      | cex time' rank' trade' =>
          have times : time = time' := times
          have ranks : rank = rank' := ranks
          rw [times, ranks, Std.LawfulEqOrd.compare_eq_iff_eq.mp identities]

theorem QueuedFact.cmp_eq_eq_iff
    {leftSource rightSource : String} {left right : SourceEnvelope D} :
    cmp format (ofEnvelope leftSource left) (ofEnvelope rightSource right) =
        .eq ↔
      left.canonicalKey = right.canonicalKey ∧
        comparePmEnvelopes format left right = .eq := by
  rw [cmp, compareLex_eq_eq, compareOn]
  refine and_congr_left' ⟨CanonicalSourceKey.eq_of_compare, fun same => ?_⟩
  have keys : (ofEnvelope leftSource left).key =
    (ofEnvelope rightSource right).key := same
  rw [keys]
  exact Std.ReflCmp.compare_self

theorem PmAccountEnvelope.portfolio_of_canonicalKey
    {left right : PmAccountEnvelope D}
    (same : (SourceEnvelope.pmAccount left).canonicalKey =
      (SourceEnvelope.pmAccount right).canonicalKey) :
    left.portfolio = right.portfolio := by
  obtain ⟨-, -, streams, -⟩ := CanonicalSourceKey.pm.inj same
  exact Id.ext_value ((String.append_right_inj _).mp streams)

theorem QueuedFact.separates_iff
    (legible : format.Legible) (leftSource rightSource : String)
    (left right : SourceEnvelope D) :
    (cmp format (ofEnvelope leftSource left) (ofEnvelope rightSource right) =
        .eq → left.intoStrategyFact.Same format right.intoStrategyFact) ↔
      SourceEnvelope.ToldApart format left right := by
  rw [cmp_eq_eq_iff, and_imp]
  refine forall_congr' fun keys => ?_
  cases left with
  | pmMarket left =>
      cases right with
      | pmMarket right =>
          refine Iff.trans (forall_congr' fun _ => ?_)
            (MarketEvent.separates_iff legible left.fact right.fact)
          exact ⟨fun same => StrategyFact.market.inj same, congrArg _⟩
      | pmAccount right => exact iff_of_true (fun same => by cases same) trivial
      | cexReference right =>
          exact iff_of_true (fun same => by cases same) trivial
  | pmAccount left =>
      cases right with
      | pmMarket right => exact iff_of_true (fun same => by cases same) trivial
      | pmAccount right =>
          have portfolio := PmAccountEnvelope.portfolio_of_canonicalKey keys
          have kinds : comparePmEnvelopes format (.pmAccount left)
              (.pmAccount right) =
              PmAccountEvent.compareKinds format left.fact right.fact := by
            simp [comparePmEnvelopes, PmAccountEnvelope.compareFacts,
              PmAccountEvent.compareKinds, compareLex, compareOn, portfolio]
          rw [kinds]
          refine Iff.trans (forall_congr' fun _ => ?_)
            (PmAccountEvent.separates_iff legible left.fact right.fact)
          exact ⟨fun same => StrategyFact.account.inj same, congrArg _⟩
      | cexReference right =>
          exact iff_of_true (fun same => by cases same) trivial
  | cexReference left =>
      cases right with
      | pmMarket right => exact iff_of_true (fun same => by cases same) trivial
      | pmAccount right => exact iff_of_true (fun same => by cases same) trivial
      | cexReference right =>
          exact ⟨fun separated => StrategyFact.reference.inj (separated rfl),
            fun apart _ => congrArg StrategyFact.reference apart⟩

theorem QueuedFact.releases_agree
    (legible : format.Legible) {queue : List (String × SourceEnvelope D)}
    (apart : ∀ left ∈ queue, ∀ right ∈ queue,
      SourceEnvelope.ToldApart format left.2 right.2)
    {first second : List (QueuedFact D)}
    (all : first.Perm (queue.map fun item => ofEnvelope item.1 item.2))
    (all' : second.Perm (queue.map fun item => ofEnvelope item.1 item.2))
    (sorted : first.Pairwise fun left right => (cmp format left right).isLE)
    (sorted' : second.Pairwise fun left right => (cmp format left right).isLE) :
    first.map (fun fact => fact.fact.fact.map format.value) =
      second.map (fun fact => fact.fact.fact.map format.value) := by
  apply PriorityQueue.map_eq_of_perm (all.trans all'.symm) sorted sorted'
  intro left leftMem right rightMem equal
  obtain ⟨⟨leftSource, left⟩, leftIn, rfl⟩ :=
    List.mem_map.mp (all.mem_iff.mp leftMem)
  obtain ⟨⟨rightSource, right⟩, rightIn, rfl⟩ :=
    List.mem_map.mp (all.mem_iff.mp rightMem)
  exact (separates_iff legible _ _ left right).mpr
    (apart _ leftIn _ rightIn) equal

/-- The order is a total preorder, and it separates exactly the facts that are
told apart; a queue of such facts has one release. -/
theorem QueuedFact.cmp_separates_iff (legible : format.Legible) :
    ((∀ fact : QueuedFact D, cmp format fact fact = .eq) ∧
      (∀ left right : QueuedFact D,
        cmp format left right = (cmp format right left).swap) ∧
      (∀ left right : QueuedFact D, (cmp format left right).isLE →
        (cmp format right left).isLE → cmp format left right = .eq) ∧
      ∀ first second third : QueuedFact D, (cmp format first second).isLE →
        (cmp format second third).isLE → (cmp format first third).isLE) ∧
    (∀ (leftSource rightSource : String) (left right : SourceEnvelope D),
      (cmp format (ofEnvelope leftSource left) (ofEnvelope rightSource right) =
          .eq →
        left.intoStrategyFact.Same format right.intoStrategyFact) ↔
        SourceEnvelope.ToldApart format left right) ∧
    ∀ queue : List (String × SourceEnvelope D),
      (∀ left ∈ queue, ∀ right ∈ queue,
        SourceEnvelope.ToldApart format left.2 right.2) →
      ∀ first second : List (QueuedFact D),
        first.Perm (queue.map fun item => ofEnvelope item.1 item.2) →
        second.Perm (queue.map fun item => ofEnvelope item.1 item.2) →
        (first.Pairwise fun left right => (cmp format left right).isLE) →
        (second.Pairwise fun left right => (cmp format left right).isLE) →
        first.map (fun fact => fact.fact.fact.map format.value) =
          second.map fun fact => fact.fact.fact.map format.value :=
  ⟨⟨fun _ => Std.ReflCmp.compare_self, fun _ _ => Std.OrientedCmp.eq_swap,
      fun _ _ => Std.OrientedCmp.isLE_antisymm,
      fun _ _ _ => Std.TransCmp.isLE_trans⟩,
    separates_iff legible,
    fun _ apart _ _ all all' => releases_agree legible apart all all'⟩

end Queued

def escapeQuoted (letter : Char) : List Char :=
  if letter = '"' ∨ letter = '\\' then ['\\', letter] else [letter]

def wholeNumbers : EventFormat Int where
  value := Int.cast
  text := toString
  debug text :=
    String.ofList ('"' :: (text.toList.flatMap escapeQuoted ++ ['"']))

theorem escapeQuoted_ends : Delimited.SelfDelimiting escapeQuoted := by
  intro left right leftRest rightRest same
  unfold escapeQuoted at same
  split at same <;> split at same <;>
    simp only [List.cons_append, List.nil_append, List.cons.injEq] at same
  · exact same.2
  · rename_i isEscaped notEscaped
    exact absurd (Or.inr same.1.symm) notEscaped
  · rename_i notEscaped isEscaped
    exact absurd (Or.inr same.1) notEscaped
  · exact same

theorem wholeNumbers_legible : wholeNumbers.Legible where
  value_of_text left right same := by
    rw [Delimited.toString_injective (congrArg String.toList same)]
  whole_text value member := by
    rcases Delimited.letter_of_mem_toString member with sign | digit
    · exact absurd sign (by decide)
    · exact absurd digit (by decide)
  debug_ends := by
    have quoted := Delimited.SelfDelimiting.after ['"']
      (Delimited.SelfDelimiting.closed escapeQuoted_ends (fun letter => by
        unfold escapeQuoted
        split
        · exact ⟨'\\', [letter], rfl, (by decide : '\\' ≠ '"')⟩
        · rename_i plain
          exact ⟨letter, [], rfl, fun quote => plain (Or.inl quote)⟩))
    intro left right leftRest rightRest same
    simp only [wholeNumbers, String.toList_ofList] at same
    obtain ⟨letters, rests⟩ := quoted _ _ _ _ same
    exact ⟨String.toList_injective letters, rests⟩

def numberedTrade (asset : Asset) (price : Int) : SourceEnvelope Int :=
  .cexReference {
    metadata := {
      schemaVersion := 1
      sourceId := "binance"
      sourceTimeMs := 10
      canonicalSourceRank := 1
      receiptTimeMs := 12
      connectionId := "history"
      connectionEpoch := 0
      frameSequence := 1
      ingestSequence := 1 }
    fact := {
      asset := asset
      exchange := .binance
      aggregateTradeId := 7
      price := price
      qty := 1
      isBuyerMaker := false
      timestampMs := 10 } }

/-- A trade in bitcoin and one in ether compare equal. -/
theorem numberedTrades_collapse :
    QueuedFact.cmp wholeNumbers
        (.ofEnvelope "btc" (numberedTrade .btc 60000))
        (.ofEnvelope "eth" (numberedTrade .eth 3000)) = .eq ∧
      ¬ (numberedTrade .btc 60000).intoStrategyFact.Same wholeNumbers
        (numberedTrade .eth 3000).intoStrategyFact := by
  refine ⟨by decide, fun same => ?_⟩
  have trades := StrategyFact.reference.inj same
  have assets := (CexReferenceEvent.mk.inj trades).1
  cases assets

/-- The order of whole numbers, and two trades that it does not separate. -/
theorem wholeNumbers_separates_iff :
    ((∀ fact : QueuedFact Int, QueuedFact.cmp wholeNumbers fact fact = .eq) ∧
      ∀ left right : QueuedFact Int, QueuedFact.cmp wholeNumbers left right =
        (QueuedFact.cmp wholeNumbers right left).swap) ∧
    ¬ SourceEnvelope.ToldApart wholeNumbers (numberedTrade .btc 60000)
      (numberedTrade .eth 3000) := by
  obtain ⟨⟨reflexive, reverse, -⟩, separated, -⟩ :=
    QueuedFact.cmp_separates_iff wholeNumbers_legible
  refine ⟨⟨reflexive, reverse⟩, fun apart => ?_⟩
  have same := (separated "btc" "eth" _ _).mpr apart (by decide)
  have trades := StrategyFact.reference.inj same
  have assets := (CexReferenceEvent.mk.inj trades).1
  cases assets

end Pmkit
