import Pmkit.Sim.Engine

/-!
# What one simulator call does to the open orders

`openOrder` is the engine's answer to "which open order has this identity".
The lemmas say, for each call, what that answer becomes and which fills are
left in `pendingFills`; later modules never unfold the loops.
-/

namespace Pmkit

open MachineInt

namespace SimEngine

def delayedOrder (engine : SimEngine) (orderId : String) :
    Option DelayedOrder :=
  engine.delayed.find? fun order => order.orderId = orderId

/-- What keeps the two order collections of an engine addressable by
identity. -/
structure WellFormed (engine : SimEngine) : Prop where
  restingKey : ∀ {key resting},
    engine.resting.lookup key = some resting → resting.orderId = key
  delayedNodup : (engine.delayed.map WorkingOrder.orderId).Nodup
  disjoint : ∀ {delayed},
    delayed ∈ engine.delayed → engine.resting.lookup delayed.orderId = none
  restingMinted : ∀ {key resting},
    engine.resting.lookup key = some resting →
      ∃ number < engine.nextId, key = mintedId engine.idPrefix number
  delayedMinted : ∀ {delayed},
    delayed ∈ engine.delayed →
      ∃ number < engine.nextId,
        delayed.orderId = mintedId engine.idPrefix number

variable {engine : SimEngine} {fill : FillEvent Decimal}

theorem WellFormed.delayedOrder_iff (wellFormed : engine.WellFormed)
    {orderId : String} {order : DelayedOrder} :
    engine.delayedOrder orderId = some order ↔
      order ∈ engine.delayed ∧ order.orderId = orderId := by
  have nodup := wellFormed.delayedNodup
  unfold delayedOrder
  generalize engine.delayed = delayed at nodup ⊢
  induction delayed with
  | nil =>
      simp
  | cons head tail ih =>
      rw [List.map_cons, List.nodup_cons] at nodup
      have tailIff := ih nodup.2
      by_cases same : head.orderId = orderId
      · simp only [List.find?_cons, same, decide_true, Option.some.injEq,
          List.mem_cons]
        constructor
        · rintro rfl
          exact ⟨Or.inl rfl, same⟩
        · rintro ⟨rfl | tailMem, identity⟩
          · rfl
          · exact False.elim <| nodup.1 <|
              List.mem_map.mpr ⟨order, tailMem, identity.trans same.symm⟩
      · simp only [List.find?_cons, same, decide_false, List.mem_cons]
        refine tailIff.trans ?_
        constructor
        · rintro ⟨tailMem, identity⟩
          exact ⟨Or.inr tailMem, identity⟩
        · rintro ⟨rfl | tailMem, identity⟩
          · exact absurd identity same
          · exact ⟨tailMem, identity⟩

theorem takerFill_fields {orderId : String} {order : PlaceOrder}
    {submittedMs fillMs : I64}
    (filled : engine.takerFill orderId order submittedMs fillMs = some fill) :
    fill.orderId = orderId ∧ fill.market = order.market ∧
      fill.outcome = order.outcome ∧ fill.side = order.side ∧
      0 < fill.size ∧ fill.size ≤ order.qty ∧
      fill.timestampMs = max fillMs submittedMs := by
  unfold takerFill at filled
  simp only [Option.bind_eq_bind, Option.bind_eq_some_iff] at filled
  obtain ⟨book, _, pair, walked, fee, _, built⟩ := filled
  injection built with built
  subst built
  obtain ⟨vwap, fillQty⟩ := pair
  have bounds := walkBook_qty walked
  exact ⟨rfl, rfl, rfl, rfl, bounds.1, bounds.2, rfl⟩

def maturedFills (engine : SimEngine) (market : MarketId) (outcome : Outcome)
    (nowMs : I64) (delayed : List DelayedOrder) : List (FillEvent Decimal) :=
  delayed.filterMap fun order =>
    if matures market outcome nowMs order then
      engine.takerFill order.orderId order.order order.submittedMs nowMs
    else
      none

theorem foldl_activateOne (market : MarketId) (outcome : Outcome) (nowMs : I64)
    (delayed : List DelayedOrder) (engine : SimEngine) :
    delayed.foldl (activateOne market outcome nowMs) engine =
      { engine with
        delayed := engine.delayed ++
          delayed.filter fun order => !matures market outcome nowMs order
        pendingFills := engine.pendingFills ++
          engine.maturedFills market outcome nowMs delayed } := by
  induction delayed generalizing engine with
  | nil =>
      simp [maturedFills]
  | cons head tail ih =>
      rw [List.foldl_cons, ih]
      by_cases mature : matures market outcome nowMs head = true
      · simp only [activateOne, mature, if_true, submitTaker, maturedFills,
          List.filterMap_cons]
        cases filled :
            engine.takerFill head.orderId head.order head.submittedMs nowMs with
        | none =>
            simp [mature]
        | some fill =>
            simp only [mature, List.filter_cons, Bool.not_true,
              Bool.false_eq_true, if_false, List.append_assoc,
              List.singleton_append]
            rfl
      · rw [Bool.not_eq_true] at mature
        simp only [activateOne, mature, Bool.false_eq_true, if_false,
          maturedFills, List.filterMap_cons, List.filter_cons, Bool.not_false,
          if_true, List.append_assoc, List.singleton_append]
        rfl

/-! ## Filling makers -/

def afterFill (engine : SimEngine) (book : OrderBookL2)
    (resting : RestingOrder) : Option RestingOrder :=
  match engine.makerFill book resting with
  | none => some resting
  | some fill =>
      let remainder := fillOrder resting fill.size
      if remainder.order.qty = 0 then none else some remainder

theorem makerFill_fields {book : OrderBookL2} {resting : RestingOrder}
    (filled : engine.makerFill book resting = some fill) :
    fill.orderId = resting.orderId ∧ fill.market = resting.order.market ∧
      fill.outcome = resting.order.outcome ∧
      fill.side = resting.order.side ∧ fill.size ≤ resting.order.qty ∧
      fill.size ≠ 0 ∧
      fill.timestampMs = max book.timestampMs resting.submittedMs := by
  unfold makerFill at filled
  simp only at filled
  split at filled
  · cases filled
  · rename_i nonzero
    split at filled
    · cases filled
    · injection filled with built
      subst built
      exact ⟨rfl, rfl, rfl, rfl, min_le_left _ _, nonzero, rfl⟩

theorem fillResting_lookup
    (book : OrderBookL2) (engine : SimEngine) (orderId key : String) :
    (fillResting book engine orderId).resting.lookup key =
      if key = orderId then
        (engine.resting.lookup key).bind (engine.afterFill book)
      else
        engine.resting.lookup key := by
  unfold fillResting
  by_cases same : key = orderId
  · subst same
    cases found : engine.resting.lookup key with
    | none =>
        simp [found]
    | some resting =>
        cases filled : engine.makerFill book resting with
        | none =>
            simp [filled, afterFill]
        | some fill =>
            by_cases done : (fillOrder resting fill.size).order.qty = 0
            · simp [filled, afterFill, done]
            · simp [filled, afterFill, done]
  · simp only [same, if_false]
    cases found : engine.resting.lookup orderId with
    | none =>
        simp
    | some resting =>
        cases filled : engine.makerFill book resting with
        | none =>
            simp [filled, same]
        | some fill =>
            by_cases done : (fillOrder resting fill.size).order.qty = 0
            · simp [filled, done, same]
            · simp [filled, done, same]

theorem fillResting_frame
    (book : OrderBookL2) (engine : SimEngine) (orderId : String) :
    (fillResting book engine orderId).delayed = engine.delayed ∧
      (fillResting book engine orderId).books = engine.books ∧
      (fillResting book engine orderId).nextId = engine.nextId ∧
      (fillResting book engine orderId).idPrefix = engine.idPrefix ∧
      (fillResting book engine orderId).feeModel = engine.feeModel ∧
      (fillResting book engine orderId).config = engine.config ∧
      (fillResting book engine orderId).pendingFills =
        engine.pendingFills ++
          ((engine.resting.lookup orderId).bind
            (engine.makerFill book)).toList := by
  unfold fillResting
  cases found : engine.resting.lookup orderId with
  | none =>
      simp
  | some resting =>
      cases filled : engine.makerFill book resting with
      | none =>
          simp [filled]
      | some fill =>
          simp [filled]

theorem makerFill_congr
    {left right : SimEngine} (fees : left.feeModel = right.feeModel)
    (config : left.config = right.config) (book : OrderBookL2) :
    left.makerFill book = right.makerFill book := by
  funext resting
  unfold makerFill
  rw [fees, config]

theorem afterFill_congr
    {left right : SimEngine} (fees : left.feeModel = right.feeModel)
    (config : left.config = right.config) (book : OrderBookL2) :
    left.afterFill book = right.afterFill book := by
  funext resting
  unfold afterFill
  rw [makerFill_congr fees config]

/-- The fill loop over distinct identities, as one update of the engine. -/
theorem foldl_fillResting
    (book : OrderBookL2) (ids : List String) (nodup : ids.Nodup)
    (engine : SimEngine) :
    (∀ key, (ids.foldl (fillResting book) engine).resting.lookup key =
      if key ∈ ids then
        (engine.resting.lookup key).bind (engine.afterFill book)
      else
        engine.resting.lookup key) ∧
      (ids.foldl (fillResting book) engine).delayed = engine.delayed ∧
      (ids.foldl (fillResting book) engine).books = engine.books ∧
      (ids.foldl (fillResting book) engine).nextId = engine.nextId ∧
      (ids.foldl (fillResting book) engine).idPrefix = engine.idPrefix ∧
      (ids.foldl (fillResting book) engine).feeModel = engine.feeModel ∧
      (ids.foldl (fillResting book) engine).config = engine.config ∧
      (ids.foldl (fillResting book) engine).pendingFills =
        engine.pendingFills ++ ids.filterMap fun key =>
          (engine.resting.lookup key).bind (engine.makerFill book) := by
  induction ids generalizing engine with
  | nil =>
      simp
  | cons orderId rest ih =>
      rw [List.nodup_cons] at nodup
      obtain ⟨delayed, books, nextId, idPrefix, feeModel, config, pending⟩ :=
        fillResting_frame book engine orderId
      obtain ⟨lookups, delayed', books', nextId', idPrefix', feeModel',
        config', pending'⟩ :=
        ih nodup.2 (fillResting book engine orderId)
      have sameAfter := afterFill_congr feeModel config book
      have sameFill := makerFill_congr feeModel config book
      rw [List.foldl_cons]
      refine ⟨?_, delayed'.trans delayed, books'.trans books,
        nextId'.trans nextId, idPrefix'.trans idPrefix,
        feeModel'.trans feeModel, config'.trans config, ?_⟩
      · intro key
        rw [lookups key, fillResting_lookup, sameAfter]
        by_cases same : key = orderId
        · subst same
          simp [nodup.1]
        · simp [same]
      · rw [pending', pending, sameFill, List.append_assoc]
        congr 1
        have others :
            rest.filterMap (fun key =>
                ((fillResting book engine orderId).resting.lookup key).bind
                  (engine.makerFill book)) =
              rest.filterMap fun key =>
                (engine.resting.lookup key).bind (engine.makerFill book) := by
          apply List.filterMap_congr
          intro key mem
          have ne : key ≠ orderId := by
            rintro rfl
            exact nodup.1 mem
          rw [fillResting_lookup, if_neg ne]
        rw [others, List.filterMap_cons]
        cases (engine.resting.lookup orderId).bind (engine.makerFill book) with
        | none => rfl
        | some fill => rfl

/-! ## One book update -/

def survives (market : MarketId) (outcome : Outcome) (nowMs : I64)
    (order : WorkingOrder) : Bool :=
  !onBook market outcome order.order || !expired order.order nowMs

def withBook (engine : SimEngine) (market : MarketId) (outcome : Outcome)
    (book : OrderBookL2) : SimEngine :=
  { engine with books := AList.insert (market, outcome) book engine.books }

def crossedIds (order : IterationOrder String) (engine : SimEngine)
    (market : MarketId) (outcome : Outcome) (book : OrderBookL2) :
    List String :=
  (((engine.resting.retain fun _ resting =>
      survives market outcome book.timestampMs resting).visit order).filter
    fun entry => fillable market outcome book entry.2).map fun entry =>
      entry.2.orderId

/-- The fills of one book update: matured takers first, then crossed makers. -/
def bookFills (order : IterationOrder String) (engine : SimEngine)
    (market : MarketId) (outcome : Outcome) (book : OrderBookL2) :
    List (FillEvent Decimal) :=
  (engine.withBook market outcome book).maturedFills market outcome
      book.timestampMs
      (engine.delayed.filter (survives market outcome book.timestampMs)) ++
    (engine.crossedIds order market outcome book).filterMap fun key =>
      ((engine.resting.lookup key).filter
        (survives market outcome book.timestampMs)).bind
        (engine.makerFill book)

def delayedAfter (engine : SimEngine) (market : MarketId) (outcome : Outcome)
    (nowMs : I64) : List DelayedOrder :=
  (engine.delayed.filter (survives market outcome nowMs)).filter fun order =>
    !matures market outcome nowMs order

def restingAfter (engine : SimEngine) (market : MarketId) (outcome : Outcome)
    (book : OrderBookL2) (resting : RestingOrder) : Option RestingOrder :=
  if !survives market outcome book.timestampMs resting then
    none
  else if fillable market outcome book resting then
    engine.afterFill book resting
  else
    some resting

theorem crossedIds_nodup (wellFormed : engine.WellFormed)
    (order : IterationOrder String) (market : MarketId) (outcome : Outcome)
    (book : OrderBookL2) :
    (engine.crossedIds order market outcome book).Nodup := by
  have keys := KeyedMap.nodup_visit_keys order
    (engine.resting.retain fun _ resting =>
      survives market outcome book.timestampMs resting)
  have sameKeys : engine.crossedIds order market outcome book =
      (((engine.resting.retain fun _ resting =>
          survives market outcome book.timestampMs resting).visit order).filter
        fun entry => fillable market outcome book entry.2).map Prod.fst := by
    apply List.map_congr_left
    rintro ⟨key, resting⟩ mem
    have visited := KeyedMap.mem_visit.mp (List.mem_of_mem_filter mem)
    rw [KeyedMap.lookup_retain, Option.filter_eq_some_iff] at visited
    exact wellFormed.restingKey visited.1
  rw [sameKeys]
  exact keys.sublist (List.filter_sublist.map Prod.fst)

theorem mem_crossedIds (wellFormed : engine.WellFormed)
    {order : IterationOrder String} {market : MarketId} {outcome : Outcome}
    {book : OrderBookL2} {key : String} :
    key ∈ engine.crossedIds order market outcome book ↔
      ∃ resting, engine.resting.lookup key = some resting ∧
        survives market outcome book.timestampMs resting ∧
        fillable market outcome book resting := by
  unfold crossedIds
  rw [List.mem_map]
  constructor
  · rintro ⟨⟨visitedKey, resting⟩, mem, identity⟩
    obtain ⟨visited, crossed⟩ := List.mem_filter.mp mem
    rw [KeyedMap.mem_visit, KeyedMap.lookup_retain,
      Option.filter_eq_some_iff] at visited
    have sameKey : visitedKey = key :=
      (wellFormed.restingKey visited.1).symm.trans identity
    subst sameKey
    exact ⟨resting, visited.1, visited.2, crossed⟩
  · rintro ⟨resting, found, alive, crossed⟩
    refine ⟨(key, resting), List.mem_filter.mpr ⟨?_, crossed⟩,
      wellFormed.restingKey found⟩
    rw [KeyedMap.mem_visit, KeyedMap.lookup_retain, Option.filter_eq_some_iff]
    exact ⟨found, alive⟩

/-- The engine before its fill loop: book replaced, orders expired, matured
takers gone. -/
def beforeFills (engine : SimEngine) (market : MarketId) (outcome : Outcome)
    (book : OrderBookL2) : SimEngine :=
  { engine with
    books := AList.insert (market, outcome) book engine.books
    resting := engine.resting.retain fun _ resting =>
      survives market outcome book.timestampMs resting
    delayed := engine.delayedAfter market outcome book.timestampMs
    pendingFills := engine.pendingFills ++
      (engine.withBook market outcome book).maturedFills market outcome
        book.timestampMs
        (engine.delayed.filter (survives market outcome book.timestampMs)) }

theorem updateBook_eq_foldl
    (engine : SimEngine) (order : IterationOrder String) (market : MarketId)
    (outcome : Outcome) (book : OrderBookL2) :
    engine.updateBook order market outcome book =
      (engine.crossedIds order market outcome book).foldl (fillResting book)
        (engine.beforeFills market outcome book) := by
  have found : (AList.insert (market, outcome) book engine.books).lookup
      (market, outcome) = some book := AList.lookup_insert _
  have prepared :
      ((engine.withBook market outcome book).expireOrders market outcome
        book.timestampMs).activateDelayed market outcome =
        engine.beforeFills market outcome book := by
    simp only [activateDelayed, expireOrders, withBook, found,
      foldl_activateOne]
    rfl
  unfold updateBook
  change (((engine.withBook market outcome book).expireOrders market outcome
      book.timestampMs).activateDelayed market outcome).checkRestingFills
        order market outcome = _
  rw [prepared]
  simp only [checkRestingFills, beforeFills, found]
  rfl

theorem updateBook_spec (wellFormed : engine.WellFormed)
    (order : IterationOrder String) (market : MarketId) (outcome : Outcome)
    (book : OrderBookL2) :
    (∀ key, (engine.updateBook order market outcome book).resting.lookup key =
      (engine.resting.lookup key).bind
        (engine.restingAfter market outcome book)) ∧
      (engine.updateBook order market outcome book).delayed =
        engine.delayedAfter market outcome book.timestampMs ∧
      (engine.updateBook order market outcome book).books =
        AList.insert (market, outcome) book engine.books ∧
      (engine.updateBook order market outcome book).nextId = engine.nextId ∧
      (engine.updateBook order market outcome book).idPrefix =
        engine.idPrefix ∧
      (engine.updateBook order market outcome book).feeModel =
        engine.feeModel ∧
      (engine.updateBook order market outcome book).config = engine.config ∧
      (engine.updateBook order market outcome book).pendingFills =
        engine.pendingFills ++
          engine.bookFills order market outcome book := by
  have nodup := crossedIds_nodup wellFormed order market outcome book
  obtain ⟨resting, delayed, books, nextId, idPrefix, feeModel, config,
    pending⟩ :=
    foldl_fillResting book _ nodup (engine.beforeFills market outcome book)
  rw [updateBook_eq_foldl]
  refine ⟨?_, delayed, books, nextId, idPrefix, feeModel, config, ?_⟩
  · intro key
    rw [resting key]
    have sameAfter : (engine.beforeFills market outcome book).afterFill book =
        engine.afterFill book := afterFill_congr rfl rfl book
    rw [sameAfter]
    simp only [beforeFills, KeyedMap.lookup_retain]
    cases stored : engine.resting.lookup key with
    | none =>
        simp
    | some working =>
        have crossed : key ∈ engine.crossedIds order market outcome book ↔
            survives market outcome book.timestampMs working = true ∧
              fillable market outcome book working = true := by
          rw [mem_crossedIds wellFormed, stored]
          simp
        cases alive : survives market outcome book.timestampMs working with
        | false =>
            simp [restingAfter, alive, Option.filter_some]
        | true =>
            by_cases fills : fillable market outcome book working = true
            · simp [restingAfter, alive, fills, crossed, Option.filter_some]
            · simp [restingAfter, alive, fills, crossed, Option.filter_some]
  · rw [pending]
    simp only [bookFills, beforeFills, KeyedMap.lookup_retain,
      List.append_assoc]
    rfl

end SimEngine

end Pmkit
