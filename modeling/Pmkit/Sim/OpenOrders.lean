import Pmkit.Sim.Submission

/-!
# The open orders of the simulator

`openOrder` answers which open order has an identity and whether it rests or
waits.  Each call changes that answer in one way, and the fills of a book
update carry distinct identities of open orders.
-/

namespace Pmkit

open MachineInt

namespace SimEngine

inductive Standing where
  | resting
  | delayed
  deriving DecidableEq

def openOrder (engine : SimEngine) (orderId : String) :
    Option (Standing × WorkingOrder) :=
  match engine.resting.lookup orderId with
  | some resting => some (.resting, resting)
  | none => (engine.delayedOrder orderId).map fun delayed => (.delayed, delayed)

section Lookup

variable {engine : SimEngine} {orderId : String} {order : WorkingOrder}

theorem openOrder_resting (found : engine.resting.lookup orderId = some order) :
    engine.openOrder orderId = some (.resting, order) := by
  simp [openOrder, found]

theorem WellFormed.openOrder_delayed
    (wellFormed : engine.WellFormed) (mem : order ∈ engine.delayed) :
    engine.openOrder order.orderId = some (.delayed, order) := by
  have found : engine.delayedOrder order.orderId = some order :=
    wellFormed.delayedOrder_iff.mpr ⟨mem, rfl⟩
  simp [openOrder, wellFormed.disjoint mem, found]

theorem openOrder_eq_resting_iff :
    engine.openOrder orderId = some (.resting, order) ↔
      engine.resting.lookup orderId = some order := by
  unfold openOrder
  cases engine.resting.lookup orderId with
  | none => simp
  | some resting => simp

theorem WellFormed.openOrder_eq_delayed_iff (wellFormed : engine.WellFormed) :
    engine.openOrder orderId = some (.delayed, order) ↔
      order ∈ engine.delayed ∧ order.orderId = orderId := by
  constructor
  · intro found
    unfold openOrder at found
    cases stored : engine.resting.lookup orderId with
    | some resting =>
        simp [stored] at found
    | none =>
        rw [stored] at found
        obtain ⟨delayed, waiting, same⟩ := Option.map_eq_some_iff.mp found
        cases same
        exact wellFormed.delayedOrder_iff.mp waiting
  · rintro ⟨mem, rfl⟩
    exact wellFormed.openOrder_delayed mem

theorem WellFormed.openOrder_eq_none_iff (wellFormed : engine.WellFormed) :
    engine.openOrder orderId = none ↔
      engine.resting.lookup orderId = none ∧
        ∀ delayed ∈ engine.delayed, delayed.orderId ≠ orderId := by
  constructor
  · intro absent
    constructor
    · cases stored : engine.resting.lookup orderId with
      | none => rfl
      | some resting => simp [openOrder, stored] at absent
    · rintro delayed mem rfl
      rw [wellFormed.openOrder_delayed mem] at absent
      cases absent
  · rintro ⟨notResting, notDelayed⟩
    simp only [openOrder, notResting, Option.map_eq_none_iff]
    cases waiting : engine.delayedOrder orderId with
    | none => rfl
    | some delayed =>
        obtain ⟨mem, same⟩ := wellFormed.delayedOrder_iff.mp waiting
        exact absurd same (notDelayed delayed mem)

theorem WellFormed.openOrder_nextId (wellFormed : engine.WellFormed) :
    engine.openOrder (mintedId engine.idPrefix engine.nextId) = none :=
  wellFormed.openOrder_eq_none_iff.mpr wellFormed.nextId_unused

end Lookup

variable {engine : SimEngine} {order : IterationOrder String}
  {fill : FillEvent Decimal}

theorem cancel_openOrder (wellFormed : engine.WellFormed)
    (orderId key : String) :
    (engine.cancel orderId).1.openOrder key =
      if key = orderId then none else engine.openOrder key := by
  have after := cancel_wellFormed wellFormed orderId
  unfold cancel at after ⊢
  cases found : engine.resting.lookup orderId with
  | some resting =>
      rw [found] at after
      by_cases same : key = orderId
      · subst same
        rw [if_pos rfl, after.openOrder_eq_none_iff]
        refine ⟨by simp, ?_⟩
        rintro delayed mem rfl
        rw [wellFormed.disjoint mem] at found
        cases found
      · rw [if_neg same]
        simp [openOrder, delayedOrder, AList.lookup_erase_ne same]
  | none =>
      rw [found] at after
      cases waiting :
          engine.delayed.find? fun order => order.orderId = orderId with
      | none =>
          simp only
          by_cases same : key = orderId
          · subst same
            rw [if_pos rfl]
            simp [openOrder, found, delayedOrder, waiting]
          · rw [if_neg same]
      | some delayed =>
          rw [waiting] at after
          simp only at after ⊢
          by_cases same : key = orderId
          · subst same
            rw [if_pos rfl, after.openOrder_eq_none_iff]
            refine ⟨found, ?_⟩
            intro order mem identity
            have nodup := wellFormed.delayedNodup
            unfold removeDelayed at mem
            generalize engine.delayed = orders at mem nodup
            induction orders with
            | nil =>
                simp at mem
            | cons head tail ih =>
                rw [List.map_cons, List.nodup_cons] at nodup
                by_cases first : head.orderId = key
                · rw [List.eraseP_cons_of_pos (by simpa using first)] at mem
                  exact nodup.1 (List.mem_map.mpr
                    ⟨order, mem, identity.trans first.symm⟩)
                · rw [List.eraseP_cons_of_neg (by simpa using first)] at mem
                  rcases List.mem_cons.mp mem with rfl | later
                  · exact first identity
                  · exact ih later nodup.2
          · rw [if_neg same]
            have kept : (removeDelayed orderId engine.delayed).find?
                  (fun order => order.orderId = key) =
                engine.delayed.find? fun order => order.orderId = key := by
              unfold removeDelayed
              generalize engine.delayed = orders
              induction orders with
              | nil =>
                  rfl
              | cons head tail ih =>
                  by_cases first : head.orderId = orderId
                  · rw [List.eraseP_cons_of_pos (by simpa using first)]
                    have other : head.orderId ≠ key := by
                      rw [first]
                      exact Ne.symm same
                    simp [other]
                  · rw [List.eraseP_cons_of_neg (by simpa using first)]
                    simp only [List.find?_cons, ih]
            simp only [openOrder, delayedOrder, kept]

def openAfter (engine : SimEngine) (market : MarketId) (outcome : Outcome)
    (book : OrderBookL2) :
    Standing × WorkingOrder → Option (Standing × WorkingOrder)
  | (.resting, resting) =>
      (engine.restingAfter market outcome book resting).map fun after =>
        (.resting, after)
  | (.delayed, delayed) =>
      if survives market outcome book.timestampMs delayed &&
          !matures market outcome book.timestampMs delayed then
        some (.delayed, delayed)
      else
        none

theorem updateBook_openOrder (wellFormed : engine.WellFormed)
    (order : IterationOrder String) (market : MarketId) (outcome : Outcome)
    (book : OrderBookL2) (key : String) :
    (engine.updateBook order market outcome book).openOrder key =
      (engine.openOrder key).bind (engine.openAfter market outcome book) := by
  have after := updateBook_wellFormed wellFormed order market outcome book
  obtain ⟨resting, delayed, _⟩ :=
    updateBook_spec wellFormed order market outcome book
  have memDelayed : ∀ working,
      working ∈ (engine.updateBook order market outcome book).delayed ↔
        working ∈ engine.delayed ∧
          (survives market outcome book.timestampMs working &&
            !matures market outcome book.timestampMs working) = true := by
    intro working
    rw [delayed, delayedAfter, List.mem_filter, List.mem_filter,
      Bool.and_eq_true, and_assoc]
  cases before : engine.openOrder key with
  | none =>
      obtain ⟨notResting, notDelayed⟩ :=
        wellFormed.openOrder_eq_none_iff.mp before
      rw [Option.bind_none, after.openOrder_eq_none_iff, resting, notResting]
      exact ⟨rfl, fun working mem =>
        notDelayed working ((memDelayed working).mp mem).1⟩
  | some opened =>
      obtain ⟨standing, working⟩ := opened
      cases standing with
      | resting =>
          have stored := openOrder_eq_resting_iff.mp before
          simp only [Option.bind_some, openAfter]
          cases left : engine.restingAfter market outcome book working with
          | none =>
              rw [Option.map_none, after.openOrder_eq_none_iff, resting, stored]
              refine ⟨left, ?_⟩
              rintro waiting mem rfl
              rw [wellFormed.disjoint ((memDelayed waiting).mp mem).1]
                at stored
              cases stored
          | some remainder =>
              rw [Option.map_some, openOrder_eq_resting_iff, resting, stored]
              exact left
      | delayed =>
          obtain ⟨mem, identity⟩ :=
            wellFormed.openOrder_eq_delayed_iff.mp before
          simp only [Option.bind_some, openAfter]
          by_cases kept : (survives market outcome book.timestampMs working &&
              !matures market outcome book.timestampMs working) = true
          · rw [if_pos kept, after.openOrder_eq_delayed_iff]
            exact ⟨(memDelayed working).mpr ⟨mem, kept⟩, identity⟩
          · rw [if_neg kept, after.openOrder_eq_none_iff, resting, ← identity,
              wellFormed.disjoint mem]
            refine ⟨rfl, ?_⟩
            intro other otherMem same
            obtain ⟨otherWaiting, otherKept⟩ :=
              (memDelayed other).mp otherMem
            have sameOrder := wellFormed.openOrder_delayed otherWaiting
            rw [same, wellFormed.openOrder_delayed mem] at sameOrder
            cases sameOrder
            exact kept otherKept

/-! ## Empty books -/

/-- Whether a book without levels drops an open order: it expired, or its
activation finds nothing to take. -/
def sweeps (market : MarketId) (outcome : Outcome) (nowMs : I64)
    (opened : Standing × WorkingOrder) : Bool :=
  onBook market outcome opened.2.order &&
    (expired opened.2.order nowMs ||
      (opened.1 = .delayed && opened.2.activeAtMs ≤ nowMs))

theorem crosses_empty (timestampMs : I64) (order : PlaceOrder) :
    crosses (.empty timestampMs) order = false := by
  unfold crosses
  cases order.side with
  | buy => rfl
  | sell => rfl

theorem openAfter_empty
    (engine : SimEngine) (market : MarketId) (outcome : Outcome)
    (nowMs : I64) (opened : Standing × WorkingOrder) :
    engine.openAfter market outcome (.empty nowMs) opened =
      if sweeps market outcome nowMs opened then none else some opened := by
  obtain ⟨standing, working⟩ := opened
  have time : (OrderBookL2.empty nowMs).timestampMs = nowMs := rfl
  cases standing with
  | resting =>
      have notFillable : fillable market outcome (.empty nowMs) working =
          false := by
        simp [fillable, crosses_empty]
      simp only [openAfter, restingAfter, notFillable, time, sweeps, survives]
      by_cases here : onBook market outcome working.order = true
      · by_cases gone : expired working.order nowMs = true
        · simp [here, gone]
        · simp [here, gone]
      · simp [here]
  | delayed =>
      simp only [openAfter, time, sweeps, survives, matures]
      by_cases here : onBook market outcome working.order = true
      · by_cases gone : expired working.order nowMs = true
        · simp [here, gone]
        · by_cases active : working.activeAtMs ≤ nowMs
          · simp [here, active]
          · simp [here, gone, active]
      · simp [here]

theorem updateBook_empty_openOrder (wellFormed : engine.WellFormed)
    (order : IterationOrder String) (market : MarketId) (outcome : Outcome)
    (nowMs : I64) (key : String) :
    (engine.updateBook order market outcome (.empty nowMs)).openOrder key =
      (engine.openOrder key).filter fun opened =>
        !sweeps market outcome nowMs opened := by
  rw [updateBook_openOrder wellFormed]
  cases engine.openOrder key with
  | none =>
      rfl
  | some opened =>
      rw [Option.bind_some, openAfter_empty, Option.filter_some]
      cases sweeps market outcome nowMs opened with
      | true => simp
      | false => simp

def BooksEmpty (engine : SimEngine) : Prop :=
  ∀ key book, engine.books.lookup key = some book →
    book.bids = [] ∧ book.asks = []

theorem BooksEmpty.updateBook (wellFormed : engine.WellFormed)
    (empty : engine.BooksEmpty) (order : IterationOrder String)
    (market : MarketId) (outcome : Outcome) (nowMs : I64) :
    (engine.updateBook order market outcome (.empty nowMs)).BooksEmpty := by
  obtain ⟨_, _, books, _⟩ := updateBook_spec wellFormed order market outcome
    (.empty nowMs)
  intro key book found
  rw [books, KeyedMap.lookup_insert_eq] at found
  split at found
  · cases found
    exact ⟨rfl, rfl⟩
  · exact empty key book found

theorem BooksEmpty.cancel (empty : engine.BooksEmpty) (orderId : String) :
    (engine.cancel orderId).1.BooksEmpty := by
  have books : (engine.cancel orderId).1.books = engine.books := by
    unfold SimEngine.cancel
    split
    · rfl
    · split
      · rfl
      · rfl
  unfold BooksEmpty
  rw [books]
  exact empty

theorem BooksEmpty.takerFill (empty : engine.BooksEmpty) (orderId : String)
    (order : PlaceOrder) (submittedMs fillMs : I64) :
    engine.takerFill orderId order submittedMs fillMs = none := by
  unfold SimEngine.takerFill
  cases found : engine.books.lookup (order.market, order.outcome) with
  | none =>
      rfl
  | some book =>
      obtain ⟨bids, asks⟩ := empty _ book found
      cases side : order.side with
      | buy => simp [asks, walkBook, walkBookLoop]
      | sell => simp [bids, walkBook, walkBookLoop]

theorem Submitted.openOrder (wellFormed : engine.WellFormed)
    {order : PlaceOrder} {strategy : Option StrategyId} {nowMs : I64}
    {result : SimEngine × Option String}
    (submitted : Submitted engine order strategy nowMs result) (key : String) :
    result.1.openOrder key =
      if result.2 = some key then
        if order.postOnly then
          some (.resting, engine.workingOrder order strategy nowMs)
        else if 0 < engine.config.activationLatencyMs then
          some (.delayed, engine.workingOrder order strategy nowMs)
        else
          none
      else
        engine.openOrder key := by
  have after := submitted.wellFormed wellFormed
  cases submitted with
  | refused notAdmitted =>
      simp
  | unfilled admitted notAccepted =>
      simp only [reduceCtorEq, if_false]
      rfl
  | rests accepted postOnly =>
      simp only [Option.some.injEq, postOnly, if_true]
      by_cases same : mintedId engine.idPrefix engine.nextId = key
      · subst same
        simp [SimEngine.openOrder]
      · simp [same, Ne.symm same, SimEngine.openOrder, delayedOrder]
  | waits accepted taker latency =>
      simp only [Option.some.injEq, taker, Bool.false_eq_true, if_false,
        latency, if_true]
      by_cases same : mintedId engine.idPrefix engine.nextId = key
      · subst same
        rw [if_pos rfl, after.openOrder_eq_delayed_iff]
        exact ⟨List.mem_append_right _ (List.mem_singleton.mpr rfl), rfl⟩
      · rw [if_neg same]
        have appended : ∀ orders : List DelayedOrder,
            (orders ++ [engine.workingOrder order strategy nowMs]).find?
                (fun working => working.orderId = key) =
              orders.find? fun working => working.orderId = key := by
          intro orders
          have other : (engine.workingOrder order strategy nowMs).orderId ≠
              key := same
          simp [List.find?_append, other]
        simp only [SimEngine.openOrder, delayedOrder, appended]
  | takes accepted taker immediate fill filled =>
      simp only [Option.some.injEq, taker, Bool.false_eq_true, if_false,
        immediate]
      by_cases same : mintedId engine.idPrefix engine.nextId = key
      · subst same
        rw [if_pos rfl]
        exact wellFormed.openOrder_nextId
      · rw [if_neg same]
        rfl

theorem mem_openOrders (wellFormed : engine.WellFormed)
    {reported : SimOpenOrder} :
    reported ∈ engine.openOrders ↔
      ∃ standing order,
        engine.openOrder order.orderId = some (standing, order) ∧
          reported = openOrderOf order := by
  unfold openOrders
  rw [List.mem_insertionSort, List.mem_append, List.mem_map, List.mem_map]
  constructor
  · rintro (⟨order, mem, rfl⟩ | ⟨order, mem, rfl⟩)
    · obtain ⟨key, found⟩ := KeyedMap.mem_values.mp mem
      have identity := wellFormed.restingKey found
      subst identity
      exact ⟨.resting, order, openOrder_resting found, rfl⟩
    · exact ⟨.delayed, order, wellFormed.openOrder_delayed mem, rfl⟩
  · rintro ⟨standing, order, found, rfl⟩
    cases standing with
    | resting =>
        exact .inl ⟨order, KeyedMap.mem_values.mpr
          ⟨order.orderId, openOrder_eq_resting_iff.mp found⟩, rfl⟩
    | delayed =>
        exact .inr ⟨order,
          (wellFormed.openOrder_eq_delayed_iff.mp found).1, rfl⟩

/-! ## The fills of a book update -/

theorem mem_bookFills (wellFormed : engine.WellFormed)
    {market : MarketId} {outcome : Outcome}
    {book : OrderBookL2} :
    fill ∈ engine.bookFills order market outcome book ↔
      (∃ delayed ∈ engine.delayed,
        survives market outcome book.timestampMs delayed = true ∧
        matures market outcome book.timestampMs delayed = true ∧
        (engine.withBook market outcome book).takerFill delayed.orderId
          delayed.order delayed.submittedMs book.timestampMs = some fill) ∨
      ∃ key resting, engine.resting.lookup key = some resting ∧
        survives market outcome book.timestampMs resting = true ∧
        fillable market outcome book resting = true ∧
        engine.makerFill book resting = some fill := by
  unfold bookFills maturedFills
  rw [List.mem_append, List.mem_filterMap, List.mem_filterMap]
  constructor
  · rintro (⟨delayed, mem, filled⟩ | ⟨key, mem, filled⟩)
    · obtain ⟨waiting, alive⟩ := List.mem_filter.mp mem
      split at filled
      · rename_i mature
        exact .inl ⟨delayed, waiting, alive, mature, filled⟩
      · cases filled
    · obtain ⟨resting, stored, alive, crossed⟩ :=
        (mem_crossedIds wellFormed).mp mem
      simp only [stored, Option.filter_some, alive, if_true,
        Option.bind_some] at filled
      exact .inr ⟨key, resting, stored, alive, crossed, filled⟩
  · rintro (⟨delayed, waiting, alive, mature, filled⟩ |
      ⟨key, resting, stored, alive, crossed, filled⟩)
    · refine Or.inl ⟨delayed, List.mem_filter.mpr ⟨waiting, alive⟩, ?_⟩
      rw [if_pos mature]
      exact filled
    · refine Or.inr ⟨key, (mem_crossedIds wellFormed).mpr
        ⟨resting, stored, alive, crossed⟩, ?_⟩
      simp only [stored, Option.filter_some, alive, if_true, Option.bind_some]
      exact filled

/-- A fill of a book update is of the open order it names. -/
theorem openOrder_of_mem_bookFills (wellFormed : engine.WellFormed)
    {market : MarketId} {outcome : Outcome}
    {book : OrderBookL2}
    (mem : fill ∈ engine.bookFills order market outcome book) :
    (∃ delayed, engine.openOrder fill.orderId = some (.delayed, delayed) ∧
      matures market outcome book.timestampMs delayed = true ∧
      (engine.withBook market outcome book).takerFill delayed.orderId
        delayed.order delayed.submittedMs book.timestampMs = some fill) ∨
    ∃ resting, engine.openOrder fill.orderId = some (.resting, resting) ∧
      fillable market outcome book resting = true ∧
      engine.makerFill book resting = some fill := by
  rcases (mem_bookFills wellFormed).mp mem with
    ⟨delayed, waiting, _, mature, filled⟩ |
    ⟨key, resting, stored, _, crossed, filled⟩
  · refine Or.inl ⟨delayed, ?_, mature, filled⟩
    rw [(takerFill_fields filled).1]
    exact wellFormed.openOrder_delayed waiting
  · refine Or.inr ⟨resting, ?_, crossed, filled⟩
    rw [(makerFill_fields filled).1, wellFormed.restingKey stored]
    exact openOrder_resting stored

theorem nodup_filterMap_orderId
    {I : Type} {items : List I} (identity : I → String)
    (nodup : (items.map identity).Nodup) {select : I → Option (FillEvent Decimal)}
    (named : ∀ item ∈ items, ∀ fill, select item = some fill →
      fill.orderId = identity item) :
    ((items.filterMap select).map FillEvent.orderId).Nodup := by
  have sublist : ((items.filterMap select).map FillEvent.orderId).Sublist
      (items.map identity) := by
    clear nodup
    induction items with
    | nil =>
        exact List.Sublist.slnil
    | cons item rest ih =>
        have later := ih fun other mem =>
          named other (List.mem_cons_of_mem item mem)
        cases selected : select item with
        | none =>
            simpa [selected] using later.cons (identity item)
        | some fill =>
            have same := named item List.mem_cons_self fill selected
            simpa [selected, same] using later.cons_cons (identity item)
  exact nodup.sublist sublist

theorem bookFills_nodup (wellFormed : engine.WellFormed)
    (order : IterationOrder String) (market : MarketId) (outcome : Outcome)
    (book : OrderBookL2) :
    ((engine.bookFills order market outcome book).map
      FillEvent.orderId).Nodup := by
  unfold bookFills maturedFills
  rw [List.map_append, List.nodup_append]
  refine ⟨?_, ?_, ?_⟩
  · apply nodup_filterMap_orderId WorkingOrder.orderId
    · exact wellFormed.delayedNodup.sublist
        (List.filter_sublist.map WorkingOrder.orderId)
    · intro delayed mem fill filled
      split at filled
      · exact (takerFill_fields filled).1
      · cases filled
  · apply nodup_filterMap_orderId id
    · rw [List.map_id]
      exact crossedIds_nodup wellFormed order market outcome book
    · intro key mem fill filled
      obtain ⟨resting, stored, alive, crossed⟩ :=
        (mem_crossedIds wellFormed).mp mem
      simp only [stored, Option.filter_some, alive, if_true,
        Option.bind_some] at filled
      rw [(makerFill_fields filled).1]
      exact wellFormed.restingKey stored
  · intro taken takenMember made madeMember same
    obtain ⟨takerFill, takerMember, rfl⟩ := List.mem_map.mp takenMember
    obtain ⟨makerFill, makerMember, rfl⟩ := List.mem_map.mp madeMember
    obtain ⟨delayed, waiting, taken⟩ := List.mem_filterMap.mp takerMember
    obtain ⟨key, crossedMember, made⟩ := List.mem_filterMap.mp makerMember
    obtain ⟨resting, stored, alive, crossed⟩ :=
      (mem_crossedIds wellFormed).mp crossedMember
    simp only [stored, Option.filter_some, alive, if_true,
      Option.bind_some] at made
    split at taken
    · have takerId := (takerFill_fields taken).1
      have makerId := (makerFill_fields made).1
      rw [wellFormed.restingKey stored] at makerId
      have absent := wellFormed.disjoint (List.mem_of_mem_filter waiting)
      rw [← takerId, same, makerId, stored] at absent
      cases absent
    · cases taken

end SimEngine

end Pmkit
