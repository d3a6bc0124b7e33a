import Pmkit.Library.Trace
import Pmkit.Sim.OpenOrders

/-!
# Runs of the simulator

A run applies calls to an engine and keeps two records beside it: the orders
the engine answered with an identity and the fills it has handed out.  Seen
from one identity a call does two things: it changes the open order and it
adds at most one fill.
-/

namespace Pmkit

open MachineInt

/-- The calls of the simulator.  A book update carries the order in which the
map of resting orders is visited. -/
inductive SimCall where
  | submit (order : PlaceOrder) (strategy : Option StrategyId) (nowMs : I64)
  | updateBook (order : IterationOrder String) (market : MarketId)
      (outcome : Outcome) (book : OrderBookL2)
  | cancel (orderId : String)
  | cancelAll
  | drainFills

/-- An engine with the orders it accepted and the fills it handed out. -/
structure SimRun where
  engine : SimEngine
  accepted : List WorkingOrder
  drained : List (FillEvent Decimal)

namespace SimRun

def start (idPrefix : String) (startId : Nat) (config : SimulationConfig) :
    SimRun where
  engine := .withFeeConfig idPrefix startId config
  accepted := []
  drained := []

def step (run : SimRun) : SimCall → SimRun
  | .submit order strategy nowMs =>
      let result := run.engine.submitWithStrategy order strategy nowMs
      { run with
        engine := result.1
        accepted := run.accepted ++ result.2.toList.map fun orderId =>
          { run.engine.workingOrder order strategy nowMs with
            orderId := orderId } }
  | .updateBook order market outcome book =>
      { run with engine := run.engine.updateBook order market outcome book }
  | .cancel orderId =>
      { run with engine := (run.engine.cancel orderId).1 }
  | .cancelAll =>
      { run with engine := run.engine.cancelAll.1 }
  | .drainFills =>
      { run with
        engine := run.engine.drainFills.1
        drained := run.drained ++ run.engine.drainFills.2 }

def emitted (run : SimRun) : List (FillEvent Decimal) :=
  run.drained ++ run.engine.pendingFills

def fillsOf (run : SimRun) (orderId : String) : List (FillEvent Decimal) :=
  run.emitted.filter fun fill => fill.orderId = orderId

end SimRun

def totalSize (fills : List (FillEvent Decimal)) : Decimal :=
  (fills.map FillEvent.size).sum

/-- A list without repeated names, cut down to one name. -/
theorem filter_eq_toList
    {I : Type} {items : List I} {name : I → String} {key : String}
    {named : Option I} (nodup : (items.map name).Nodup)
    (only : ∀ item, item ∈ items ∧ name item = key ↔ named = some item) :
    items.filter (fun item => name item = key) = named.toList := by
  induction items generalizing named with
  | nil =>
      cases named with
      | none => rfl
      | some item => simpa using only item
  | cons head rest ih =>
      rw [List.map_cons, List.nodup_cons] at nodup
      by_cases same : name head = key
      · have isHead : named = some head :=
          (only head).mp ⟨List.mem_cons_self, same⟩
        have noOther : ∀ item ∈ rest, name item ≠ key :=
          fun item mem other => nodup.1 (List.mem_map.mpr
            ⟨item, mem, other.trans same.symm⟩)
        simp only [isHead, same, List.filter_cons, decide_true, if_true,
          Option.toList_some, List.cons.injEq, true_and]
        exact List.filter_eq_nil_iff.mpr (by simpa using noOther)
      · rw [List.filter_cons_of_neg (by simpa using same)]
        apply ih nodup.2
        intro item
        rw [← only item, List.mem_cons]
        constructor
        · rintro ⟨mem, identity⟩
          exact ⟨Or.inr mem, identity⟩
        · rintro ⟨rfl | mem, identity⟩
          · exact absurd identity same
          · exact ⟨mem, identity⟩

namespace SimEngine

def bookFill (engine : SimEngine) (market : MarketId) (outcome : Outcome)
    (book : OrderBookL2) :
    Standing × WorkingOrder → Option (FillEvent Decimal)
  | (.resting, resting) =>
      if survives market outcome book.timestampMs resting &&
          fillable market outcome book resting then
        engine.makerFill book resting
      else
        none
  | (.delayed, delayed) =>
      if survives market outcome book.timestampMs delayed &&
          matures market outcome book.timestampMs delayed then
        (engine.withBook market outcome book).takerFill delayed.orderId
          delayed.order delayed.submittedMs book.timestampMs
      else
        none

variable {engine : SimEngine} {fill : FillEvent Decimal}

theorem bookFill_eq_some_iff {market : MarketId} {outcome : Outcome}
    {book : OrderBookL2} {opened : Standing × WorkingOrder}
    :
    engine.bookFill market outcome book opened = some fill ↔
      survives market outcome book.timestampMs opened.2 = true ∧
        ((opened.1 = .resting ∧ fillable market outcome book opened.2 = true ∧
            engine.makerFill book opened.2 = some fill) ∨ (opened.1 = .delayed ∧
            matures market outcome book.timestampMs opened.2 = true ∧
            (engine.withBook market outcome book).takerFill opened.2.orderId
              opened.2.order opened.2.submittedMs book.timestampMs =
                some fill)) := by
  obtain ⟨standing, working⟩ := opened
  cases standing with
  | resting =>
      simp [bookFill, and_assoc]
  | delayed =>
      simp [bookFill, and_assoc]

/-- What the fill of an open order carries over from it, and what it says
about the order. -/
theorem bookFill_fields {market : MarketId} {outcome : Outcome}
    {book : OrderBookL2} {standing : Standing} {working : WorkingOrder}
    (filled : engine.bookFill market outcome book (standing, working) =
      some fill) :
    fill.orderId = working.orderId ∧ fill.market = working.order.market ∧
      fill.outcome = working.order.outcome ∧
      fill.side = working.order.side ∧
      fill.size ≤ working.order.qty ∧
      fill.timestampMs = max book.timestampMs working.submittedMs ∧
      working.activeAtMs ≤ book.timestampMs ∧
      expired working.order book.timestampMs = false := by
  obtain ⟨alive, ⟨_, crossed, made⟩ | ⟨_, mature, taken⟩⟩ :=
    bookFill_eq_some_iff.mp filled
  · obtain ⟨identity, market, outcome, side, least, _, time⟩ :=
      makerFill_fields made
    simp only [fillable, Bool.and_eq_true, decide_eq_true_eq] at crossed
    have fresh : expired working.order book.timestampMs = false := by
      simpa [survives, crossed.1.1] using alive
    exact ⟨identity, market, outcome, side, least, time, crossed.1.2, fresh⟩
  · obtain ⟨identity, market, outcome, side, _, least, time⟩ :=
      takerFill_fields taken
    simp only [matures, Bool.and_eq_true, decide_eq_true_eq] at mature
    have fresh : expired working.order book.timestampMs = false := by
      simpa [survives, mature.1] using alive
    exact ⟨identity, market, outcome, side, least, time, mature.2, fresh⟩

/-- The fills of one book update that carry an identity. -/
theorem bookFills_of_orderId (wellFormed : engine.WellFormed)
    (order : IterationOrder String) (market : MarketId) (outcome : Outcome)
    (book : OrderBookL2) (key : String) :
    (engine.bookFills order market outcome book).filter
        (fun fill => fill.orderId = key) =
      ((engine.openOrder key).bind
        (engine.bookFill market outcome book)).toList := by
  have distinct := bookFills_nodup wellFormed order market outcome book
  apply filter_eq_toList distinct
  intro fill
  rw [mem_bookFills wellFormed, Option.bind_eq_some_iff]
  constructor
  · rintro ⟨⟨delayed, waiting, alive, mature, taken⟩ |
      ⟨stored, resting, found, alive, crossed, made⟩, rfl⟩
    · refine ⟨(.delayed, delayed), ?_, bookFill_eq_some_iff.mpr
        ⟨alive, Or.inr ⟨rfl, mature, taken⟩⟩⟩
      rw [(takerFill_fields taken).1]
      exact wellFormed.openOrder_delayed waiting
    · refine ⟨(.resting, resting), ?_, bookFill_eq_some_iff.mpr
        ⟨alive, Or.inl ⟨rfl, crossed, made⟩⟩⟩
      rw [(makerFill_fields made).1, wellFormed.restingKey found]
      exact openOrder_resting found
  · rintro ⟨⟨standing, working⟩, found, filled⟩
    have identity := (bookFill_fields filled).1
    obtain ⟨alive, ⟨rests, crossed, made⟩ | ⟨waits, mature, taken⟩⟩ :=
      bookFill_eq_some_iff.mp filled
    · simp only at rests
      subst rests
      have stored := openOrder_eq_resting_iff.mp found
      exact ⟨Or.inr ⟨key, working, stored, alive, crossed, made⟩,
        identity.trans (wellFormed.restingKey stored)⟩
    · simp only at waits
      subst waits
      obtain ⟨waiting, same⟩ :=
        wellFormed.openOrder_eq_delayed_iff.mp found
      exact ⟨Or.inl ⟨working, waiting, alive, mature, taken⟩,
        identity.trans same⟩

end SimEngine

namespace SimRun

/-! ## One call, seen from one identity -/

def openAfter (run : SimRun) (key : String) :
    SimCall → Option (SimEngine.Standing × WorkingOrder)
  | .submit order strategy nowMs =>
      if (run.engine.submitWithStrategy order strategy nowMs).2 = some key then
        if order.postOnly then
          some (.resting, run.engine.workingOrder order strategy nowMs)
        else if 0 < run.engine.config.activationLatencyMs then
          some (.delayed, run.engine.workingOrder order strategy nowMs)
        else
          none
      else
        run.engine.openOrder key
  | .updateBook _ market outcome book =>
      (run.engine.openOrder key).bind
        (run.engine.openAfter market outcome book)
  | .cancel orderId =>
      if key = orderId then none else run.engine.openOrder key
  | .cancelAll => none
  | .drainFills => run.engine.openOrder key

def fillBy (run : SimRun) (key : String) :
    SimCall → Option (FillEvent Decimal)
  | .submit order strategy nowMs =>
      if (run.engine.submitWithStrategy order strategy nowMs).2 = some key ∧
          order.postOnly = false ∧
          ¬ 0 < run.engine.config.activationLatencyMs then
        run.engine.takerFill key order nowMs nowMs
      else
        none
  | .updateBook _ market outcome book =>
      (run.engine.openOrder key).bind
        (run.engine.bookFill market outcome book)
  | .cancel _ | .cancelAll | .drainFills => none

variable {run : SimRun}

theorem step_wellFormed (wellFormed : run.engine.WellFormed) (call : SimCall) :
    (run.step call).engine.WellFormed := by
  cases call with
  | submit order strategy nowMs =>
      exact (SimEngine.submitWithStrategy_submitted run.engine order strategy
        nowMs).wellFormed wellFormed
  | updateBook order market outcome book =>
      exact SimEngine.updateBook_wellFormed wellFormed order market outcome book
  | cancel orderId =>
      exact SimEngine.cancel_wellFormed wellFormed orderId
  | cancelAll =>
      exact SimEngine.cancelAll_wellFormed wellFormed
  | drainFills =>
      exact SimEngine.drainFills_wellFormed wellFormed

theorem step_openOrder (wellFormed : run.engine.WellFormed) (call : SimCall)
    (key : String) :
    (run.step call).engine.openOrder key = run.openAfter key call := by
  cases call with
  | submit order strategy nowMs =>
      exact (SimEngine.submitWithStrategy_submitted run.engine order strategy
        nowMs).openOrder wellFormed key
  | updateBook order market outcome book =>
      exact SimEngine.updateBook_openOrder wellFormed order market outcome book
        key
  | cancel orderId =>
      exact SimEngine.cancel_openOrder wellFormed orderId key
  | cancelAll =>
      rfl
  | drainFills =>
      rfl

/-- The fills a submission adds to an identity. -/
theorem submit_fills
    (engine : SimEngine) (order : PlaceOrder) (strategy : Option StrategyId)
    (nowMs : I64) :
    ∃ fill : Option (FillEvent Decimal),
      (engine.submitWithStrategy order strategy nowMs).1.pendingFills =
        engine.pendingFills ++ fill.toList ∧
      ∀ key, (fill.toList.filter fun fill => fill.orderId = key) =
        (if (engine.submitWithStrategy order strategy nowMs).2 = some key ∧
            order.postOnly = false ∧
            ¬ 0 < engine.config.activationLatencyMs then
          engine.takerFill key order nowMs nowMs
        else
          none).toList := by
  have submitted :=
    SimEngine.submitWithStrategy_submitted engine order strategy nowMs
  generalize engine.submitWithStrategy order strategy nowMs = result
    at submitted
  cases submitted with
  | refused notAdmitted =>
      exact ⟨none, by simp, by simp⟩
  | unfilled admitted notAccepted =>
      exact ⟨none, by simp, by simp⟩
  | rests accepted postOnly =>
      exact ⟨none, by simp, by simp [postOnly]⟩
  | waits accepted taker latency =>
      exact ⟨none, by simp, by simp [latency]⟩
  | takes accepted taker immediate fill filled =>
      refine ⟨some fill, by simp, ?_⟩
      intro key
      have identity := (SimEngine.takerFill_fields filled).1
      by_cases same : mintedId engine.idPrefix engine.nextId = key
      · subst same
        simp [identity, taker, immediate, filled]
      · have other : fill.orderId ≠ key := by
          rw [identity]
          exact same
        simp [other, same]

theorem step_fillsOf (wellFormed : run.engine.WellFormed) (call : SimCall)
    (key : String) :
    (run.step call).fillsOf key =
      run.fillsOf key ++ (run.fillBy key call).toList := by
  cases call with
  | submit order strategy nowMs =>
      obtain ⟨fill, pending, named⟩ :=
        submit_fills run.engine order strategy nowMs
      simp only [fillsOf, emitted, step, fillBy, pending, ← List.append_assoc]
      rw [List.filter_append, named key]
  | updateBook order market outcome book =>
      obtain ⟨_, _, _, _, _, _, _, pending⟩ :=
        SimEngine.updateBook_spec wellFormed order market outcome book
      simp only [fillsOf, emitted, step, fillBy, pending, ← List.append_assoc]
      rw [List.filter_append,
        SimEngine.bookFills_of_orderId wellFormed order market outcome book]
  | cancel orderId =>
      simp [fillsOf, emitted, step, fillBy]
  | cancelAll =>
      simp [fillsOf, emitted, step, fillBy, SimEngine.cancelAll]
  | drainFills =>
      simp [fillsOf, emitted, step, fillBy, SimEngine.drainFills]

end SimRun

end Pmkit
