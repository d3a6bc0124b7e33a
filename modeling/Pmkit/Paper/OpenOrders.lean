import Pmkit.Paper.Replay
import Pmkit.Sim.OpenOrders

/-!
# Two books of open orders

The simulator and the ledger each keep the open orders.  `InStep` says that
the ledger tracks exactly the simulator's open orders, field by field.  It
survives every call whose fills the account takes and whose book does not
expire an order behind the ledger's back.
-/

namespace Pmkit

open MachineInt

namespace PaperLedger

def AcceptsAll : PortfolioLedger → List (FillEvent Decimal) → Prop
  | _, [] => True
  | account, fill :: rest =>
      account.Accepts (ledgerFillOf fill) ∧
        AcceptsAll (account.applyFill (ledgerFillOf fill)).1 rest

def afterFill (tracked : TrackedOrder) (size : Decimal) : Option TrackedOrder :=
  if tracked.state = .resting ∧ size < tracked.order.qty then
    some { tracked with
      order := { tracked.order with qty := tracked.order.qty - size } }
  else
    none

theorem ordersAfterFill_lookup
    (orders : KeyedMap String TrackedOrder) (orderId key : String)
    (tracked : TrackedOrder) (size : Decimal) :
    (ordersAfterFill orders orderId tracked size).lookup key =
      if key = orderId then afterFill tracked size else orders.lookup key := by
  unfold ordersAfterFill afterFill
  by_cases partly : tracked.state = .resting ∧ size < tracked.order.qty
  · simp only [partly, and_self, if_true, KeyedMap.lookup_insert_eq]
  · simp only [partly, if_false, KeyedMap.lookup_erase_eq]

/-- Fills with distinct identities, each agreeing with a tracked order and
taken by the account, are all recorded; each changes its own order. -/
theorem recordFills_orders
    (ledger : PaperLedger) (fills : List (FillEvent Decimal))
    (nodup : (fills.map FillEvent.orderId).Nodup)
    (known : ∀ fill ∈ fills, ∃ tracked,
      ledger.orders.lookup fill.orderId = some tracked ∧ Matches tracked fill)
    (accepted : AcceptsAll ledger.account fills) :
    (ledger.recordFills fills).2 = .ok () ∧
      (∀ key, (∀ fill ∈ fills, fill.orderId ≠ key) →
        (ledger.recordFills fills).1.orders.lookup key =
          ledger.orders.lookup key) ∧
      ∀ fill ∈ fills,
        (ledger.recordFills fills).1.orders.lookup fill.orderId =
          (ledger.orders.lookup fill.orderId).bind (afterFill · fill.size) := by
  induction fills generalizing ledger with
  | nil =>
      simp [recordFills]
  | cons fill rest ih =>
      rw [List.map_cons, List.nodup_cons] at nodup
      obtain ⟨tracked, found, agrees⟩ := known fill List.mem_cons_self
      have step := recordFill_step ledger fill
      rw [recordFills]
      generalize ledger.recordFill fill = result at step
      cases step with
      | unmatched error unknown =>
          exact absurd agrees (unknown tracked found)
      | refused other error otherFound matched notAccepted =>
          exact absurd accepted.1 notAccepted
      | recorded other otherFound matched taken =>
          rw [found] at otherFound
          cases otherFound
          have ne : ∀ later ∈ rest, later.orderId ≠ fill.orderId :=
            fun later mem same => nodup.1
              (List.mem_map.mpr ⟨later, mem, same⟩)
          have orders : ∀ key, (PaperLedger.record { ledger with
                account := (ledger.account.applyFill (ledgerFillOf fill)).1
                orders := ordersAfterFill ledger.orders fill.orderId tracked
                  fill.size
                fillCount := ledger.fillCount + 1 }
              (ledger.nextEntry fill.timestampMs
                (fillEventOf fill))).orders.lookup key =
              if key = fill.orderId then afterFill tracked fill.size
              else ledger.orders.lookup key :=
            fun key => ordersAfterFill_lookup _ _ _ _ _
          have account : (PaperLedger.record { ledger with
                account := (ledger.account.applyFill (ledgerFillOf fill)).1
                orders := ordersAfterFill ledger.orders fill.orderId tracked
                  fill.size
                fillCount := ledger.fillCount + 1 }
              (ledger.nextEntry fill.timestampMs (fillEventOf fill))).account =
              (ledger.account.applyFill (ledgerFillOf fill)).1 := rfl
          generalize PaperLedger.record
              { ledger with
                account := (ledger.account.applyFill (ledgerFillOf fill)).1
                orders := ordersAfterFill ledger.orders fill.orderId tracked
                  fill.size
                fillCount := ledger.fillCount + 1 }
              (ledger.nextEntry fill.timestampMs (fillEventOf fill)) =
            next at orders account
          obtain ⟨done, untouched, touched⟩ := ih next
            nodup.2
            (fun later mem => by
              rw [orders, if_neg (ne later mem)]
              exact known later (List.mem_cons_of_mem fill mem))
            (by rw [account]; exact accepted.2)
          refine ⟨done, ?_, ?_⟩
          · intro key absent
            have later : ∀ other ∈ rest, other.orderId ≠ key :=
              fun other mem => absent other
                (List.mem_cons_of_mem fill mem)
            have other : key ≠ fill.orderId :=
              Ne.symm (absent fill List.mem_cons_self)
            rw [untouched key later, orders, if_neg other]
          · intro named mem
            rcases List.mem_cons.mp mem with rfl | later
            · rw [untouched named.orderId ne, orders, if_pos rfl, found]
              rfl
            · rw [touched named later, orders, if_neg (ne named later)]

end PaperLedger

namespace ExecutorState

def stateOf : SimEngine.Standing → OrderState
  | .resting => .resting
  | .delayed => .delayed

def trackedOf (opened : SimEngine.Standing × WorkingOrder) : TrackedOrder where
  order := .fromOrder opened.2.order opened.2.strategy
  state := stateOf opened.1
  submittedMs := opened.2.submittedMs
  activeAtMs := opened.2.activeAtMs

/-- The ledger tracks exactly the open orders of the simulator. -/
structure InStep (idPrefix : String) (config : SimulationConfig)
    (state : ExecutorState) : Prop where
  sound : state.Sound idPrefix config
  drained : state.engine.pendingFills = []
  mirrors : ∀ orderId, state.ledger.orders.lookup orderId =
    (state.engine.openOrder orderId).map trackedOf

/-- What a book update must meet to keep the two in step: the account takes
its fills, and an order it expires is one the ledger expects to mature. -/
structure UpdateInStep (state : ExecutorState) (fillOrder : IterationOrder String)
    (market : MarketId) (outcome : Outcome) (book : OrderBookL2) : Prop where
  accepted : PaperLedger.AcceptsAll state.ledger.account
    (state.engine.updateBook fillOrder market outcome book).pendingFills
  restingAlive : ∀ orderId resting,
    state.engine.openOrder orderId = some (.resting, resting) →
      onBook market outcome resting.order = true →
        expired resting.order book.timestampMs = false
  delayedAlive : ∀ orderId delayed,
    state.engine.openOrder orderId = some (.delayed, delayed) →
      onBook market outcome delayed.order = true →
        expired delayed.order book.timestampMs = true →
          delayed.activeAtMs ≤ book.timestampMs

def CallInStep (state : ExecutorState) : ExecutorCall → Prop
  | .submit _ order nowMs => state.SubmissionReplays order nowMs
  | .submitForStrategy _ order _ nowMs => state.SubmissionReplays order nowMs
  | .updateBook _ fillOrder _ market outcome book =>
      state.UpdateInStep fillOrder market outcome book
  | .cancel _ => True
  | .cancelAll => True
  | .settle _ _ _ _ _ => True

/-- The open orders with their remaining quantities, as the simulator reports
them. -/
def engineOpen (state : ExecutorState) : Set (String × Decimal) :=
  { entry | ∃ reported ∈ state.engine.openOrders,
    entry = (reported.orderId, reported.remainingQty) }

/-- The open orders with their remaining quantities, as the account reports
them. -/
def ledgerOpen (state : ExecutorState) : Set (String × Decimal) :=
  { entry | ∃ reported ∈
    state.ledger.state.restingOrders ++ state.ledger.state.delayedOrders,
    entry = (reported.orderId, reported.remainingQty) }

/-- Simulator and ledger report the same open orders, and only these hold
cash in `available_cash`. -/
def OpenOrdersAgree (state : ExecutorState) : Prop :=
  state.engineOpen = state.ledgerOpen ∧
    ∀ orderId tracked, state.ledger.orders.lookup orderId = some tracked →
      (orderId, tracked.order.qty) ∈ state.engineOpen

theorem mem_ledgerOpen {state : ExecutorState} {entry : String × Decimal} :
    entry ∈ state.ledgerOpen ↔
      ∃ orderId tracked, state.ledger.orders.lookup orderId = some tracked ∧
        tracked.state ≠ .immediate ∧ entry = (orderId, tracked.order.qty) := by
  unfold ledgerOpen PaperLedger.state PaperLedger.openOrdersIn
  simp only [Set.mem_ofPred_eq, List.mem_append, List.mem_insertionSort,
    List.mem_map, List.mem_filter, decide_eq_true_eq]
  constructor
  · rintro ⟨reported, (⟨⟨orderId, tracked⟩, ⟨mem, standing⟩, rfl⟩ |
      ⟨⟨orderId, tracked⟩, ⟨mem, standing⟩, rfl⟩), rfl⟩
    · refine ⟨orderId, tracked, KeyedMap.lookup_iff_mem_entries.mpr mem,
        ?_, rfl⟩
      simp only at standing
      simp [standing]
    · refine ⟨orderId, tracked, KeyedMap.lookup_iff_mem_entries.mpr mem,
        ?_, rfl⟩
      simp only at standing
      simp [standing]
  · rintro ⟨orderId, tracked, found, notImmediate, rfl⟩
    have mem := KeyedMap.lookup_iff_mem_entries.mp found
    refine ⟨PaperLedger.openOrderOf orderId tracked, ?_, rfl⟩
    cases standing : tracked.state with
    | immediate =>
        exact absurd standing notImmediate
    | resting =>
        exact .inl ⟨⟨orderId, tracked⟩, ⟨mem, standing⟩, rfl⟩
    | delayed =>
        exact .inr ⟨⟨orderId, tracked⟩, ⟨mem, standing⟩, rfl⟩

section Preservation

variable {idPrefix : String} {config : SimulationConfig} {state : ExecutorState}

theorem InStep.openOrdersAgree
    (inStep : state.InStep idPrefix config) : state.OpenOrdersAgree := by
  have wellFormed := inStep.sound.wellFormed
  have reported : ∀ orderId tracked,
      state.ledger.orders.lookup orderId = some tracked →
        tracked.state ≠ .immediate ∧
          (orderId, tracked.order.qty) ∈ state.engineOpen := by
    intro orderId tracked found
    rw [inStep.mirrors, Option.map_eq_some_iff] at found
    obtain ⟨⟨standing, working⟩, opened, rfl⟩ := found
    have identity : working.orderId = orderId := by
      cases standing with
      | resting =>
          exact wellFormed.restingKey
            (SimEngine.openOrder_eq_resting_iff.mp opened)
      | delayed =>
          exact (wellFormed.openOrder_eq_delayed_iff.mp opened).2
    subst identity
    refine ⟨by cases standing <;> simp [trackedOf, stateOf], ?_⟩
    exact ⟨SimEngine.openOrderOf working,
      (SimEngine.mem_openOrders wellFormed).mpr ⟨standing, working, opened, rfl⟩,
      rfl⟩
  refine ⟨Set.ext fun entry => ?_, fun orderId tracked found =>
    (reported orderId tracked found).2⟩
  rw [mem_ledgerOpen]
  constructor
  · rintro ⟨simOrder, mem, rfl⟩
    obtain ⟨standing, working, opened, rfl⟩ :=
      (SimEngine.mem_openOrders wellFormed).mp mem
    have found : state.ledger.orders.lookup working.orderId =
        some (trackedOf (standing, working)) := by
      rw [inStep.mirrors, opened]
      rfl
    exact ⟨working.orderId, _, found, (reported _ _ found).1, rfl⟩
  · rintro ⟨orderId, tracked, found, _, rfl⟩
    exact (reported orderId tracked found).2

/-- The order an acknowledgement opens mirrors the one the simulator opened. -/
theorem newTracked_eq_trackedOf
    (sound : state.Sound idPrefix config) (order : PlaceOrder)
    (strategy : Option StrategyId) (nowMs : I64)
    (standing : SimEngine.Standing) :
    PaperLedger.newTracked order strategy (stateOf standing)
        (nowMs.saturatingAdd state.config.activationLatencyMs) nowMs =
      trackedOf (standing, state.engine.workingOrder order strategy nowMs) := by
  simp [PaperLedger.newTracked, trackedOf, SimEngine.workingOrder,
    sound.config, sound.engineConfig]

theorem SubmissionStep.inStep {next : ExecutorState} {order : PlaceOrder}
    {strategy : Option StrategyId} {nowMs : I64}
    (inStep : state.InStep idPrefix config)
    (sound : next.Sound idPrefix config)
    (step : SubmissionStep state order strategy nowMs next)
    (replays : state.SubmissionReplays order nowMs) :
    next.InStep idPrefix config := by
  have wellFormed := inStep.sound.wellFormed
  have ids := inStep.sound.expectedOrderId_iff
  cases step with
  | refused error check =>
      exact inStep
  | rejected result check submitted noId =>
      refine ⟨sound, rfl, ?_⟩
      intro key
      have opened := submitted.openOrder wellFormed key
      rw [noId] at opened
      rcases submitted.answer with ⟨_, minted⟩ | ⟨_, _, _, _, fills⟩
      · rw [noId] at minted
        cases minted
      · simp only [concluded, fills, inStep.drained, PaperLedger.recordFills]
        change state.ledger.orders.lookup key =
          (result.1.openOrder key).map trackedOf
        rw [opened]
        exact inStep.mirrors key
  | diverged result actual check submitted minted ne =>
      rcases submitted.answer with ⟨accepted, own⟩ | ⟨_, none, _⟩
      · rw [minted] at own
        cases own
        exact absurd (ids.mpr (replays check accepted).1) ne
      · rw [minted] at none
        cases none
  | accepted result check submitted minted =>
      refine ⟨sound, rfl, ?_⟩
      intro key
      have opened := submitted.openOrder wellFormed key
      have engineConfig := inStep.sound.engineConfig
      have stateConfig := inStep.sound.config
      change (PaperLedger.recordFills _ result.1.pendingFills).1.orders.lookup
        key = (result.1.openOrder key).map trackedOf
      rw [opened, minted]
      have tracked := PaperLedger.acknowledged_orders state.ledger order
        strategy nowMs (acceptedState order state.config)
        (nowMs.saturatingAdd state.config.activationLatencyMs)
      cases submitted with
      | refused notAdmitted =>
          cases minted
      | unfilled admitted notAccepted =>
          cases minted
      | rests accepted postOnly =>
          have working : acceptedState order state.config = .resting := by
            simp [acceptedState, postOnly]
          rw [inStep.drained, PaperLedger.recordFills, tracked key, working]
          simp only [Option.some.injEq, postOnly, if_true]
          by_cases same : key = state.ledger.expectedOrderId
          · rw [if_pos same, if_pos same.symm]
            exact congrArg some (newTracked_eq_trackedOf inStep.sound order
              strategy nowMs .resting)
          · rw [if_neg same, if_neg (Ne.symm same)]
            exact inStep.mirrors key
      | waits accepted taker latency =>
          have working : acceptedState order state.config = .delayed := by
            rw [engineConfig] at latency
            simp [acceptedState, taker, stateConfig, latency]
          rw [inStep.drained, PaperLedger.recordFills, tracked key, working]
          simp only [Option.some.injEq, taker, Bool.false_eq_true, if_false,
            latency, if_true]
          by_cases same : key = state.ledger.expectedOrderId
          · rw [if_pos same, if_pos same.symm]
            exact congrArg some (newTracked_eq_trackedOf inStep.sound order
              strategy nowMs .delayed)
          · rw [if_neg same, if_neg (Ne.symm same)]
            exact inStep.mirrors key
      | takes accepted taker immediate fill filled =>
          have working : acceptedState order state.config = .immediate := by
            rw [engineConfig] at immediate
            simp [acceptedState, taker, stateConfig, immediate]
          have identity : fill.orderId = state.ledger.expectedOrderId := by
            rw [(SimEngine.takerFill_fields filled).1]
            exact Option.some.inj minted
          have own := tracked fill.orderId
          rw [if_pos identity] at own
          obtain ⟨_, untouched, touched⟩ := PaperLedger.recordFills_orders
            (state.ledger.acknowledged order strategy
              (acceptedState order state.config)
              (nowMs.saturatingAdd state.config.activationLatencyMs) nowMs)
            [fill] (by simp)
            (by
              intro single mem
              rw [List.mem_singleton] at mem
              subst mem
              exact ⟨_, own, takerFill_matches filled _ _⟩)
            ⟨(replays check accepted).2 working fill filled, trivial⟩
          simp only [inStep.drained, List.nil_append, Option.some.injEq, taker,
            Bool.false_eq_true, if_false, immediate]
          by_cases same : key = state.ledger.expectedOrderId
          · rw [if_pos same.symm, same, ← identity,
              touched fill (List.mem_singleton.mpr rfl), own, working]
            rfl
          · rw [if_neg (Ne.symm same), untouched key (by
                simpa [identity] using Ne.symm same), tracked key,
              if_neg same]
            exact inStep.mirrors key

variable {market : MarketId} {outcome : Outcome} {book : OrderBookL2}
  {fill : FillEvent Decimal} {fillOrder : IterationOrder String}

/-- Every fill of a book update names an open order and agrees with it. -/
theorem bookFills_known {engine : SimEngine} (wellFormed : engine.WellFormed)
    {order : IterationOrder String}
    (mem : fill ∈ engine.bookFills order market outcome book) :
    ∃ standing working,
      engine.openOrder fill.orderId = some (standing, working) ∧
        PaperLedger.Matches (trackedOf (standing, working)) fill := by
  rcases SimEngine.openOrder_of_mem_bookFills wellFormed mem with
    ⟨delayed, known, _, filled⟩ | ⟨resting, known, _, filled⟩
  · obtain ⟨_, sameMarket, sameOutcome, sameSide, _, size, _⟩ :=
      SimEngine.takerFill_fields filled
    refine ⟨.delayed, delayed, known, ?_⟩
    simp [PaperLedger.Matches, PaperLedger.fillMismatch, trackedOf,
      RecordedOrder.fromOrder, sameMarket, sameOutcome, sameSide, size]
  · obtain ⟨_, sameMarket, sameOutcome, sameSide, size, _, _⟩ :=
      SimEngine.makerFill_fields filled
    refine ⟨.resting, resting, known, ?_⟩
    simp [PaperLedger.Matches, PaperLedger.fillMismatch, trackedOf,
      RecordedOrder.fromOrder, sameMarket, sameOutcome, sameSide, size]

theorem maturing_trackedOf {timestampMs : I64}
    {standing : SimEngine.Standing} {working : WorkingOrder} :
    PaperLedger.maturing market outcome timestampMs
        (trackedOf (standing, working)) = true ↔
      standing = .delayed ∧
        SimEngine.matures market outcome timestampMs working = true := by
  simp only [PaperLedger.maturing, SimEngine.matures, onBook,
    Bool.and_eq_true, decide_eq_true_eq]
  cases standing with
  | resting =>
      simp [trackedOf, stateOf]
  | delayed =>
      simp [trackedOf, stateOf, RecordedOrder.fromOrder]

/-- The orders a book update sweeps from the ledger are the delayed orders of
its book whose time has come. -/
theorem InStep.mem_maturingDelayed
    (inStep : state.InStep idPrefix config) {order : IterationOrder String}
    {market : MarketId} {outcome : Outcome} {timestampMs : I64}
    {key : String} :
    key ∈ state.ledger.maturingDelayed order market outcome timestampMs ↔
      ∃ delayed, state.engine.openOrder key = some (.delayed, delayed) ∧
        SimEngine.matures market outcome timestampMs delayed = true := by
  unfold PaperLedger.maturingDelayed
  rw [List.mem_map]
  constructor
  · rintro ⟨⟨visited, tracked⟩, mem, rfl⟩
    obtain ⟨found, mature⟩ := List.mem_filter.mp mem
    rw [KeyedMap.mem_visit, inStep.mirrors, Option.map_eq_some_iff] at found
    obtain ⟨⟨standing, working⟩, opened, rfl⟩ := found
    obtain ⟨rfl, mature⟩ := maturing_trackedOf.mp mature
    exact ⟨working, opened, mature⟩
  · rintro ⟨delayed, opened, mature⟩
    refine ⟨(key, trackedOf (.delayed, delayed)), List.mem_filter.mpr ⟨?_,
      maturing_trackedOf.mpr ⟨rfl, mature⟩⟩, rfl⟩
    rw [KeyedMap.mem_visit, inStep.mirrors, opened]
    rfl

theorem afterFill_trackedOf {engine : SimEngine} {resting : RestingOrder}
    (filled : engine.makerFill book resting = some fill) :
    PaperLedger.afterFill (trackedOf (.resting, resting)) fill.size =
      ((engine.afterFill book resting).map fun after =>
        trackedOf (.resting, after)) := by
  obtain ⟨_, _, _, _, size, _, _⟩ := SimEngine.makerFill_fields filled
  have remainder : (SimEngine.fillOrder resting fill.size).order.qty =
      resting.order.qty - fill.size := rfl
  simp only [SimEngine.afterFill, filled, remainder, PaperLedger.afterFill]
  by_cases partly : fill.size < resting.order.qty
  · have positive : resting.order.qty - fill.size ≠ 0 :=
      ne_of_gt (sub_pos.mpr partly)
    simp [trackedOf, stateOf, RecordedOrder.fromOrder, partly, positive,
      SimEngine.fillOrder]
  · have whole : resting.order.qty - fill.size = 0 :=
      sub_eq_zero.mpr (le_antisymm (not_lt.mp partly) size)
    simp [trackedOf, RecordedOrder.fromOrder, partly, whole]

theorem InStep.updateBook_mirrors (inStep : state.InStep idPrefix config)
    (cancelOrder : IterationOrder String)
    (update : state.UpdateInStep fillOrder market outcome book)
    {recorded : PaperLedger}
    (untouched : ∀ key,
      (∀ fill ∈ state.engine.bookFills fillOrder market outcome book,
        fill.orderId ≠ key) →
      recorded.orders.lookup key = state.ledger.orders.lookup key)
    (touched : ∀ fill ∈ state.engine.bookFills fillOrder market outcome book,
      recorded.orders.lookup fill.orderId =
        (state.ledger.orders.lookup fill.orderId).bind
          (PaperLedger.afterFill · fill.size))
    (key : String) :
    (if key ∈ state.ledger.maturingDelayed cancelOrder market outcome
        book.timestampMs then
      none
    else
      recorded.orders.lookup key) =
      ((state.engine.openOrder key).bind
        (state.engine.openAfter market outcome book)).map trackedOf := by
  have wellFormed := inStep.sound.wellFormed
  have mirrors := inStep.mirrors key
  cases opened : state.engine.openOrder key with
  | none =>
      have notMaturing : key ∉ state.ledger.maturingDelayed cancelOrder market
          outcome book.timestampMs := by
        rw [inStep.mem_maturingDelayed, opened]
        simp
      rw [if_neg notMaturing, untouched key]
      · rw [mirrors, opened]
        rfl
      · rintro fill mem rfl
        obtain ⟨standing, working, known, _⟩ :=
          bookFills_known wellFormed mem
        rw [opened] at known
        cases known
  | some found =>
      obtain ⟨standing, working⟩ := found
      rw [opened] at mirrors
      cases standing with
      | resting =>
          have notMaturing : key ∉ state.ledger.maturingDelayed cancelOrder
              market outcome book.timestampMs := by
            rw [inStep.mem_maturingDelayed, opened]
            simp
          have stored := SimEngine.openOrder_eq_resting_iff.mp opened
          have alive : SimEngine.survives market outcome book.timestampMs
              working = true := by
            unfold SimEngine.survives
            cases here : onBook market outcome working.order with
            | false => rfl
            | true =>
                rw [update.restingAlive key working opened here]
                rfl
          rw [if_neg notMaturing, Option.bind_some, SimEngine.openAfter,
            SimEngine.restingAfter]
          simp only [alive, Bool.not_true, Bool.false_eq_true, if_false]
          by_cases crossed : SimEngine.fillable market outcome book working =
              true
          · cases filled : state.engine.makerFill book working with
            | some fill =>
                have mem : fill ∈ state.engine.bookFills fillOrder market
                    outcome book :=
                  (SimEngine.mem_bookFills wellFormed).mpr (Or.inr
                    ⟨key, working, stored, alive, crossed, filled⟩)
                have identity : fill.orderId = key :=
                  (SimEngine.makerFill_fields filled).1.trans
                    (wellFormed.restingKey stored)
                have after := touched fill mem
                rw [identity, mirrors] at after
                rw [after, if_pos crossed, Option.map_map]
                exact afterFill_trackedOf filled
            | none =>
                rw [untouched key, mirrors]
                · simp [crossed, SimEngine.afterFill, filled]
                · intro fill mem same
                  rcases SimEngine.openOrder_of_mem_bookFills wellFormed mem
                    with ⟨_, known, _, _⟩ | ⟨_, known, _, made⟩
                  all_goals
                    rw [same, opened] at known
                    cases known
                  rw [filled] at made
                  cases made
          · rw [untouched key, mirrors]
            · simp [crossed]
            · intro fill mem same
              rcases SimEngine.openOrder_of_mem_bookFills wellFormed mem
                with ⟨_, known, _, _⟩ | ⟨_, known, otherCrossed, _⟩
              all_goals
                rw [same, opened] at known
                cases known
              exact crossed otherCrossed
      | delayed =>
          rw [Option.bind_some, SimEngine.openAfter]
          cases mature : SimEngine.matures market outcome book.timestampMs
              working with
          | true =>
              have swept : key ∈ state.ledger.maturingDelayed cancelOrder
                  market outcome book.timestampMs :=
                inStep.mem_maturingDelayed.mpr ⟨working, opened, mature⟩
              simp [swept]
          | false =>
              have notSwept : key ∉ state.ledger.maturingDelayed cancelOrder
                  market outcome book.timestampMs := by
                rw [inStep.mem_maturingDelayed, opened]
                rintro ⟨delayed, same, matured⟩
                cases same
                rw [mature] at matured
                cases matured
              have alive : SimEngine.survives market outcome book.timestampMs
                  working = true := by
                unfold SimEngine.survives
                cases here : onBook market outcome working.order with
                | false => rfl
                | true =>
                    cases gone : expired working.order book.timestampMs with
                    | false => rfl
                    | true =>
                        have active := update.delayedAlive key working opened
                          here gone
                        simp [SimEngine.matures, here, active] at mature
              rw [if_neg notSwept, untouched key, mirrors]
              · simp [alive]
              · intro fill mem same
                rcases SimEngine.openOrder_of_mem_bookFills wellFormed mem
                  with ⟨_, known, otherMature, _⟩ | ⟨_, known, _, _⟩
                all_goals
                  rw [same, opened] at known
                  cases known
                rw [mature] at otherMature
                cases otherMature

theorem InStep.updateBook
    (inStep : state.InStep idPrefix config) (receiverOpen : Bool)
    (cancelOrder : IterationOrder String)
    (update : state.UpdateInStep fillOrder market outcome book)
    (sound : (state.updateBook receiverOpen fillOrder cancelOrder market
      outcome book).1.Sound idPrefix config) :
    (state.updateBook receiverOpen fillOrder cancelOrder market outcome
      book).1.InStep idPrefix config := by
  have wellFormed := inStep.sound.wellFormed
  have engine := (updateBook_engine receiverOpen fillOrder cancelOrder state
    market outcome book).1
  obtain ⟨_, _, _, _, _, _, _, pending⟩ := SimEngine.updateBook_spec wellFormed
    fillOrder market outcome book
  rw [inStep.drained, List.nil_append] at pending
  have accepted := update.accepted
  rw [pending] at accepted
  obtain ⟨done, untouched, touched⟩ := PaperLedger.recordFills_orders _ _
    (SimEngine.bookFills_nodup wellFormed fillOrder market outcome book)
    (fun fill mem => by
      obtain ⟨standing, working, opened, agrees⟩ :=
        bookFills_known wellFormed mem
      refine ⟨_, ?_, agrees⟩
      rw [inStep.mirrors, opened]
      rfl)
    accepted
  refine ⟨sound, by rw [engine]; rfl, ?_⟩
  intro key
  have mirrored := inStep.updateBook_mirrors cancelOrder
    update untouched touched key
  rw [engine]
  change _ = ((state.engine.updateBook fillOrder market outcome
    book).openOrder key).map trackedOf
  rw [SimEngine.updateBook_openOrder wellFormed, ← mirrored]
  simp only [ExecutorState.updateBook, SimEngine.drainFills, pending]
  cases recorded : state.ledger.recordFills
      (state.engine.bookFills fillOrder market outcome book) with
  | mk ledger result =>
      rw [recorded] at done
      simp only at done
      subst done
      obtain ⟨sweptOk, swept⟩ := PaperLedger.cancelEach_orders
        book.timestampMs ledger (state.ledger.maturingDelayed cancelOrder
          market outcome book.timestampMs)
      simp only
      cases cancelled : ledger.cancelEach book.timestampMs
          (state.ledger.maturingDelayed cancelOrder market outcome
            book.timestampMs) with
      | mk last answer =>
          rw [cancelled] at sweptOk swept
          simp only at sweptOk
          subst sweptOk
          exact swept key

theorem InStep.cancel (inStep : state.InStep idPrefix config) (orderId : String)
    (sound : (state.cancel orderId).1.Sound idPrefix config) :
    (state.cancel orderId).1.InStep idPrefix config := by
  have engine := (cancel_engine state orderId).1
  have wellFormed := inStep.sound.wellFormed
  refine ⟨sound, ?_, ?_⟩
  · rw [engine, SimEngine.cancel_pendingFills]
    exact inStep.drained
  · intro key
    rw [engine, SimEngine.cancel_openOrder wellFormed]
    have freed : (state.engine.cancel orderId).2 = none →
        state.engine.openOrder orderId = none := by
      intro nothing
      unfold SimEngine.cancel at nothing
      cases stored : state.engine.resting.lookup orderId with
      | some resting =>
          simp [stored] at nothing
      | none =>
          cases waiting : state.engine.delayed.find? fun order =>
              order.orderId = orderId with
          | some delayed =>
              simp [stored, waiting] at nothing
          | none =>
              simp [SimEngine.openOrder, SimEngine.delayedOrder, stored,
                waiting]
    obtain ⟨_, orders⟩ := PaperLedger.cancelEach_orders state.lastTimestampMs
      state.ledger [orderId]
    have swept := orders key
    simp only [PaperLedger.cancelEach, List.mem_singleton] at swept
    unfold ExecutorState.cancel
    cases cancelled : state.engine.cancel orderId with
    | mk next notional =>
        cases notional with
        | none =>
            have absent := freed (by rw [cancelled])
            by_cases same : key = orderId
            · subst same
              simp [inStep.mirrors, absent]
            · rw [if_neg same]
              exact inStep.mirrors key
        | some amount =>
            simp only
            have mirrored : (if key = orderId then none
                else state.ledger.orders.lookup key) =
                (if key = orderId then none
                  else state.engine.openOrder key).map trackedOf := by
              by_cases same : key = orderId
              · simp [same]
              · rw [if_neg same, if_neg same]
                exact inStep.mirrors key
            rw [← mirrored, ← swept]
            cases state.ledger.cancel orderId state.lastTimestampMs with
            | mk ledger answer =>
                cases answer with
                | error error => rfl
                | ok done => rfl

theorem InStep.cancelAll (inStep : state.InStep idPrefix config)
    (sound : state.cancelAll.1.Sound idPrefix config) :
    state.cancelAll.1.InStep idPrefix config := by
  have wellFormed := inStep.sound.wellFormed
  refine ⟨sound, ?_, ?_⟩
  · rw [cancelAll_eq]
    exact inStep.drained
  · intro key
    rw [cancelAll_eq]
    simp only
    rw [(PaperLedger.cancelEach_orders _ _ _).2 key]
    have empty : state.engine.cancelAll.1.openOrder key = none := by
      simp [SimEngine.openOrder, SimEngine.cancelAll, SimEngine.delayedOrder]
    rw [empty]
    split
    · rfl
    · rename_i notOpen
      rw [inStep.mirrors]
      cases opened : state.engine.openOrder key with
      | none => rfl
      | some found =>
          exfalso
          apply notOpen
          obtain ⟨standing, working⟩ := found
          have identity : working.orderId = key := by
            cases standing with
            | resting =>
                exact wellFormed.restingKey
                  (SimEngine.openOrder_eq_resting_iff.mp opened)
            | delayed =>
                exact (wellFormed.openOrder_eq_delayed_iff.mp opened).2
          subst identity
          exact List.mem_map.mpr ⟨SimEngine.openOrderOf working,
            (SimEngine.mem_openOrders wellFormed).mpr
              ⟨standing, working, opened, rfl⟩, rfl⟩

theorem InStep.settle
    (inStep : state.InStep idPrefix config) (market : MarketId)
    (outcome : Outcome) (settledSize proceeds : Decimal) (timestampMs : I64)
    (sound : (state.settle market outcome settledSize proceeds
      timestampMs).1.Sound idPrefix config) :
    (state.settle market outcome settledSize proceeds timestampMs).1.InStep
      idPrefix config := by
  have engine := (settle_engine state market outcome settledSize proceeds
    timestampMs).1
  refine ⟨sound, by rw [engine]; exact inStep.drained, ?_⟩
  intro key
  rw [engine, ← inStep.mirrors key]
  unfold ExecutorState.settle
  rcases PaperLedger.settle_cases state.ledger market outcome settledSize
    proceeds timestampMs with ⟨next, applied, settled⟩ | ⟨error, failed⟩
  · rw [settled]
    cases applied
    rfl
  · rw [failed]

theorem InStep.step
    (inStep : state.InStep idPrefix config) {call : ExecutorCall}
    (kept : state.CallInStep call) :
    (state.step call).InStep idPrefix config := by
  have sound := step_sound inStep.sound call
  have fresh := inStep.sound.recorded.nextFresh
  cases call with
  | submit receiverOpen order nowMs =>
      simp only [ExecutorState.step, submit_state fresh] at sound ⊢
      exact (submitOwned_step fresh receiverOpen order none nowMs).inStep
        inStep sound kept
  | submitForStrategy receiverOpen order strategy nowMs =>
      exact (submitOwned_step fresh receiverOpen order (some strategy)
        nowMs).inStep inStep sound kept
  | updateBook receiverOpen fillOrder cancelOrder market outcome book =>
      exact inStep.updateBook receiverOpen cancelOrder kept sound
  | cancel orderId =>
      exact inStep.cancel orderId sound
  | cancelAll =>
      exact inStep.cancelAll sound
  | settle market outcome settledSize proceeds timestampMs =>
      exact inStep.settle market outcome settledSize proceeds timestampMs sound

theorem withAccountFeeConfig_inStep
    (idPrefix : String) (config : SimulationConfig) (initialCash : Money) :
    (withAccountFeeConfig idPrefix config initialCash).InStep idPrefix
      config where
  sound := withAccountFeeConfig_sound idPrefix config initialCash
  drained := rfl
  mirrors := by
    intro orderId
    simp [withAccountFeeConfig, PaperLedger.new, PaperLedger.empty,
      SimEngine.withFeeConfig, SimEngine.openOrder, SimEngine.delayedOrder]

end Preservation

end ExecutorState

namespace Sample

def coveredBuy : List ExecutorCall :=
  [update 0, .submit true (order .buy (50 / 100) false .gtc) 100]

/-- A maker that is good till 200 rests until a book at 300 drops it. -/
def expiringMaker : List ExecutorCall :=
  [update 0, .submit true (order .buy (45 / 100) true (.gtd 200)) 100,
    update 300]

end Sample

def ExecutorCall.timestampMs : ExecutorCall → Option I64
  | .submit _ _ nowMs => some nowMs
  | .submitForStrategy _ _ _ nowMs => some nowMs
  | .updateBook _ _ _ _ _ book => some book.timestampMs
  | .settle _ _ _ _ timestampMs => some timestampMs
  | _ => none

namespace ExecutorState

end ExecutorState

end Pmkit
