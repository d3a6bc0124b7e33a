import Pmkit.Sim.Lifecycle

/-!
# The fills of whole runs

What the life of each order gives a run: no order is filled beyond its
quantity, none after it was cancelled or expired, and none before it is
active.
-/

namespace Pmkit

open MachineInt
open SimEngine

/-- Whether a call ends an order: it is cancelled, or a book of its outcome
passes its expiry. -/
def SimCall.Ends (accepted : WorkingOrder) : SimCall → Prop
  | .cancel orderId => orderId = accepted.orderId
  | .cancelAll => True
  | .updateBook _ market outcome book =>
      onBook market outcome accepted.order = true ∧
        expired accepted.order book.timestampMs = true
  | .submit .. | .drainFills => False

def SimCall.Positive : SimCall → Prop
  | .submit order _ _ => 0 < order.qty
  | .updateBook .. | .cancel _ | .cancelAll | .drainFills => True

namespace SimRun

/-- The run of a fresh engine over a list of calls. -/
abbrev fresh (idPrefix : String) (startId : Nat) (config : SimulationConfig)
    (calls : List SimCall) : SimRun :=
  Trace.run step (start idPrefix startId config) calls

variable {config : SimulationConfig} {run : SimRun} {accepted : WorkingOrder}

theorem Tracked.ended (tracked : Tracked config run)
    (mem : accepted ∈ run.accepted)
    {call : SimCall} (ends : call.Ends accepted) :
    run.openAfter accepted.orderId call = none ∧
      run.fillBy accepted.orderId call = none := by
  cases call with
  | submit order strategy nowMs => cases ends
  | drainFills => cases ends
  | cancelAll => exact ⟨rfl, rfl⟩
  | cancel orderId =>
      exact ⟨if_pos ends.symm, rfl⟩
  | updateBook order market outcome book =>
      simp only [openAfter, fillBy]
      cases found : run.engine.openOrder accepted.orderId with
      | none => exact ⟨rfl, rfl⟩
      | some opened =>
          obtain ⟨standing, working⟩ := opened
          have dead : survives market outcome book.timestampMs working =
              false := by
            obtain ⟨remainder, _⟩ :=
              (tracked.lives accepted mem).remainder standing working found
            subst remainder
            have here : onBook market outcome (fillOrder accepted (totalSize
                (run.fillsOf accepted.orderId))).order = true := ends.1
            have late : expired (fillOrder accepted (totalSize
                (run.fillsOf accepted.orderId))).order book.timestampMs =
                true := ends.2
            simp [survives, here, late]
          cases standing with
          | resting =>
              simp [SimEngine.openAfter, restingAfter, bookFill, dead]
          | delayed =>
              simp [SimEngine.openAfter, bookFill, dead]

theorem Tracked.closed_stays (tracked : Tracked config run)
    (mem : accepted ∈ run.accepted)
    (closed : run.engine.openOrder accepted.orderId = none)
    (calls : List SimCall) :
    (Trace.run SimRun.step run calls).fillsOf accepted.orderId =
      run.fillsOf accepted.orderId := by
  induction calls generalizing run with
  | nil =>
      rfl
  | cons call rest ih =>
      have wellFormed := tracked.wellFormed
      obtain ⟨stays, unfilled⟩ := untouched closed (tracked.older mem) call
      rw [Trace.run_cons, ih (tracked.step call)]
      · rw [step_fillsOf wellFormed, unfilled, Option.toList_none,
          List.append_nil]
      · rw [step_accepted]
        exact List.mem_append_left _ mem
      · rw [step_openOrder wellFormed]
        exact stays

/-- Orders of positive quantity stay so in the record. -/
theorem accepted_positive
    (idPrefix : String) (startId : Nat) (config : SimulationConfig)
    {calls : List SimCall} (positive : ∀ call ∈ calls, call.Positive) :
    ∀ accepted ∈ (fresh idPrefix startId config calls).accepted,
      0 < accepted.order.qty := by
  have preserved : ∀ (run : SimRun) (call : SimCall),
      (∀ accepted ∈ run.accepted, 0 < accepted.order.qty) → call.Positive →
        ∀ accepted ∈ (run.step call).accepted, 0 < accepted.order.qty := by
    intro run call holds isPositive accepted mem
    rw [step_accepted, List.mem_append, Option.mem_toList] at mem
    rcases mem with earlier | answered
    · exact holds accepted earlier
    · cases call with
      | submit order strategy nowMs =>
          obtain ⟨orderId, _, rfl⟩ := Option.map_eq_some_iff.mp answered
          have quantity : 0 < order.qty := isPositive
          exact quantity
      | updateBook order market outcome book => cases answered
      | cancel orderId => cases answered
      | cancelAll => cases answered
      | drainFills => cases answered
  exact Trace.run_preserves preserved (by simp [start])
    (Trace.everyStep_of_forall positive)

/-- What the orders, the open orders and the fills of a run owe one another. -/
structure Accounted (run : SimRun) : Prop where
  distinct : (run.accepted.map WorkingOrder.orderId).Nodup
  noOverfill : ∀ accepted ∈ run.accepted,
    totalSize (run.fillsOf accepted.orderId) ≤ accepted.order.qty
  remaining : ∀ accepted ∈ run.accepted, ∀ opened ∈ run.engine.openOrders,
    opened.orderId = accepted.orderId →
      opened.remainingQty =
        accepted.order.qty - totalSize (run.fillsOf accepted.orderId)
  once : ∀ accepted ∈ run.accepted, accepted.order.postOnly = false →
    (run.fillsOf accepted.orderId).length ≤ 1
  owned : ∀ fill ∈ run.emitted, ∃ accepted ∈ run.accepted,
    fill.orderId = accepted.orderId ∧ fill.market = accepted.order.market ∧
      fill.outcome = accepted.order.outcome ∧ fill.side = accepted.order.side

theorem Tracked.accounted (tracked : Tracked config run)
    (positive : ∀ accepted ∈ run.accepted, 0 < accepted.order.qty) :
    run.Accounted where
  distinct := tracked.distinct
  noOverfill := fun accepted mem =>
    (tracked.lives accepted mem).bounded (positive accepted mem).le
  remaining := by
    intro accepted mem opened listed same
    obtain ⟨standing, working, found, rfl⟩ :=
      (mem_openOrders tracked.wellFormed).mp listed
    change working.orderId = accepted.orderId at same
    rw [same] at found
    obtain ⟨remainder, _⟩ :=
      (tracked.lives accepted mem).remainder standing working found
    rw [remainder]
    rfl
  once := fun accepted mem => (tracked.lives accepted mem).once
  owned := by
    intro fill mem
    have own : fill ∈ run.fillsOf fill.orderId := mem_fillsOf.mpr ⟨mem, rfl⟩
    obtain ⟨accepted, owner, same⟩ :=
      tracked.owned fill.orderId (List.ne_nil_of_mem own)
    rw [← same] at own
    exact ⟨accepted, owner, same.symm,
      (tracked.lives accepted owner).fields fill own⟩

/-- Orders of positive quantity are accounted for in every run, and a call
that ends an order is the last that could fill it. -/
theorem accounted_and_ended
    (idPrefix : String) (startId : Nat) (config : SimulationConfig)
    (calls : List SimCall) (positive : ∀ call ∈ calls, call.Positive) :
    (fresh idPrefix startId config calls).Accounted ∧
      ∀ before call after, calls = before ++ call :: after →
        ∀ accepted ∈ (fresh idPrefix startId config before).accepted,
          call.Ends accepted →
            (fresh idPrefix startId config calls).fillsOf accepted.orderId =
              (fresh idPrefix startId config before).fillsOf
                accepted.orderId := by
  constructor
  · exact (run_tracked idPrefix startId config calls).accounted
      (accepted_positive idPrefix startId config positive)
  · rintro before call after rfl accepted member ends
    have tracked := run_tracked idPrefix startId config before
    obtain ⟨closed, unfilled⟩ := tracked.ended member ends
    rw [fresh, Trace.run_append, Trace.run_cons,
      (tracked.step call).closed_stays]
    · rw [step_fillsOf tracked.wellFormed, unfilled, Option.toList_none,
        List.append_nil]
    · rw [step_accepted]
      exact List.mem_append_left _ member
    · rw [step_openOrder tracked.wellFormed]
      exact closed

def smallMarket : MarketId := ⟨"ada-5m", by decide⟩

def smallConfig : SimulationConfig where
  activationLatencyMs := 5
  makerQueueAheadBps := 5000
  slippageBps := 0
  marketImpactBps := 0
  feeModel := none
  marketLimits := none

def smallOrder (postOnly : Bool) (tif : TimeInForce) : PlaceOrder where
  market := smallMarket
  outcome := .up
  side := .buy
  price := 1 / 2
  qty := 10
  postOnly := postOnly
  tif := tif

def smallBook (ask : Decimal) (timestampMs : I64) : SimCall :=
  .updateBook (.stored String) smallMarket .up
    { bids := []
      asks := [(ask, 8)]
      timestampMs := timestampMs
      lastTradePrice := none }

/-- A maker and a delayed taker, of which a falling ask fills parts, and whose
maker then expires under a second crossing book. -/
def smallRun : List SimCall :=
  [smallBook (3 / 5) 0, .submit (smallOrder true (.gtd 20)) none 1,
    .submit (smallOrder false .gtc) none 2, smallBook (2 / 5) 10,
    smallBook (2 / 5) 20]

theorem smallRun_accounted :
    (∀ call ∈ smallRun, call.Positive) ∧
      (fresh "sim" 1 smallConfig smallRun).Accounted ∧
      (fresh "sim" 1 smallConfig smallRun).emitted.map FillEvent.size =
        [8, 4] := by
  have positive : ∀ call ∈ smallRun, call.Positive := by
    simp [smallRun, smallBook, smallOrder, SimCall.Positive]
  exact ⟨positive,
    (accounted_and_ended "sim" 1 smallConfig smallRun positive).1,
    by decide +kernel⟩

/-- With a latency that is not negative every fill lies at or after the
activation of its order and before its expiry, and a book that passes the
expiry of an order does not fill it. -/
theorem fills_within_life
    (idPrefix : String) (startId : Nat) (config : SimulationConfig)
    (latency : (0 : I64) ≤ config.activationLatencyMs)
    (calls : List SimCall) :
    (∀ fill ∈ (fresh idPrefix startId config calls).emitted,
      ∃ accepted ∈ (fresh idPrefix startId config calls).accepted,
        fill.orderId = accepted.orderId ∧
        accepted.submittedMs.saturatingAdd config.activationLatencyMs ≤
          fill.timestampMs ∧
        ∀ expireAtMs, accepted.order.tif = .gtd expireAtMs →
          fill.timestampMs < expireAtMs) ∧
    ∀ order market outcome book,
      ∀ accepted ∈ (fresh idPrefix startId config calls).accepted,
        onBook market outcome accepted.order = true →
          expired accepted.order book.timestampMs = true →
            (fresh idPrefix startId config
                (calls ++ [.updateBook order market outcome book])).fillsOf
                accepted.orderId =
              (fresh idPrefix startId config calls).fillsOf
                accepted.orderId := by
  have tracked := run_tracked idPrefix startId config calls
  constructor
  · intro fill member
    have own : fill ∈ (fresh idPrefix startId config calls).fillsOf
        fill.orderId := mem_fillsOf.mpr ⟨member, rfl⟩
    obtain ⟨accepted, owner, same⟩ :=
      tracked.owned fill.orderId (List.ne_nil_of_mem own)
    rw [← same] at own
    have active := tracked.latency accepted owner
    have ordered : accepted.submittedMs ≤ accepted.activeAtMs := by
      rw [active]
      exact I64.le_saturatingAdd (I64.zero_val ▸ latency)
    obtain ⟨begun, alive⟩ :=
      (tracked.lives accepted owner).timely ordered fill own
    refine ⟨accepted, owner, same.symm, active ▸ begun, ?_⟩
    intro expireAtMs tif
    simpa [expired, tif] using alive
  · intro order market outcome book accepted member here late
    have ends : SimCall.Ends accepted
        (.updateBook order market outcome book) := ⟨here, late⟩
    obtain ⟨_, unfilled⟩ := tracked.ended member ends
    rw [fresh, Trace.run_append, Trace.run_cons, Trace.run_nil,
      step_fillsOf tracked.wellFormed, unfilled, Option.toList_none,
      List.append_nil]

theorem smallRun_within_life :
    (0 : I64) ≤ smallConfig.activationLatencyMs ∧
      ∀ fill ∈ (fresh "sim" 1 smallConfig smallRun).emitted,
        ∃ accepted ∈ (fresh "sim" 1 smallConfig smallRun).accepted,
          fill.orderId = accepted.orderId ∧
          accepted.submittedMs.saturatingAdd 5 ≤ fill.timestampMs ∧
          ∀ expireAtMs, accepted.order.tif = .gtd expireAtMs →
            fill.timestampMs < expireAtMs := by
  have latency : (0 : I64) ≤ smallConfig.activationLatencyMs := by
    decide +kernel
  exact ⟨latency,
    (fills_within_life "sim" 1 smallConfig latency smallRun).1⟩

end SimRun

end Pmkit
