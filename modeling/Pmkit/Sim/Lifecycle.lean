import Pmkit.Sim.Runs

/-!
# The life of a simulated order

`Life` relates an accepted order to its open remainder and its fills: the
remainder is the order less what was filled, a taker fills at most once, and
every fill lies between activation and expiry.  Each call keeps it, so it
holds of every order of every run.
-/

namespace Pmkit

open MachineInt

@[simp]
theorem totalSize_nil : totalSize [] = 0 := rfl

theorem totalSize_append (first second : List (FillEvent Decimal)) :
    totalSize (first ++ second) = totalSize first + totalSize second := by
  simp [totalSize]

namespace SimEngine

theorem openAfter_of_unfilled
    {engine : SimEngine} {market : MarketId} {outcome : Outcome}
    {book : OrderBookL2} {opened : Standing × WorkingOrder}
    (unfilled : engine.bookFill market outcome book opened = none) :
    engine.openAfter market outcome book opened = none ∨
      engine.openAfter market outcome book opened = some opened := by
  obtain ⟨standing, working⟩ := opened
  cases standing with
  | resting =>
      simp only [openAfter, restingAfter]
      cases alive : survives market outcome book.timestampMs working with
      | false =>
          exact .inl (by simp)
      | true =>
          cases crossed : fillable market outcome book working with
          | false =>
              exact .inr (by simp)
          | true =>
              have nothing : engine.makerFill book working = none := by
                simpa [bookFill, alive, crossed] using unfilled
              exact .inr (by simp [afterFill, nothing])
  | delayed =>
      simp only [openAfter]
      split
      · exact .inr rfl
      · exact .inl rfl

theorem openAfter_of_filled
    {engine : SimEngine} {market : MarketId} {outcome : Outcome}
    {book : OrderBookL2} {standing : Standing} {working : WorkingOrder}
    {fill : FillEvent Decimal}
    (filled : engine.bookFill market outcome book (standing, working) =
      some fill) :
    engine.openAfter market outcome book (standing, working) = none ∨
      (standing = .resting ∧
        engine.openAfter market outcome book (standing, working) =
          some (.resting, fillOrder working fill.size)) := by
  obtain ⟨alive, ⟨rests, crossed, made⟩ | ⟨waits, mature, taken⟩⟩ :=
    bookFill_eq_some_iff.mp filled
  · simp only at rests alive crossed made
    subst rests
    by_cases whole : (fillOrder working fill.size).order.qty = 0
    · exact .inl (by
        simp [openAfter, restingAfter, alive, crossed, afterFill, made, whole])
    · exact .inr ⟨rfl, by
        simp [openAfter, restingAfter, alive, crossed, afterFill, made, whole]⟩
  · simp only at waits mature
    subst waits
    exact .inl (by simp [openAfter, mature])

theorem cancel_idPrefix (engine : SimEngine) (orderId : String) :
    (engine.cancel orderId).1.idPrefix = engine.idPrefix := by
  unfold cancel
  split
  · rfl
  · split
    · rfl
    · rfl

theorem cancel_config (engine : SimEngine) (orderId : String) :
    (engine.cancel orderId).1.config = engine.config := by
  unfold cancel
  split
  · rfl
  · split
    · rfl
    · rfl

theorem other_answer
    (engine : SimEngine) (order : PlaceOrder) (strategy : Option StrategyId)
    (nowMs : I64) {key : String}
    (other : key ≠ mintedId engine.idPrefix engine.nextId) :
    (engine.submitWithStrategy order strategy nowMs).2 ≠ some key := by
  rcases (submitWithStrategy_submitted engine order strategy nowMs).answer with
    ⟨_, answer⟩ | ⟨_, answer, _⟩
  · rw [answer]
    intro same
    injection same with same
    exact other same.symm
  · rw [answer]
    intro same
    cases same

@[simp]
theorem fillOrder_zero (order : WorkingOrder) : fillOrder order 0 = order := by
  simp [fillOrder]

theorem fillOrder_fillOrder (order : WorkingOrder) (first second : Decimal) :
    fillOrder (fillOrder order first) second =
      fillOrder order (first + second) := by
  simp only [fillOrder, WorkingOrder.mk.injEq, PlaceOrder.mk.injEq, and_true,
    true_and]
  ring

end SimEngine

open SimEngine

/-- What an accepted order, its open remainder and its fills have to do with
one another. -/
structure Life (accepted : WorkingOrder)
    (opened : Option (Standing × WorkingOrder))
    (fills : List (FillEvent Decimal)) : Prop where
  fields : ∀ fill ∈ fills, fill.market = accepted.order.market ∧
    fill.outcome = accepted.order.outcome ∧ fill.side = accepted.order.side
  bounded : 0 ≤ accepted.order.qty → totalSize fills ≤ accepted.order.qty
  once : accepted.order.postOnly = false → fills.length ≤ 1
  remainder : ∀ standing working, opened = some (standing, working) →
    working = fillOrder accepted (totalSize fills) ∧
      (standing = .resting → accepted.order.postOnly = true) ∧
      (standing = .delayed → fills = [])
  timely : accepted.submittedMs ≤ accepted.activeAtMs → ∀ fill ∈ fills,
    accepted.activeAtMs ≤ fill.timestampMs ∧
      expired accepted.order fill.timestampMs = false

namespace Life

variable {accepted : WorkingOrder} {opened : Option (Standing × WorkingOrder)}
  {fills : List (FillEvent Decimal)}

/-- An accepted maker or delayed taker starts without fills. -/
theorem begins {standing : Standing}
    (maker : standing = .resting → accepted.order.postOnly = true) :
    Life accepted (some (standing, accepted)) [] where
  fields := by simp
  bounded := id
  once := by simp
  remainder := by
    intro other working found
    cases found
    exact ⟨by simp, maker, fun _ => rfl⟩
  timely := by simp

/-- An immediate taker is filled once, within its quantity and its time. -/
theorem taken {fill : FillEvent Decimal}
    (fields : fill.market = accepted.order.market ∧
      fill.outcome = accepted.order.outcome ∧ fill.side = accepted.order.side)
    (least : fill.size ≤ accepted.order.qty)
    (active : accepted.activeAtMs ≤ fill.timestampMs)
    (fresh : expired accepted.order fill.timestampMs = false) :
    Life accepted none [fill] where
  fields := by
    simpa using fields
  bounded := by
    intro _
    simpa [totalSize] using least
  once := by simp
  remainder := by
    intro standing working absent
    cases absent
  timely := by
    intro _
    simpa using ⟨active, fresh⟩

/-- An order that leaves keeps its fills. -/
theorem closed (life : Life accepted opened fills) :
    Life accepted none fills where
  fields := life.fields
  bounded := life.bounded
  once := life.once
  remainder := by
    intro standing working absent
    cases absent
  timely := life.timely

/-- A book update fills at most what is left, at a time when the order is
active and unexpired. -/
theorem bookUpdate {engine : SimEngine} (market : MarketId) (outcome : Outcome)
    (book : OrderBookL2) (life : Life accepted opened fills) :
    Life accepted (opened.bind (engine.openAfter market outcome book))
      (fills ++
        (opened.bind (engine.bookFill market outcome book)).toList) := by
  cases opened with
  | none =>
      simpa using life
  | some pair =>
      obtain ⟨standing, working⟩ := pair
      obtain ⟨remainder, maker, untouched⟩ :=
        life.remainder standing working rfl
      rw [Option.bind_some, Option.bind_some]
      cases filled : engine.bookFill market outcome book (standing, working) with
      | none =>
          rw [Option.toList_none, List.append_nil]
          rcases openAfter_of_unfilled filled with gone | stays
          · rw [gone]
            exact life.closed
          · rw [stays]
            exact life
      | some fill =>
          obtain ⟨_, sameMarket, sameOutcome, sameSide, least, time, active,
            fresh⟩ := bookFill_fields filled
          have total : totalSize (fills ++ [fill]) =
              totalSize fills + fill.size := by
            rw [totalSize_append]
            simp [totalSize]
          subst remainder
          rw [Option.toList_some]
          constructor
          · intro other mem
            rcases List.mem_append.mp mem with earlier | added
            · exact life.fields other earlier
            · rw [List.mem_singleton] at added
              subst added
              exact ⟨sameMarket, sameOutcome, sameSide⟩
          · intro nonnegative
            have rest : (fillOrder accepted (totalSize fills)).order.qty =
                accepted.order.qty - totalSize fills := rfl
            rw [total]
            linarith
          · intro taker
            cases standing with
            | resting =>
                rw [maker rfl] at taker
                cases taker
            | delayed =>
                rw [untouched rfl]
                simp
          · intro after working found
            rcases openAfter_of_filled filled with gone | ⟨rests, stays⟩
            · rw [gone] at found
              cases found
            · rw [stays] at found
              cases found
              rw [total, fillOrder_fillOrder]
              exact ⟨rfl, fun _ => maker rests, fun delayed => by cases delayed⟩
          · intro ordered other mem
            rcases List.mem_append.mp mem with earlier | added
            · exact life.timely ordered other earlier
            · rw [List.mem_singleton] at added
              subst added
              have active : accepted.activeAtMs ≤ book.timestampMs := active
              have submitted : accepted.submittedMs ≤ book.timestampMs :=
                le_trans ordered active
              have now : other.timestampMs = book.timestampMs :=
                time.trans (max_eq_left submitted)
              rw [now]
              exact ⟨active, fresh⟩

end Life

/-! ## One call on a run -/

namespace SimRun

def acceptedBy (run : SimRun) : SimCall → Option WorkingOrder
  | .submit order strategy nowMs =>
      (run.engine.submitWithStrategy order strategy nowMs).2.map fun orderId =>
        { run.engine.workingOrder order strategy nowMs with orderId := orderId }
  | .updateBook .. | .cancel _ | .cancelAll | .drainFills => none

theorem step_accepted (run : SimRun) (call : SimCall) :
    (run.step call).accepted =
      run.accepted ++ (run.acceptedBy call).toList := by
  cases call with
  | submit order strategy nowMs =>
      simp only [step, acceptedBy]
      cases (run.engine.submitWithStrategy order strategy nowMs).2 with
      | none => simp
      | some orderId => simp
  | updateBook order market outcome book =>
      simp [step, acceptedBy]
  | cancel orderId =>
      simp [step, acceptedBy]
  | cancelAll =>
      simp [step, acceptedBy]
  | drainFills =>
      simp [step, acceptedBy]

variable {run : SimRun} {key : String} {call : SimCall}
  {accepted : WorkingOrder}

/-- The identities of a run only move forward. -/
theorem step_frame (wellFormed : run.engine.WellFormed) (call : SimCall) :
    (run.step call).engine.idPrefix = run.engine.idPrefix ∧
      (run.step call).engine.config = run.engine.config ∧
      run.engine.nextId ≤ (run.step call).engine.nextId := by
  cases call with
  | submit order strategy nowMs =>
      have submitted := SimEngine.submitWithStrategy_submitted run.engine order
        strategy nowMs
      obtain ⟨_, idPrefix, _, config⟩ := submitted.frame
      refine ⟨idPrefix, config, ?_⟩
      simp only [step]
      generalize run.engine.submitWithStrategy order strategy nowMs = result
        at submitted
      cases submitted with
      | refused notAdmitted => exact le_rfl
      | unfilled admitted notAccepted => exact Nat.le_succ _
      | rests accepted postOnly => exact Nat.le_succ _
      | waits accepted taker latency => exact Nat.le_succ _
      | takes accepted taker immediate fill filled => exact Nat.le_succ _
  | updateBook order market outcome book =>
      obtain ⟨_, _, _, nextId, idPrefix, _, config, _⟩ :=
        SimEngine.updateBook_spec wellFormed order market outcome book
      exact ⟨idPrefix, config, le_of_eq nextId.symm⟩
  | cancel orderId =>
      refine ⟨?_, ?_, ?_⟩
      · exact cancel_idPrefix run.engine orderId
      · exact cancel_config run.engine orderId
      · exact le_of_eq (cancel_nextId run.engine orderId).symm
  | cancelAll =>
      exact ⟨rfl, rfl, le_rfl⟩
  | drainFills =>
      exact ⟨rfl, rfl, le_rfl⟩

/-- An identity that is neither new nor open is left alone. -/
theorem untouched (closed : run.engine.openOrder key = none)
    (older : key ≠ mintedId run.engine.idPrefix run.engine.nextId)
    (call : SimCall) :
    run.openAfter key call = none ∧ run.fillBy key call = none := by
  cases call with
  | submit order strategy nowMs =>
      have other := other_answer run.engine order strategy nowMs older
      simp [openAfter, fillBy, other, closed]
  | updateBook order market outcome book =>
      simp [openAfter, fillBy, closed]
  | cancel orderId =>
      simp [openAfter, fillBy, closed]
  | cancelAll =>
      exact ⟨rfl, rfl⟩
  | drainFills =>
      exact ⟨closed, rfl⟩

/-- A newly accepted order takes the next identity and starts its life. -/
theorem acceptedBy_life (answered : run.acceptedBy call = some accepted) :
    accepted.orderId = mintedId run.engine.idPrefix run.engine.nextId ∧
      run.engine.nextId < (run.step call).engine.nextId ∧
      Life accepted (run.openAfter accepted.orderId call)
        (run.fillBy accepted.orderId call).toList := by
  cases call with
  | updateBook order market outcome book => cases answered
  | cancel orderId => cases answered
  | cancelAll => cases answered
  | drainFills => cases answered
  | submit order strategy nowMs =>
      simp only [acceptedBy, step, openAfter, fillBy] at answered ⊢
      have submitted := SimEngine.submitWithStrategy_submitted run.engine order
        strategy nowMs
      generalize run.engine.submitWithStrategy order strategy nowMs = result
        at submitted answered
      cases submitted with
      | refused notAdmitted => cases answered
      | unfilled admitted notAccepted => cases answered
      | rests admitting postOnly =>
          cases answered
          refine ⟨rfl, Nat.lt_succ_self _, ?_⟩
          simp only [postOnly, if_true, Bool.true_eq_false, false_and,
            and_false, if_false, Option.toList_none]
          exact Life.begins fun _ => postOnly
      | waits admitting taker latency =>
          cases answered
          refine ⟨rfl, Nat.lt_succ_self _, ?_⟩
          simp only [taker, Bool.false_eq_true, if_true, if_false, latency,
            not_true_eq_false, and_false, Option.toList_none]
          exact Life.begins fun resting => by cases resting
      | takes admitting taker immediate fill filled =>
          cases answered
          refine ⟨rfl, Nat.lt_succ_self _, ?_⟩
          obtain ⟨_, market, outcome, side, _, least, time⟩ :=
            SimEngine.takerFill_fields filled
          rw [max_self] at time
          have nonpositive : run.engine.config.activationLatencyMs.1 ≤ (0 : ℤ) :=
            I64.zero_val ▸ not_lt.mp immediate
          simp only [taker, immediate, filled, not_false_eq_true, and_self,
            Bool.false_eq_true, if_true, if_false, Option.toList_some]
          apply Life.taken ⟨market, outcome, side⟩ least
          · rw [time]
            exact I64.saturatingAdd_le nonpositive
          · rw [time]
            exact admitting.1.1

theorem acceptedBy_latency (answered : run.acceptedBy call = some accepted) :
    accepted.activeAtMs = accepted.submittedMs.saturatingAdd
      run.engine.config.activationLatencyMs := by
  cases call with
  | submit order strategy nowMs =>
      obtain ⟨orderId, _, rfl⟩ := Option.map_eq_some_iff.mp answered
      rfl
  | updateBook order market outcome book => cases answered
  | cancel orderId => cases answered
  | cancelAll => cases answered
  | drainFills => cases answered

theorem acceptedBy_of_touched (closed : run.engine.openOrder key = none)
    (touched : run.openAfter key call ≠ none ∨ run.fillBy key call ≠ none) :
    ∃ accepted, run.acceptedBy call = some accepted ∧
      accepted.orderId = key := by
  cases call with
  | submit order strategy nowMs =>
      by_cases answer :
          (run.engine.submitWithStrategy order strategy nowMs).2 = some key
      · exact ⟨_, by rw [acceptedBy, answer, Option.map_some], rfl⟩
      · simp [openAfter, fillBy, answer, closed] at touched
  | updateBook order market outcome book =>
      simp [openAfter, fillBy, closed] at touched
  | cancel orderId =>
      simp [openAfter, fillBy, closed] at touched
  | cancelAll =>
      simp [openAfter, fillBy] at touched
  | drainFills =>
      simp [openAfter, fillBy, closed] at touched

/-! ## Whole runs -/

theorem mem_fillsOf {fill : FillEvent Decimal} :
    fill ∈ run.fillsOf key ↔ fill ∈ run.emitted ∧ fill.orderId = key := by
  simp [fillsOf]

/-- What every run keeps: identities are minted once, every open order and
every fill belongs to an accepted order, and every accepted order lives. -/
structure Tracked (config : SimulationConfig) (run : SimRun) : Prop where
  wellFormed : run.engine.WellFormed
  configured : run.engine.config = config
  distinct : (run.accepted.map WorkingOrder.orderId).Nodup
  minted : ∀ accepted ∈ run.accepted, ∃ number < run.engine.nextId,
    accepted.orderId = mintedId run.engine.idPrefix number
  latency : ∀ accepted ∈ run.accepted, accepted.activeAtMs =
    accepted.submittedMs.saturatingAdd config.activationLatencyMs
  standing : ∀ key opened, run.engine.openOrder key = some opened →
    ∃ accepted ∈ run.accepted, accepted.orderId = key
  owned : ∀ key, run.fillsOf key ≠ [] →
    ∃ accepted ∈ run.accepted, accepted.orderId = key
  lives : ∀ accepted ∈ run.accepted,
    Life accepted (run.engine.openOrder accepted.orderId)
      (run.fillsOf accepted.orderId)

namespace Tracked

variable {config : SimulationConfig} {run : SimRun}

theorem start (idPrefix : String) (startId : Nat) (config : SimulationConfig) :
    Tracked config (SimRun.start idPrefix startId config) where
  wellFormed := withFeeConfig_wellFormed idPrefix startId config
  configured := rfl
  distinct := List.nodup_nil
  minted := by simp [SimRun.start]
  latency := by simp [SimRun.start]
  standing := by
    intro key opened found
    cases found
  owned := by
    intro key filled
    exact absurd rfl filled
  lives := by simp [SimRun.start]

variable {accepted : WorkingOrder}

theorem older (tracked : Tracked config run)
    (mem : accepted ∈ run.accepted) :
    accepted.orderId ≠ mintedId run.engine.idPrefix run.engine.nextId := by
  intro same
  obtain ⟨number, bound, identity⟩ := tracked.minted accepted mem
  rw [same, mintedId_inj] at identity
  omega

theorem step_life (tracked : Tracked config run) (call : SimCall)
    (mem : accepted ∈ run.accepted) :
    Life accepted (run.openAfter accepted.orderId call)
      (run.fillsOf accepted.orderId ++
        (run.fillBy accepted.orderId call).toList) := by
  have life := tracked.lives accepted mem
  cases call with
  | submit order strategy nowMs =>
      have other := other_answer run.engine order strategy nowMs
        (tracked.older mem)
      simpa [openAfter, fillBy, other] using life
  | updateBook order market outcome book =>
      exact life.bookUpdate market outcome book
  | cancel orderId =>
      simp only [openAfter, fillBy, Option.toList_none, List.append_nil]
      split
      · exact life.closed
      · exact life
  | cancelAll =>
      simpa [openAfter, fillBy] using life.closed
  | drainFills =>
      simpa [openAfter, fillBy] using life

theorem step_owner
    (tracked : Tracked config run) {call : SimCall} {key : String}
    (touched : run.openAfter key call ≠ none ∨ run.fillBy key call ≠ none) :
    ∃ accepted ∈ (run.step call).accepted, accepted.orderId = key := by
  rw [step_accepted]
  cases found : run.engine.openOrder key with
  | some opened =>
      obtain ⟨accepted, mem, identity⟩ := tracked.standing key opened found
      exact ⟨accepted, List.mem_append_left _ mem, identity⟩
  | none =>
      obtain ⟨accepted, answered, identity⟩ :=
        acceptedBy_of_touched found touched
      exact ⟨accepted, List.mem_append_right _ (by simp [answered]), identity⟩

theorem step (tracked : Tracked config run) (call : SimCall) :
    Tracked config (run.step call) := by
  have wellFormed := tracked.wellFormed
  obtain ⟨idPrefix, sameConfig, nextId⟩ := step_frame wellFormed call
  constructor
  · exact step_wellFormed wellFormed call
  · exact sameConfig.trans tracked.configured
  · rw [step_accepted]
    cases answered : run.acceptedBy call with
    | none =>
        simpa using tracked.distinct
    | some accepted =>
        rw [List.map_append, List.nodup_append]
        refine ⟨tracked.distinct, by simp, ?_⟩
        intro key mem added addedMem same
        obtain ⟨earlier, earlierMember, rfl⟩ := List.mem_map.mp mem
        obtain rfl : added = accepted.orderId := by simpa using addedMem
        exact tracked.older earlierMember
          (same.trans (acceptedBy_life answered).1)
  · intro accepted mem
    rw [idPrefix]
    rw [step_accepted, List.mem_append, Option.mem_toList] at mem
    rcases mem with earlier | answered
    · obtain ⟨number, bound, identity⟩ := tracked.minted accepted earlier
      exact ⟨number, lt_of_lt_of_le bound nextId, identity⟩
    · obtain ⟨identity, minted, _⟩ := acceptedBy_life answered
      exact ⟨run.engine.nextId, minted, identity⟩
  · intro accepted mem
    rw [step_accepted, List.mem_append, Option.mem_toList] at mem
    rcases mem with earlier | answered
    · exact tracked.latency accepted earlier
    · rw [← tracked.configured]
      exact acceptedBy_latency answered
  · intro key opened found
    rw [step_openOrder wellFormed] at found
    exact tracked.step_owner (Or.inl (by simp [found]))
  · intro key filled
    rw [step_fillsOf wellFormed] at filled
    cases made : run.fillBy key call with
    | some fill =>
        exact tracked.step_owner (Or.inr (by simp [made]))
    | none =>
        rw [made, Option.toList_none, List.append_nil] at filled
        obtain ⟨accepted, mem, identity⟩ := tracked.owned key filled
        rw [step_accepted]
        exact ⟨accepted, List.mem_append_left _ mem, identity⟩
  · intro accepted mem
    rw [step_openOrder wellFormed, step_fillsOf wellFormed]
    rw [step_accepted, List.mem_append, Option.mem_toList] at mem
    rcases mem with earlier | answered
    · exact tracked.step_life call earlier
    · obtain ⟨identity, _, life⟩ := acceptedBy_life answered
      have unfilled : run.fillsOf accepted.orderId = [] := by
        by_contra filled
        obtain ⟨owner, owned, same⟩ := tracked.owned _ filled
        exact tracked.older owned (same.trans identity)
      rw [unfilled, List.nil_append]
      exact life

end Tracked

theorem run_tracked (idPrefix : String) (startId : Nat)
    (config : SimulationConfig) (calls : List SimCall) :
    Tracked config (Trace.run step (start idPrefix startId config) calls) :=
  Trace.run_invariant (fun _ call tracked => tracked.step call) calls
    (Tracked.start idPrefix startId config)

end SimRun

end Pmkit
