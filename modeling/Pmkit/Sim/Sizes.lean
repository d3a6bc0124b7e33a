import Pmkit.Sim.MakerFills

/-!
# The sign of the fills

A taker fills only a positive quantity.  A maker is filled with the smaller of
its own quantity and what is available, so a resting order of negative
quantity is filled with all of it.
-/

namespace Pmkit

open MachineInt

namespace SimEngine

/-- Whether a book fills a resting order with a negative size: it is live,
crossed and of negative quantity, and its fee is defined. -/
def Backfires (engine : SimEngine) (market : MarketId) (outcome : Outcome)
    (book : OrderBookL2) (resting : RestingOrder) : Prop :=
  survives market outcome book.timestampMs resting = true ∧
    fillable market outcome book resting = true ∧
    resting.order.qty < 0 ∧
    (engine.feeModel.feeOrder resting.order.qty resting.order.price
      .maker).isSome

theorem makerFillQuantity_of_negative
    {config : SimulationConfig} {book : OrderBookL2} {order : PlaceOrder}
    (negative : order.qty < 0) :
    makerFillQuantity config book order = order.qty := by
  rw [makerFillQuantity_eq]
  exact min_eq_left (negative.le.trans (availableTo_nonneg config book _))

variable {engine : SimEngine} {book : OrderBookL2} {resting : RestingOrder}
  {fill : FillEvent Decimal}

/-- A maker that is filled gets its capped quantity, which is not zero. -/
theorem makerFill_of_some (filled : engine.makerFill book resting = some fill) :
    engine.charged book resting = true ∧
      fill.size = makerFillQuantity engine.config book resting.order := by
  have size := makerFill_size engine book resting
  rw [filled, Option.toList_some, ← makerFillQuantity_eq] at size
  have single : totalSize [fill] = fill.size := by simp [totalSize]
  rw [single] at size
  obtain ⟨_, _, _, _, _, nonzero, _⟩ := makerFill_fields filled
  split at size
  · exact ⟨‹_›, size⟩
  · exact absurd size nonzero

theorem makerFill_positive {market : MarketId} {outcome : Outcome}
    (alive : survives market outcome book.timestampMs resting = true)
    (crossed : fillable market outcome book resting = true)
    (sound : ¬ engine.Backfires market outcome book resting)
    (filled : engine.makerFill book resting = some fill) : 0 < fill.size := by
  obtain ⟨charged, size⟩ := makerFill_of_some filled
  obtain ⟨_, _, _, _, _, nonzero, _⟩ := makerFill_fields filled
  have nonnegative : 0 ≤ resting.order.qty := by
    by_contra negative
    rw [not_le] at negative
    refine sound ⟨alive, crossed, negative, ?_⟩
    rw [← makerFillQuantity_of_negative negative]
    exact charged
  have least : 0 ≤ fill.size := by
    rw [size, makerFillQuantity_eq]
    exact le_min nonnegative (availableTo_nonneg _ _ _)
  exact lt_of_le_of_ne least (Ne.symm nonzero)

/-- An order that backfires is filled with its own negative quantity. -/
theorem Backfires.filled {market : MarketId} {outcome : Outcome}
    (backfires : engine.Backfires market outcome book resting) :
    ∃ fill, engine.makerFill book resting = some fill ∧ fill.size < 0 := by
  obtain ⟨_, _, negative, fee⟩ := backfires
  have quantity := @makerFillQuantity_of_negative engine.config book _ negative
  cases filled : engine.makerFill book resting with
  | some fill =>
      obtain ⟨_, size⟩ := makerFill_of_some filled
      refine ⟨fill, rfl, ?_⟩
      rw [size, quantity]
      exact negative
  | none =>
      have size := makerFill_size engine book resting
      rw [filled, Option.toList_none, totalSize_nil, charged, quantity, fee,
        if_pos rfl, ← makerFillQuantity_eq, quantity] at size
      exact absurd size.symm negative.ne

end SimEngine

namespace SimRun

def MeetsNoNegative (run : SimRun) : SimCall → Prop
  | .updateBook _ market outcome book => ∀ key resting,
      run.engine.resting.lookup key = some resting →
        ¬ run.engine.Backfires market outcome book resting
  | .submit .. | .cancel _ | .cancelAll | .drainFills => True

variable {run : SimRun}

theorem fillBy_positive {call : SimCall} (sound : run.MeetsNoNegative call)
    {key : String} {fill : FillEvent Decimal}
    (filled : run.fillBy key call = some fill) : 0 < fill.size := by
  cases call with
  | cancel orderId => cases filled
  | cancelAll => cases filled
  | drainFills => cases filled
  | submit order strategy nowMs =>
      simp only [fillBy] at filled
      split at filled
      · obtain ⟨_, _, _, _, positive, _⟩ := SimEngine.takerFill_fields filled
        exact positive
      · cases filled
  | updateBook order market outcome book =>
      obtain ⟨⟨standing, working⟩, found, filled⟩ :=
        Option.bind_eq_some_iff.mp filled
      obtain ⟨alive, ⟨rests, crossed, made⟩ | ⟨_, _, taken⟩⟩ :=
        SimEngine.bookFill_eq_some_iff.mp filled
      · simp only at rests
        subst rests
        exact SimEngine.makerFill_positive alive crossed
          (sound key working (SimEngine.openOrder_eq_resting_iff.mp found)) made
      · obtain ⟨_, _, _, _, positive, _⟩ := SimEngine.takerFill_fields taken
        exact positive

theorem fillBy_negative
    {call : SimCall} (unsound : ¬ run.MeetsNoNegative call) :
    ∃ key fill, run.fillBy key call = some fill ∧ fill.size < 0 := by
  cases call with
  | submit order strategy nowMs => exact absurd trivial unsound
  | cancel orderId => exact absurd trivial unsound
  | cancelAll => exact absurd trivial unsound
  | drainFills => exact absurd trivial unsound
  | updateBook order market outcome book =>
      simp only [MeetsNoNegative, not_forall, not_not] at unsound
      obtain ⟨key, resting, stored, backfires⟩ := unsound
      obtain ⟨fill, made, negative⟩ := backfires.filled
      refine ⟨key, fill, ?_, negative⟩
      simp only [fillBy, SimEngine.openOrder_resting stored, Option.bind_some]
      exact SimEngine.bookFill_eq_some_iff.mpr
        ⟨backfires.1, Or.inl ⟨rfl, backfires.2.1, made⟩⟩

def FillsPositive (run : SimRun) : Prop :=
  ∀ fill ∈ run.emitted, 0 < fill.size

theorem step_fillsPositive_iff (wellFormed : run.engine.WellFormed)
    (positive : run.FillsPositive) (call : SimCall) :
    (run.step call).FillsPositive ↔ run.MeetsNoNegative call := by
  constructor
  · intro after
    by_contra unsound
    obtain ⟨key, fill, filled, negative⟩ := fillBy_negative unsound
    have added : fill ∈ (run.step call).fillsOf key := by
      rw [step_fillsOf wellFormed, filled]
      exact List.mem_append_right _ (List.mem_singleton.mpr rfl)
    exact absurd (after fill (mem_fillsOf.mp added).1) negative.not_gt
  · intro sound fill mem
    have own : fill ∈ (run.step call).fillsOf fill.orderId :=
      mem_fillsOf.mpr ⟨mem, rfl⟩
    rw [step_fillsOf wellFormed, List.mem_append, Option.mem_toList] at own
    rcases own with earlier | added
    · exact positive fill (mem_fillsOf.mp earlier).1
    · exact fillBy_positive sound added

/-- Every fill of every state of a run is positive just when no book of the
run meets a live, crossed maker of negative quantity. -/
theorem fillsPositive_iff
    (idPrefix : String) (startId : Nat) (config : SimulationConfig)
    (calls : List SimCall) :
    Trace.EveryState step FillsPositive (start idPrefix startId config) calls ↔
      Trace.EveryStep step MeetsNoNegative (start idPrefix startId config)
        calls := by
  apply Trace.everyState_iff_everyStep fun run =>
    run.engine.WellFormed ∧ run.FillsPositive
  · exact fun run invariant => invariant.2
  · exact fun run call invariant sound =>
      ⟨step_wellFormed invariant.1 call,
        (step_fillsPositive_iff invariant.1 invariant.2 call).mpr sound⟩
  · exact fun run call invariant after =>
      (step_fillsPositive_iff invariant.1 invariant.2 call).mp after
  · refine ⟨SimEngine.withFeeConfig_wellFormed idPrefix startId config, ?_⟩
    intro fill member
    cases member

/-- A post-only order of negative quantity that a later book crosses. -/
def negativeRun : List SimCall :=
  [smallBook (3 / 5) 0, .submit { smallOrder true .gtc with qty := -10 } none 1,
    smallBook (2 / 5) 10]

/-- The negative order rests and is filled with a negative size. -/
theorem negativeRun_fills_negative :
    ¬ ∀ fill ∈ (fresh "sim" 1 smallConfig negativeRun).emitted,
      0 < fill.size := by
  have sizes : (fresh "sim" 1 smallConfig negativeRun).emitted.map
      FillEvent.size = [-10] := by
    decide +kernel
  intro positive
  have member : (-10 : Decimal) ∈ (fresh "sim" 1 smallConfig
      negativeRun).emitted.map FillEvent.size := by
    rw [sizes]
    exact List.mem_singleton.mpr rfl
  obtain ⟨fill, emitted, size⟩ := List.mem_map.mp member
  have above := positive fill emitted
  rw [size] at above
  exact absurd above (by norm_num)

end SimRun

end Pmkit
