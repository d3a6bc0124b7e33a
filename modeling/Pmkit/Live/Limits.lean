import Pmkit.Live.Gate

/-!
# The limits of a registration

Each registration tightens the limits of its run for its own market and
strategy id.  The run keeps one set of limits for each strategy id, that of the
last registration under the id, and holds the orders of all of them to it.
-/

namespace Pmkit

open MachineInt

/-! ## Limits that allow no more -/

structure RiskLimits.AtMost (left right : RiskLimits) : Prop where
  maxOrderNotional : left.maxOrderNotional ≤ right.maxOrderNotional
  maxPositionNotional : left.maxPositionNotional ≤ right.maxPositionNotional
  maxPortfolioNotional :
    left.maxPortfolioNotional ≤ right.maxPortfolioNotional
  maxMarketNotional : left.maxMarketNotional ≤ right.maxMarketNotional
  maxStrategyNotional : left.maxStrategyNotional ≤ right.maxStrategyNotional
  maxOpenOrders : left.maxOpenOrders ≤ right.maxOpenOrders
  maxLoss : left.maxLoss ≤ right.maxLoss
  maxDailyLoss : left.maxDailyLoss ≤ right.maxDailyLoss

namespace RiskLimits

theorem AtMost.refl (limits : RiskLimits) : limits.AtMost limits :=
  ⟨le_rfl, le_rfl, le_rfl, le_rfl, le_rfl, le_rfl, le_rfl, le_rfl⟩

theorem AtMost.trans
    {left middle right : RiskLimits} (first : left.AtMost middle)
    (second : middle.AtMost right) : left.AtMost right where
  maxOrderNotional := first.maxOrderNotional.trans second.maxOrderNotional
  maxPositionNotional :=
    first.maxPositionNotional.trans second.maxPositionNotional
  maxPortfolioNotional :=
    first.maxPortfolioNotional.trans second.maxPortfolioNotional
  maxMarketNotional := first.maxMarketNotional.trans second.maxMarketNotional
  maxStrategyNotional :=
    first.maxStrategyNotional.trans second.maxStrategyNotional
  maxOpenOrders := first.maxOpenOrders.trans second.maxOpenOrders
  maxLoss := first.maxLoss.trans second.maxLoss
  maxDailyLoss := first.maxDailyLoss.trans second.maxDailyLoss

end RiskLimits

theorem tightened_le {α : Type} [LinearOrder α] (limit : α)
    (value : Option α) : tightened limit value ≤ limit := by
  cases value with
  | none => exact le_rfl
  | some value => exact min_le_left limit value

theorem PartialRiskLimits.tighten_atMost
    (overrides : PartialRiskLimits) (limits : RiskLimits) :
    (overrides.tighten limits).AtMost limits where
  maxOrderNotional := tightened_le _ _
  maxPositionNotional := tightened_le _ _
  maxPortfolioNotional := tightened_le _ _
  maxMarketNotional := tightened_le _ _
  maxStrategyNotional := tightened_le _ _
  maxOpenOrders := tightened_le _ _
  maxLoss := tightened_le _ _
  maxDailyLoss := tightened_le _ _

/-- The order of two overrides of a limit does not matter. -/
theorem tightened_comm {α : Type} [LinearOrder α] (limit : α)
    (left right : Option α) :
    tightened (tightened limit left) right =
      tightened (tightened limit right) left := by
  cases left with
  | none =>
      cases right with
      | none => rfl
      | some right => rfl
  | some left =>
      cases right with
      | none => rfl
      | some right => exact min_right_comm limit left right

theorem PartialRiskLimits.tighten_comm
    (left right : PartialRiskLimits) (limits : RiskLimits) :
    right.tighten (left.tighten limits) =
      left.tighten (right.tighten limits) := by
  unfold tighten
  rw [RiskLimits.mk.injEq]
  exact ⟨tightened_comm _ _ _, tightened_comm _ _ _, tightened_comm _ _ _,
    tightened_comm _ _ _, tightened_comm _ _ _, tightened_comm _ _ _,
    tightened_comm _ _ _, tightened_comm _ _ _⟩

namespace RiskLimitOverrides

theorem apply_atMost (limits : RiskLimits) (found : Option PartialRiskLimits) :
    (apply limits found).AtMost limits := by
  cases found with
  | none => exact .refl limits
  | some overrides => exact overrides.tighten_atMost limits

theorem apply_comm
    (limits : RiskLimits) (left right : Option PartialRiskLimits) :
    apply (apply limits left) right = apply (apply limits right) left := by
  cases left with
  | none =>
      cases right with
      | none => rfl
      | some right => rfl
  | some left =>
      cases right with
      | none => rfl
      | some right => exact left.tighten_comm right limits

theorem effectiveLimits_atMost
    (overrides : RiskLimitOverrides) (global : RiskLimits)
    (market : MarketId) (strategy : StrategyId) :
    (overrides.effectiveLimits global market strategy).AtMost global :=
  (apply_atMost _ _).trans (apply_atMost _ _)

end RiskLimitOverrides

section Gate

variable {tight loose : RiskLimits} {order : PlaceOrder}
  {positions : List Position}

theorem passesRisk_atMost (within : tight.AtMost loose) {pnl : Option Decimal}
    (passes : passesRisk order tight positions pnl = true) :
    passesRisk order loose positions pnl = true := by
  cases pnl with
  | none =>
      cases passes
  | some pnl =>
      have loss := within.maxLoss
      have notional := within.maxOrderNotional
      unfold passesRisk at passes ⊢
      simp only at passes ⊢
      split at passes
      · cases passes
      · rename_i calm
        rw [not_or, not_le, not_lt] at calm
        rw [if_neg]
        · rw [decide_eq_true_eq] at passes ⊢
          exact passes.trans within.maxPositionNotional
        · rw [not_or, not_le, not_lt]
          exact ⟨by linarith [calm.1], calm.2.trans notional⟩

/-- What passes under some limits passes under larger ones. -/
theorem passesAggregatedRisk_atMost
    (within : tight.AtMost loose) {exposure : PortfolioRiskExposure}
    (passes : passesAggregatedRisk order tight positions exposure = true) :
    passesAggregatedRisk order loose positions exposure = true := by
  unfold passesAggregatedRisk at passes ⊢
  simp only [Bool.and_eq_true, decide_eq_true_eq] at passes ⊢
  obtain ⟨⟨⟨⟨⟨risk, portfolio⟩, market⟩, strategy⟩, daily⟩, count⟩ := passes
  refine ⟨⟨⟨⟨⟨passesRisk_atMost within risk,
    portfolio.trans within.maxPortfolioNotional⟩,
    market.trans within.maxMarketNotional⟩,
    strategy.trans within.maxStrategyNotional⟩, ?_⟩, ?_⟩
  · have loss := within.maxDailyLoss
    linarith
  · exact count.trans_le within.maxOpenOrders

end Gate

/-- The limits in force are no larger than the global ones, the order of the
overrides does not matter, and the gate under them accepts only what it accepts
under the global limits and under either override alone. -/
theorem RiskLimitOverrides.onlyTighten
    (overrides : RiskLimitOverrides) (global : RiskLimits)
    (market : MarketId) (strategy : StrategyId) :
    (overrides.effectiveLimits global market strategy).AtMost global ∧
      apply (apply global (overrides.perStrategy.lookup strategy))
          (overrides.perMarket.lookup market) =
        overrides.effectiveLimits global market strategy ∧
      ∀ order positions exposure,
        passesAggregatedRisk order
            (overrides.effectiveLimits global market strategy) positions
            exposure = true →
          passesAggregatedRisk order global positions exposure = true ∧
            passesAggregatedRisk order
              (apply global (overrides.perMarket.lookup market)) positions
              exposure = true ∧
            passesAggregatedRisk order
              (apply global (overrides.perStrategy.lookup strategy)) positions
              exposure = true := by
  have below := overrides.effectiveLimits_atMost global market strategy
  have swapped := apply_comm global (overrides.perStrategy.lookup strategy)
    (overrides.perMarket.lookup market)
  refine ⟨below, swapped, ?_⟩
  intro order positions exposure passes
  refine ⟨passesAggregatedRisk_atMost below passes,
    passesAggregatedRisk_atMost (apply_atMost _ _) passes, ?_⟩
  apply passesAggregatedRisk_atMost _ passes
  rw [effectiveLimits, ← swapped]
  exact apply_atMost _ _

/-! ## The limits in force -/

namespace LiveRun

variable {S V : Type} (run : LiveRun S V)

def ownLimits (registration : StrategyRegistration S) : RiskLimits :=
  registration.riskOverrides.effectiveLimits run.risk registration.market
    registration.id

def lastRegistration (id : StrategyId) : Option (StrategyRegistration S) :=
  run.strategies.reverse.find? fun registration => registration.id = id

/-- No registration is looser than an earlier one of its strategy id that it
takes the place of. -/
def LimitsNarrow : Prop :=
  ∀ registration ∈ run.strategies, ∀ last,
    run.lastRegistration registration.id = some last →
      (run.ownLimits last).AtMost (run.ownLimits registration)

theorem effectiveLimitsByStrategy_lookup (id : StrategyId) :
    run.effectiveLimitsByStrategy.lookup id =
      (run.lastRegistration id).map run.ownLimits := by
  unfold effectiveLimitsByStrategy lastRegistration
  rw [List.foldl_eq_foldr_reverse]
  induction run.strategies.reverse with
  | nil =>
      rfl
  | cons registration rest ih =>
      rw [List.foldr_cons, KeyedMap.lookup_insert_eq, List.find?_cons]
      by_cases same : id = registration.id
      · rw [if_pos same, decide_eq_true same.symm]
        rfl
      · rw [if_neg same, decide_eq_false (Ne.symm same)]
        exact ih

theorem lastRegistration_isSome {registration : StrategyRegistration S}
    (registered : registration ∈ run.strategies) :
    ∃ last, run.lastRegistration registration.id = some last := by
  rw [lastRegistration, ← Option.isSome_iff_exists, List.find?_isSome]
  exact ⟨registration, List.mem_reverse.mpr registered, by simp⟩

end LiveRun

namespace LiveState

variable {S V : Type}

/-- The order passes the gate under the limits of its own registration. -/
def WithinOwn (run : LiveRun S V) (admission : Admission S V) : Prop :=
  ∃ exposure,
    admission.before.exposure admission.evaluation = some exposure ∧
      passesAggregatedRisk admission.order
        (run.ownLimits admission.registration)
        (admission.before.risk.positions admission.evaluation.market)
        exposure = true

/-- The orders that a fact makes the run admit are within the limits of their
own registrations. -/
def AdmitsWithinOwn (run : LiveRun S V) (state : LiveState S V)
    (envelope : SourceEnvelope Decimal) : Prop :=
  ∀ admission ∈ state.admissions run envelope, WithinOwn run admission

theorem passesGate_exposure
    {evaluation : Evaluation} {order : PlaceOrder} {state : LiveState S V}
    (passes : state.passesGate evaluation order = true) :
    ∃ exposure, state.exposure evaluation = some exposure ∧
      passesAggregatedRisk order evaluation.limits
        (state.risk.positions evaluation.market) exposure = true := by
  unfold passesGate at passes
  rw [Bool.and_eq_true] at passes
  exact Option.any_eq_true _ _ |>.mp passes.2

theorem evaluationOf_limits
    {run : LiveRun S V} {registration last : StrategyRegistration S}
    (found : run.lastRegistration registration.id = some last)
    (input : PipelineInput) (dailyPnl : Option Decimal) (market : MarketId) :
    (evaluationOf run input dailyPnl registration.id market).limits =
      run.ownLimits last := by
  simp only [evaluationOf]
  rw [run.effectiveLimitsByStrategy_lookup, found]
  rfl

theorem step_admitsWithinOwn
    {run : LiveRun S V} (narrow : run.LimitsNarrow) {state : LiveState S V}
    (registered : state.Registered run) (envelope : SourceEnvelope Decimal) :
    AdmitsWithinOwn run state envelope := by
  refine @admissions_rule _ _ run (fun _ => True) _ (fun _ _ _ _ _ => trivial)
    (fun _ _ _ _ => trivial) state envelope (fun _ _ _ _ => trivial) ?_
  intro input dailyPnl pair mem _ actionIndex order middle _ admission
    placed
  obtain ⟨rates, rfl, passes⟩ := placeAdmission_eq placed
  obtain ⟨exposure, found, within⟩ := passesGate_exposure passes
  have own : pair.1 ∈ run.strategies := (List.of_mem_zip mem).1
  obtain ⟨last, isLast⟩ := run.lastRegistration_isSome own
  refine ⟨exposure, found, passesAggregatedRisk_atMost ?_ within⟩
  rw [(registered.pair mem).1, evaluationOf_limits isLast]
  exact narrow pair.1 own last isLast

def otherMarket : MarketId := ⟨"btc-15m", by decide⟩

def orderOverride (maxOrderNotional : Money) : PartialRiskLimits where
  maxOrderNotional := some maxOrderNotional
  maxPositionNotional := none
  maxPortfolioNotional := none
  maxMarketNotional := none
  maxStrategyNotional := none
  maxOpenOrders := none
  maxLoss := none
  maxDailyLoss := none

/-- The registration of the small run with a limit on the orders of its
market. -/
def tightRegistration : StrategyRegistration Unit :=
  { SmallRun.registration with
    riskOverrides :=
      { perMarket :=
          AList.insert SmallRun.market (orderOverride (1 / 4)) ∅
        perStrategy := ∅ } }

/-- The same strategy id on two markets, of which the first has the limit. -/
def pairRun : LiveRun Unit Nat :=
  { SmallRun.buyerRun with
    strategies :=
      [tightRegistration,
        { SmallRun.registration with market := otherMarket }] }

/-- One registration with a limit on its market. -/
def tightRun : LiveRun Unit Nat :=
  { SmallRun.buyerRun with strategies := [tightRegistration] }

end LiveState

end Pmkit
