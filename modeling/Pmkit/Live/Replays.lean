import Pmkit.Library.Repeats
import Pmkit.Live.MoneyMade

/-!
# Replayed calls

A fill or settlement is applied once by its identity.  Copies of what was
applied are invisible wherever they come: the states of the two runs are the
same, or, when the passes visit the markets in other orders, alike in all but
the profit that is stored with each position.
-/

namespace Pmkit

namespace Position

variable {left right : List Position}

theorem holding_filled
    {position other : Position} (same : position.holding = other.holding)
    (side : Side) (price quantity : Decimal) :
    (position.filled side price quantity).holding =
      (other.filled side price quantity).holding := by
  simp only [holding, Prod.mk.injEq] at same
  obtain ⟨outcome, qty, avgEntry⟩ := same
  simp only [holding, filled, outcome, qty, avgEntry]

theorem holding_applyFill
    (same : left.map holding = right.map holding) (outcome : Outcome)
    (side : Side) (price quantity : Decimal) :
    (applyFill outcome side price quantity left).map holding =
      (applyFill outcome side price quantity right).map holding := by
  induction left generalizing right with
  | nil =>
      cases right with
      | nil => rfl
      | cons other others => cases same
  | cons position rest ih =>
      cases right with
      | nil => cases same
      | cons other others =>
          obtain ⟨own, later⟩ := List.cons.inj same
          have outcomes : position.outcome = other.outcome :=
            congrArg Prod.fst own
          rw [applyFill, applyFill, outcomes]
          split
          · rw [List.map_cons, List.map_cons,
              holding_filled own side price quantity, later]
          · rw [List.map_cons, List.map_cons, own, ih later]

/-- What is found in one list is found alike in the other. -/
theorem holding_find
    (same : left.map holding = right.map holding) (outcome : Outcome) :
    (find outcome left).map holding = (find outcome right).map holding := by
  unfold find
  induction left generalizing right with
  | nil =>
      cases right with
      | nil => rfl
      | cons other others => cases same
  | cons position rest ih =>
      cases right with
      | nil => cases same
      | cons other others =>
          obtain ⟨own, later⟩ := List.cons.inj same
          have outcomes : position.outcome = other.outcome :=
            congrArg Prod.fst own
          rw [List.find?_cons, List.find?_cons, outcomes]
          by_cases isOf : other.outcome = outcome
          · simp only [isOf, decide_true, Option.map_some]
            exact congrArg some own
          · simp only [isOf, decide_false]
            exact ih later

theorem holding_settled
    (same : left.map holding = right.map holding) (outcome : Outcome)
    (settledSize : Decimal) :
    ((settle outcome settledSize left).filter
        fun position => position.qty ≠ 0).map holding =
      ((settle outcome settledSize right).filter
        fun position => position.qty ≠ 0).map holding := by
  have settled : (settle outcome settledSize left).map holding =
      (settle outcome settledSize right).map holding := by
    induction left generalizing right with
    | nil =>
        cases right with
        | nil => rfl
        | cons other others => cases same
    | cons position rest ih =>
        cases right with
        | nil => cases same
        | cons other others =>
            obtain ⟨own, later⟩ := List.cons.inj same
            simp only [holding, Prod.mk.injEq] at own
            rw [settle, settle, own.1]
            split
            · rw [List.map_cons, List.map_cons, later]
              simp only [holding, own]
            · rw [List.map_cons, List.map_cons, ih later]
              simp only [holding, own]
  have kept : ∀ positions : List Position,
      (positions.filter fun position => position.qty ≠ 0).map holding =
        (positions.map holding).filter fun held => held.2.1 ≠ 0 := by
    intro positions
    rw [List.filter_map]
    rfl
  rw [kept, kept, settled]

end Position

/-! ## Alike states -/

namespace LiveRiskState

/-- Two states that differ at most in the profit that is stored with their
positions. -/
structure Alike (left right : LiveRiskState) : Prop where
  positions : ∀ market, (left.positions market).map Position.holding =
    (right.positions market).map Position.holding
  others : right =
    { left with positionsByMarket := right.positionsByMarket }

namespace Alike

variable {left right : LiveRiskState}

theorem refl (state : LiveRiskState) : state.Alike state where
  positions := fun _ => rfl
  others := rfl

theorem symm (alike : left.Alike right) : right.Alike left where
  positions := fun market => (alike.positions market).symm
  others := by
    rw [alike.others]

theorem marks (alike : left.Alike right) : right.marks = left.marks := by
  rw [alike.others]

theorem allMarked (alike : left.Alike right) (marked : left.AllMarked) :
    right.AllMarked := by
  rw [allMarked_iff] at marked ⊢
  intro market
  rw [alike.marks]
  exact marketMarked_congr (alike.positions market) (marked market)

theorem markedPnl (alike : left.Alike right) :
    right.markedPnl = left.markedPnl := by
  have total : right.positionsByMarket.total (gain right.marks) =
      left.positionsByMarket.total (gain left.marks) := by
    apply PositionsByMarket.total_congr
    intro market
    rw [alike.marks]
    exact congrArg List.sum
      (gains_congr left.marks market (alike.positions market).symm)
  rw [markedPnl_eq, markedPnl_eq, total, alike.others]

theorem dailyPnl_refreshed
    (alike : left.Alike right) (order otherOrder : IterationOrder MarketId)
    (limits : RiskLimits) :
    (right.refreshMarks otherOrder limits).2 =
      (left.refreshMarks order limits).2 := by
  by_cases marked : left.AllMarked
  · rw [(left.refreshMarks_of_marked order limits marked).1,
      (right.refreshMarks_of_marked otherOrder limits
        (alike.allMarked marked)).1, alike.markedPnl]
  · rw [left.refreshMarks_of_unmarked order limits marked,
      right.refreshMarks_of_unmarked otherOrder limits
        (mt alike.symm.allMarked marked)]

/-- Passes in any two orders leave alike states. -/
theorem refreshMarks
    (alike : left.Alike right) (order otherOrder : IterationOrder MarketId)
    (limits : RiskLimits) :
    (left.refreshMarks order limits).1.Alike
      (right.refreshMarks otherOrder limits).1 where
  positions := by
    intro market
    rw [left.refreshMarks_positions order limits market,
      right.refreshMarks_positions otherOrder limits market]
    exact alike.positions market
  others := by
    have latch : (right.refreshMarks otherOrder limits).1.lossBreached =
        (left.refreshMarks order limits).1.lossBreached := by
      change (right.lossBreached || (right.refreshMarks otherOrder limits).2.any
          fun pnl => pnl ≤ -limits.maxLoss) =
        (left.lossBreached || (left.refreshMarks order limits).2.any
          fun pnl => pnl ≤ -limits.maxLoss)
      rw [alike.dailyPnl_refreshed order otherOrder limits,
        congrArg LiveRiskState.lossBreached alike.others]
    rw [refreshMarks_frame otherOrder limits right, latch, alike.others]
    rfl

theorem realizedByFill (alike : left.Alike right) (fill : FillEvent Decimal) :
    right.realizedByFill fill = left.realizedByFill fill := by
  have found := Position.holding_find (alike.positions fill.market) fill.outcome
  unfold LiveRiskState.realizedByFill
  cases ofLeft : Position.find fill.outcome (left.positions fill.market) with
  | none =>
      rw [ofLeft, Option.map_none] at found
      rw [Option.map_eq_none_iff.mp found.symm]
  | some position =>
      rw [ofLeft, Option.map_some] at found
      obtain ⟨other, ofRight, same⟩ := Option.map_eq_some_iff.mp found.symm
      simp only [Position.holding, Prod.mk.injEq] at same
      rw [ofRight]
      simp only [realizedBy, same]

theorem replace (alike : left.Alike right) {market : MarketId}
    {ofLeft ofRight : List Position}
    (same : ofLeft.map Position.holding = ofRight.map Position.holding)
    (other : MarketId) :
    (((AList.insert market ofLeft
        left.positionsByMarket : PositionsByMarket).lookup other).getD []).map
          Position.holding =
      (((AList.insert market ofRight
        right.positionsByMarket : PositionsByMarket).lookup other).getD []).map
          Position.holding := by
  rw [KeyedMap.lookup_insert_eq, KeyedMap.lookup_insert_eq]
  split
  · exact same
  · exact alike.positions other

theorem withFill (alike : left.Alike right) (identity : EventIdentity)
    (fill : FillEvent Decimal) :
    (left.withFill identity fill).Alike (right.withFill identity fill) where
  positions := alike.replace (Position.holding_applyFill
    (alike.positions fill.market) fill.outcome fill.side fill.price fill.size)
  others := by
    unfold LiveRiskState.withFill
    rw [alike.realizedByFill, alike.others]

theorem change
    (alike : left.Alike right) {action : RiskAction} {changed : LiveRiskState}
    (change : Change left action changed) :
    ∃ other, Change right action other ∧ changed.Alike other := by
  have fills : right.appliedFills = left.appliedFills := by
    rw [alike.others]
  have settlements : right.appliedSettlements = left.appliedSettlements := by
    rw [alike.others]
  cases change with
  | book market outcome book =>
      refine ⟨_, .book market outcome book, alike.positions, ?_⟩
      unfold withBook
      rw [alike.others]
  | marketFill fill isNew =>
      rw [← fills] at isNew
      exact ⟨_, .marketFill fill isNew, alike.withFill _ fill⟩
  | accountFill fill isNew =>
      rw [← fills] at isNew
      exact ⟨_, .accountFill fill isNew, alike.withFill _ fill⟩
  | settlement timestampMs isNew positive nonneg found covered =>
      rename_i market outcome settledSize proceeds position
      rw [← settlements] at isNew
      have alikeFound := Position.holding_find (alike.positions market) outcome
      rw [found, Option.map_some] at alikeFound
      obtain ⟨other, otherFound, same⟩ :=
        Option.map_eq_some_iff.mp alikeFound.symm
      simp only [Position.holding, Prod.mk.injEq] at same
      rw [← same.2.1] at covered
      refine ⟨_, .settlement timestampMs isNew positive nonneg otherFound
        covered, alike.replace (Position.holding_settled
          (alike.positions market) outcome settledSize), ?_⟩
      unfold withSettlement
      rw [same.2.2, alike.others]

/-- A call leaves alike states, whatever the orders of its pass. -/
theorem step
    (alike : left.Alike right) (limits : RiskLimits) {call other : RiskCall}
    (sameAction : call.action = other.action) :
    (left.step limits call).Alike (right.step limits other) := by
  rcases step_cases limits left call with ⟨changed, change, same⟩ |
    ⟨unchanged, same⟩
  · obtain ⟨otherChanged, otherChange, alikeChanged⟩ := alike.change change
    rw [sameAction] at otherChange
    have otherSame : right.step limits other = _ :=
      congrArg Prod.snd (call_of_change otherChange)
    rw [same, otherSame]
    exact alikeChanged.refreshMarks call.order other.order limits
  · rcases step_cases limits right other with ⟨changed, change, _⟩ |
      ⟨_, otherSame⟩
    · rw [← sameAction] at change
      obtain ⟨otherChanged, otherChange, _⟩ := alike.symm.change change
      exact absurd ⟨otherChanged, otherChange⟩ unchanged
    · rw [same, otherSame]
      exact alike

end Alike

def Taken (state : LiveRiskState) (call : RiskCall) : Prop :=
  ∀ identity, identityOf call.action = some identity → state.Applied identity

def SharesIdentity (call copy : RiskCall) : Prop :=
  ∃ identity, identityOf call.action = some identity ∧
    identityOf copy.action = some identity

section Taken

variable {limits : RiskLimits} {state : LiveRiskState}

theorem Applied.step
    {identity : AppliedIdentity} (applied : state.Applied identity)
    (call : RiskCall) : (state.step limits call).Applied identity := by
  rcases step_cases limits state call with ⟨changed, change, same⟩ | ⟨_, same⟩
  · rw [same]
    generalize call.action = action at change
    have stays : changed.Applied identity := by
      cases change with
      | book market outcome book => exact applied
      | marketFill fill isNew =>
          cases identity with
          | fill other => exact Finset.mem_insert_of_mem applied
          | settlement other => exact applied
      | accountFill fill isNew =>
          cases identity with
          | fill other => exact Finset.mem_insert_of_mem applied
          | settlement other => exact applied
      | settlement timestampMs isNew positive nonneg found covered =>
          cases identity with
          | fill other => exact applied
          | settlement other => exact Finset.mem_insert_of_mem applied
    cases identity with
    | fill other => exact stays
    | settlement other => exact stays
  · rw [same]
    exact applied

/-- A call that succeeds has its identity applied. -/
theorem Succeeds.taken
    {call : RiskCall} (succeeds : state.Succeeds limits call) :
    (state.step limits call).Taken call := by
  intro identity named
  rcases succeeds_cases succeeds with ⟨changed, change⟩ |
    ⟨other, sameName, applied⟩ | ⟨nothing, _⟩
  · have done := (change.applied named).2
    have same : state.step limits call = _ :=
      congrArg Prod.snd (call_of_change change)
    rw [same]
    cases identity with
    | fill other => exact done
    | settlement other => exact done
  · rw [named] at sameName
    cases sameName
    exact applied.step call
  · rw [named] at nothing
    cases nothing

theorem step_of_taken {call copy : RiskCall} (taken : state.Taken call)
    (copies : SharesIdentity call copy) : state.step limits copy = state := by
  obtain ⟨identity, ofCall, ofCopy⟩ := copies
  exact congrArg Prod.snd (call_of_applied ofCopy (taken identity ofCall))

end Taken

section Run

variable {limits : RiskLimits} {state : LiveRiskState} {calls : List RiskCall}

theorem Alike.taken
    {left right : LiveRiskState} (alike : left.Alike right) {call : RiskCall}
    (taken : left.Taken call) : right.Taken call := by
  intro identity named
  have applied := taken identity named
  rw [alike.others]
  cases identity with
  | fill identity => exact applied
  | settlement identity => exact applied

/-- Copies keep what every call keeps of two states, if what was applied can be
told from it. -/
theorem run_copies {agree : LiveRiskState → LiveRiskState → Prop}
    {same : RiskCall → RiskCall → Prop}
    (kept : ∀ left right call other, same call other → agree left right →
      agree (left.step limits call) (right.step limits other))
    (taken : ∀ left right call, agree left right → left.Taken call →
      right.Taken call)
    (agrees : agree state state)
    (every : Trace.EveryStep (step limits) (Succeeds limits) state calls)
    {repeated : List RiskCall}
    (repeats : Repeats same SharesIdentity [] calls repeated) :
    agree (Trace.run (step limits) state calls)
      (Trace.run (step limits) state repeated) := by
  refine @Trace.run_repeats _ _ _ (step limits) (step limits) _ agree Taken
    _ _ ?_ ?_ ?_ ?_ _ _ _ repeats _ _ agrees ?_ every
  · intro state call succeeds
    exact Succeeds.taken succeeds
  · intro state call other wasTaken identity named
    exact (wasTaken identity named).step call
  · intro left right call other _ isSame before
    exact kept left right call other isSame before
  · intro left right call copy wasTaken copies before
    rw [step_of_taken (taken left right call before wasTaken) copies]
    exact before
  · intro call mem
    cases mem

/-- After calls that all succeed, copies of fills and settlements that were put
in after them are invisible: the state is the same, and alike when the passes
visit the markets in other orders.  An account event that fails leaves the
state as it was. -/
theorem replays_invisible
    (every : Trace.EveryStep (step limits) (Succeeds limits) state calls) :
    (∀ repeated, Repeats Eq SharesIdentity [] calls repeated →
      Trace.run (step limits) state calls =
        Trace.run (step limits) state repeated) ∧
    (∀ repeated, Repeats (fun call other => call.action = other.action)
        SharesIdentity [] calls repeated →
      (Trace.run (step limits) state calls).Alike
        (Trace.run (step limits) state repeated)) ∧
    ∀ order event met next failure,
      (accountInPlace order limits event).run met = (.error failure, next) →
        next = met := by
  refine ⟨?_, ?_, ?_⟩
  · intro repeated repeats
    refine run_copies ?_ ?_ rfl every repeats
    · rintro left right call other rfl rfl
      rfl
    · rintro left right call rfl taken
      exact taken
  · intro repeated repeats
    refine run_copies ?_ ?_ (Alike.refl state) every repeats
    · intro left right call other sameAction alike
      exact alike.step limits sameAction
    · intro left right call alike taken
      exact alike.taken taken
  · intro order event met next failure failed
    exact accountInPlace_failed order limits failed

end Run

section Example

open MoneyRun

def settleCall : RiskCall :=
  flipCall (.account
    (.settlement (.venue "redeem-1") flipMarket .up 4 4
      (MachineInt.I64.clamp 0)))

theorem deliveredOnce :
    Trace.EveryStep (step flipLimits) (Succeeds flipLimits) default
      [fillCall "order-1" .buy (1 / 2) 4, settleCall] := by
  refine ⟨rfl, ?_, trivial⟩
  have settled : (accountInPlace (.stored MarketId) flipLimits
      (.settlement (.venue "redeem-1") flipMarket .up 4 4
        (MachineInt.I64.clamp 0))).run
          (default.step flipLimits (fillCall "order-1" .buy (1 / 2) 4)) =
      (.ok false, _) := rfl
  exact congrArg (fun done => done.1.map fun _ => ()) settled

theorem replays_invisible_deliveredTwice :
    Trace.run (step flipLimits) default
        [fillCall "order-1" .buy (1 / 2) 4, settleCall] =
      Trace.run (step flipLimits) default
        [fillCall "order-1" .buy (1 / 2) 4, fillCall "order-1" .buy (1 / 2) 4,
          settleCall, fillCall "order-1" .buy (1 / 2) 4, settleCall] := by
  have again : SharesIdentity (fillCall "order-1" .buy (1 / 2) 4)
      (fillCall "order-1" .buy (1 / 2) 4) := ⟨.fill (.venue "order-1"), rfl, rfl⟩
  have settledAgain : SharesIdentity settleCall settleCall :=
    ⟨.settlement (.venue "redeem-1"), rfl, rfl⟩
  refine (replays_invisible deliveredOnce).1 _
    (.keep rfl (.copy ?_ again (.keep rfl (.copy ?_ again
      (.copy ?_ settledAgain (.nil _))))))
  · exact List.mem_cons_self
  · exact List.mem_cons_of_mem _ List.mem_cons_self
  · exact List.mem_cons_self

end Example

end LiveRiskState

end Pmkit
