import Pmkit.Library.Trace
import Pmkit.Live.Risk

/-!
# The calls of a risk state

A settlement is checked against the state before anything of it is written.
Here its statements are executed one by one, so that what a failed call leaves
can be read off; the state it returns is the one of the reducer.
-/

namespace Pmkit

namespace LiveRiskState

/-! ## Statements in their order -/

/-- A call that changes the state as it goes, and may fail on the way. -/
abbrev InPlace (A : Type) : Type :=
  ExceptT RiskStateError (StateM LiveRiskState) A

variable (order : IterationOrder MarketId) (limits : RiskLimits)

/-- The statements of `apply_settlement`. -/
def settleInPlace (identity : EventIdentity) (market : MarketId)
    (outcome : Outcome) (settledSize proceeds : Decimal) : InPlace Unit := do
  let state ← get
  if identity ∈ state.appliedSettlements then
    return ()
  else if settledSize ≤ 0 ∨ proceeds < 0 then
    throw (.corruptRecord
      "settlement size or proceeds is outside its valid range")
  else
    match Position.find outcome
        ((state.positionsByMarket.lookup market).getD []) with
    | none =>
        throw (.corruptRecord "settlement has no matching position")
    | some position =>
        if position.qty < settledSize then
          throw (.corruptRecord "settlement exceeds the matching position")
        else
          modify fun state =>
            { state with
              appliedSettlements := insert identity state.appliedSettlements }
          modify fun state =>
            { state with
              realizedPnl := state.realizedPnl +
                (proceeds - position.avgEntry * settledSize) }
          modify fun state =>
            { state with
              positionsByMarket := AList.insert market
                ((Position.settle outcome settledSize
                  ((state.positionsByMarket.lookup market).getD [])).filter
                    fun position => position.qty ≠ 0)
                state.positionsByMarket }
          modify fun state => (state.refreshMarks order limits).1

/-- The statements of `apply_account_event`. -/
def accountInPlace : PmAccountEvent Decimal → InPlace Bool
  | .fill identity fill => do
      let state ← get
      set (state.applyFill order limits identity fill).1
      return (state.applyFill order limits identity fill).2
  | .settlement identity market outcome settledSize proceeds _ => do
      settleInPlace order limits identity market outcome settledSize proceeds
      return false
  | .orderAck _ _ _ => return false
  | .orderCancelled _ _ _ => return false
  | .orderRejected _ _ _ _ => return false
  | .orderStatus _ _ _ _ => return false

theorem get_run
    {A : Type} (state : LiveRiskState) (next : LiveRiskState → InPlace A) :
    (get >>= next : InPlace A).run state = (next state).run state := rfl

theorem bind_run {A B : Type} (state : LiveRiskState) (first : InPlace A)
    (next : A → InPlace B) :
    (first >>= next).run state =
      match first.run state with
      | (.ok value, after) => (next value).run after
      | (.error failure, after) => (.error failure, after) := by
  change (match first.run state with
    | (result, after) => (ExceptT.bindCont next result).run after) = _
  cases first.run state with
  | mk result after =>
      cases result with
      | error failure => rfl
      | ok value => rfl

/-- What a call of the reducer leaves: its state, or the old one with the
failure. -/
def leave {A : Type} (state : LiveRiskState) :
    Except RiskStateError (LiveRiskState × A) →
      Except RiskStateError A × LiveRiskState
  | .ok (next, value) => (.ok value, next)
  | .error failure => (.error failure, state)

/-- The statements return the state of the reducer, or fail as it does with
the state as it was. -/
theorem settleInPlace_run
    (state : LiveRiskState) (identity : EventIdentity) (market : MarketId)
    (outcome : Outcome) (settledSize proceeds : Decimal) :
    (settleInPlace order limits identity market outcome settledSize
        proceeds).run state =
      state.leave ((state.applySettlement order limits identity market outcome
        settledSize proceeds).map fun next => (next, ())) := by
  unfold settleInPlace applySettlement
  rw [get_run]
  by_cases applied : identity ∈ state.appliedSettlements
  · rw [if_pos applied, if_pos applied]
    rfl
  · rw [if_neg applied, if_neg applied]
    by_cases invalid : settledSize ≤ 0 ∨ proceeds < 0
    · rw [if_pos invalid, if_pos invalid]
      rfl
    · rw [if_neg invalid, if_neg invalid]
      cases found : Position.find outcome
          ((state.positionsByMarket.lookup market).getD []) with
      | none =>
          simp only [found]
          rfl
      | some position =>
          simp only [found]
          by_cases exceeds : position.qty < settledSize
          · rw [if_pos exceeds, if_pos exceeds]
            rfl
          · rw [if_neg exceeds, if_neg exceeds]
            rfl

theorem accountInPlace_run
    (state : LiveRiskState) (event : PmAccountEvent Decimal) :
    (accountInPlace order limits event).run state =
      state.leave (state.applyAccountEvent order limits event) := by
  cases event with
  | fill identity fill => rfl
  | settlement identity market outcome settledSize proceeds timestampMs =>
      have settled := settleInPlace_run order limits state identity market
        outcome settledSize proceeds
      unfold accountInPlace applyAccountEvent
      simp only
      rw [bind_run, settled]
      cases state.applySettlement order limits identity market outcome
          settledSize proceeds with
      | error failure => rfl
      | ok next => rfl
  | orderAck strategy orderId timestampMs => rfl
  | orderCancelled strategy orderId timestampMs => rfl
  | orderRejected strategy orderId reason timestampMs => rfl
  | orderStatus strategy orderId status timestampMs => rfl

theorem accountInPlace_failed
    {state next : LiveRiskState} {event : PmAccountEvent Decimal}
    {failure : RiskStateError}
    (failed : (accountInPlace order limits event).run state =
      (.error failure, next)) : next = state := by
  rw [accountInPlace_run] at failed
  cases applied : state.applyAccountEvent order limits event with
  | error reason =>
      rw [applied] at failed
      exact (congrArg Prod.snd failed).symm
  | ok result =>
      rw [applied] at failed
      cases failed

/-- `apply_fill` of an event, which changes nothing unless it is a fill. -/
def applyMarketFill (state : LiveRiskState) (event : MarketEvent Decimal)
    (identity : EventIdentity) : LiveRiskState × Bool :=
  match event with
  | .fill fill => state.applyFill order limits identity fill
  | .bookUpdate _ _ _ _ _ => (state, false)
  | .bestBidAsk _ _ _ _ _ => (state, false)
  | .lastTrade _ _ _ _ _ _ => (state, false)
  | .orderAck _ _ _ => (state, false)
  | .tick _ => (state, false)

end LiveRiskState

inductive RiskAction where
  | book (market : MarketId) (outcome : Outcome) (book : OrderBookL2)
  | fill (event : MarketEvent Decimal) (identity : EventIdentity)
  | account (event : PmAccountEvent Decimal)

/-- A call, with the order in which its loop visits the markets. -/
structure RiskCall where
  order : IterationOrder MarketId
  action : RiskAction

namespace LiveRiskState

variable (limits : RiskLimits)

/-- A call on the state: its result, and the state that it leaves. -/
def call (state : LiveRiskState) (call : RiskCall) :
    Except RiskStateError Unit × LiveRiskState :=
  match call.action with
  | .book market outcome book =>
      (.ok (), (state.updateBook call.order limits market outcome book).1)
  | .fill event identity =>
      (.ok (), (state.applyMarketFill call.order limits event identity).1)
  | .account event =>
      let (result, next) := (accountInPlace call.order limits event).run state
      (result.map fun _ => (), next)

def step (state : LiveRiskState) (call : RiskCall) : LiveRiskState :=
  (state.call limits call).2

def Succeeds (state : LiveRiskState) (call : RiskCall) : Prop :=
  (state.call limits call).1 = .ok ()

/-- The state of `update_book` before it is marked. -/
def withBook (state : LiveRiskState) (market : MarketId) (outcome : Outcome)
    (book : OrderBookL2) : LiveRiskState :=
  { state with
    marks := match book.midPrice with
      | some mark => AList.insert (market, outcome) mark state.marks
      | none => state.marks.erase (market, outcome) }

def realizedByFill (state : LiveRiskState) (fill : FillEvent Decimal) :
    Decimal :=
  match Position.find fill.outcome (state.positions fill.market) with
  | none => 0
  | some position => realizedBy position fill.side fill.price fill.size

def withFill (state : LiveRiskState) (identity : EventIdentity)
    (fill : FillEvent Decimal) : LiveRiskState :=
  { state with
    appliedFills := insert identity state.appliedFills
    filledQtyByOrder := addAt state.filledQtyByOrder fill.orderId fill.size
    feesByOrder := addAt state.feesByOrder fill.orderId fill.fee
    positionsByMarket := AList.insert fill.market
      (Position.applyFill fill.outcome fill.side fill.price fill.size
        (state.positions fill.market)) state.positionsByMarket
    realizedPnl := state.realizedPnl + state.realizedByFill fill
    fees := state.fees + fill.fee
    fillCount := state.fillCount + 1 }

def withSettlement (state : LiveRiskState) (identity : EventIdentity)
    (market : MarketId) (outcome : Outcome) (settledSize proceeds : Decimal)
    (position : Position) : LiveRiskState :=
  { state with
    appliedSettlements := insert identity state.appliedSettlements
    realizedPnl := state.realizedPnl +
      (proceeds - position.avgEntry * settledSize)
    positionsByMarket := AList.insert market
      ((Position.settle outcome settledSize (state.positions market)).filter
        fun position => position.qty ≠ 0) state.positionsByMarket }

/-- What a call that succeeds changes before it marks the positions. -/
inductive Change (state : LiveRiskState) : RiskAction → LiveRiskState → Prop where
  | book (market : MarketId) (outcome : Outcome) (book : OrderBookL2) :
      Change state (.book market outcome book)
        (state.withBook market outcome book)
  | marketFill {identity : EventIdentity} (fill : FillEvent Decimal)
      (isNew : identity ∉ state.appliedFills) :
      Change state (.fill (.fill fill) identity) (state.withFill identity fill)
  | accountFill {identity : EventIdentity} (fill : FillEvent Decimal)
      (isNew : identity ∉ state.appliedFills) :
      Change state (.account (.fill identity fill))
        (state.withFill identity fill)
  | settlement {identity : EventIdentity} {market : MarketId}
      {outcome : Outcome} {settledSize proceeds : Decimal}
      {position : Position} (timestampMs : MachineInt.I64)
      (isNew : identity ∉ state.appliedSettlements)
      (positive : 0 < settledSize) (nonneg : 0 ≤ proceeds)
      (found : Position.find outcome (state.positions market) = some position)
      (covered : settledSize ≤ position.qty) :
      Change state
        (.account (.settlement identity market outcome settledSize proceeds
          timestampMs))
        (state.withSettlement identity market outcome settledSize proceeds
          position)

/-- The identity under which an action is applied once. -/
inductive AppliedIdentity where
  | fill (identity : EventIdentity)
  | settlement (identity : EventIdentity)
  deriving DecidableEq

def identityOf : RiskAction → Option AppliedIdentity
  | .book _ _ _ => none
  | .fill (.fill _) identity => some (.fill identity)
  | .fill (.bookUpdate _ _ _ _ _) _ => none
  | .fill (.bestBidAsk _ _ _ _ _) _ => none
  | .fill (.lastTrade _ _ _ _ _ _) _ => none
  | .fill (.orderAck _ _ _) _ => none
  | .fill (.tick _) _ => none
  | .account (.fill identity _) => some (.fill identity)
  | .account (.settlement identity _ _ _ _ _) => some (.settlement identity)
  | .account (.orderAck _ _ _) => none
  | .account (.orderCancelled _ _ _) => none
  | .account (.orderRejected _ _ _ _) => none
  | .account (.orderStatus _ _ _ _) => none

def Applied (state : LiveRiskState) : AppliedIdentity → Prop
  | .fill identity => identity ∈ state.appliedFills
  | .settlement identity => identity ∈ state.appliedSettlements

/-! ## What a call does -/

section Call

variable {limits : RiskLimits} {state changed : LiveRiskState} {call : RiskCall}

variable {identity : EventIdentity}

theorem applyFill_of_new (order : IterationOrder MarketId) (limits : RiskLimits)
    (isNew : identity ∉ state.appliedFills)
    (fill : FillEvent Decimal) :
    state.applyFill order limits identity fill =
      (((state.withFill identity fill).refreshMarks order limits).1, true) := by
  rw [applyFill, if_neg isNew]
  rfl

theorem applySettlement_of_new
    (order : IterationOrder MarketId) (limits : RiskLimits)
    (isNew : identity ∉ state.appliedSettlements)
    {market : MarketId} {outcome : Outcome} {settledSize proceeds : Decimal}
    {position : Position} (positive : 0 < settledSize) (nonneg : 0 ≤ proceeds)
    (found : Position.find outcome (state.positions market) = some position)
    (covered : settledSize ≤ position.qty) :
    state.applySettlement order limits identity market outcome settledSize
        proceeds =
      .ok ((state.withSettlement identity market outcome settledSize proceeds
        position).refreshMarks order limits).1 := by
  have valid : ¬ (settledSize ≤ 0 ∨ proceeds < 0) := by
    rw [not_or, not_le, not_lt]
    exact ⟨positive, nonneg⟩
  change Position.find outcome
    ((state.positionsByMarket.lookup market).getD []) = some position at found
  rw [applySettlement, if_neg isNew, if_neg valid]
  simp only [found]
  rw [if_neg (not_lt.mpr covered)]
  rfl

theorem call_of_change (change : Change state call.action changed) :
    state.call limits call =
      (.ok (), (changed.refreshMarks call.order limits).1) := by
  obtain ⟨order, action⟩ := call
  cases change with
  | book market outcome book => rfl
  | marketFill fill isNew =>
      simp only [LiveRiskState.call, applyMarketFill]
      rw [applyFill_of_new order limits isNew]
  | accountFill fill isNew =>
      simp only [LiveRiskState.call]
      rw [accountInPlace_run, applyAccountEvent,
        applyFill_of_new order limits isNew]
      rfl
  | settlement timestampMs isNew positive nonneg found covered =>
      simp only [LiveRiskState.call]
      rw [accountInPlace_run, applyAccountEvent,
        applySettlement_of_new order limits isNew positive nonneg found covered]
      rfl

theorem call_of_applied
    {identity : AppliedIdentity} (same : identityOf call.action = some identity)
    (applied : state.Applied identity) :
    state.call limits call = (.ok (), state) := by
  obtain ⟨order, action⟩ := call
  cases action with
  | book market outcome book => cases same
  | fill event other =>
      cases event with
      | fill fill =>
          cases same
          have inside : other ∈ state.appliedFills := applied
          simp only [LiveRiskState.call, applyMarketFill]
          rw [applyFill, if_pos inside]
      | bookUpdate _ _ _ _ _ => cases same
      | bestBidAsk _ _ _ _ _ => cases same
      | lastTrade _ _ _ _ _ _ => cases same
      | orderAck _ _ _ => cases same
      | tick _ => cases same
  | account event =>
      cases event with
      | fill other fill =>
          cases same
          have inside : other ∈ state.appliedFills := applied
          simp only [LiveRiskState.call]
          rw [accountInPlace_run, applyAccountEvent, applyFill, if_pos inside]
          rfl
      | settlement other market outcome settledSize proceeds timestampMs =>
          cases same
          have inside : other ∈ state.appliedSettlements := applied
          simp only [LiveRiskState.call]
          rw [accountInPlace_run, applyAccountEvent, applySettlement,
            if_pos inside]
          rfl
      | orderAck _ _ _ => cases same
      | orderCancelled _ _ _ => cases same
      | orderRejected _ _ _ _ => cases same
      | orderStatus _ _ _ _ => cases same

theorem settlement_cases
    (identity : EventIdentity) (market : MarketId) (outcome : Outcome)
    (settledSize proceeds : Decimal) (timestampMs : MachineInt.I64) :
    (∃ changed, Change state (.account (.settlement identity market outcome
        settledSize proceeds timestampMs)) changed) ∨
      state.Applied (.settlement identity) ∨
      ∀ order, ∃ failure, state.applySettlement order limits identity market
        outcome settledSize proceeds = .error failure := by
  by_cases applied : identity ∈ state.appliedSettlements
  · exact .inr (Or.inl applied)
  · by_cases invalid : settledSize ≤ 0 ∨ proceeds < 0
    · refine Or.inr (Or.inr fun order => ?_)
      rw [applySettlement, if_neg applied, if_pos invalid]
      exact ⟨_, rfl⟩
    · cases found : Position.find outcome (state.positions market) with
      | none =>
          refine Or.inr (Or.inr fun order => ?_)
          change Position.find outcome
            ((state.positionsByMarket.lookup market).getD []) = none at found
          rw [applySettlement, if_neg applied, if_neg invalid]
          simp only [found]
          exact ⟨_, rfl⟩
      | some position =>
          by_cases exceeds : position.qty < settledSize
          · refine Or.inr (Or.inr fun order => ?_)
            change Position.find outcome
              ((state.positionsByMarket.lookup market).getD []) =
                some position at found
            rw [applySettlement, if_neg applied, if_neg invalid]
            simp only [found]
            rw [if_pos exceeds]
            exact ⟨_, rfl⟩
          · rw [not_or, not_le, not_lt] at invalid
            exact .inl ⟨_, .settlement timestampMs applied invalid.1
              invalid.2 found (not_lt.mp exceeds)⟩

/-- A call that succeeds changes the state, or repeats what was applied, or has
nothing to apply. -/
theorem succeeds_cases (succeeds : state.Succeeds limits call) :
    (∃ changed, Change state call.action changed) ∨
      (∃ identity, identityOf call.action = some identity ∧
        state.Applied identity) ∨
      identityOf call.action = none ∧
        ∀ other : LiveRiskState, other.call limits call = (.ok (), other) := by
  obtain ⟨order, action⟩ := call
  cases action with
  | book market outcome book => exact .inl ⟨_, .book market outcome book⟩
  | fill event identity =>
      cases event with
      | fill fill =>
          by_cases applied : identity ∈ state.appliedFills
          · exact .inr (Or.inl ⟨.fill identity, rfl, applied⟩)
          · exact .inl ⟨_, .marketFill fill applied⟩
      | bookUpdate _ _ _ _ _ => exact .inr (Or.inr ⟨rfl, fun _ => rfl⟩)
      | bestBidAsk _ _ _ _ _ => exact .inr (Or.inr ⟨rfl, fun _ => rfl⟩)
      | lastTrade _ _ _ _ _ _ => exact .inr (Or.inr ⟨rfl, fun _ => rfl⟩)
      | orderAck _ _ _ => exact .inr (Or.inr ⟨rfl, fun _ => rfl⟩)
      | tick _ => exact .inr (Or.inr ⟨rfl, fun _ => rfl⟩)
  | account event =>
      cases event with
      | fill identity fill =>
          by_cases applied : identity ∈ state.appliedFills
          · exact .inr (Or.inl ⟨.fill identity, rfl, applied⟩)
          · exact .inl ⟨_, .accountFill fill applied⟩
      | settlement identity market outcome settledSize proceeds timestampMs =>
          rcases @settlement_cases limits state identity market outcome
            settledSize proceeds timestampMs with changes | applied | fails
          · exact .inl changes
          · exact .inr (Or.inl ⟨.settlement identity, rfl, applied⟩)
          · obtain ⟨failure, failed⟩ := fails order
            unfold Succeeds LiveRiskState.call at succeeds
            simp only at succeeds
            rw [accountInPlace_run, applyAccountEvent, failed] at succeeds
            cases succeeds
      | orderAck _ _ _ => exact .inr (Or.inr ⟨rfl, fun _ => rfl⟩)
      | orderCancelled _ _ _ => exact .inr (Or.inr ⟨rfl, fun _ => rfl⟩)
      | orderRejected _ _ _ _ => exact .inr (Or.inr ⟨rfl, fun _ => rfl⟩)
      | orderStatus _ _ _ _ => exact .inr (Or.inr ⟨rfl, fun _ => rfl⟩)

theorem call_of_fails (fails : ¬ state.Succeeds limits call) :
    (state.call limits call).2 = state := by
  obtain ⟨order, action⟩ := call
  cases action with
  | book market outcome book => exact absurd rfl fails
  | fill event identity => exact absurd rfl fails
  | account event =>
      unfold Succeeds at fails
      simp only [LiveRiskState.call] at fails ⊢
      rw [accountInPlace_run] at fails ⊢
      cases applied : state.applyAccountEvent order limits event with
      | ok result =>
          rw [applied] at fails
          exact absurd rfl fails
      | error failure => rfl

theorem step_cases (limits : RiskLimits) (state : LiveRiskState)
    (call : RiskCall) :
    (∃ changed, Change state call.action changed ∧ state.step limits call =
          (changed.refreshMarks call.order limits).1) ∨
      (¬ ∃ changed, Change state call.action changed) ∧
        state.step limits call = state := by
  by_cases changes : ∃ changed, Change state call.action changed
  · obtain ⟨changed, change⟩ := changes
    exact .inl ⟨changed, change, congrArg Prod.snd (call_of_change change)⟩
  · refine Or.inr ⟨changes, ?_⟩
    by_cases succeeds : state.Succeeds limits call
    · rcases succeeds_cases succeeds with changed | ⟨identity, same, applied⟩ |
        ⟨_, nothing⟩
      · exact absurd changed changes
      · exact congrArg Prod.snd (call_of_applied same applied)
      · exact congrArg Prod.snd (nothing state)
    · exact call_of_fails succeeds

end Call

end LiveRiskState

end Pmkit
