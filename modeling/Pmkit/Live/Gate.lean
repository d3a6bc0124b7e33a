import Pmkit.Live.Instances
import Pmkit.Live.KillSwitch

/-!
# Admitted orders

A fact that reaches the pipeline makes a run admit a list of orders.  Each of
them passed the risk gate for the evaluation of one registration, in the state
that the orders before it had left.
-/

namespace Pmkit

open MachineInt

/-- An order that was admitted: the registration of its strategy, the
evaluation it was checked for, the run at the gate, the run after the venue was
asked, and the id of the order when the venue accepted it. -/
structure Admission (S V : Type) where
  registration : StrategyRegistration S
  evaluation : LiveState.Evaluation
  order : PlaceOrder
  before : LiveState S V
  after : LiveState S V
  orderId : Option String

def Admission.reserving (evaluation : LiveState.Evaluation)
    (order : PlaceOrder) (reservations : KeyedMap String Reservation) :
    Option String → KeyedMap String Reservation
  | none => reservations
  | some orderId =>
      AList.insert orderId
        { strategy := evaluation.strategy
          market := evaluation.market
          price := order.price
          remainingQty := order.qty } reservations

/-- What holds of every admission: its order passed the gate, and reserves its
notional when the venue accepted it. -/
structure Admission.Valid {S V : Type} (admission : Admission S V) :
    Prop where
  gate : admission.before.passesGate admission.evaluation admission.order =
    true
  risk : admission.after.risk = admission.before.risk
  submitted : admission.after.trace.submitted =
      admission.before.trace.submitted ∨
    admission.after.trace.submitted =
      admission.order :: admission.before.trace.submitted
  reservations : admission.after.reservations =
    Admission.reserving admission.evaluation admission.order
      admission.before.reservations admission.orderId

namespace LiveState

variable {S V : Type}

/-! ## The admissions of one fact -/

def answeredId (run : LiveRun S V) (evaluation : Evaluation)
    (actionIndex : UInt32) (order : PlaceOrder) (state : LiveState S V) :
    Option String :=
  match (state.placeOrder run evaluation.strategy
    { decision := evaluation.identity
      actionIndex := actionIndex
      submittedMs := evaluation.timestampMs
      order := order }).2 with
  | .ok orderId => orderId
  | .error _ => none

def placeAdmission (run : LiveRun S V)
    (registration : StrategyRegistration S) (evaluation : Evaluation)
    (actionIndex : UInt32) (order : PlaceOrder) (state : LiveState S V) :
    List (Admission S V) :=
  let (after, verdict) := state.placeAction run evaluation actionIndex order
  if verdict = some .accepted then
    [{ registration := registration
       evaluation := evaluation
       order := order
       before := state.refreshCapacity run
       after := after
       orderId := answeredId run evaluation actionIndex order
        (state.refreshCapacity run) }]
  else
    []

def actionAdmissions (run : LiveRun S V)
    (registration : StrategyRegistration S) (evaluation : Evaluation) :
    Nat → List Action → LiveState S V → List (Admission S V)
  | _, [], _ => []
  | index, .place order :: rest, state =>
      let next :=
        (state.placeAction run evaluation (actionIndexOf index) order).1
      state.placeAdmission run registration evaluation (actionIndexOf index)
          order ++
        if next.result.isSome then
          []
        else
          actionAdmissions run registration evaluation (index + 1) rest next
  | index, _ :: rest, state =>
      actionAdmissions run registration evaluation (index + 1) rest state

def instanceAdmissions (run : LiveRun S V) (input : PipelineInput)
    (dailyPnl : Option Decimal) (registration : StrategyRegistration S)
    (strategy : StrategyInstance S) (state : LiveState S V) :
    List (Admission S V) :=
  let evaluation :=
    evaluationOf run input dailyPnl strategy.id strategy.market
  match (run.onEvent strategy.state
    { fact := input.fact
      market := evaluation.market
      book := input.book
      positions := state.risk.positions evaluation.market
      nowMs := input.timestampMs }).2 with
  | .error _ => []
  | .ok actions =>
      state.actionAdmissions run registration evaluation 0 actions

/-- The admissions of the loop over the instances, each with the registration
it was created from. -/
def dispatchAdmissions (run : LiveRun S V) (input : PipelineInput)
    (dailyPnl : Option Decimal) :
    List (StrategyRegistration S) → List (StrategyInstance S) →
      LiveState S V → List (Admission S V)
  | registration :: others, strategy :: rest, state =>
      if input.market.any fun market => strategy.market ≠ market then
        dispatchAdmissions run input dailyPnl others rest state
      else
        let next := (state.evaluate run input dailyPnl strategy).2
        state.instanceAdmissions run input dailyPnl registration strategy ++
          if next.result.isSome then
            []
          else
            dispatchAdmissions run input dailyPnl others rest next
  | _, _, _ => []

/-- What a fact gives to the pipeline: its input, the daily profit and the run
at that moment. -/
def pipelineOf (run : LiveRun S V) (envelope : SourceEnvelope Decimal)
    (state : LiveState S V) :
    Option (PipelineInput × Option Decimal × LiveState S V) :=
  match envelope with
  | .cexReference envelope =>
      some
        ({ fact := .reference envelope.fact
           market := none
           book := OrderBookL2.empty 0
           timestampMs := envelope.fact.timestampMs
           sourceTimestampMs := envelope.metadata.sourceTimeMs
           ingestSequence := envelope.metadata.ingestSequence
           sourceKind := "cex-trade"
           sourceId := envelope.metadata.sourceId
           aggregateTradeId := some envelope.fact.aggregateTradeId },
          state.risk.dailyPnl, state)
  | .pmMarket envelope =>
      match envelope.fact with
      | .bookUpdate market outcome bids asks timestampMs =>
          let book : OrderBookL2 :=
            { bids := bids
              asks := asks
              timestampMs := timestampMs
              lastTradePrice := none }
          let (risk, dailyPnl) :=
            state.risk.updateBook run.markets run.risk market outcome book
          some
            ({ fact := .market envelope.fact
               market := some market
               book := book
               timestampMs := timestampMs
               sourceTimestampMs := envelope.metadata.sourceTimeMs
               ingestSequence := envelope.metadata.ingestSequence
               sourceKind := "book"
               sourceId := envelope.metadata.sourceId
               aggregateTradeId := none },
              dailyPnl, { state with risk := risk }.recordBreach run)
      | _ => none
  | .pmAccount _ => none

instance (run : LiveRun S V) (state : LiveState S V)
    (envelope : SourceEnvelope Decimal) :
    Decidable (state.Takes run envelope) :=
  inferInstanceAs (Decidable (_ ∧ _ ∧ _))

/-- The orders that one fact makes a run admit, in their order. -/
def admissions (run : LiveRun S V) (state : LiveState S V)
    (envelope : SourceEnvelope Decimal) : List (Admission S V) :=
  if state.Takes run envelope then
    match pipelineOf run envelope (state.storeFact run envelope) with
    | none => []
    | some (input, dailyPnl, next) =>
        next.dispatchAdmissions run input dailyPnl run.strategies
          next.strategies
  else
    []

/-! ## What holds of each admission -/

section Rules

variable {run : LiveRun S V} {registration : StrategyRegistration S}
  {evaluation : Evaluation} {actionIndex : UInt32} {order : PlaceOrder}
  {state : LiveState S V} {admission : Admission S V}

theorem reconcileOpenOrders_reservations
    (run : LiveRun S V) (state : LiveState S V) :
    (state.reconcileOpenOrders run).reservations = state.reservations := by
  unfold reconcileOpenOrders
  simp only
  split
  · rfl
  · rfl

theorem placeOrder_reservations
    (run : LiveRun S V) (strategy : StrategyId) (request : IntentRequest)
    (state : LiveState S V) :
    (state.placeOrder run strategy request).1.reservations =
      state.reservations := by
  unfold placeOrder
  split
  · rfl
  · simp only
    split
    · rfl
    · rfl

theorem placeOrder_submitted
    (run : LiveRun S V) (strategy : StrategyId) (request : IntentRequest)
    (state : LiveState S V) :
    (state.placeOrder run strategy request).1.trace.submitted =
        state.trace.submitted ∨
      (state.placeOrder run strategy request).1.trace.submitted =
        request.order :: state.trace.submitted := by
  unfold placeOrder
  split
  · exact .inr rfl
  · simp only
    split
    · exact .inl rfl
    · exact .inr rfl

/-- At most the order that passed the gate is submitted. -/
theorem placeAccepted_submitted
    (run : LiveRun S V) (evaluation : Evaluation) (actionIndex : UInt32)
    (order : PlaceOrder) (state : LiveState S V) :
    (placeAccepted run evaluation actionIndex order state).trace.submitted =
        state.trace.submitted ∨
      (placeAccepted run evaluation actionIndex order state).trace.submitted =
        order :: state.trace.submitted := by
  have placed := placeOrder_submitted run evaluation.strategy
    { decision := evaluation.identity
      actionIndex := actionIndex
      submittedMs := evaluation.timestampMs
      order := order } state
  unfold placeAccepted
  split
  · rename_i found
    rw [found] at placed
    exact placed
  · rename_i found
    rw [found] at placed
    exact placed
  · rename_i next failure found
    rw [found] at placed
    simp only
    split
    · rw [reconcileOpenOrders_submitted]
      exact placed
    · simp only [fail]
      rw [reconcileOpenOrders_submitted]
      exact placed

theorem answeredId_rates
    (run : LiveRun S V) (evaluation : Evaluation) (actionIndex : UInt32)
    (order : PlaceOrder) (state : LiveState S V) (rates : OrderRateState) :
    answeredId run evaluation actionIndex order { state with rates := rates } =
      answeredId run evaluation actionIndex order state := by
  unfold answeredId placeOrder
  simp only
  cases state.store with
  | none => rfl
  | some store =>
      simp only
      cases store.intents.storeIntentPending _ _ with
      | error source => rfl
      | ok pending => rfl

/-- An order reserves its notional just when the venue gave it an id. -/
theorem placeAccepted_reservations
    (run : LiveRun S V) (evaluation : Evaluation) (actionIndex : UInt32)
    (order : PlaceOrder) (state : LiveState S V) :
    (placeAccepted run evaluation actionIndex order state).reservations =
      Admission.reserving evaluation order state.reservations
        (answeredId run evaluation actionIndex order state) := by
  have placed := placeOrder_reservations run evaluation.strategy
    { decision := evaluation.identity
      actionIndex := actionIndex
      submittedMs := evaluation.timestampMs
      order := order } state
  unfold placeAccepted answeredId
  split
  · rename_i found
    rw [found] at placed
    simp only at placed
    simp only [found, Admission.reserving, reserve]
    rw [placed]
  · rename_i found
    rw [found] at placed
    simp only [found, Admission.reserving]
    exact placed
  · rename_i next failure found
    rw [found] at placed
    have reconciled : (next.reconcileOpenOrders run).reservations =
        state.reservations := by
      rw [reconcileOpenOrders_reservations, placed]
    simp only [found, Admission.reserving]
    split
    · exact reconciled
    · exact reconciled

theorem placeAdmission_eq
    (mem : admission ∈ state.placeAdmission run registration evaluation
      actionIndex order) :
    ∃ rates, admission =
        { registration := registration
          evaluation := evaluation
          order := order
          before := state.refreshCapacity run
          after := placeAccepted run evaluation actionIndex order
            { state.refreshCapacity run with rates := rates }
          orderId := answeredId run evaluation actionIndex order
            (state.refreshCapacity run) } ∧
      (state.refreshCapacity run).passesGate evaluation order = true := by
  unfold placeAdmission placeAction at mem
  simp only at mem
  split at mem
  · cases mem
  · split at mem
    · cases mem
    · split at mem
      · cases mem
      · rename_i gate
        split at mem
        · cases mem
        · rename_i rates _
          exact ⟨rates, List.mem_singleton.mp mem, by simpa using gate⟩

theorem placeAdmission_valid
    (mem : admission ∈ state.placeAdmission run registration evaluation
      actionIndex order) : admission.Valid := by
  obtain ⟨rates, rfl, passes⟩ := placeAdmission_eq mem
  refine ⟨passes, (placeAccepted_sameFacts run _ _ _ _).risk,
    placeAccepted_submitted run _ _ _ _, ?_⟩
  simp only
  rw [placeAccepted_reservations, answeredId_rates]

theorem evaluationOf_market
    {input : PipelineInput} (dailyPnl : Option Decimal) (id : StrategyId)
    {registered : MarketId}
    (own : (input.market.any fun market => registered ≠ market) = false) :
    (evaluationOf run input dailyPnl id registered).market = registered := by
  unfold evaluationOf
  cases market : input.market with
  | none => rfl
  | some found =>
      rw [market, Option.any_some, decide_eq_false_iff_not, not_not] at own
      exact own.symm

variable {keeps : LiveState S V → Prop} {good : Admission S V → Prop}

theorem actionAdmissions_rule
    (place : ∀ evaluation actionIndex order state, keeps state →
      keeps (state.placeAction run evaluation actionIndex order).1)
    (admitted : ∀ actionIndex order state, keeps state →
      ∀ admission ∈ state.placeAdmission run registration evaluation
        actionIndex order, good admission)
    (index : Nat) (actions : List Action) (holds : keeps state) :
    ∀ admission ∈ state.actionAdmissions run registration evaluation index
      actions, good admission := by
  induction actions generalizing index state with
  | nil =>
      intro admission mem
      cases mem
  | cons action rest ih =>
      cases action with
      | place order =>
          intro admission mem
          rw [actionAdmissions] at mem
          rcases List.mem_append.mp mem with first | later
          · exact admitted _ order state holds admission first
          · split at later
            · cases later
            · exact ih (index + 1)
                (place _ _ order state holds) admission later
      | cancel orderId => exact ih (index + 1) holds
      | replaceQuotes cancel place =>
          exact ih (index + 1) holds
      | cancelAll => exact ih (index + 1) holds

/-- The rule for the admissions of a pass through the pipeline. -/
theorem dispatchAdmissions_rule
    {input : PipelineInput} {dailyPnl : Option Decimal}
    (place : ∀ evaluation actionIndex order state, keeps state →
      keeps (state.placeAction run evaluation actionIndex order).1)
    (record : ∀ evaluation decision state, keeps state →
      keeps (recordDecision evaluation decision state))
    {registrations : List (StrategyRegistration S)}
    {strategies : List (StrategyInstance S)}
    (admitted : ∀ pair ∈ registrations.zip strategies,
      (evaluationOf run input dailyPnl pair.2.id pair.2.market).market =
        pair.2.market → ∀ actionIndex order state, keeps state →
      ∀ admission ∈ state.placeAdmission run pair.1
        (evaluationOf run input dailyPnl pair.2.id pair.2.market) actionIndex
          order, good admission)
    (holds : keeps state) :
    ∀ admission ∈ state.dispatchAdmissions run input dailyPnl registrations
      strategies, good admission := by
  induction strategies generalizing registrations state with
  | nil =>
      intro admission mem
      cases registrations with
      | nil => cases mem
      | cons registration others => cases mem
  | cons strategy rest ih =>
      cases registrations with
      | nil =>
          intro admission mem
          cases mem
      | cons registration others =>
          have later := fun {next : LiveState S V} =>
            @ih next others fun pair mem =>
              admitted pair (List.mem_cons_of_mem _ mem)
          intro admission mem
          rw [dispatchAdmissions] at mem
          split at mem
          · exact later holds admission mem
          · rename_i own
            rw [Bool.not_eq_true] at own
            rcases List.mem_append.mp mem with first | afterwards
            · unfold instanceAdmissions at first
              simp only at first
              split at first
              · cases first
              · exact actionAdmissions_rule place
                  (admitted (registration, strategy) List.mem_cons_self
                    (evaluationOf_market dailyPnl strategy.id own)) 0 _ holds
                  admission first
            · split at afterwards
              · cases afterwards
              · exact later (evaluate_keeps place record input dailyPnl
                  strategy holds) admission afterwards

end Rules

/-! ## What changes between the admissions -/

/-- The admissions follow each other: between them, before the first and after
the last a reading of the run stays. -/
def Chained {C : Type} (read : LiveState S V → C) (last : C) :
    C → List (Admission S V) → Prop
  | first, [] => first = last
  | first, admission :: rest =>
      read admission.before = first ∧
        Chained read last (read admission.after) rest

theorem chained_append
    {C : Type} {read : LiveState S V → C} {first middle last : C}
    {left right : List (Admission S V)} (begins : Chained read middle first left)
    (ends : Chained read last middle right) :
    Chained read last first (left ++ right) := by
  induction left generalizing first with
  | nil =>
      rw [Chained] at begins
      rw [begins]
      exact ends
  | cons admission rest ih =>
      exact ⟨begins.1, ih begins.2⟩

structure Steady {C : Type} (run : LiveRun S V) (read : LiveState S V → C) :
    Prop where
  reconcile : ∀ state, read (state.reconcileOpenOrders run) = read state
  rates : ∀ state rates, read { state with rates := rates } = read state
  record : ∀ evaluation decision state,
    read (recordDecision evaluation decision state) = read state
  strategies : ∀ state strategies,
    read { state with strategies := strategies } = read state

section Chain

variable {C : Type} {run : LiveRun S V} {read : LiveState S V → C}
  (steady : Steady run read)

include steady

theorem placeAdmission_chained
    (registration : StrategyRegistration S) (evaluation : Evaluation)
    (actionIndex : UInt32) (order : PlaceOrder) (state : LiveState S V) :
    Chained read
      (read (state.placeAction run evaluation actionIndex order).1) (read state)
      (state.placeAdmission run registration evaluation actionIndex order) := by
  have refreshed : read (state.refreshCapacity run) = read state := by
    unfold refreshCapacity
    split
    · exact steady.reconcile state
    · rfl
  unfold placeAdmission placeAction
  simp only
  split
  · exact refreshed.symm
  · split
    · exact refreshed.symm
    · split
      · exact refreshed.symm
      · split
        · exact ((steady.rates _ _).trans refreshed).symm
        · exact ⟨refreshed, rfl⟩

theorem actionAdmissions_chained
    (registration : StrategyRegistration S) (evaluation : Evaluation)
    (index : Nat) (actions : List Action) (state : LiveState S V)
    (verdicts : List ActionRiskVerdict) :
    Chained read
      (read (state.runActions run evaluation index actions verdicts).1)
      (read state)
      (state.actionAdmissions run registration evaluation index actions) := by
  induction actions generalizing index state verdicts with
  | nil =>
      rfl
  | cons action rest ih =>
      cases action with
      | place order =>
          rw [actionAdmissions, runActions]
          refine chained_append (placeAdmission_chained steady registration
            evaluation (actionIndexOf index) order state) ?_
          simp only
          split
          · rfl
          · exact ih _ _ _
      | cancel orderId => exact ih (index + 1) state verdicts
      | replaceQuotes cancel place =>
          exact ih (index + 1) state verdicts
      | cancelAll => exact ih (index + 1) state verdicts

theorem instanceAdmissions_chained
    (input : PipelineInput) (dailyPnl : Option Decimal)
    (registration : StrategyRegistration S) (strategy : StrategyInstance S)
    (state : LiveState S V) :
    Chained read (read (state.evaluate run input dailyPnl strategy).2)
      (read state)
      (state.instanceAdmissions run input dailyPnl registration strategy) := by
  unfold instanceAdmissions evaluate
  simp only
  split
  · rename_i found
    simp only [found]
    exact (steady.record _ _ _).symm
  · rename_i actions found
    simp only [found]
    have acted := actionAdmissions_chained steady registration
      (evaluationOf run input dailyPnl strategy.id strategy.market) 0 actions
      state []
    split
    · exact acted
    · rw [steady.record]
      exact acted

theorem dispatchAdmissions_chained
    (input : PipelineInput) (dailyPnl : Option Decimal)
    {registrations : List (StrategyRegistration S)}
    {strategies : List (StrategyInstance S)}
    (enough : strategies.length ≤ registrations.length)
    (state : LiveState S V) :
    Chained read
      (read (dispatchInstances run input dailyPnl strategies state).2)
      (read state)
      (state.dispatchAdmissions run input dailyPnl registrations
        strategies) := by
  induction strategies generalizing registrations state with
  | nil =>
      cases registrations with
      | nil => rfl
      | cons registration others => rfl
  | cons strategy rest ih =>
      cases registrations with
      | nil =>
          cases enough
      | cons registration others =>
          have fewer : rest.length ≤ others.length := by
            simpa using enough
          rw [dispatchAdmissions, dispatchInstances]
          split
          · exact ih fewer state
          · refine chained_append (instanceAdmissions_chained steady input
              dailyPnl registration strategy state) ?_
            simp only
            split
            · rfl
            · exact ih fewer _

end Chain

section Admitting

variable {run : LiveRun S V} {keeps : LiveState S V → Prop}
  {good : Admission S V → Prop}

variable {registration : StrategyRegistration S} {state : LiveState S V}
  {dailyPnl : Option Decimal}

theorem runActions_admitting {evaluation : Evaluation}
    (place : ∀ actionIndex order state, keeps state →
      (∀ admission ∈ state.placeAdmission run registration evaluation
        actionIndex order, good admission) →
      keeps (state.placeAction run evaluation actionIndex order).1)
    (index : Nat) (actions : List Action)
    (verdicts : List ActionRiskVerdict) (holds : keeps state)
    (all : ∀ admission ∈ state.actionAdmissions run registration evaluation
      index actions, good admission) :
    keeps (state.runActions run evaluation index actions verdicts).1 := by
  induction actions generalizing index state verdicts with
  | nil =>
      exact holds
  | cons action rest ih =>
      cases action with
      | place order =>
          rw [actionAdmissions] at all
          have placed := place (actionIndexOf index) order state holds
            fun admission mem =>
              all admission (List.mem_append_left _ mem)
          simp only [runActions]
          split
          · exact placed
          · rename_i going
            refine ih (index + 1) _ placed ?_
            intro admission mem
            refine all admission (List.mem_append_right _ ?_)
            rw [if_neg going]
            exact mem
      | cancel orderId =>
          exact ih (index + 1) verdicts holds all
      | replaceQuotes cancel place =>
          exact ih (index + 1) verdicts holds all
      | cancelAll => exact ih (index + 1) verdicts holds all

variable (record : ∀ evaluation decision state, keeps state →
  keeps (recordDecision evaluation decision state))

include record

theorem evaluate_admitting {input : PipelineInput}
    {strategy : StrategyInstance S}
    (place : ∀ actionIndex order state, keeps state →
      (∀ admission ∈ state.placeAdmission run registration
        (evaluationOf run input dailyPnl strategy.id strategy.market)
        actionIndex order, good admission) → keeps (state.placeAction run
        (evaluationOf run input dailyPnl strategy.id strategy.market)
        actionIndex order).1)
    (holds : keeps state)
    (all : ∀ admission ∈ state.instanceAdmissions run input dailyPnl
      registration strategy, good admission) :
    keeps (state.evaluate run input dailyPnl strategy).2 := by
  unfold instanceAdmissions at all
  unfold evaluate
  simp only at all ⊢
  split
  · exact record _ _ _ holds
  · rename_i actions found
    simp only [found] at all
    have acted := runActions_admitting place 0 actions [] holds all
    split
    · exact acted
    · exact record _ _ _ acted

/-- The rule for the pipeline: a property that every admission keeps when it
is good. -/
theorem dispatchInstances_admitting {input : PipelineInput}
    (place : ∀ registration (strategy : StrategyInstance S) actionIndex order
      state, keeps state → (∀ admission ∈ state.placeAdmission run registration
        (evaluationOf run input dailyPnl strategy.id strategy.market)
        actionIndex order, good admission) → keeps (state.placeAction run
        (evaluationOf run input dailyPnl strategy.id strategy.market)
        actionIndex order).1)
    {registrations : List (StrategyRegistration S)}
    {strategies : List (StrategyInstance S)}
    (enough : strategies.length ≤ registrations.length)
    (holds : keeps state)
    (all : ∀ admission ∈ state.dispatchAdmissions run input dailyPnl
      registrations strategies, good admission) :
    keeps (dispatchInstances run input dailyPnl strategies state).2 := by
  induction strategies generalizing registrations state with
  | nil =>
      exact holds
  | cons strategy rest ih =>
      cases registrations with
      | nil =>
          cases enough
      | cons registration others =>
          have fewer : rest.length ≤ others.length := by
            simpa using enough
          rw [dispatchAdmissions] at all
          rw [dispatchInstances]
          split
          · rename_i other
            rw [if_pos other] at all
            exact ih fewer holds all
          · rename_i own
            rw [if_neg own] at all
            have evaluated := evaluate_admitting record
              (place registration strategy) holds fun admission mem =>
                all admission (List.mem_append_left _ mem)
            simp only
            split
            · exact evaluated
            · rename_i going
              refine ih fewer evaluated ?_
              intro admission mem
              refine all admission (List.mem_append_right _ ?_)
              rw [if_neg going]
              exact mem

end Admitting

variable {run : LiveRun S V} {envelope : SourceEnvelope Decimal}
  {state : LiveState S V} {input : PipelineInput} {dailyPnl : Option Decimal}

variable {next : LiveState S V}

/-- A fact that is taken reaches the pipeline just when it has an input for
it. -/
theorem processEvent_pipeline
    (reaches : pipelineOf run envelope state = some (input, dailyPnl, next)) :
    state.processEvent run envelope = next.dispatch run input dailyPnl := by
  unfold pipelineOf at reaches
  split at reaches
  · cases reaches
    rfl
  · split at reaches
    · rename_i fact
      simp only [Option.some.injEq, Prod.mk.injEq] at reaches
      obtain ⟨rfl, rfl, rfl⟩ := reaches
      simp only [processEvent, marketEvent, fact, bookUpdate]
    · cases reaches
  · cases reaches

theorem pipelineOf_state
    (reaches : pipelineOf run envelope state = some (input, dailyPnl, next)) :
    next = state ∨ ∃ market outcome book,
      next = { state with
        risk := (state.risk.updateBook run.markets run.risk market outcome
          book).1 }.recordBreach run := by
  unfold pipelineOf at reaches
  split at reaches
  · cases reaches
    exact .inl rfl
  · split at reaches
    · simp only [Option.some.injEq, Prod.mk.injEq] at reaches
      obtain ⟨_, _, rfl⟩ := reaches
      exact .inr ⟨_, _, _, rfl⟩
    · cases reaches
  · cases reaches

theorem pipelineOf_strategies
    (reaches : pipelineOf run envelope state = some (input, dailyPnl, next)) :
    next.strategies = state.strategies := by
  rcases pipelineOf_state reaches with rfl | ⟨_, _, _, rfl⟩
  · rfl
  · rw [recordBreach_strategies]

/-- Between the admissions of a fact nothing changes what only an admission
changes. -/
theorem admissions_chained {C : Type} {read : LiveState S V → C}
    (steady : Steady run read)
    (registered : state.Registered run)
    (takes : state.Takes run envelope)
    (reaches : pipelineOf run envelope (state.storeFact run envelope) =
      some (input, dailyPnl, next)) :
    Chained read (read (state.step run envelope)) (read next)
      (state.admissions run envelope) := by
  have enough : next.strategies.length ≤ run.strategies.length := by
    have length := registered.length_le
    rw [List.length_map, List.length_map] at length
    rw [pipelineOf_strategies reaches, storeFact_strategies]
    exact length
  rw [step_of_takes takes, processEvent_pipeline reaches, admissions,
    if_pos takes, reaches, dispatch]
  simp only [steady.strategies]
  exact dispatchAdmissions_chained steady input dailyPnl enough next

/-- A fact without an input for the pipeline makes a run admit nothing. -/
theorem admissions_of_no_pipeline
    (none : pipelineOf run envelope (state.storeFact run envelope) =
      Option.none) : state.admissions run envelope = [] := by
  unfold admissions
  split
  · rw [none]
  · rfl

theorem admissions_of_not_takes (refused : ¬ state.Takes run envelope) :
    state.admissions run envelope = [] :=
  if_neg refused

/-- The rule for the admissions of a fact. -/
theorem admissions_rule {run : LiveRun S V} {keeps : LiveState S V → Prop}
    {good : Admission S V → Prop}
    (place : ∀ evaluation actionIndex order state, keeps state →
      keeps (state.placeAction run evaluation actionIndex order).1)
    (record : ∀ evaluation decision state, keeps state →
      keeps (recordDecision evaluation decision state))
    {state : LiveState S V} {envelope : SourceEnvelope Decimal}
    (starts : ∀ input dailyPnl next,
      pipelineOf run envelope (state.storeFact run envelope) =
        some (input, dailyPnl, next) → keeps next)
    (admitted : ∀ input dailyPnl, ∀ pair ∈ run.strategies.zip state.strategies,
      (evaluationOf run input dailyPnl pair.2.id pair.2.market).market =
        pair.2.market → ∀ actionIndex order state, keeps state →
      ∀ admission ∈ state.placeAdmission run pair.1
        (evaluationOf run input dailyPnl pair.2.id pair.2.market) actionIndex
          order, good admission) :
    ∀ admission ∈ state.admissions run envelope, good admission := by
  intro admission mem
  unfold admissions at mem
  split at mem
  · rename_i takes
    split at mem
    · cases mem
    · rename_i input dailyPnl next reaches
      rw [pipelineOf_strategies reaches, storeFact_strategies] at mem
      exact dispatchAdmissions_rule place record (admitted input dailyPnl)
        (starts input dailyPnl next reaches) admission mem
  · cases mem

theorem admissions_valid (run : LiveRun S V) (state : LiveState S V)
    (envelope : SourceEnvelope Decimal) :
    ∀ admission ∈ state.admissions run envelope, admission.Valid :=
  @admissions_rule _ _ run (fun _ => True) _ (fun _ _ _ _ _ => trivial)
    (fun _ _ _ _ => trivial) state envelope (fun _ _ _ _ => trivial)
    (fun _ _ _ _ _ _ _ _ _ _ mem => placeAdmission_valid mem)

end LiveState

end Pmkit
