import Pmkit.Library.Trace
import Pmkit.Store.Intents

/-!
# Recording order intents

A submission writes its intent as pending, calls the venue, and records the
answer.  The process can stop between any two of these, and a new one may
repeat any call: the pending row then keeps the venue from being called
again.
-/

namespace Pmkit

open MachineInt

inductive VenueError where
  | rejected (reason : String)
  | transport (message : String)
  | notFound (orderId : String)
  deriving DecidableEq

structure OrderIntent where
  identity : CausalIdentity
  payload : JsonValue

/-- `venue_order_id`. -/
def OrderIntent.venueOrderId (intent : OrderIntent) : Option String :=
  venueOrderIdOf intent.payload

structure SubmissionReceipt where
  orderId : String
  correlationId : String
  deriving DecidableEq

inductive RecorderError where
  | store (source : CausalStoreError)
  | venueRejected (source : VenueError)
  | venueUnknown (source : VenueError)
  | acceptedButUnrecorded (source : CausalStoreError)
  deriving DecidableEq

/-- `order_payload`.  The text of a decimal is the decimal library's. -/
def orderPayload (decimalText : Decimal → String) (actionIndex : UInt32)
    (submittedMs : I64) (order : PlaceOrder) : JsonValue :=
  .object
    [("action_index", .number actionIndex.toNat),
      ("submitted_ms", .number submittedMs.1),
      ("order", .object
        [("market", .string order.market.value),
          ("outcome", .string order.outcome.debug),
          ("side", .string
            (match order.side with
            | .buy => "buy"
            | .sell => "sell")),
          ("price", .string (decimalText order.price)),
          ("qty", .string (decimalText order.qty)),
          ("post_only", .bool order.postOnly)])]

/-- The arguments of an `intent` call. -/
structure IntentRequest where
  decision : CausalIdentity
  actionIndex : UInt32
  submittedMs : I64
  order : PlaceOrder

/-- `intent`. -/
def IntentRequest.intent (decimalText : Decimal → String)
    (request : IntentRequest) : OrderIntent where
  identity :=
    { scope := request.decision.scope
      correlationId :=
        request.decision.correlationId ++ ":" ++ toString request.actionIndex
      sourceTimestampMs := request.decision.sourceTimestampMs
      ingestSequence := request.decision.ingestSequence }
  payload := orderPayload decimalText request.actionIndex request.submittedMs
    request.order

namespace CausalRecorder

/-- A statement of the store: it can fail for a reason of its own, and then
writes nothing. -/
def execute (fault : Option String)
    (statement : Except CausalStoreError IntentTable) :
    Except CausalStoreError IntentTable :=
  match fault with
  | some message => .error (.storage message)
  | none => statement

def recordRejection (table : IntentTable) (intent : OrderIntent)
    (source : VenueError) (fault : Option String) :
    IntentTable × Except RecorderError SubmissionReceipt :=
  match execute fault (table.transitionIntent intent.identity .rejected) with
  | .error error => (table, .error (.store error))
  | .ok next => (next, .error (.venueRejected source))

/-- The last part of `submit`: record what the venue answered. -/
def recordAnswer (table : IntentTable) (intent : OrderIntent)
    (answer : Except VenueError String) (fault : Option String) :
    IntentTable × Except RecorderError SubmissionReceipt :=
  match answer with
  | .ok orderId =>
      match execute fault (table.transitionIntentWithOrder intent.identity
          .accepted (some orderId)) with
      | .error source => (table, .error (.acceptedButUnrecorded source))
      | .ok next =>
          (next, .ok
            { orderId := orderId
              correlationId := intent.identity.correlationId })
  | .error (.rejected reason) =>
      recordRejection table intent (.rejected reason) fault
  | .error (.notFound orderId) =>
      recordRejection table intent (.notFound orderId) fault
  | .error (.transport message) =>
      (table, .error (.venueUnknown (.transport message)))

/-- `submit` without a crash: the table it leaves, whether it called the
venue, and its result. -/
def submit (table : IntentTable) (intent : OrderIntent)
    (answer : Except VenueError String) (storeFault recordFault : Option String) :
    IntentTable × Bool × Except RecorderError SubmissionReceipt :=
  match execute storeFault
      (table.storeIntentPending intent.identity intent.payload) with
  | .error error => (table, false, .error (.store error))
  | .ok pending =>
      let (next, result) := recordAnswer pending intent answer recordFault
      (next, true, result)

/-- `reconcile`. -/
def reconcile (table : IntentTable) (intent : OrderIntent)
    (outcome : IntentOutcome) (fault : Option String) :
    IntentTable × Except RecorderError Unit :=
  match execute fault (table.transitionIntent intent.identity outcome) with
  | .error error => (table, .error (.store error))
  | .ok next => (next, .ok ())

end CausalRecorder

/-- Where a submission stands between two awaits. -/
inductive RecorderPhase where
  | idle
  | calling (intent : OrderIntent)
  | recording (intent : OrderIntent) (answer : Except VenueError String)

/-- One atomic step: a statement of the store, the venue call, or the end of
the process. -/
inductive RecorderEvent where
  | submit (request : IntentRequest) (fault : Option String)
  | callVenue (answer : Except VenueError String)
  | recordAnswer (fault : Option String)
  | reconcile (intent : OrderIntent) (outcome : IntentOutcome)
      (fault : Option String)
  | crash

/-- The table, the process, the venue calls so far (the last one first), and
what the last step returned from `submit`. -/
structure RecorderState where
  table : IntentTable
  phase : RecorderPhase
  invoked : List CausalIdentity
  returned : Option (OrderIntent × Except RecorderError SubmissionReceipt)

namespace RecorderState

def start (table : IntentTable) : RecorderState where
  table := table
  phase := .idle
  invoked := []
  returned := none

def step (decimalText : Decimal → String) (state : RecorderState) :
    RecorderEvent → RecorderState
  | .submit request fault =>
      match state.phase with
      | .idle =>
          let intent := request.intent decimalText
          match CausalRecorder.execute fault
              (state.table.storeIntentPending intent.identity
                intent.payload) with
          | .error error =>
              { state with returned := some (intent, .error (.store error)) }
          | .ok table =>
              { state with
                table := table
                phase := .calling intent
                returned := none }
      | _ => { state with returned := none }
  | .callVenue answer =>
      match state.phase with
      | .calling intent =>
          { state with
            phase := .recording intent answer
            invoked := intent.identity :: state.invoked
            returned := none }
      | _ => { state with returned := none }
  | .recordAnswer fault =>
      match state.phase with
      | .recording intent answer =>
          let (table, result) :=
            CausalRecorder.recordAnswer state.table intent answer fault
          { state with
            table := table
            phase := .idle
            returned := some (intent, result) }
      | _ => { state with returned := none }
  | .reconcile intent outcome fault =>
      match state.phase with
      | .idle =>
          { state with
            table := (CausalRecorder.reconcile state.table intent outcome
              fault).1
            returned := none }
      | _ => { state with returned := none }
  | .crash => { state with phase := .idle, returned := none }

end RecorderState

/-! ## What a call leaves -/

namespace CausalRecorder

def ResultHolds (table : IntentTable) (intent : OrderIntent) :
    Except RecorderError SubmissionReceipt → Prop
  | .ok receipt => ∃ row, table.lookup intent.identity = some row ∧
      row.state = .accepted ∧
      venueOrderIdOf row.payload = some receipt.orderId
  | .error (.venueRejected _) => ∃ row,
      table.lookup intent.identity = some row ∧ row.state = .rejected
  | .error (.venueUnknown _) => ∃ row,
      table.lookup intent.identity = some row ∧ row.state = .pending
  | .error _ => True

/-- The row of an intent between the insert and the record of its answer. -/
def AwaitsAnswer (table : IntentTable) (intent : OrderIntent) : Prop :=
  (∃ fields, intent.payload = .object fields) ∧
    table.lookup intent.identity =
      some { state := .pending, payload := intent.payload }

variable {fault : Option String} {table : IntentTable} {outcome : IntentOutcome}
  {intent : OrderIntent}

variable {next : IntentTable}

theorem execute_eq_ok_iff {statement : Except CausalStoreError IntentTable}
    :
    execute fault statement = .ok next ↔
      fault = none ∧ statement = .ok next := by
  cases fault with
  | none => simp [execute]
  | some message => simp [execute]

theorem execute_store_awaits
    {decimalText : Decimal → String} {request : IntentRequest}
    (stored : execute fault
      (table.storeIntentPending (request.intent decimalText).identity
        (request.intent decimalText).payload) = .ok next) :
    table.lookup (request.intent decimalText).identity = none ∧
      table.Extends next ∧
      AwaitsAnswer next (request.intent decimalText) := by
  obtain ⟨_, inserted⟩ := execute_eq_ok_iff.mp stored
  obtain ⟨free, same⟩ :=
    IntentTable.storeIntentPending_eq_ok_iff.mp inserted
  refine ⟨free, IntentTable.storeIntentPending_extends inserted, ⟨_, rfl⟩, ?_⟩
  rw [same, KeyedMap.lookup_insert_eq, if_pos rfl]

theorem execute_transition_extends {identity : CausalIdentity}
    {venueOrderId : Option String}
    (written : execute fault (table.transitionIntentWithOrder identity outcome
      venueOrderId) = .ok next) :
    table.Extends next :=
  IntentTable.transitionIntentWithOrder_extends
    (execute_eq_ok_iff.mp written).2

theorem AwaitsAnswer.transitioned (awaits : AwaitsAnswer table intent)
    {venueOrderId : Option String}
    (written : execute fault (table.transitionIntentWithOrder intent.identity
      outcome venueOrderId) = .ok next) :
    next.lookup intent.identity = some (IntentTable.transitioned
      { state := .pending, payload := intent.payload } outcome
        venueOrderId) := by
  obtain ⟨row, found, _, same⟩ :=
    IntentTable.transitionIntentWithOrder_eq_ok_iff.mp
      (execute_eq_ok_iff.mp written).2
  rw [awaits.2] at found
  cases found
  rw [same, KeyedMap.lookup_insert_eq, if_pos rfl]

theorem recordRejection_extends
    (table : IntentTable) (intent : OrderIntent) (source : VenueError)
    (fault : Option String) :
    table.Extends (recordRejection table intent source fault).1 := by
  unfold recordRejection
  cases written : execute fault
      (table.transitionIntent intent.identity .rejected) with
  | error error => exact .refl table
  | ok next => exact execute_transition_extends written

theorem recordRejection_result
    (awaits : AwaitsAnswer table intent) (source : VenueError)
    (fault : Option String) :
    ResultHolds (recordRejection table intent source fault).1 intent
      (recordRejection table intent source fault).2 := by
  unfold recordRejection
  cases written : execute fault
      (table.transitionIntent intent.identity .rejected) with
  | error error => trivial
  | ok next => exact ⟨_, awaits.transitioned written, rfl⟩

theorem recordAnswer_extends (table : IntentTable) (intent : OrderIntent)
    (answer : Except VenueError String) (fault : Option String) :
    table.Extends (recordAnswer table intent answer fault).1 := by
  cases answer with
  | ok orderId =>
      simp only [recordAnswer]
      cases written : execute fault (table.transitionIntentWithOrder
          intent.identity .accepted (some orderId)) with
      | error error => exact .refl table
      | ok next => exact execute_transition_extends written
  | error source =>
      cases source with
      | rejected reason => exact recordRejection_extends _ _ _ _
      | notFound orderId => exact recordRejection_extends _ _ _ _
      | transport message => exact .refl table

theorem recordAnswer_result (awaits : AwaitsAnswer table intent)
    (answer : Except VenueError String) (fault : Option String) :
    ResultHolds (recordAnswer table intent answer fault).1 intent
      (recordAnswer table intent answer fault).2 := by
  cases answer with
  | ok orderId =>
      simp only [recordAnswer]
      cases written : execute fault (table.transitionIntentWithOrder
          intent.identity .accepted (some orderId)) with
      | error error => trivial
      | ok next =>
          obtain ⟨fields, isObject⟩ := awaits.1
          refine ⟨_, awaits.transitioned written, rfl, ?_⟩
          simp [IntentTable.transitioned, venueOrderIdOf, isObject,
            JsonValue.asStr]
  | error source =>
      cases source with
      | rejected reason => exact recordRejection_result awaits _ _
      | notFound orderId => exact recordRejection_result awaits _ _
      | transport message => exact ⟨_, awaits.2, rfl⟩

theorem reconcile_extends
    (table : IntentTable) (intent : OrderIntent) (outcome : IntentOutcome)
    (fault : Option String) :
    table.Extends (reconcile table intent outcome fault).1 := by
  unfold reconcile
  cases written : execute fault
      (table.transitionIntent intent.identity outcome) with
  | error error => exact .refl table
  | ok next => exact execute_transition_extends written

end CausalRecorder

/-! ## At most one venue call -/

namespace RecorderState

open CausalRecorder

variable {decimalText : Decimal → String} {state : RecorderState}

/-- What the phase says about the table and the venue. -/
def PhaseHolds (state : RecorderState) : Prop :=
  match state.phase with
  | .idle => True
  | .calling intent => AwaitsAnswer state.table intent ∧
      intent.identity ∉ state.invoked
  | .recording intent _ => AwaitsAnswer state.table intent

def ReturnHolds (state : RecorderState) : Prop :=
  ∀ intent result, state.returned = some (intent, result) →
    ResultHolds state.table intent result

/-- The invariant of every run. -/
structure Consistent (state : RecorderState) : Prop where
  once : state.invoked.Nodup
  durable : ∀ identity ∈ state.invoked,
    (state.table.lookup identity).isSome
  phase : state.PhaseHolds
  returns : state.ReturnHolds

theorem start_consistent (table : IntentTable) :
    (start table).Consistent where
  once := List.nodup_nil
  durable := by
    intro identity mem
    cases mem
  phase := trivial
  returns := by
    intro intent result nothing
    cases nothing

/-- Everything a step can be. -/
inductive Steps (decimalText : Decimal → String) (state : RecorderState) :
    RecorderState → Prop where
  | skipped : Steps decimalText state { state with returned := none }
  | refused (intent : OrderIntent) (error : CausalStoreError) :
      Steps decimalText state
        { state with returned := some (intent, .error (.store error)) }
  | stored (request : IntentRequest) (fault : Option String)
      (table : IntentTable) (idle : state.phase = .idle)
      (inserted : execute fault
        (state.table.storeIntentPending (request.intent decimalText).identity
          (request.intent decimalText).payload) = .ok table) :
      Steps decimalText state
        { state with
          table := table
          phase := .calling (request.intent decimalText)
          returned := none }
  | called (intent : OrderIntent) (answer : Except VenueError String)
      (calling : state.phase = .calling intent) :
      Steps decimalText state
        { state with
          phase := .recording intent answer
          invoked := intent.identity :: state.invoked
          returned := none }
  | recorded (intent : OrderIntent) (answer : Except VenueError String)
      (fault : Option String) (recording : state.phase = .recording intent answer) :
      Steps decimalText state
        { state with
          table := (recordAnswer state.table intent answer fault).1
          phase := .idle
          returned :=
            some (intent, (recordAnswer state.table intent answer fault).2) }
  | reconciled (intent : OrderIntent) (outcome : IntentOutcome)
      (fault : Option String) (idle : state.phase = .idle) :
      Steps decimalText state
        { state with
          table := (reconcile state.table intent outcome fault).1
          returned := none }
  | crashed : Steps decimalText state
      { state with phase := .idle, returned := none }

theorem steps_step (event : RecorderEvent) :
    Steps decimalText state (state.step decimalText event) := by
  cases event with
  | submit request fault =>
      simp only [step]
      split
      · rename_i idle
        split
        · exact .refused _ _
        · rename_i table inserted
          exact .stored request fault table idle inserted
      · exact .skipped
  | callVenue answer =>
      simp only [step]
      split
      · rename_i intent calling
        exact .called intent answer calling
      · exact .skipped
  | recordAnswer fault =>
      simp only [step]
      split
      · rename_i intent answer recording
        exact .recorded intent answer fault recording
      · exact .skipped
  | reconcile intent outcome fault =>
      simp only [step]
      split
      · rename_i idle
        exact .reconciled intent outcome fault idle
      · exact .skipped
  | crash =>
      exact .crashed

/-- Every step keeps the stored identities and the final rows. -/
theorem Steps.extends
    {next : RecorderState} (taken : Steps decimalText state next) :
    state.table.Extends next.table := by
  cases taken with
  | skipped => exact .refl _
  | refused intent error => exact .refl _
  | stored request fault table idle inserted =>
      exact (execute_store_awaits inserted).2.1
  | called intent answer calling => exact .refl _
  | recorded intent answer fault recording =>
      exact recordAnswer_extends _ _ _ _
  | reconciled intent outcome fault idle => exact reconcile_extends _ _ _ _
  | crashed => exact .refl _

/-- Every step keeps the invariant. -/
theorem Consistent.step (consistent : state.Consistent) {next : RecorderState}
    (taken : Steps decimalText state next) : next.Consistent := by
  have durable : ∀ identity ∈ state.invoked,
      (next.table.lookup identity).isSome :=
    fun identity mem => taken.extends.stored identity
      (consistent.durable identity mem)
  have phase := consistent.phase
  cases taken with
  | skipped =>
      exact ⟨consistent.once, durable, phase,
        fun _ _ nothing => nomatch nothing⟩
  | refused intent error =>
      refine ⟨consistent.once, durable, phase, ?_⟩
      intro returned result same
      cases same
      trivial
  | stored request fault table idle inserted =>
      obtain ⟨free, _, awaits⟩ := execute_store_awaits inserted
      refine ⟨consistent.once, durable, ⟨awaits, ?_⟩,
        fun _ _ nothing => nomatch nothing⟩
      intro mem
      have found := consistent.durable _ mem
      rw [free] at found
      cases found
  | called intent answer calling =>
      simp only [PhaseHolds, calling] at phase
      refine ⟨List.nodup_cons.mpr ⟨phase.2, consistent.once⟩, ?_, phase.1,
        fun _ _ nothing => nomatch nothing⟩
      intro identity mem
      rcases List.mem_cons.mp mem with rfl | older
      · rw [phase.1.2]
        rfl
      · exact durable identity older
  | recorded intent answer fault recording =>
      simp only [PhaseHolds, recording] at phase
      refine ⟨consistent.once, durable, trivial, ?_⟩
      intro returned result same
      cases same
      exact recordAnswer_result phase answer fault
  | reconciled intent outcome fault idle =>
      refine ⟨consistent.once, durable, ?_, fun _ _ nothing => nomatch nothing⟩
      simp only [PhaseHolds, idle]
  | crashed =>
      exact ⟨consistent.once, durable, trivial,
        fun _ _ nothing => nomatch nothing⟩

variable {identity : CausalIdentity}

/-- A step that calls the venue finds the pending row of the intent. -/
theorem Consistent.invokes
    (consistent : state.Consistent) {next : RecorderState}
    (taken : Steps decimalText state next)
    (invokes : next.invoked = identity :: state.invoked) :
    ∃ row, state.table.lookup identity = some row ∧ row.state = .pending := by
  cases taken with
  | called intent answer calling =>
      have phase := consistent.phase
      simp only [PhaseHolds, calling] at phase
      obtain ⟨rfl, _⟩ := List.cons.inj invokes
      exact ⟨_, phase.1.2, rfl⟩
  | skipped => exact absurd invokes.symm (List.cons_ne_self _ _)
  | refused intent error => exact absurd invokes.symm (List.cons_ne_self _ _)
  | stored request fault table idle inserted =>
      exact absurd invokes.symm (List.cons_ne_self _ _)
  | recorded intent answer fault recording =>
      exact absurd invokes.symm (List.cons_ne_self _ _)
  | reconciled intent outcome fault idle =>
      exact absurd invokes.symm (List.cons_ne_self _ _)
  | crashed => exact absurd invokes.symm (List.cons_ne_self _ _)

theorem run_consistent (decimalText : Decimal → String) (table : IntentTable)
    (events : List RecorderEvent) :
    Trace.EveryState (step decimalText) Consistent (start table) events :=
  Trace.everyState_of_invariant
    (fun _ event consistent => consistent.step (steps_step event))
    (start_consistent table)

theorem run_final {row : IntentRow}
    (final : state.table.Final identity row) (events : List RecorderEvent) :
    (Trace.run (step decimalText) state events).table.Final identity row := by
  have kept : ∀ (before : RecorderState) (event : RecorderEvent),
      before.table.Final identity row →
        (before.step decimalText event).table.Final identity row :=
    fun _ event holds =>
      (steps_step event).extends.final identity row holds
  exact Trace.run_invariant kept events final

/-- Over every run, with crashes and repeated calls: the venue is called at
most once for an identity, and only while its pending row is durable; an
accepted or rejected row stays as it is; and what `submit` returns agrees with
the row. -/
theorem submission_atMostOnce
    (decimalText : Decimal → String) (table : IntentTable)
    (events : List RecorderEvent) :
    (Trace.run (step decimalText) (start table) events).invoked.Nodup ∧
      Trace.EveryStep (step decimalText)
        (fun state event => ∀ identity,
          (state.step decimalText event).invoked =
            identity :: state.invoked →
          ∃ row, state.table.lookup identity = some row ∧
            row.state = .pending)
        (start table) events ∧
      (∀ earlier later, events = earlier ++ later → ∀ identity row,
        (Trace.run (step decimalText) (start table)
          earlier).table.lookup identity = some row →
        row.state = .accepted ∨ row.state = .rejected →
        (Trace.run (step decimalText) (start table)
          events).table.lookup identity = some row) ∧
      Trace.EveryState (step decimalText) ReturnHolds (start table)
        events := by
  have consistent := run_consistent decimalText table events
  refine ⟨consistent.last.once, ?_, ?_, consistent.imp fun _ holds =>
    holds.returns⟩
  · refine Trace.everyStep_of_invariant
      (fun _ event holds => holds.step (steps_step event)) ?_
      (start_consistent table)
    intro state event holds identity invokes
    exact holds.invokes (steps_step event) invokes
  · rintro earlier later rfl identity row found final
    rw [Trace.run_append]
    have closed : row.state.isOpen = false := by
      rcases final with accepted | rejected
      · rw [accepted]
        rfl
      · rw [rejected]
        rfl
    exact (run_final ⟨found, closed⟩ later).1

end RecorderState

structure OrderStatusDetails where
  filledQty : Option Decimal
  price : Option Decimal
  fee : Option Decimal
  settlementReference : Option String
  deriving DecidableEq

inductive OrderStatus where
  | opened (details : OrderStatusDetails)
  | accepted (details : OrderStatusDetails)
  | rejected (details : OrderStatusDetails)
  | cancelled (details : OrderStatusDetails)
  | unknown (details : OrderStatusDetails)
  deriving DecidableEq

/-- Why a live run does not start. -/
inductive RecoveryError where
  | executionState (source : VenueError)
  | storage (source : RecorderError)
  deriving DecidableEq

namespace CausalRecorder

def outcomeOf (orderId : String) :
    OrderStatus → Except RecoveryError IntentOutcome
  | .opened _ => .ok .accepted
  | .accepted _ => .ok .accepted
  | .rejected _ => .ok .rejected
  | .cancelled _ => .ok .rejected
  | .unknown _ => .error (.executionState (.transport
      ("venue status is unknown for order " ++ orderId)))

/-- What `recover_intents` asks before it reconciles one intent. -/
def recoveredOutcome (queryStatus : String → Except VenueError OrderStatus)
    (intent : OrderIntent) : Except RecoveryError IntentOutcome :=
  match intent.venueOrderId with
  | none => .error (.executionState (.transport
      ("intent " ++ intent.identity.correlationId ++
        " has no venue order id")))
  | some orderId =>
      match queryStatus orderId with
      | .error source => .error (.executionState source)
      | .ok status => outcomeOf orderId status

/-- The loop of `recover_intents` over the pending and the unknown intents:
it stops at the first intent that it cannot settle. -/
def recoverIntents (queryStatus : String → Except VenueError OrderStatus) :
    List OrderIntent → IntentTable → IntentTable × Except RecoveryError Unit
  | [], table => (table, .ok ())
  | intent :: rest, table =>
      match recoveredOutcome queryStatus intent with
      | .error error => (table, .error error)
      | .ok outcome =>
          match reconcile table intent outcome none with
          | (next, .error error) => (next, .error (.storage error))
          | (next, .ok ()) => recoverIntents queryStatus rest next

end CausalRecorder

namespace RecorderState

open CausalRecorder

end RecorderState

end Pmkit
