import Pmkit.Live.DurableOrders
import Pmkit.Live.Gate
import Pmkit.Live.Reconstruction
import Pmkit.Live.RecoveredOrders

/-!
# The open orders of a restart

A restart rebuilds the reservations of a run from the accepted intents in its
store.  While every order that the venue accepts reads back, and the fills of
an order stay within its quantity, the stored intents say what the run has
reserved; a venue that tells the truth then gives a restart the same orders.
-/

namespace Pmkit

open MachineInt JsonValue

/-! ## What the stored intents say -/

section Intents

variable {S V : Type} (run : LiveRun S V)

def IntentTable.Orders (table : IntentTable) (identity : CausalIdentity)
    (order : DurableOrder) : Prop :=
  ∃ row, table.lookup identity = some row ∧ identity.scope = run.scope ∧
    row.state = .accepted ∧
    durableOrder run { identity := identity, payload := row.payload } =
      .ok order

/-- Stored intents from which a restart can tell what is reserved: each is
settled, each accepted one is an order with an id of its own and with fills
within its quantity, and what is reserved is what is left of one of them. -/
structure IntentTable.Restorable (table : IntentTable)
    (filledQty : String → Decimal)
    (reservations : KeyedMap String Reservation) : Prop where
  settled : ∀ identity row, table.lookup identity = some row →
    identity.scope = run.scope → row.state.isOpen = false
  readable : ∀ identity row, table.lookup identity = some row →
    identity.scope = run.scope → row.state = .accepted →
    ∃ order, durableOrder run
      { identity := identity, payload := row.payload } = .ok order
  single : ∀ left right leftOrder rightOrder,
    table.Orders run left leftOrder → table.Orders run right rightOrder →
    leftOrder.orderId = rightOrder.orderId → left = right
  filled : ∀ identity order, table.Orders run identity order →
    0 ≤ filledQty order.orderId ∧ filledQty order.orderId ≤ order.qty
  reserved : ∀ orderId reservation,
    reservations.lookup orderId = some reservation →
    ∃ identity order, table.Orders run identity order ∧
      order.orderId = orderId ∧
      reservation = order.reservation (filledQty orderId) ∧
      order.qty - filledQty orderId ≠ 0

structure IntentTable.Adds (table next : IntentTable)
    (identity : CausalIdentity) (row : IntentRow) : Prop where
  free : table.lookup identity = none
  lookup : ∀ other, next.lookup other =
    if other = identity then some row else table.lookup other

end Intents

namespace IntentTable

variable {S V : Type} {run : LiveRun S V} {table next : IntentTable}
  {identity : CausalIdentity} {row : IntentRow}

variable {other : CausalIdentity} {order : DurableOrder}
  {fill : FillEvent Decimal}

theorem Adds.old (adds : table.Adds next identity row)
    {stored : IntentRow} (found : next.lookup other = some stored) :
    (other = identity ∧ stored = row) ∨ table.lookup other = some stored := by
  rw [adds.lookup] at found
  split at found
  · rename_i same
    exact .inl ⟨same, (Option.some.inj found).symm⟩
  · exact .inr found

theorem Adds.kept (adds : table.Adds next identity row)
    {stored : IntentRow} (found : table.lookup other = some stored) :
    next.lookup other = some stored := by
  rw [adds.lookup, if_neg]
  · exact found
  · rintro rfl
    rw [adds.free] at found
    cases found

theorem Adds.orders (adds : table.Adds next identity row)
    (orders : next.Orders run other order) :
    (other = identity ∧ row.state = .accepted ∧
        durableOrder run { identity := identity, payload := row.payload } =
          .ok order) ∨
      table.Orders run other order := by
  obtain ⟨stored, found, scope, accepted, read⟩ := orders
  rcases adds.old found with ⟨rfl, rfl⟩ | old
  · exact .inl ⟨rfl, accepted, read⟩
  · exact .inr ⟨stored, old, scope, accepted, read⟩

theorem Adds.keptOrders (adds : table.Adds next identity row)
    (orders : table.Orders run other order) :
    next.Orders run other order := by
  obtain ⟨stored, found, scope, accepted, read⟩ := orders
  exact ⟨stored, adds.kept found, scope, accepted, read⟩

variable {filledQty : String → Decimal}
  {reservations : KeyedMap String Reservation}

theorem Orders.unique
    {left right : DurableOrder} (isLeft : table.Orders run identity left)
    (isRight : table.Orders run identity right) : left = right := by
  obtain ⟨row, found, _, _, readLeft⟩ := isLeft
  obtain ⟨other, same, _, _, readRight⟩ := isRight
  rw [found] at same
  cases same
  rw [readLeft] at readRight
  exact Except.ok.inj readRight

theorem Restorable.reservation
    (restorable : table.Restorable run filledQty reservations)
    (orders : table.Orders run identity order)
    {reservation : Reservation}
    (found : reservations.lookup order.orderId = some reservation) :
    reservation = order.reservation (filledQty order.orderId) ∧
      order.qty - filledQty order.orderId ≠ 0 := by
  obtain ⟨other, stored, isStored, sameId, same, left⟩ :=
    restorable.reserved order.orderId reservation found
  have one := restorable.single other identity stored order isStored orders
    sameId
  subst one
  have sameOrder := isStored.unique orders
  subst sameOrder
  exact ⟨same, left⟩

/-- A refused order changes nothing that counts. -/
theorem Restorable.refuse
    (restorable : table.Restorable run filledQty reservations)
    (adds : table.Adds next identity row) (refused : row.state = .rejected) :
    next.Restorable run filledQty reservations := by
  have orders : ∀ {other order}, next.Orders run other order →
      table.Orders run other order := by
    intro other order isOrder
    rcases adds.orders isOrder with ⟨_, accepted, _⟩ | old
    · rw [refused] at accepted
      cases accepted
    · exact old
  refine ⟨?_, ?_, ?_, ?_, ?_⟩
  · intro other stored found scope
    rcases adds.old found with ⟨_, rfl⟩ | old
    · rw [refused]
      rfl
    · exact restorable.settled other stored old scope
  · intro other stored found scope accepted
    rcases adds.old found with ⟨_, rfl⟩ | old
    · rw [refused] at accepted
      cases accepted
    · exact restorable.readable other stored old scope accepted
  · intro left right leftOrder rightOrder isLeft isRight
    exact restorable.single left right leftOrder rightOrder (orders isLeft)
      (orders isRight)
  · intro other order isOrder
    exact restorable.filled other order (orders isOrder)
  · intro orderId reservation found
    obtain ⟨other, order, isOrder, rest⟩ :=
      restorable.reserved orderId reservation found
    exact ⟨other, order, adds.keptOrders isOrder, rest⟩

theorem Restorable.accept
    (restorable : table.Restorable run filledQty reservations)
    (adds : table.Adds next identity row) (own : identity.scope = run.scope)
    (accepted : row.state = .accepted)
    (read : durableOrder run { identity := identity, payload := row.payload } =
      .ok order)
    (fresh : ∀ other stored, table.Orders run other stored →
      stored.orderId ≠ order.orderId)
    (unfilled : filledQty order.orderId = 0) (positive : 0 < order.qty) :
    next.Restorable run filledQty
      (AList.insert order.orderId (order.reservation 0) reservations) := by
  have isNew : next.Orders run identity order :=
    ⟨row, by rw [adds.lookup, if_pos rfl], own, accepted, read⟩
  have orders : ∀ {other stored}, next.Orders run other stored →
      (other = identity ∧ stored = order) ∨ table.Orders run other stored := by
    intro other stored isOrder
    rcases adds.orders isOrder with ⟨same, _, again⟩ | old
    · rw [read] at again
      exact .inl ⟨same, (Except.ok.inj again).symm⟩
    · exact .inr old
  refine ⟨?_, ?_, ?_, ?_, ?_⟩
  · intro other stored found scope
    rcases adds.old found with ⟨_, rfl⟩ | old
    · rw [accepted]
      rfl
    · exact restorable.settled other stored old scope
  · intro other stored found scope isAccepted
    rcases adds.old found with ⟨rfl, rfl⟩ | old
    · exact ⟨order, read⟩
    · exact restorable.readable other stored old scope isAccepted
  · intro left right leftOrder rightOrder isLeft isRight same
    rcases orders isLeft with ⟨rfl, rfl⟩ | oldLeft
    · rcases orders isRight with ⟨rfl, _⟩ | oldRight
      · rfl
      · exact absurd same.symm (fresh right rightOrder oldRight)
    · rcases orders isRight with ⟨rfl, rfl⟩ | oldRight
      · exact absurd same (fresh left leftOrder oldLeft)
      · exact restorable.single left right leftOrder rightOrder oldLeft
          oldRight same
  · intro other stored isOrder
    rcases orders isOrder with ⟨_, rfl⟩ | old
    · rw [unfilled]
      exact ⟨le_refl 0, positive.le⟩
    · exact restorable.filled other stored old
  · intro orderId reservation found
    rw [KeyedMap.lookup_insert_eq] at found
    split at found
    · rename_i same
      refine ⟨identity, order, isNew, same.symm, ?_, ?_⟩
      · rw [same, unfilled]
        exact (Option.some.inj found).symm
      · rw [same, unfilled, sub_zero]
        exact positive.ne'
    · obtain ⟨other, stored, isOrder, rest⟩ :=
        restorable.reserved orderId reservation found
      exact ⟨other, stored, adds.keptOrders isOrder, rest⟩

theorem Restorable.close
    (restorable : table.Restorable run filledQty reservations)
    (orderId : String) :
    table.Restorable run filledQty (reservations.erase orderId) := by
  refine ⟨restorable.settled, restorable.readable, restorable.single,
    restorable.filled, ?_⟩
  intro other reservation found
  rw [KeyedMap.lookup_erase_eq] at found
  split at found
  · cases found
  · exact restorable.reserved other reservation found

def addFill (filledQty : String → Decimal) (fill : FillEvent Decimal)
    (orderId : String) : Decimal :=
  if orderId = fill.orderId then
    filledQty orderId + fill.size
  else
    filledQty orderId

/-- A fill stays within the quantity of its order. -/
def FillFits (run : LiveRun S V) (table : IntentTable)
    (filledQty : String → Decimal) (fill : FillEvent Decimal) : Prop :=
  ∀ identity order, table.Orders run identity order →
    order.orderId = fill.orderId →
    0 ≤ filledQty order.orderId + fill.size ∧
      filledQty order.orderId + fill.size ≤ order.qty

theorem Restorable.fillOthers
    (restorable : table.Restorable run filledQty reservations)
    (fits : FillFits run table filledQty fill) :
    table.Restorable run (addFill filledQty fill)
      (reservations.erase fill.orderId) := by
  refine ⟨restorable.settled, restorable.readable, restorable.single, ?_, ?_⟩
  · intro identity order isOrder
    unfold addFill
    split
    · rename_i same
      exact fits identity order isOrder same
    · exact restorable.filled identity order isOrder
  · intro orderId reservation found
    rw [KeyedMap.lookup_erase_eq] at found
    split at found
    · cases found
    · rename_i other
      rw [addFill, if_neg other]
      exact restorable.reserved orderId reservation found

theorem Restorable.fillReserved
    (restorable : table.Restorable run filledQty reservations)
    (fits : FillFits run table filledQty fill)
    {reservation : Reservation}
    (found : reservations.lookup fill.orderId = some reservation)
    (left : reservation.remainingQty - fill.size ≠ 0) :
    table.Restorable run (addFill filledQty fill)
      (AList.insert fill.orderId { reservation with
          remainingQty := reservation.remainingQty - fill.size }
        reservations) := by
  have others := restorable.fillOthers fits
  refine ⟨others.settled, others.readable, others.single, others.filled, ?_⟩
  intro orderId kept isKept
  rw [KeyedMap.lookup_insert_eq] at isKept
  split at isKept
  · rename_i same
    obtain ⟨identity, order, isOrder, named, rfl, _⟩ :=
      restorable.reserved fill.orderId reservation found
    refine ⟨identity, order, isOrder, named.trans same.symm, ?_, ?_⟩
    · rw [addFill, if_pos same, same, ← Option.some.inj isKept]
      simp only [DurableOrder.reservation, sub_sub]
    · rw [addFill, if_pos same, same, ← sub_sub]
      exact left
  · rename_i ne
    apply others.reserved orderId kept
    rw [KeyedMap.lookup_erase_eq, if_neg ne]
    exact isKept

theorem Restorable.fillUnreserved
    (restorable : table.Restorable run filledQty reservations)
    (fits : FillFits run table filledQty fill)
    (unknown : reservations.lookup fill.orderId = none) :
    table.Restorable run (addFill filledQty fill) reservations := by
  have others := restorable.fillOthers fits
  refine ⟨others.settled, others.readable, others.single, others.filled, ?_⟩
  intro orderId kept isKept
  apply others.reserved orderId kept
  rw [KeyedMap.lookup_erase_eq, if_neg]
  · exact isKept
  · rintro rfl
    rw [unknown] at isKept
    cases isKept

end IntentTable

/-! ## What a run keeps restorable -/

/-- An admitted order that the venue has accepted under an id: it reads back,
it is an order of the market it was checked for, and its id is a new one. -/
structure Admission.Recovers {S V : Type} (run : LiveRun S V)
    (admission : Admission S V) (orderId : String) : Prop where
  readsBack : admission.order.ReadsBack run admission.evaluation.strategy
    orderId
  market : admission.evaluation.market = admission.order.market
  fresh : ∀ store, admission.before.store = some store →
    ∀ identity order, store.intents.Orders run identity order →
      order.orderId ≠ orderId
  unfilled : admission.before.risk.filledQty orderId = 0

def Admission.Recoverable {S V : Type} (run : LiveRun S V)
    (admission : Admission S V) : Prop :=
  ∀ orderId, admission.orderId = some orderId → admission.Recovers run orderId

namespace LiveState

variable {S V : Type}

def Restores (run : LiveRun S V) (state : LiveState S V) : Prop :=
  state.result = none → ∃ store, state.store = some store ∧
    store.intents.Restorable run state.risk.filledQty state.reservations

def broughtFill (run : LiveRun S V) :
    SourceEnvelope Decimal → Option (EventIdentity × FillEvent Decimal)
  | .pmAccount envelope =>
      match envelope.fact with
      | .fill identity fill => some (identity, fill)
      | _ => none
  | .pmMarket envelope =>
      match envelope.fact, run.fillAuthority with
      | .fill fill, .market => some (transportIdentity envelope.metadata, fill)
      | _, _ => none
  | .cexReference _ => none

/-- A fact after which a restart still can tell what is reserved: each order
that the venue accepts can be recovered, and a new fill fits its order. -/
structure Sound (run : LiveRun S V) (state : LiveState S V)
    (envelope : SourceEnvelope Decimal) : Prop where
  orders : ∀ admission ∈ state.admissions run envelope,
    admission.Recoverable run
  fills : ∀ identity fill, broughtFill run envelope = some (identity, fill) →
    identity ∉ state.risk.appliedFills →
    ∀ store, state.store = some store →
      IntentTable.FillFits run store.intents state.risk.filledQty fill

variable {run : LiveRun S V}

theorem Restores.same
    {before after : LiveState S V} (restores : before.Restores run)
    (intents : after.store.map LiveStore.intents =
      before.store.map LiveStore.intents)
    (filled : after.risk.filledQty = before.risk.filledQty)
    (reservations : after.reservations = before.reservations)
    (running : after.result = none → before.result = none) :
    after.Restores run := by
  intro going
  obtain ⟨store, found, restorable⟩ := restores (running going)
  rw [found] at intents
  obtain ⟨next, present, same⟩ := Option.map_eq_some_iff.mp intents
  refine ⟨next, present, ?_⟩
  rw [same, filled, reservations]
  exact restorable

variable {state : LiveState S V} {answered : Option String}
  {input : PipelineInput} {dailyPnl : Option Decimal}

theorem reconcileOpenOrders_restores (restores : state.Restores run) :
    (state.reconcileOpenOrders run).Restores run := by
  unfold reconcileOpenOrders
  simp only
  split
  · intro going
    cases going
  · exact restores.same rfl rfl rfl id

theorem recordDecision_restores
    (evaluation : Evaluation) (decision : DecisionKind)
    (restores : state.Restores run) :
    (state.recordDecision evaluation decision).Restores run := by
  unfold recordDecision
  split
  · exact restores
  · rename_i store found
    split
    · intro going
      cases going
    · exact restores.same (by rw [found]; rfl) rfl rfl id

theorem recordAnswer_lookup {pending : IntentTable} {intent : OrderIntent}
    {answer : Except VenueError String}
    (awaits : CausalRecorder.AwaitsAnswer pending intent)
    (recorded : recordedAnswer
      (CausalRecorder.recordAnswer pending intent answer none).2 =
        .ok answered) :
    ∃ row,
      (∀ other, (CausalRecorder.recordAnswer pending intent answer
          none).1.lookup other =
        if other = intent.identity then some row else pending.lookup other) ∧
      ((answered = none ∧ row.state = .rejected) ∨
        ∃ orderId, answered = some orderId ∧ row.state = .accepted ∧
          row.payload =
            intent.payload.set "venue_order_id" (string orderId)) := by
  have lookup : ∀ {outcome venueOrderId table},
      CausalRecorder.execute none (pending.transitionIntentWithOrder
        intent.identity outcome venueOrderId) = .ok table →
      ∀ other, table.lookup other =
        if other = intent.identity then
          some (IntentTable.transitioned
            { state := .pending, payload := intent.payload } outcome
            venueOrderId)
        else
          pending.lookup other := by
    intro outcome venueOrderId table written other
    obtain ⟨row, isRow, _, rfl⟩ :=
      IntentTable.transitionIntentWithOrder_eq_ok_iff.mp
        (CausalRecorder.execute_eq_ok_iff.mp written).2
    rw [awaits.2] at isRow
    cases isRow
    rw [KeyedMap.lookup_insert_eq]
  have refused : ∀ source,
      recordedAnswer
        (CausalRecorder.recordRejection pending intent source none).2 =
          .ok answered →
      answered = none ∧ ∀ other,
        (CausalRecorder.recordRejection pending intent source
          none).1.lookup other =
          if other = intent.identity then
            some (IntentTable.transitioned
              { state := .pending, payload := intent.payload } .rejected none)
          else
            pending.lookup other := by
    intro source isRecorded
    unfold CausalRecorder.recordRejection at isRecorded ⊢
    cases written : CausalRecorder.execute none
        (pending.transitionIntent intent.identity .rejected) with
    | error error =>
        rw [written] at isRecorded
        cases isRecorded
    | ok table =>
        rw [written] at isRecorded
        exact ⟨(Except.ok.inj isRecorded).symm, lookup written⟩
  cases answer with
  | ok orderId =>
      simp only [CausalRecorder.recordAnswer] at recorded ⊢
      cases written : CausalRecorder.execute none
          (pending.transitionIntentWithOrder intent.identity .accepted
            (some orderId)) with
      | error error =>
          rw [written] at recorded
          cases recorded
      | ok table =>
          rw [written] at recorded
          exact ⟨_, lookup written, Or.inr
            ⟨orderId, (Except.ok.inj recorded).symm, rfl, rfl⟩⟩
  | error source =>
      cases source with
      | rejected reason =>
          obtain ⟨none, rows⟩ := refused _ recorded
          exact ⟨_, rows, Or.inl ⟨none, rfl⟩⟩
      | notFound orderId =>
          obtain ⟨none, rows⟩ := refused _ recorded
          exact ⟨_, rows, Or.inl ⟨none, rfl⟩⟩
      | transport message => cases recorded

/-- A submission that ends well has added the row of its intent. -/
theorem placeOrder_adds {strategy : StrategyId} {request : IntentRequest}
    {next : LiveState S V} {store : LiveStore}
    (found : state.store = some store)
    (placed : state.placeOrder run strategy request = (next, .ok answered)) :
    ∃ after row, next.store = some after ∧
      store.intents.Adds after.intents
        (request.intent run.format.text).identity row ∧
      next.risk = state.risk ∧ next.reservations = state.reservations ∧
      next.result = state.result ∧
      ((answered = none ∧ row.state = .rejected) ∨
        ∃ orderId, answered = some orderId ∧ row.state = .accepted ∧
          row.payload = (request.intent run.format.text).payload.set
            "venue_order_id" (string orderId)) := by
  unfold placeOrder at placed
  rw [found] at placed
  simp only at placed
  cases stored : store.intents.storeIntentPending
      (request.intent run.format.text).identity
      (request.intent run.format.text).payload with
  | error source =>
      rw [stored] at placed
      cases placed
  | ok pending =>
      rw [stored] at placed
      obtain ⟨free, isPending⟩ :=
        IntentTable.storeIntentPending_eq_ok_iff.mp stored
      have awaits : CausalRecorder.AwaitsAnswer pending
          (request.intent run.format.text) := by
        refine ⟨⟨_, rfl⟩, ?_⟩
        rw [isPending, KeyedMap.lookup_insert_eq, if_pos rfl]
      simp only [submit, Prod.mk.injEq] at placed
      obtain ⟨rfl, answers⟩ := placed
      obtain ⟨row, rows, outcome⟩ := recordAnswer_lookup awaits answers
      refine ⟨_, row, rfl, ⟨free, ?_⟩, rfl, rfl, rfl, outcome⟩
      intro other
      rw [rows, isPending, KeyedMap.lookup_insert_eq]
      split
      · rfl
      · rfl

/-- An order that passed the gate keeps the run restorable when it can be
recovered. -/
theorem placeAccepted_restores {id : StrategyId}
    {registered : MarketId} {actionIndex : UInt32} {order : PlaceOrder}
    (restores : state.Restores run)
    (recovers : ∀ orderId,
      answeredId run (evaluationOf run input dailyPnl id registered)
        actionIndex order state = some orderId →
      order.ReadsBack run id orderId ∧
        (evaluationOf run input dailyPnl id registered).market = order.market ∧
        (∀ store, state.store = some store →
          ∀ identity stored, store.intents.Orders run identity stored →
            stored.orderId ≠ orderId) ∧ state.risk.filledQty orderId = 0) :
    (placeAccepted run (evaluationOf run input dailyPnl id registered)
      actionIndex order state).Restores run := by
  intro going
  unfold answeredId at recovers
  unfold placeAccepted at going ⊢
  cases placed : state.placeOrder run
      (evaluationOf run input dailyPnl id registered).strategy
      { decision := (evaluationOf run input dailyPnl id registered).identity
        actionIndex := actionIndex
        submittedMs :=
          (evaluationOf run input dailyPnl id registered).timestampMs
        order := order } with
  | mk next answer =>
      rw [placed] at going recovers
      cases answer with
      | error failure =>
          simp only at going
          split at going
          · rename_i stopped
            rw [going] at stopped
            cases stopped
          · cases going
      | ok answered =>
          have running : next.result = none := by
            cases answered with
            | none => exact going
            | some orderId => exact going
          have before : state.result = none := by
            cases found : state.store with
            | none =>
                unfold placeOrder at placed
                rw [found] at placed
                simp only [submit, Prod.mk.injEq] at placed
                rw [← placed.1] at running
                exact running
            | some store =>
                obtain ⟨_, _, _, _, _, _, result, _⟩ :=
                  placeOrder_adds found placed
                rw [← result]
                exact running
          obtain ⟨store, found, restorable⟩ := restores before
          obtain ⟨after, row, present, adds, risk, reservations, _, outcome⟩ :=
            placeOrder_adds found placed
          rcases outcome with ⟨rfl, refused⟩ | ⟨orderId, rfl, accepted, payload⟩
          · refine ⟨after, present, ?_⟩
            rw [risk, reservations]
            exact restorable.refuse adds refused
          · obtain ⟨readsBack, market, fresh, unfilled⟩ := recovers orderId rfl
            have read := @durableOrder_accepted _ _ run id
              { decision :=
                  (evaluationOf run input dailyPnl id registered).identity
                actionIndex := actionIndex
                submittedMs :=
                  (evaluationOf run input dailyPnl id registered).timestampMs
                order := order } orderId readsBack
              (startsWith_event _ _ _ _ _ _ _)
            rw [← payload] at read
            refine ⟨after, present, ?_⟩
            have accepts := restorable.accept adds rfl accepted read
              (fresh store found) unfilled readsBack.qty
            simp only [reserve, risk, reservations, market]
            rw [DurableOrder.reservation, sub_zero] at accepts
            exact accepts

theorem placeAction_restores
    {registration : StrategyRegistration S} {strategy : StrategyInstance S}
    (actionIndex : UInt32) (order : PlaceOrder)
    (restores : state.Restores run)
    (all : ∀ admission ∈ state.placeAdmission run registration
      (evaluationOf run input dailyPnl strategy.id strategy.market)
      actionIndex order, admission.Recoverable run) :
    (state.placeAction run
      (evaluationOf run input dailyPnl strategy.id strategy.market)
      actionIndex order).1.Restores run := by
  have refreshed : (state.refreshCapacity run).Restores run :=
    @refreshCapacity_keeps _ _ run (fun state => state.Restores run)
      (fun _ holds => reconcileOpenOrders_restores holds) state restores
  unfold placeAdmission at all
  unfold placeAction at all ⊢
  simp only at all ⊢
  split
  · exact refreshed
  · split
    · exact refreshed
    · split
      · exact refreshed
      · split
        · exact refreshed.same rfl rfl rfl id
        · rename_i going room gate _ next counted
          rw [if_neg going, if_neg room, if_neg gate, counted] at all
          have recoverable := all _ (List.mem_singleton.mpr rfl)
          have counts : LiveState.Restores run
              { state.refreshCapacity run with rates := next } :=
            refreshed.same rfl rfl rfl id
          refine placeAccepted_restores counts ?_
          intro orderId answered
          rw [answeredId_rates] at answered
          have recovers := recoverable orderId answered
          exact ⟨recovers.readsBack, recovers.market, recovers.fresh,
            recovers.unfilled⟩

/-! ## Every fact -/

/-- A pass through the pipeline, of which every accepted order can be
recovered. -/
theorem dispatch_restores (restores : state.Restores run)
    (enough : state.strategies.length ≤ run.strategies.length)
    (all : ∀ admission ∈ state.dispatchAdmissions run input dailyPnl
      run.strategies state.strategies, admission.Recoverable run) :
    (state.dispatch run input dailyPnl).Restores run := by
  have dispatched := dispatchInstances_admitting
    (fun evaluation decision _ holds =>
      recordDecision_restores evaluation decision holds)
    (fun _ _ actionIndex order _ holds good =>
      placeAction_restores actionIndex order holds good)
    enough restores all
  exact dispatched.same rfl rfl rfl id

theorem recordBreach_restores (restores : state.Restores run) :
    (state.recordBreach run).Restores run := by
  unfold recordBreach
  split
  · exact restores
  · rename_i store found
    split
    · exact restores.same (by rw [found]; rfl) rfl rfl id
    · exact restores

theorem storeFact_restores (envelope : SourceEnvelope Decimal)
    (restores : state.Restores run) :
    (state.storeFact run envelope).Restores run := by
  unfold storeFact
  split
  · exact restores
  · rename_i store found
    split
    · intro going
      cases going
    · exact restores.same (by rw [found]; rfl) rfl rfl id

/-- An order that is no longer open. -/
theorem close_restores (orderId : String) (restores : state.Restores run) :
    (state.close orderId).Restores run := by
  intro going
  obtain ⟨store, found, restorable⟩ := restores going
  exact ⟨store, found, restorable.close orderId⟩

theorem applyReservationFill_restores
    {fill : FillEvent Decimal} {risk : LiveRiskState}
    (restores : state.Restores run)
    (filled : risk.filledQty = IntentTable.addFill state.risk.filledQty fill)
    (fits : ∀ store, state.store = some store →
      IntentTable.FillFits run store.intents state.risk.filledQty fill) :
    (applyReservationFill fill { state with risk := risk }).Restores run := by
  unfold applyReservationFill
  simp only
  split
  · rename_i unknown
    intro going
    obtain ⟨store, found, restorable⟩ := restores going
    refine ⟨store, found, ?_⟩
    simp only [filled]
    exact restorable.fillUnreserved (fits store found) unknown
  · rename_i reservation known
    split
    · intro going
      cases going
    · split
      · intro going
        obtain ⟨store, found, restorable⟩ := restores going
        refine ⟨store, found, ?_⟩
        simp only [filled]
        exact restorable.fillOthers (fits store found)
      · rename_i left
        intro going
        obtain ⟨store, found, restorable⟩ := restores going
        refine ⟨store, found, ?_⟩
        simp only [filled]
        exact restorable.fillReserved (fits store found) known left

end LiveState

namespace LiveRiskState

variable {identity : EventIdentity}

theorem applyFill_filledQty
    (order : IterationOrder MarketId) (limits : RiskLimits)
    {state : LiveRiskState}
    (isNew : identity ∉ state.appliedFills) (fill : FillEvent Decimal) :
    (state.applyFill order limits identity fill).1.filledQty =
      IntentTable.addFill state.filledQty fill := by
  funext orderId
  rw [applyFill, if_neg isNew]
  simp only [filledQty, refreshMarks, addAt, KeyedMap.lookup_insert_eq,
    IntentTable.addFill]
  split
  · rename_i same
    rw [same, Option.getD_some]
  · rfl

theorem applySettlement_filledQty
    {order : IterationOrder MarketId} {limits : RiskLimits}
    {state next : LiveRiskState}
    {market : MarketId} {outcome : Outcome} {settledSize proceeds : Decimal}
    (applied : state.applySettlement order limits identity market outcome
      settledSize proceeds = .ok next) :
    next.filledQty = state.filledQty := by
  unfold applySettlement at applied
  split at applied
  · cases applied
    rfl
  · split at applied
    · cases applied
    · simp only at applied
      split at applied
      · cases applied
      · split at applied
        · cases applied
        · cases applied
          rfl

end LiveRiskState

namespace LiveState

variable {S V : Type} {run : LiveRun S V}

/-- A fill of any source: one that was seen before changes nothing. -/
theorem takeFill_restores {identity : EventIdentity} {fill : FillEvent Decimal}
    {state : LiveState S V} (restores : state.Restores run)
    (fits : identity ∉ state.risk.appliedFills →
      ∀ store, state.store = some store →
        IntentTable.FillFits run store.intents state.risk.filledQty fill)
    {risk : LiveRiskState} {isNew : Bool}
    (applied : state.risk.applyFill run.markets run.risk identity fill =
      (risk, isNew)) :
    (if isNew then
      applyReservationFill fill { state with risk := risk }
    else
      { state with risk := risk }).Restores run := by
  by_cases seen : identity ∈ state.risk.appliedFills
  · rw [LiveRiskState.applyFill, if_pos seen] at applied
    cases applied
    exact restores
  · have filled := LiveRiskState.applyFill_filledQty run.markets run.risk seen
      fill
    rw [applied] at filled
    have counted : isNew = true := by
      rw [LiveRiskState.applyFill, if_neg seen] at applied
      exact (congrArg Prod.snd applied).symm
    rw [if_pos counted]
    exact applyReservationFill_restores restores filled (fits seen)

variable {state : LiveState S V} {envelope : SourceEnvelope Decimal}

theorem accountEvent_restores {fact : PmAccountEvent Decimal}
    (restores : state.Restores run)
    (fits : ∀ identity fill, fact = .fill identity fill →
      identity ∉ state.risk.appliedFills → ∀ store, state.store = some store →
        IntentTable.FillFits run store.intents state.risk.filledQty fill) :
    (state.accountEvent run fact).Restores run := by
  unfold accountEvent
  cases applied : state.risk.applyAccountEvent run.markets run.risk fact with
  | error source =>
      intro going
      cases going
  | ok pair =>
      obtain ⟨risk, isNew⟩ := pair
      simp only
      cases fact with
      | fill identity fill =>
          exact takeFill_restores restores (fits identity fill rfl)
            (Except.ok.inj applied)
      | orderCancelled strategy orderId timestampMs =>
          cases applied
          exact close_restores orderId restores
      | orderRejected strategy orderId reason timestampMs =>
          cases applied
          exact close_restores orderId restores
      | orderAck strategy orderId timestampMs =>
          cases applied
          exact restores
      | orderStatus strategy orderId status timestampMs =>
          cases applied
          exact restores
      | settlement identity market outcome settledSize proceeds timestampMs =>
          cases settled : state.risk.applySettlement run.markets run.risk
              identity market outcome settledSize proceeds with
          | error source =>
              rw [LiveRiskState.applyAccountEvent, settled] at applied
              cases applied
          | ok next =>
              rw [LiveRiskState.applyAccountEvent, settled] at applied
              cases applied
              exact restores.same rfl
                (LiveRiskState.applySettlement_filledQty settled) rfl id

theorem processEvent_restores
    (restores : state.Restores run) (registered : state.Registered run)
    (orders : ∀ input dailyPnl next,
      pipelineOf run envelope state = some (input, dailyPnl, next) →
      ∀ admission ∈ next.dispatchAdmissions run input dailyPnl run.strategies
        next.strategies, admission.Recoverable run)
    (fits : ∀ identity fill, broughtFill run envelope = some (identity, fill) →
      identity ∉ state.risk.appliedFills → ∀ store, state.store = some store →
        IntentTable.FillFits run store.intents state.risk.filledQty fill) :
    (state.processEvent run envelope).Restores run := by
  cases reached : pipelineOf run envelope state with
  | some pipeline =>
      obtain ⟨input, dailyPnl, next⟩ := pipeline
      have enough : next.strategies.length ≤ run.strategies.length := by
        have length := registered.length_le
        rw [List.length_map, List.length_map] at length
        rw [pipelineOf_strategies reached]
        exact length
      have before : next.Restores run := by
        rcases pipelineOf_state reached with rfl | ⟨_, _, _, rfl⟩
        · exact restores
        · exact recordBreach_restores (restores.same rfl rfl rfl id)
      rw [processEvent_pipeline reached]
      exact dispatch_restores before enough
        (orders input dailyPnl next reached)
  | none =>
      cases envelope with
      | cexReference reference => cases reached
      | pmAccount account =>
          apply accountEvent_restores restores
          intro identity fill isFill
          apply fits identity fill
          rw [broughtFill, isFill]
      | pmMarket market =>
          obtain ⟨metadata, rawFrame, fact⟩ := market
          cases fact with
          | bookUpdate market outcome bids asks timestampMs => cases reached
          | fill fill =>
              simp only [processEvent, marketEvent]
              cases authority : run.fillAuthority with
              | account => exact restores
              | market =>
                  refine @takeFill_restores _ _ run
                    (transportIdentity metadata) fill state restores ?_ _ _ rfl
                  apply fits
                  simp only [broughtFill, authority]
          | bestBidAsk market outcome bid ask timestampMs => exact restores
          | lastTrade market outcome price side size timestampMs =>
              exact restores
          | orderAck strategy orderId timestampMs => exact restores
          | tick timestampMs => exact restores

/-- What one sound fact keeps. -/
theorem step_restores
    (restores : state.Restores run) (registered : state.Registered run)
    (sound : state.Sound run envelope) :
    (state.step run envelope).Restores run := by
  intro going
  have takes := takes_of_running going
  have stored := storeFact_restores envelope restores
  rw [step_of_takes takes] at going ⊢
  refine processEvent_restores stored ?_ ?_ ?_ going
  · rw [Registered, storeFact_strategies]
    exact registered
  · intro input dailyPnl next reached admission mem
    apply sound.orders
    rw [admissions, if_pos takes, reached]
    exact mem
  · intro identity fill brought isNew store found
    rw [storeFact_risk takes.2.2] at isNew ⊢
    rcases storeFact_eq takes.2.2 with ⟨_, same⟩ | ⟨before, _, was, _, same⟩
    · rw [same] at found
      exact sound.fills identity fill brought isNew store found
    · rw [same] at found
      cases found
      exact sound.fills identity fill brought isNew before was

end LiveState

end Pmkit
