import Pmkit.Live.Recovery

/-!
# What recovery makes of accepted intents

Recovery goes through the accepted intents, asks the venue for the status of
each order, and reserves what is left of the orders that are open.  A loop that
ends well has read every intent, each for an order of its own; a venue that
tells the truth about orders that can be read lets the loop end well.
-/

namespace Pmkit

open Fallible

theorem IntentTable.mem_readByState
    {table : IntentTable} {scope : OwnerScope} {state : IntentState}
    {intent : OrderIntent} :
    intent ∈ table.readByState scope state ↔
      intent.identity.scope = scope ∧ table.lookup intent.identity =
        some { state := state, payload := intent.payload } := by
  unfold readByState
  rw [Table.mem_orderBy, List.mem_map]
  constructor
  · rintro ⟨⟨identity, row⟩, mem, rfl⟩
    obtain ⟨stored, isAt⟩ := List.mem_filter.mp mem
    obtain ⟨own, rfl⟩ : identity.scope = scope ∧ row.state = state := by
      simpa using isAt
    exact ⟨own, KeyedMap.lookup_iff_mem_entries.mpr stored⟩
  · rintro ⟨own, found⟩
    refine ⟨⟨intent.identity, { state := state, payload := intent.payload }⟩,
      List.mem_filter.mpr ⟨KeyedMap.lookup_iff_mem_entries.mp found, ?_⟩, rfl⟩
    simpa using own

theorem IntentTable.readByState_pairwise
    (table : IntentTable) (scope : OwnerScope) (state : IntentState) :
    (table.readByState scope state).Pairwise fun left right =>
      left.identity ≠ right.identity := by
  unfold readByState
  refine ((Table.orderBy_perm _ _).pairwise_iff (fun ne => Ne.symm ne)).mpr ?_
  rw [List.pairwise_map]
  apply List.Pairwise.filter
  exact List.pairwise_map.mp table.nodupKeys

/-! ## The status of an order -/

def DurableOrder.reservation (order : DurableOrder) (filled : Decimal) :
    Reservation where
  strategy := order.strategy
  market := order.market
  price := order.price
  remainingQty := order.qty - filled

/-- A status that says of an order whether it is open, and what is filled of
it.  An order that was matched is filled whole. -/
def OrderStatus.IsTrue (isOpen : Prop) (filled qty : Decimal) :
    OrderStatus → Prop
  | opened details => isOpen ∧ details.filledQty = some filled
  | accepted details =>
      ¬ isOpen ∧ filled = qty ∧ details.filledQty = some filled
  | rejected details => ¬ isOpen ∧ details.filledQty = some filled
  | cancelled details => ¬ isOpen ∧ details.filledQty = some filled
  | unknown _ => False

theorem applyStatusFill_eq_ok_iff
    {order : DurableOrder} {details : OrderStatusDetails}
    {risk : LiveRiskState} {filled : Decimal} :
    applyStatusFill order details risk = .ok filled ↔
      details.filledQty = some filled ∧
        risk.filledQty order.orderId = filled ∧
        0 ≤ filled ∧ filled ≤ order.qty := by
  unfold applyStatusFill
  cases reported : details.filledQty with
  | none =>
      constructor
      · intro no
        cases no
      · rintro ⟨no, _⟩
        cases no
  | some filledQty =>
      simp only
      split
      · rename_i outside
        constructor
        · intro no
          cases no
        · rintro ⟨same, _, atLeast, atMost⟩
          cases same
          rcases outside with below | above
          · exact absurd atLeast (not_le.mpr below)
          · exact absurd atMost (not_le.mpr above)
      · rename_i inside
        obtain ⟨atLeast, atMost⟩ := not_or.mp inside
        split
        · rename_i differs
          constructor
          · intro no
            cases no
          · rintro ⟨same, counted, _⟩
            cases same
            exact absurd counted differs
        · rename_i counted
          constructor
          · intro same
            cases same
            exact ⟨rfl, not_not.mp counted, not_lt.mp atLeast, not_lt.mp atMost⟩
          · rintro ⟨same, _⟩
            cases same
            rfl

def OrderIntent.Apart {S V : Type} (run : LiveRun S V)
    (left right : OrderIntent) : Prop :=
  ∀ leftOrder rightOrder, durableOrder run left = .ok leftOrder →
    durableOrder run right = .ok rightOrder →
    leftOrder.orderId ≠ rightOrder.orderId

instance {S V : Type} (run : LiveRun S V) : Std.Symm (OrderIntent.Apart run) where
  symm := fun _ _ apart one other isOne isOther =>
    (apart other one isOther isOne).symm

section Recovering

variable {S V : Type} {run : LiveRun S V}
  {queryStatus : String → Except VenueError OrderStatus}
  {risk : LiveRiskState} {before recovered : RecoveredOrders}

/-- What one recovered order changes: it is seen, and reserved when there is
something left of it. -/
structure RecoveredOrders.Takes (risk : LiveRiskState)
    (before next : RecoveredOrders) (order : DurableOrder) : Prop where
  seen : next.seen = insert order.orderId before.seen
  filled : 0 ≤ risk.filledQty order.orderId ∧
    risk.filledQty order.orderId ≤ order.qty
  orders : (next.reservations = before.reservations ∧
      next.openOrders = before.openOrders) ∨
    order.qty - risk.filledQty order.orderId ≠ 0 ∧
      next.reservations = AList.insert order.orderId
        (order.reservation (risk.filledQty order.orderId))
          before.reservations ∧
      next.openOrders = insert order.orderId before.openOrders

variable {next : RecoveredOrders}

theorem recoverStatus_takes {order : DurableOrder} {status : OrderStatus}
    (recovers : recoverStatus risk
      { before with seen := insert order.orderId before.seen } order status =
        .ok next) :
    before.Takes risk next order := by
  cases status with
  | opened details =>
      obtain ⟨filledQty, filled, rest⟩ := bind_eq_ok.mp recovers
      obtain ⟨_, rfl, bounds⟩ := applyStatusFill_eq_ok_iff.mp filled
      split at rest
      · cases rest
      · rename_i left
        cases rest
        exact ⟨rfl, bounds, Or.inr ⟨left, rfl, rfl⟩⟩
  | accepted details =>
      obtain ⟨filledQty, filled, rest⟩ := bind_eq_ok.mp recovers
      obtain ⟨_, rfl, bounds⟩ := applyStatusFill_eq_ok_iff.mp filled
      split at rest
      · cases rest
      · cases rest
        exact ⟨rfl, bounds, Or.inl ⟨rfl, rfl⟩⟩
  | rejected details =>
      obtain ⟨filledQty, filled, rest⟩ := bind_eq_ok.mp recovers
      obtain ⟨_, rfl, bounds⟩ := applyStatusFill_eq_ok_iff.mp filled
      cases rest
      exact ⟨rfl, bounds, Or.inl ⟨rfl, rfl⟩⟩
  | cancelled details =>
      obtain ⟨filledQty, filled, rest⟩ := bind_eq_ok.mp recovers
      obtain ⟨_, rfl, bounds⟩ := applyStatusFill_eq_ok_iff.mp filled
      cases rest
      exact ⟨rfl, bounds, Or.inl ⟨rfl, rfl⟩⟩
  | unknown details => cases recovers

theorem recoverOrder_takes {intent : OrderIntent}
    (recovers : recoverOrder run queryStatus risk before intent = .ok next) :
    ∃ order, durableOrder run intent = .ok order ∧
      order.orderId ∉ before.seen ∧ before.Takes risk next order := by
  unfold recoverOrder at recovers
  split at recovers
  · cases recovers
  · rename_i order read
    split at recovers
    · cases recovers
    · rename_i unseen
      split at recovers
      · cases recovers
      · exact ⟨order, read, unseen, recoverStatus_takes recovers⟩

/-- A loop that ends well has read each intent, each for an order of its own,
and reserves what is left of some of them. -/
theorem recoverOrders_reads {intents : List OrderIntent}
    (all : intents.foldlM (recoverOrder run queryStatus risk) before =
      .ok recovered) :
    (∀ intent ∈ intents, ∃ order, durableOrder run intent = .ok order ∧
      order.orderId ∉ before.seen ∧ 0 ≤ risk.filledQty order.orderId ∧
      risk.filledQty order.orderId ≤ order.qty) ∧
    intents.Pairwise (OrderIntent.Apart run) ∧
    ∀ orderId reservation,
      recovered.reservations.lookup orderId = some reservation →
      before.reservations.lookup orderId = some reservation ∨
        ∃ intent ∈ intents, ∃ order, durableOrder run intent = .ok order ∧
          order.orderId = orderId ∧
          reservation = order.reservation (risk.filledQty orderId) ∧
          order.qty - risk.filledQty orderId ≠ 0 := by
  induction intents generalizing before with
  | nil =>
      cases all
      refine ⟨fun intent mem => absurd mem List.not_mem_nil,
        List.Pairwise.nil, ?_⟩
      intro orderId reservation found
      exact .inl found
  | cons intent rest ih =>
      rw [List.foldlM_cons] at all
      obtain ⟨next, one, others⟩ := bind_eq_ok.mp all
      obtain ⟨order, read, unseen, takes⟩ := recoverOrder_takes one
      obtain ⟨later, distinct, reserved⟩ := ih others
      refine ⟨?_, List.pairwise_cons.mpr ⟨?_, distinct⟩, ?_⟩
      · intro other mem
        rcases List.mem_cons.mp mem with rfl | inside
        · exact ⟨order, read, unseen, takes.filled⟩
        · obtain ⟨stored, isStored, fresh, bounds⟩ := later other inside
          refine ⟨stored, isStored, ?_, bounds⟩
          rw [takes.seen] at fresh
          exact fun seen => fresh (Finset.mem_insert_of_mem seen)
      · intro other inside leftOrder rightOrder isLeft isRight same
        obtain ⟨stored, isStored, fresh, _⟩ := later other inside
        rw [read] at isLeft
        rw [isStored] at isRight
        cases isLeft
        cases isRight
        rw [takes.seen, ← same] at fresh
        exact fresh (Finset.mem_insert_self _ _)
      · intro orderId reservation found
        rcases reserved orderId reservation found with now | ⟨other, inside, rest⟩
        · rcases takes.orders with ⟨same, _⟩ | ⟨left, same, _⟩
          · rw [same] at now
            exact .inl now
          · rw [same, KeyedMap.lookup_insert_eq] at now
            split at now
            · rename_i isOrder
              refine Or.inr ⟨intent, List.mem_cons_self, order, read,
                isOrder.symm, ?_, ?_⟩
              · rw [isOrder]
                exact (Option.some.inj now).symm
              · rw [isOrder]
                exact left
            · exact .inl now
        · exact .inr ⟨other, List.mem_cons_of_mem intent inside, rest⟩

/-- An intent that recovery takes: it can be read, the venue tells the truth
about its order, and what is filled of the order fits. -/
def OrderIntent.Recoverable (run : LiveRun S V)
    (queryStatus : String → Except VenueError OrderStatus)
    (risk : LiveRiskState) (isOpen : String → Prop) (intent : OrderIntent) :
    Prop :=
  ∃ order status, durableOrder run intent = .ok order ∧
    queryStatus order.orderId = .ok status ∧
    status.IsTrue (isOpen order.orderId) (risk.filledQty order.orderId)
      order.qty ∧
    (0 ≤ risk.filledQty order.orderId ∧
      risk.filledQty order.orderId ≤ order.qty) ∧
    (isOpen order.orderId → order.qty - risk.filledQty order.orderId ≠ 0)

theorem recoverStatus_of_true
    {isOpen : Prop} {order : DurableOrder} {status : OrderStatus}
    (isTrue : status.IsTrue isOpen (risk.filledQty order.orderId) order.qty)
    (bounds : 0 ≤ risk.filledQty order.orderId ∧
      risk.filledQty order.orderId ≤ order.qty)
    (left : isOpen → order.qty - risk.filledQty order.orderId ≠ 0) :
    ∃ next, recoverStatus risk before order status = .ok next ∧
      next.seen = before.seen ∧
      (isOpen → next.reservations = AList.insert order.orderId
        (order.reservation (risk.filledQty order.orderId))
          before.reservations) ∧
      (¬ isOpen → next.reservations = before.reservations) := by
  have counted : ∀ {details : OrderStatusDetails},
      details.filledQty = some (risk.filledQty order.orderId) →
      applyStatusFill order details risk =
        .ok (risk.filledQty order.orderId) :=
    fun reported => applyStatusFill_eq_ok_iff.mpr ⟨reported, rfl, bounds⟩
  cases status with
  | opened details =>
      obtain ⟨opened, reported⟩ := isTrue
      refine ⟨{ before with
        openOrders := insert order.orderId before.openOrders
        reservations := AList.insert order.orderId
          (order.reservation (risk.filledQty order.orderId))
            before.reservations }, ?_, rfl, fun _ => rfl,
        fun closed => absurd opened closed⟩
      simp only [recoverStatus, counted reported, bind, Except.bind]
      rw [if_neg (left opened)]
      rfl
  | accepted details =>
      obtain ⟨closed, whole, reported⟩ := isTrue
      refine ⟨before, ?_, rfl, fun opened => absurd opened closed,
        fun _ => rfl⟩
      simp only [recoverStatus, counted reported, bind, Except.bind]
      rw [if_neg (not_not.mpr whole)]
      rfl
  | rejected details =>
      obtain ⟨closed, reported⟩ := isTrue
      refine ⟨before, ?_, rfl, fun opened => absurd opened closed,
        fun _ => rfl⟩
      simp only [recoverStatus, counted reported, bind, Except.bind]
      rfl
  | cancelled details =>
      obtain ⟨closed, reported⟩ := isTrue
      refine ⟨before, ?_, rfl, fun opened => absurd opened closed,
        fun _ => rfl⟩
      simp only [recoverStatus, counted reported, bind, Except.bind]
      rfl
  | unknown details => exact isTrue.elim

/-- A venue that tells the truth lets recovery reserve just what is left of the
orders that are open. -/
theorem recoverOrders_of_true
    {isOpen : String → Prop} {intents : List OrderIntent}
    (each : ∀ intent ∈ intents, intent.Recoverable run queryStatus risk isOpen)
    (distinct : intents.Pairwise (OrderIntent.Apart run))
    (unseen : ∀ intent ∈ intents, ∀ order,
      durableOrder run intent = .ok order → order.orderId ∉ before.seen) :
    ∃ recovered,
      intents.foldlM (recoverOrder run queryStatus risk) before =
        .ok recovered ∧
      (∀ intent ∈ intents, ∀ order, durableOrder run intent = .ok order →
        isOpen order.orderId → recovered.reservations.lookup order.orderId =
          some (order.reservation (risk.filledQty order.orderId))) ∧
      ∀ orderId,
        (∀ intent ∈ intents, ∀ order, durableOrder run intent = .ok order →
          order.orderId = orderId → ¬ isOpen orderId) →
        recovered.reservations.lookup orderId =
          before.reservations.lookup orderId := by
  induction intents generalizing before with
  | nil =>
      exact ⟨before, rfl, fun intent mem => absurd mem List.not_mem_nil,
        fun _ _ => rfl⟩
  | cons intent rest ih =>
      obtain ⟨order, status, read, answered, isTrue, bounds, left⟩ :=
        each intent List.mem_cons_self
      obtain ⟨apart, distinct⟩ := List.pairwise_cons.mp distinct
      obtain ⟨next, recovers, seen, opened, closed⟩ :=
        @recoverStatus_of_true risk
          { before with seen := insert order.orderId before.seen } _ _ _
          isTrue bounds left
      have one : recoverOrder run queryStatus risk before intent =
          .ok next := by
        unfold recoverOrder
        rw [read]
        simp only
        rw [if_neg (unseen intent List.mem_cons_self order read), answered]
        exact recovers
      obtain ⟨recovered, all, reserved, others⟩ := ih
        (fun other inside => each other (List.mem_cons_of_mem intent inside))
        distinct (by
          intro other inside stored isStored
          rw [seen, Finset.mem_insert, not_or]
          exact ⟨(apart other inside order stored read isStored).symm,
            unseen other (List.mem_cons_of_mem intent inside) stored
              isStored⟩)
      refine ⟨recovered, ?_, ?_, ?_⟩
      · rw [List.foldlM_cons, one]
        exact all
      · intro other mem stored isStored isNow
        rcases List.mem_cons.mp mem with rfl | inside
        · rw [read] at isStored
          cases isStored
          rw [others order.orderId, opened isNow, KeyedMap.lookup_insert_eq,
            if_pos rfl]
          intro later inside stored isStored same
          exact absurd same.symm
            (apart later inside order stored read isStored)
        · exact reserved other inside stored isStored isNow
      · intro orderId none
        rw [others orderId fun later inside =>
          none later (List.mem_cons_of_mem intent inside)]
        by_cases isNow : isOpen order.orderId
        · rw [opened isNow, KeyedMap.lookup_insert_eq, if_neg]
          rintro rfl
          exact none intent List.mem_cons_self order read rfl isNow
        · rw [closed isNow]

end Recovering

end Pmkit
