import Pmkit.Live.Reservations
import Pmkit.Live.Restorable

/-!
# The open orders of a restart

A start that went well leaves a store from which the next start can tell what
is reserved, and a run keeps it so while its orders read back and their fills
fit.  Then a venue that tells the truth gives a restart the open orders and the
reservations that the run has stopped with.
-/

namespace Pmkit

/-! ## Intents that a start settles -/

namespace LiveState

variable {S V : Type} {run : LiveRun S V}

/-- What settling some intents does to the table: each of them is settled, and
every row that is left open is one that was there. -/
structure Settles (intents : List OrderIntent) (before after : IntentTable) :
    Prop where
  settled : ∀ intent ∈ intents, ∀ row,
    after.lookup intent.identity = some row → row.state.isOpen = false
  kept : ∀ identity row, after.lookup identity = some row →
    row.state.isOpen = true → before.lookup identity = some row

theorem recoveredOutcome_settles
    {queryStatus : String → Except VenueError OrderStatus}
    {intent : OrderIntent} {outcome : IntentOutcome}
    (found : CausalRecorder.recoveredOutcome queryStatus intent = .ok outcome) :
    outcome.asSql.isOpen = false := by
  unfold CausalRecorder.recoveredOutcome at found
  split at found
  · cases found
  · split at found
    · cases found
    · rename_i status _
      cases status with
      | opened details =>
          cases found
          rfl
      | accepted details =>
          cases found
          rfl
      | rejected details =>
          cases found
          rfl
      | cancelled details =>
          cases found
          rfl
      | unknown details => cases found

theorem recoverIntents_one
    {queryStatus : String → Except VenueError OrderStatus}
    {intent : OrderIntent} {table next : IntentTable}
    (settles : CausalRecorder.recoverIntents queryStatus [intent] table =
      (next, .ok ())) :
    ∃ row : IntentRow, row.state.isOpen = false ∧
      next = table.insert intent.identity row := by
  rw [CausalRecorder.recoverIntents] at settles
  cases asked : CausalRecorder.recoveredOutcome queryStatus intent with
  | error error =>
      rw [asked] at settles
      cases settles
  | ok outcome =>
      rw [asked] at settles
      simp only [CausalRecorder.reconcile] at settles
      cases written : CausalRecorder.execute none
          (table.transitionIntent intent.identity outcome) with
      | error error =>
          rw [written] at settles
          cases settles
      | ok settled =>
          rw [written] at settles
          cases settles
          obtain ⟨row, _, _, same⟩ :=
            IntentTable.transitionIntentWithOrder_eq_ok_iff.mp
              (CausalRecorder.execute_eq_ok_iff.mp written).2
          exact ⟨_, recoveredOutcome_settles asked, same⟩

theorem recoverIntents_settles
    {intents : List OrderIntent} {store : LiveStore} {state : LiveState S V}
    (found : state.store = some store)
    (recovered : (recoverIntents run store intents state).result = none) :
    ∃ last, (recoverIntents run store intents state).store = some last ∧
      Settles intents store.intents last.intents := by
  induction intents generalizing store state with
  | nil =>
      exact ⟨store, found, fun intent mem => absurd mem List.not_mem_nil,
        fun _ _ row _ => row⟩
  | cons intent rest ih =>
      rw [recoverIntents] at recovered ⊢
      split at recovered
      · cases recovered
      · cases recovered
      · rename_i table settles
        obtain ⟨row, closed, rfl⟩ := recoverIntents_one settles
        obtain ⟨last, present, settled, kept⟩ := @ih
          { store with intents := store.intents.insert intent.identity row } _
          rfl recovered
        refine ⟨last, present, ?_, ?_⟩
        · intro other mem stored isStored
          rcases List.mem_cons.mp mem with rfl | inside
          · by_contra isOpen
            have before := kept _ _ isStored (by simpa using isOpen)
            simp only at before
            rw [KeyedMap.lookup_insert_eq, if_pos rfl] at before
            cases before
            exact isOpen closed
          · exact settled other inside stored isStored
        · intro identity stored isStored isOpen
          have before := kept identity stored isStored isOpen
          simp only at before
          rw [KeyedMap.lookup_insert_eq] at before
          split at before
          · cases before
            rw [closed] at isOpen
            cases isOpen
          · exact before

theorem Settles.scope {before after : IntentTable} {scope : OwnerScope}
    (settles : Settles (before.readByState scope .pending ++
      before.readByState scope .unknown) before after)
    {identity : CausalIdentity} {row : IntentRow}
    (found : after.lookup identity = some row)
    (own : identity.scope = scope) : row.state.isOpen = false := by
  by_contra isOpen
  have stored := settles.kept identity row found (by simpa using isOpen)
  obtain ⟨state, payload⟩ := row
  have listed : ({ identity := identity, payload := payload } : OrderIntent) ∈
      before.readByState scope .pending ++
        before.readByState scope .unknown := by
    cases state with
    | pending =>
        exact List.mem_append_left _
          (IntentTable.mem_readByState.mpr ⟨own, stored⟩)
    | unknown =>
        exact List.mem_append_right _
          (IntentTable.mem_readByState.mpr ⟨own, stored⟩)
    | accepted => exact absurd rfl isOpen
    | rejected => exact absurd rfl isOpen
  exact isOpen (settles.settled _ listed _ found)

/-- The last part of a start: it has read every accepted intent. -/
theorem recoverOrders_restores {state : LiveState S V} {store : LiveStore}
    (found : state.store = some store)
    (settled : ∀ identity row, store.intents.lookup identity = some row →
      identity.scope = run.scope → row.state.isOpen = false) :
    (state.recoverOrders run).Restores run := by
  intro going
  unfold recoverOrders at going ⊢
  rw [found] at going ⊢
  simp only at going ⊢
  cases recovers : reconstructAcceptedOrders run
      (run.executor.queryStatus state.venue) state.risk
      (store.intents.readByState run.scope .accepted) with
  | error error =>
      rw [recovers] at going
      cases going
  | ok recovered =>
      rw [recovers] at going
      simp only at going ⊢
      split at going
      · cases going
      · rename_i same
        rw [if_neg same]
        obtain ⟨reads, distinct, reserved⟩ := recoverOrders_reads recovers
        have listed : ∀ {identity order},
            store.intents.Orders run identity order →
            ∃ intent ∈ store.intents.readByState run.scope .accepted,
              intent.identity = identity ∧
                durableOrder run intent = .ok order := by
          rintro identity order ⟨⟨rowState, payload⟩, stored, own, rfl, read⟩
          exact ⟨_, IntentTable.mem_readByState.mpr ⟨own, stored⟩, rfl, read⟩
        refine ⟨store, rfl, settled, ?_, ?_, ?_, ?_⟩
        · rintro identity ⟨rowState, payload⟩ stored own rfl
          obtain ⟨order, read, _⟩ := reads
            { identity := identity, payload := payload }
            (IntentTable.mem_readByState.mpr ⟨own, stored⟩)
          exact ⟨order, read⟩
        · intro left right leftOrder rightOrder isLeft isRight sameId
          obtain ⟨leftIntent, leftMem, rfl, leftRead⟩ := listed isLeft
          obtain ⟨rightIntent, rightMem, rfl, rightRead⟩ := listed isRight
          by_contra ne
          have apart : leftIntent.Apart run rightIntent :=
            distinct.forall leftMem rightMem fun same =>
              ne (congrArg OrderIntent.identity same)
          exact apart leftOrder rightOrder leftRead rightRead sameId
        · intro identity order isOrder
          obtain ⟨intent, mem, _, read⟩ := listed isOrder
          obtain ⟨stored, isStored, _, bounds⟩ := reads intent mem
          rw [read] at isStored
          cases isStored
          exact bounds
        · intro orderId reservation isReserved
          rcases reserved orderId reservation isReserved with none | now
          · cases none
          · obtain ⟨intent, mem, order, read, rest⟩ := now
            obtain ⟨own, stored⟩ := IntentTable.mem_readByState.mp mem
            exact ⟨intent.identity, order, ⟨_, stored, own, rfl, read⟩, rest⟩

/-- A start that went well leaves a store from which the next one can tell
what is reserved. -/
theorem start_restores (run : LiveRun S V) (store : LiveStore) (venue : V) :
    (start run (some store) venue).Restores run := by
  intro started
  have running := started
  unfold start at started ⊢
  obtain ⟨_, same⟩ := andThen_running started
  have opened := opened_store run store venue
  rw [same] at started ⊢
  generalize ((((unstarted (some store) venue).instantiate run).andThen
    (checkKillState run)).andThen (initialOpenOrders run)) = state
    at opened started ⊢
  unfold recover at started ⊢
  rw [opened] at started ⊢
  simp only at started ⊢
  obtain ⟨intents, sameOrders⟩ := andThen_running started
  obtain ⟨_, sameIntents⟩ := andThen_running intents
  have rates : ((state.recoverRisk run store).andThen
      (recoverRates run store)).store = some store := by
    rw [andThen_store (recoverRates_store run store _), recoverRisk_store,
      opened]
  rw [sameIntents] at intents
  obtain ⟨last, present, settles⟩ := recoverIntents_settles rates intents
  rw [sameOrders, sameIntents] at started ⊢
  exact recoverOrders_restores present
    (fun identity row found own => settles.scope found own) started

/-! ## Restarts -/

/-- A venue that reports for each order of a stopped run its true status, and
just what is filled of it. -/
def TellsTruth (run : LiveRun S V) (state : LiveState S V)
    (queryStatus : String → Except VenueError OrderStatus) : Prop :=
  ∀ store, state.store = some store → ∀ identity order,
    store.intents.Orders run identity order →
    ∃ status, queryStatus order.orderId = .ok status ∧
      status.IsTrue (order.orderId ∈ state.openOrders)
        (state.risk.filledQty order.orderId) order.qty

/-- A restart of a stopped run, with the risk state it has rebuilt: nothing is
left to settle, and the orders that it recovers are those of the stopped
run. -/
def Reopens (run : LiveRun S V) (state : LiveState S V)
    (queryStatus : String → Except VenueError OrderStatus)
    (risk : LiveRiskState) : Prop :=
  ∃ store recovered, state.store = some store ∧
    CausalRecorder.recoverIntents queryStatus
      (store.intents.readByState run.scope .pending ++
        store.intents.readByState run.scope .unknown) store.intents =
          (store.intents, .ok ()) ∧
    reconstructAcceptedOrders run queryStatus risk
      (store.intents.readByState run.scope .accepted) = .ok recovered ∧
    recovered.openOrders = state.openOrders ∧
    ∀ orderId, recovered.reservations.lookup orderId =
      state.reservations.lookup orderId

theorem readByState_settled {table : IntentTable} {scope : OwnerScope}
    (settled : ∀ identity row, table.lookup identity = some row →
      identity.scope = scope → row.state.isOpen = false)
    {state : IntentState} (isOpen : state.isOpen = true) :
    table.readByState scope state = [] := by
  rw [List.eq_nil_iff_forall_not_mem]
  intro intent mem
  obtain ⟨own, found⟩ := IntentTable.mem_readByState.mp mem
  have closed := settled _ _ found own
  simp only at closed
  rw [isOpen] at closed
  cases closed

/-- A state from whose store one can tell what is reserved is recovered from
it, when its open orders are the reserved ones. -/
theorem reopens_of_restores
    {state : LiveState S V} (restores : state.Restores run)
    (stopped : state.result = none)
    (keys : state.reservations.keySet = state.openOrders)
    {queryStatus : String → Except VenueError OrderStatus}
    (truth : TellsTruth run state queryStatus) {risk : LiveRiskState}
    (filled : ∀ orderId,
      risk.filledQty orderId = state.risk.filledQty orderId) :
    state.Reopens run queryStatus risk := by
  obtain ⟨store, found, restorable⟩ := restores stopped
  have isOrder : ∀ {intent order},
      intent ∈ store.intents.readByState run.scope .accepted →
      durableOrder run intent = .ok order →
      store.intents.Orders run intent.identity order := by
    intro intent order mem read
    obtain ⟨own, stored⟩ := IntentTable.mem_readByState.mp mem
    exact ⟨_, stored, own, rfl, read⟩
  have isReserved : ∀ {orderId}, orderId ∈ state.openOrders →
      ∃ reservation, state.reservations.lookup orderId = some reservation := by
    intro orderId opened
    rw [← keys, KeyedMap.mem_keySet, ← AList.lookup_isSome,
      Option.isSome_iff_exists] at opened
    exact opened
  have each : ∀ intent ∈ store.intents.readByState run.scope .accepted,
      intent.Recoverable run queryStatus risk fun orderId =>
        orderId ∈ state.openOrders := by
    intro intent mem
    obtain ⟨own, stored⟩ := IntentTable.mem_readByState.mp mem
    obtain ⟨order, read⟩ := restorable.readable _ _ stored own rfl
    have orders := isOrder mem read
    obtain ⟨status, answered, isTrue⟩ := truth store found _ order orders
    refine ⟨order, status, read, answered, ?_, ?_, ?_⟩
    · rw [filled]
      exact isTrue
    · rw [filled]
      exact restorable.filled _ order orders
    · rw [filled]
      intro opened
      obtain ⟨reservation, isAt⟩ := isReserved opened
      exact (restorable.reservation orders isAt).2
  have distinct : (store.intents.readByState run.scope .accepted).Pairwise
      (OrderIntent.Apart run) := by
    refine (store.intents.readByState_pairwise run.scope
      .accepted).imp_of_mem ?_
    intro left right isLeft isRight ne leftOrder rightOrder readLeft
      readRight same
    exact ne (restorable.single _ _ _ _ (isOrder isLeft readLeft)
      (isOrder isRight readRight) same)
  obtain ⟨recovered, recovers, reserved, others⟩ :=
    @recoverOrders_of_true _ _ run queryStatus risk
      { reservations := ∅, openOrders := ∅, seen := ∅ } _ _ each distinct
      fun _ _ _ _ => Finset.notMem_empty _
  have lookups : ∀ orderId, recovered.reservations.lookup orderId =
      state.reservations.lookup orderId := by
    intro orderId
    by_cases opened : orderId ∈ state.openOrders
    · obtain ⟨reservation, isAt⟩ := isReserved opened
      obtain ⟨identity, order, orders, rfl, same, _⟩ :=
        restorable.reserved orderId reservation isAt
      obtain ⟨⟨rowState, payload⟩, stored, own, rfl, read⟩ := orders
      have mem := (@IntentTable.mem_readByState store.intents run.scope
        .accepted { identity := identity, payload := payload }).mpr
          ⟨own, stored⟩
      rw [reserved _ mem order read opened, filled, isAt, same]
    · rw [others orderId fun _ _ _ _ _ => opened]
      have absent : state.reservations.lookup orderId = none := by
        rw [AList.lookup_eq_none, ← KeyedMap.mem_keySet, keys]
        exact opened
      rw [absent]
      rfl
  have openOrders : recovered.openOrders = state.openOrders := by
    rw [← reconstructAcceptedOrders_keys recovers, ← keys]
    ext orderId
    rw [KeyedMap.mem_keySet, KeyedMap.mem_keySet, ← AList.lookup_isSome,
      ← AList.lookup_isSome, lookups]
  refine ⟨store, recovered, found, ?_, recovers, openOrders, lookups⟩
  rw [readByState_settled restorable.settled rfl,
    readByState_settled restorable.settled rfl]
  rfl

/-- In a run whose orders can be recovered and whose fills fit, what a restart
needs holds after every fact. -/
theorem run_restores (run : LiveRun S V) (store : LiveStore) (venue : V)
    {facts : List (SourceEnvelope Decimal)}
    (sound : Trace.EveryStep (step run) (Sound run)
      (start run (some store) venue) facts) :
    (Trace.run (step run) (start run (some store) venue) facts).Restores
      run := by
  have holds := @Trace.run_preserves _ _ (step run)
    (fun state => state.Restores run ∧ state.Registered run) (Sound run)
    (fun state envelope holds sound =>
      ⟨step_restores holds.1 holds.2 sound, step_registered envelope holds.2⟩)
    _ facts ⟨start_restores run store venue, start_registered run _ venue⟩
    sound
  exact holds.1

def sameStatus (state : LiveState S V) (orderId : String) :
    Except VenueError OrderStatus :=
  let details : OrderStatusDetails :=
    { filledQty := some (state.risk.filledQty orderId)
      price := none
      fee := none
      settlementReference := none }
  .ok (if orderId ∈ state.openOrders then
    .opened details
  else
    .cancelled details)

theorem sameStatus_tellsTruth (run : LiveRun S V) (state : LiveState S V) :
    TellsTruth run state state.sameStatus := by
  intro store found identity order orders
  refine ⟨_, rfl, ?_⟩
  split
  · rename_i opened
    exact ⟨opened, rfl⟩
  · rename_i closed
    exact ⟨closed, rfl⟩

/-- A run whose strategy buys half a share on every event. -/
def halfRun : LiveRun Unit Nat :=
  { SmallRun.run false SmallRun.takingVenue fun state context =>
      (state, .ok [.place
        { market := context.market
          outcome := .up
          side := .buy
          price := 1 / 2
          qty := 1 / 2
          postOnly := false
          tif := .gtc }]) with
    text := SmallRun.bookText }

/-- The order of the run is the first of its store. -/
theorem halfRun_sound :
    Trace.EveryStep (step halfRun) (Sound halfRun)
      (start halfRun (some SmallRun.store) 1)
      [.pmMarket SmallRun.upBook] := by
  refine ⟨⟨?_, ?_⟩, trivial⟩
  · have checked : ((start halfRun (some SmallRun.store)
        1).admissions halfRun (.pmMarket SmallRun.upBook)).all
          (fun admission => admission.orderId = some "v-1" ∧
            halfRun.registeredMarket admission.evaluation.strategy =
              some admission.order.market ∧
            admission.evaluation.market = admission.order.market ∧
            admission.order.price = 1 / 2 ∧ admission.order.qty = 1 / 2 ∧
            admission.before.risk.filledQty "v-1" = 0 ∧
            admission.before.store.all fun store =>
              store.intents.entries.isEmpty) = true := by
      decide +kernel
    intro admission mem orderId accepted
    obtain ⟨named, registered, market, price, qty, unfilled, empty⟩ :=
      of_decide_eq_true (List.all_eq_true.mp checked admission mem)
    rw [named] at accepted
    cases accepted
    refine ⟨⟨registered, ?_, ?_, ?_, ?_, by decide⟩, market, ?_, unfilled⟩
    · rw [price]
      decide +kernel
    · rw [qty]
      decide +kernel
    · rw [price]
      decide +kernel
    · rw [qty]
      decide +kernel
    · rintro store found identity order ⟨row, stored, _⟩
      rw [found, Option.all_some, List.isEmpty_iff] at empty
      rw [KeyedMap.lookup_iff_mem_entries, empty] at stored
      cases stored
  · intro identity fill brought
    cases brought

def secondMarket : MarketId := ⟨"avax-5m", by decide⟩

/-- The run of the same strategy, which another market registers first. -/
def sharedRun : LiveRun Unit Nat :=
  { halfRun with
    strategies :=
      [{ SmallRun.registration with market := secondMarket },
        SmallRun.registration] }

end LiveState

end Pmkit
