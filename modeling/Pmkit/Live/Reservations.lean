import Pmkit.Live.RecoveredOrders

/-!
# Reservations

An accepted order reserves its notional until it is filled or closed.  The run
keeps its open orders beside the reservations; a reconciliation with the venue
overwrites the open orders alone.
-/

namespace Pmkit

open MachineInt

/-- What is left of the order that was accepted last under an id: its quantity
less the sizes of the fills that were new since. -/
def OrderEvent.remaining (orderId : String) :
    List OrderEvent → Option Decimal
  | [] => none
  | .openOrders _ _ :: earlier => remaining orderId earlier
  | .accepted other order :: earlier =>
      if other = orderId then some order.qty else remaining orderId earlier
  | .filled fill :: earlier =>
      if fill.orderId = orderId then
        (remaining orderId earlier).map (· - fill.size)
      else
        remaining orderId earlier

namespace LiveState

variable {S V : Type}

/-- The venue has answered each question for the open orders with those that
the run tracks. -/
def Reconciled (state : LiveState S V) : Prop :=
  ∀ tracked answered,
    OrderEvent.openOrders tracked answered ∈ state.trace.orders →
      answered = tracked

/-- The reservations are those of the open orders, each of what is left of its
order. -/
structure Tracks (state : LiveState S V) : Prop where
  keys : state.reservations.keySet = state.openOrders
  remaining : ∀ orderId reservation,
    state.reservations.lookup orderId = some reservation →
      OrderEvent.remaining orderId state.trace.orders =
        some reservation.remainingQty

/-- A running state whose reconciliations changed nothing tracks its orders. -/
def KeepsTrack (state : LiveState S V) : Prop :=
  state.Reconciled → state.result = none → state.Tracks

/-- A change that leaves the orders, and does not start a run again. -/
structure SameOrders (before after : LiveState S V) : Prop where
  openOrders : after.openOrders = before.openOrders
  reservations : after.reservations = before.reservations
  orders : after.trace.orders = before.trace.orders
  result : after.result = none → before.result = none

theorem SameOrders.refl (state : LiveState S V) : SameOrders state state :=
  ⟨rfl, rfl, rfl, id⟩

theorem Tracks.same {before after : LiveState S V} (tracks : before.Tracks)
    (openOrders : after.openOrders = before.openOrders)
    (reservations : after.reservations = before.reservations)
    (remaining : ∀ orderId, OrderEvent.remaining orderId after.trace.orders =
        OrderEvent.remaining orderId before.trace.orders) :
    after.Tracks where
  keys := by
    rw [reservations, openOrders]
    exact tracks.keys
  remaining := by
    intro orderId reservation found
    rw [reservations] at found
    rw [remaining]
    exact tracks.remaining orderId reservation found

theorem KeepsTrack.same
    {before after : LiveState S V} (keeps : before.KeepsTrack)
    (same : SameOrders before after) : after.KeepsTrack := by
  intro reconciled running
  have before := keeps (by rw [Reconciled, ← same.orders]; exact reconciled)
    (same.result running)
  exact before.same same.openOrders same.reservations
    fun orderId => by rw [same.orders]

/-! ## The changes of the orders -/

variable {state : LiveState S V} {run : LiveRun S V}
  {queryStatus : String → Except VenueError OrderStatus}

/-- A reconciliation that answers what is tracked changes nothing. -/
theorem reconcileOpenOrders_keepsTrack
    (run : LiveRun S V) (keeps : state.KeepsTrack) :
    (state.reconcileOpenOrders run).KeepsTrack := by
  unfold reconcileOpenOrders
  simp only
  split
  · intro _ running
    cases running
  · rename_i orders _
    intro reconciled running
    have answered : orders.toFinset = state.openOrders :=
      reconciled _ _ List.mem_cons_self
    have before := keeps
      (fun _ _ mem => reconciled _ _ (List.mem_cons_of_mem _ mem))
      running
    exact before.same answered rfl fun _ => rfl

/-- An accepted order is open, and reserves all of it. -/
theorem reserve_keepsTrack
    (orderId : String) (strategy : StrategyId) (market : MarketId)
    (order : PlaceOrder) (keeps : state.KeepsTrack) :
    (state.reserve orderId strategy market order).KeepsTrack := by
  intro reconciled running
  have before := keeps
    (fun _ _ mem => reconciled _ _ (List.mem_cons_of_mem _ mem)) running
  refine ⟨?_, ?_⟩
  · simp only [reserve]
    rw [KeyedMap.keySet_insert, before.keys]
  · intro other reservation found
    simp only [reserve] at found ⊢
    rw [KeyedMap.lookup_insert_eq] at found
    simp only [OrderEvent.remaining]
    by_cases same : other = orderId
    · rw [if_pos same, Option.some.injEq] at found
      rw [if_pos same.symm, ← found]
    · rw [if_neg same] at found
      rw [if_neg (Ne.symm same)]
      exact before.remaining other reservation found

/-- A closed order is neither open nor reserved. -/
theorem close_keepsTrack (orderId : String) (keeps : state.KeepsTrack) :
    (state.close orderId).KeepsTrack := by
  intro reconciled running
  have before := keeps reconciled running
  refine ⟨?_, ?_⟩
  · simp only [close]
    rw [KeyedMap.keySet_erase, before.keys]
  · intro other reservation found
    simp only [close] at found ⊢
    rw [KeyedMap.lookup_erase_eq] at found
    split at found
    · cases found
    · exact before.remaining other reservation found

/-- A new fill takes its size from its order, which is closed when nothing is
left of it. -/
theorem applyReservationFill_keepsTrack (fill : FillEvent Decimal)
    (keeps : state.KeepsTrack) :
    (state.applyReservationFill fill).KeepsTrack := by
  unfold applyReservationFill
  simp only
  split
  · rename_i unknown
    intro reconciled running
    have before := keeps
      (fun _ _ mem => reconciled _ _ (List.mem_cons_of_mem _ mem))
      running
    refine ⟨before.keys, ?_⟩
    intro orderId reservation found
    have other : fill.orderId ≠ orderId := by
      rintro rfl
      rw [unknown] at found
      cases found
    simp only [OrderEvent.remaining]
    rw [if_neg other]
    exact before.remaining orderId reservation found
  · rename_i reservation known
    split
    · intro _ running
      cases running
    · split
      · intro reconciled running
        have before := keeps
          (fun _ _ mem => reconciled _ _ (List.mem_cons_of_mem _ mem))
          running
        refine ⟨?_, ?_⟩
        · simp only
          rw [KeyedMap.keySet_erase, before.keys]
        · intro orderId other found
          simp only at found ⊢
          rw [KeyedMap.lookup_erase_eq] at found
          split at found
          · cases found
          · rename_i ne
            simp only [OrderEvent.remaining]
            rw [if_neg (Ne.symm ne)]
            exact before.remaining orderId other found
      · intro reconciled running
        have before := keeps
          (fun _ _ mem => reconciled _ _ (List.mem_cons_of_mem _ mem))
          running
        refine ⟨?_, ?_⟩
        · have present : fill.orderId ∈ state.openOrders := by
            rw [← before.keys, KeyedMap.mem_keySet, ← AList.lookup_isSome,
              known]
            rfl
          simp only
          rw [KeyedMap.keySet_insert, before.keys,
            Finset.insert_eq_self.mpr present]
        · intro orderId other found
          simp only at found ⊢
          rw [KeyedMap.lookup_insert_eq] at found
          simp only [OrderEvent.remaining]
          by_cases same : orderId = fill.orderId
          · rw [if_pos same, Option.some.injEq] at found
            rw [if_pos same.symm, same, before.remaining _ _ known, ← found]
            rfl
          · rw [if_neg same] at found
            rw [if_neg (Ne.symm same)]
            exact before.remaining orderId other found

theorem placeOrder_sameOrders
    (run : LiveRun S V) (strategy : StrategyId) (request : IntentRequest)
    (state : LiveState S V) :
    SameOrders state (state.placeOrder run strategy request).1 := by
  unfold placeOrder
  split
  · exact ⟨rfl, rfl, rfl, id⟩
  · simp only
    split
    · exact .refl state
    · exact ⟨rfl, rfl, rfl, id⟩

theorem placeAccepted_keepsTrack
    (run : LiveRun S V) (evaluation : Evaluation) (actionIndex : UInt32)
    (order : PlaceOrder) (keeps : state.KeepsTrack) :
    (placeAccepted run evaluation actionIndex order state).KeepsTrack := by
  have placed := keeps.same (placeOrder_sameOrders run evaluation.strategy
    { decision := evaluation.identity
      actionIndex := actionIndex
      submittedMs := evaluation.timestampMs
      order := order } state)
  unfold placeAccepted
  split
  · rename_i found
    rw [found] at placed
    exact reserve_keepsTrack _ _ _ _ placed
  · rename_i found
    rw [found] at placed
    exact placed
  · rename_i found
    rw [found] at placed
    simp only
    split
    · exact reconcileOpenOrders_keepsTrack run placed
    · intro _ running
      cases running

theorem recordDecision_sameOrders
    (evaluation : Evaluation) (decision : DecisionKind)
    (state : LiveState S V) :
    SameOrders state (state.recordDecision evaluation decision) := by
  unfold recordDecision
  split
  · exact .refl state
  · split
    · exact ⟨rfl, rfl, rfl, fun running => by cases running⟩
    · exact ⟨rfl, rfl, rfl, id⟩

theorem dispatch_keepsTrack
    (run : LiveRun S V) (input : PipelineInput) (dailyPnl : Option Decimal)
    (keeps : state.KeepsTrack) :
    (state.dispatch run input dailyPnl).KeepsTrack := by
  refine dispatch_keeps ?_ ?_ keeps
  · intro next strategies nextKeeps
    exact nextKeeps.same ⟨rfl, rfl, rfl, id⟩
  · intro strategy next nextKeeps
    refine evaluate_keeps ?_ ?_ input dailyPnl strategy nextKeeps
    · intro evaluation actionIndex order middle middleKeeps
      refine placeAction_keeps ?_ ?_ ?_ middleKeeps evaluation actionIndex
        order
      · intro state stateKeeps
        exact reconcileOpenOrders_keepsTrack run stateKeeps
      · intro state rates stateKeeps
        exact stateKeeps.same ⟨rfl, rfl, rfl, id⟩
      · intro evaluation actionIndex order state stateKeeps _
        exact placeAccepted_keepsTrack run evaluation actionIndex order
          stateKeeps
    · intro evaluation decision middle middleKeeps
      exact middleKeeps.same (recordDecision_sameOrders _ _ _)

theorem accountEvent_keepsTrack
    (run : LiveRun S V) (fact : PmAccountEvent Decimal)
    (keeps : state.KeepsTrack) :
    (state.accountEvent run fact).KeepsTrack := by
  unfold accountEvent
  split
  · intro _ running
    cases running
  · rename_i risk isNew _
    have applied : ({ state with risk := risk } : LiveState S V).KeepsTrack :=
      keeps.same ⟨rfl, rfl, rfl, id⟩
    simp only
    split
    · split
      · exact applyReservationFill_keepsTrack _ applied
      · exact applied
    · exact close_keepsTrack _ applied
    · exact close_keepsTrack _ applied
    · exact applied
    · exact applied
    · exact applied

theorem recordBreach_sameOrders (run : LiveRun S V) (state : LiveState S V) :
    SameOrders state (state.recordBreach run) := by
  unfold recordBreach
  split
  · exact .refl state
  · split
    · exact ⟨rfl, rfl, rfl, id⟩
    · exact .refl state

theorem marketEvent_keepsTrack (run : LiveRun S V) (metadata : StreamMetadata)
    (fact : MarketEvent Decimal)
    (keeps : state.KeepsTrack) :
    (state.marketEvent run metadata fact).KeepsTrack := by
  have applied : ∀ risk, ({ state with risk := risk } :
      LiveState S V).KeepsTrack :=
    fun risk => keeps.same ⟨rfl, rfl, rfl, id⟩
  unfold marketEvent
  split
  · exact dispatch_keepsTrack run _ _
      ((applied _).same (recordBreach_sameOrders run _))
  · split
    · exact keeps
    · simp only
      split
      · exact applyReservationFill_keepsTrack _ (applied _)
      · exact applied _
  · exact keeps
  · exact keeps
  · exact keeps
  · exact keeps

theorem storeFact_sameOrders
    (run : LiveRun S V) (envelope : SourceEnvelope Decimal)
    (state : LiveState S V) :
    SameOrders state (state.storeFact run envelope) := by
  unfold storeFact
  split
  · exact .refl state
  · split
    · exact ⟨rfl, rfl, rfl, fun running => by cases running⟩
    · exact ⟨rfl, rfl, rfl, id⟩

/-- One fact, of any kind, keeps track of the orders. -/
theorem step_keepsTrack (run : LiveRun S V) (keeps : state.KeepsTrack)
    (envelope : SourceEnvelope Decimal) :
    (state.step run envelope).KeepsTrack := by
  have stored := keeps.same (storeFact_sameOrders run envelope state)
  unfold step
  split
  · exact keeps
  · split
    · intro _ running
      cases running
    · simp only
      split
      · exact stored
      · cases envelope with
        | cexReference reference => exact dispatch_keepsTrack run _ _ stored
        | pmAccount account => exact accountEvent_keepsTrack run _ stored
        | pmMarket market => exact marketEvent_keepsTrack run _ _ stored

/-! ## Starts without open orders -/

theorem recoverOrder_keys
    {risk : LiveRiskState} {recovered next : RecoveredOrders}
    {intent : OrderIntent}
    (keys : recovered.reservations.keySet = recovered.openOrders)
    (recovers : recoverOrder run queryStatus risk recovered intent = .ok next) :
    next.reservations.keySet = next.openOrders := by
  obtain ⟨order, _, _, takes⟩ := recoverOrder_takes recovers
  rcases takes.orders with ⟨reservations, openOrders⟩ |
    ⟨_, reservations, openOrders⟩
  · rw [reservations, openOrders]
    exact keys
  · rw [reservations, openOrders, KeyedMap.keySet_insert, keys]

theorem reconstructAcceptedOrders_keys
    {risk : LiveRiskState} {intents : List OrderIntent}
    {recovered : RecoveredOrders}
    (recovers : reconstructAcceptedOrders run queryStatus risk intents =
      .ok recovered) :
    recovered.reservations.keySet = recovered.openOrders := by
  have each : ∀ (intents : List OrderIntent) (before : RecoveredOrders),
      before.reservations.keySet = before.openOrders →
      intents.foldlM (recoverOrder run queryStatus risk) before =
        .ok recovered →
      recovered.reservations.keySet = recovered.openOrders := by
    intro intents
    induction intents with
    | nil =>
        rintro before keys ⟨⟩
        exact keys
    | cons intent rest ih =>
        intro before keys all
        rw [List.foldlM_cons] at all
        cases one : recoverOrder run queryStatus risk before intent with
        | error error =>
            rw [one] at all
            cases all
        | ok next =>
            rw [one] at all
            exact ih next (recoverOrder_keys keys one) all
  exact each intents _ rfl recovers

theorem andThen_reservations {next : LiveState S V → LiveState S V}
    (same : (next state).reservations = state.reservations) :
    (state.andThen next).reservations = state.reservations := by
  unfold andThen
  split
  · rfl
  · exact same

theorem recoverIntents_reservations
    (run : LiveRun S V) (intents : List OrderIntent) (store : LiveStore)
    (state : LiveState S V) :
    (recoverIntents run store intents state).reservations =
      state.reservations := by
  induction intents generalizing store state with
  | nil =>
      rfl
  | cons intent rest ih =>
      rw [recoverIntents]
      split
      · rfl
      · rfl
      · rw [ih]
        rfl

/-- Until the last part of a start nothing is reserved. -/
theorem opened_reservations
    (run : LiveRun S V) (store : Option LiveStore) (venue : V) :
    ((((unstarted store venue).instantiate run).andThen
      (checkKillState run)).andThen (initialOpenOrders run)).reservations =
        ∅ := by
  have created : ((unstarted store venue).instantiate run).reservations =
      ∅ := by
    unfold instantiate
    split
    · rfl
    · rfl
  have checked : (((unstarted store venue).instantiate run).andThen
      (checkKillState run)).reservations = ∅ := by
    rw [andThen_reservations, created]
    unfold checkKillState
    split
    · rfl
    · rfl
  rw [andThen_reservations, checked]
  unfold initialOpenOrders reconcileOpenOrders
  simp only
  split
  · rfl
  · split
    · rfl
    · rfl

/-- The last part of a start reserves what is open. -/
theorem recoverOrders_keys (nothing : state.reservations = ∅)
    (recovered : (state.recoverOrders run).result = none)
    (none : (state.recoverOrders run).openOrders = ∅) :
    (state.recoverOrders run).reservations.keySet = ∅ := by
  unfold recoverOrders at recovered none ⊢
  cases found : state.store with
  | none =>
      rw [nothing]
      rfl
  | some store =>
      rw [found] at recovered none
      simp only at recovered none ⊢
      cases recovers : reconstructAcceptedOrders run
          (run.executor.queryStatus state.venue) state.risk
          (store.intents.readByState run.scope .accepted) with
      | error error =>
          rw [recovers] at recovered
          cases recovered
      | ok orders =>
          rw [recovers] at recovered none
          simp only at recovered none ⊢
          by_cases same : orders.openOrders = state.openOrders
          · rw [if_neg (not_not.mpr same)] at none ⊢
            rw [reconstructAcceptedOrders_keys recovers, same]
            exact none
          · rw [if_pos same] at recovered
            cases recovered

theorem start_tracks {store : Option LiveStore} {venue : V}
    (started : (start run store venue).result = none)
    (none : (start run store venue).openOrders = ∅) :
    (start run store venue).Tracks := by
  have keys : (start run store venue).reservations.keySet = ∅ := by
    have opened := opened_reservations run store venue
    unfold start at started none ⊢
    obtain ⟨_, same⟩ := andThen_running started
    rw [same] at started none ⊢
    generalize ((((unstarted store venue).instantiate run).andThen
      (checkKillState run)).andThen (initialOpenOrders run)) = state
      at opened started none
    unfold recover at started none ⊢
    cases present : state.store with
    | none =>
        rw [opened]
        rfl
    | some found =>
        rw [present] at started none
        simp only at started none ⊢
        obtain ⟨_, last⟩ := andThen_running started
        rw [last] at started none ⊢
        have settled : (((state.recoverRisk run found).andThen
            (recoverRates run found)).andThen (recoverIntents run found
              (found.intents.readByState run.scope .pending ++
                found.intents.readByState run.scope
                  .unknown))).reservations = ∅ := by
          rw [andThen_reservations (recoverIntents_reservations run _ _ _),
            andThen_reservations, ← opened]
          · unfold recoverRisk
            split
            · rfl
            · rfl
          · unfold recoverRates
            split
            · rfl
            · rfl
        generalize (((state.recoverRisk run found).andThen
          (recoverRates run found)).andThen (recoverIntents run found
            (found.intents.readByState run.scope .pending ++
              found.intents.readByState run.scope .unknown))) = last
          at settled started none
        exact recoverOrders_keys settled started none
  refine ⟨by rw [keys, none], ?_⟩
  intro orderId reservation found
  rw [KeyedMap.lookup_of_keySet_empty keys] at found
  cases found

/-- In every run that starts without open orders, the reservations are those
of the open orders, each of what is left of its order, for as long as each
reconciliation with the venue answers what the run tracks. -/
theorem reservations_track
    (run : LiveRun S V) (store : Option LiveStore) (venue : V)
    (started : (start run store venue).result = none)
    (none : (start run store venue).openOrders = ∅)
    (facts : List (SourceEnvelope Decimal)) :
    Trace.EveryState (step run)
      (fun state => state.Reconciled → state.result = Option.none →
        state.Tracks) (start run store venue) facts := by
  refine Trace.everyState_of_invariant ?_ ?_
  · intro state envelope keeps
    exact step_keepsTrack run keeps envelope
  · intro _ _
    exact start_tracks started none

theorem reservations_track_smallRun :
    Trace.EveryState (step SmallRun.buyerRun)
      (fun state => state.Reconciled → state.result = none → state.Tracks)
      (start SmallRun.buyerRun (some SmallRun.store) 1)
      [.pmMarket SmallRun.upBook] :=
  reservations_track SmallRun.buyerRun (some SmallRun.store) 1
    SmallRun.buyerRun_starts rfl [.pmMarket SmallRun.upBook]

/-- With room for one order, the second order is placed after a
reconciliation that finds the first one gone, and the first one stays
reserved. -/
theorem secondOrder_leaks :
    (start SmallRun.buyerRun (some SmallRun.store) 1).result = none ∧
      (start SmallRun.buyerRun (some SmallRun.store) 1).openOrders = ∅ ∧
      ¬ Trace.EveryState (step SmallRun.buyerRun)
        (fun state => state.result = none → state.Tracks)
        (start SmallRun.buyerRun (some SmallRun.store) 1)
        [.pmMarket SmallRun.upBook, .pmMarket SmallRun.downBook] := by
  refine ⟨SmallRun.buyerRun_starts, rfl, ?_⟩
  intro tracked
  have running : (Trace.run (step SmallRun.buyerRun)
      (start SmallRun.buyerRun (some SmallRun.store) 1)
      [.pmMarket SmallRun.upBook, .pmMarket SmallRun.downBook]).result.isNone =
        true := by
    decide +kernel
  have keys := (tracked.last (Option.isNone_iff_eq_none.mp running)).keys
  have leaked : (Trace.run (step SmallRun.buyerRun)
      (start SmallRun.buyerRun (some SmallRun.store) 1)
      [.pmMarket SmallRun.upBook,
        .pmMarket SmallRun.downBook]).reservations.keySet ≠
      (Trace.run (step SmallRun.buyerRun)
        (start SmallRun.buyerRun (some SmallRun.store) 1)
        [.pmMarket SmallRun.upBook,
          .pmMarket SmallRun.downBook]).openOrders := by
    decide +kernel
  exact leaked keys

end LiveState

end Pmkit
