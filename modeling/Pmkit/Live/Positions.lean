import Pmkit.Library.Ranges
import Pmkit.Live.Audit
import Pmkit.Live.Reservations
import Pmkit.Live.Trades

/-!
# Positions and open orders

The gate checks what is held of an outcome together with one new order.
Several orders may be open at once, and any of them may fill; what can be held
then lies between two ends, and the limit holds for every choice of fills when
it holds at both.
-/

namespace Pmkit

open MachineInt

/-! ## What can be held -/

def openQty (reservations : KeyedMap String Reservation)
    (placed : List VenueOrder) (market : MarketId) (outcome : Outcome)
    (orderId : String) : Decimal :=
  match reservations.lookup orderId, placedAs placed orderId with
  | some reservation, some one =>
      if one.order.market = market ∧ one.order.outcome = outcome then
        one.order.side.signed reservation.remainingQty
      else
        0
  | _, _ => 0

def VenueOrder.amount (one : VenueOrder) (market : MarketId)
    (outcome : Outcome) : Decimal :=
  if one.order.market = market ∧ one.order.outcome = outcome then
    one.order.side.signed one.order.qty
  else
    0

def lastPlaced (placed : List VenueOrder) (market : MarketId)
    (outcome : Outcome) : Option VenueOrder :=
  placed.find? fun one =>
    one.order.market = market ∧ one.order.outcome = outcome

/-- Whichever of the open orders fill, what is then held of each outcome, at
the price of the last order for it, is within the position limit of that
order. -/
def Bounded (held : MarketId → Outcome → Decimal)
    (reservations : KeyedMap String Reservation) (placed : List VenueOrder) :
    Prop :=
  ∀ market outcome last, lastPlaced placed market outcome = some last →
    ∀ filled ⊆ reservations.keySet,
      |held market outcome + ∑ orderId ∈ filled,
          openQty reservations placed market outcome orderId| *
        last.order.price ≤ last.limits.maxPositionNotional

/-- What is held of an outcome when every open sale fills and no purchase. -/
def leastHeld (held : MarketId → Outcome → Decimal)
    (reservations : KeyedMap String Reservation) (placed : List VenueOrder)
    (market : MarketId) (outcome : Outcome) : Decimal :=
  held market outcome + Ranges.least reservations.keySet
    (openQty reservations placed market outcome)

/-- What is held of an outcome when every open purchase fills and no sale. -/
def mostHeld (held : MarketId → Outcome → Decimal)
    (reservations : KeyedMap String Reservation) (placed : List VenueOrder)
    (market : MarketId) (outcome : Outcome) : Decimal :=
  held market outcome + Ranges.most reservations.keySet
    (openQty reservations placed market outcome)

structure WithinPosition (one : VenueOrder) (lower upper : Decimal) :
    Prop where
  sign : 0 ≤ one.order.price ∨ 0 ≤ one.limits.maxPositionNotional
  lower : |lower| * one.order.price ≤ one.limits.maxPositionNotional
  upper : |upper| * one.order.price ≤ one.limits.maxPositionNotional

def Covered (held : MarketId → Outcome → Decimal)
    (reservations : KeyedMap String Reservation) (placed : List VenueOrder) :
    Prop :=
  ∀ market outcome last, lastPlaced placed market outcome = some last →
    WithinPosition last (leastHeld held reservations placed market outcome)
      (mostHeld held reservations placed market outcome)

def FillsOpen (reservations : KeyedMap String Reservation)
    (placed : List VenueOrder) (fill : FillEvent Decimal) : Prop :=
  ∃ one reservation, placedAs placed fill.orderId = some one ∧
    reservations.lookup fill.orderId = some reservation ∧
    one.order.market = fill.market ∧ one.order.outcome = fill.outcome ∧
    one.order.side = fill.side ∧ 0 ≤ fill.size ∧
    fill.size ≤ reservation.remainingQty

def OnlyFills (authority : DurableFillAuthority) (risk : LiveRiskState)
    (reservations : KeyedMap String Reservation) (placed : List VenueOrder) :
    SourceEnvelope Decimal → Prop
  | .pmAccount envelope =>
      match envelope.fact with
      | .fill identity fill =>
          identity ∈ risk.appliedFills ∨ FillsOpen reservations placed fill
      | .settlement _ _ _ _ _ _ => False
      | .orderAck _ _ _ => True
      | .orderCancelled _ _ _ => True
      | .orderRejected _ _ _ _ => True
      | .orderStatus _ _ _ _ => True
  | .pmMarket envelope =>
      match envelope.fact with
      | .fill fill =>
          authority = .account ∨
            LiveState.transportIdentity envelope.metadata ∈
              risk.appliedFills ∨ FillsOpen reservations placed fill
      | .bookUpdate _ _ _ _ _ => True
      | .bestBidAsk _ _ _ _ _ => True
      | .lastTrade _ _ _ _ _ _ => True
      | .orderAck _ _ _ => True
      | .tick _ => True
  | .cexReference _ => True

namespace LiveState

variable {S V : Type}

/-- There is room for an order when the limit holds with all open orders of
its side and the order itself, and with all open orders of the other side. -/
def HasRoom (placed : List VenueOrder) (admission : Admission S V) : Prop :=
  ∀ one, admission.placed = some one →
    WithinPosition one
      (leastHeld admission.before.risk.heldQty admission.before.reservations
          placed one.order.market one.order.outcome +
        min (one.order.side.signed one.order.qty) 0)
      (mostHeld admission.before.risk.heldQty admission.before.reservations
          placed one.order.market one.order.outcome +
        max (one.order.side.signed one.order.qty) 0)

/-- The position limits hold once open orders fill, just after an
admission. -/
def BoundedAfter (placed : List VenueOrder) (admission : Admission S V) :
    Prop :=
  Bounded admission.after.risk.heldQty admission.after.reservations
    (recordPlaced placed admission)

/-- The venue gave the order an id that is not reserved, and its price and its
position limit are not both negative. -/
def PlacedAnew (admission : Admission S V) : Prop :=
  ∀ one, admission.placed = some one →
    admission.before.reservations.lookup one.orderId = none ∧
      (0 ≤ one.order.price ∨ 0 ≤ one.limits.maxPositionNotional)

end LiveState

namespace LiveAudit

variable {S V : Type}

/-- The position limits hold once open orders fill. -/
def IsBounded (audit : LiveAudit S V) : Prop :=
  Bounded audit.state.risk.heldQty audit.state.reservations audit.placed

def PlacesWithRoom (run : LiveRun S V) (audit : LiveAudit S V)
    (envelope : SourceEnvelope Decimal) : Prop :=
  Trace.EveryStep recordPlaced LiveState.HasRoom audit.placed
    (audit.state.admissions run envelope)

/-- The position limits hold once open orders fill after each order that a
fact makes the run admit. -/
def AdmitsBounded (run : LiveRun S V) (audit : LiveAudit S V)
    (envelope : SourceEnvelope Decimal) : Prop :=
  Trace.EveryStep recordPlaced LiveState.BoundedAfter audit.placed
    (audit.state.admissions run envelope)

/-- Each order that a fact makes the run place is placed under a new id. -/
def PlacesAnew (run : LiveRun S V) (audit : LiveAudit S V)
    (envelope : SourceEnvelope Decimal) : Prop :=
  ∀ admission ∈ audit.state.admissions run envelope,
    LiveState.PlacedAnew admission

/-- The new fills are of open orders, and nothing is settled. -/
def FillsOrders (run : LiveRun S V) (audit : LiveAudit S V)
    (envelope : SourceEnvelope Decimal) : Prop :=
  OnlyFills run.fillAuthority audit.state.risk audit.state.reservations
    audit.placed envelope

end LiveAudit

section Ends

variable {held after : MarketId → Outcome → Decimal}
  {reservations changed : KeyedMap String Reservation}
  {placed others : List VenueOrder} {market : MarketId} {outcome : Outcome}

theorem WithinPosition.between
    {one : VenueOrder} {lower upper innerLower innerUpper : Decimal}
    (within : WithinPosition one lower upper) (left : lower ≤ innerLower)
    (ordered : innerLower ≤ innerUpper) (right : innerUpper ≤ upper) :
    WithinPosition one innerLower innerUpper where
  sign := within.sign
  lower := Ranges.abs_mul_le_of_between left (ordered.trans right) within.sign
    within.lower within.upper
  upper := Ranges.abs_mul_le_of_between (left.trans ordered) right within.sign
    within.lower within.upper

theorem leastHeld_le_mostHeld :
    leastHeld held reservations placed market outcome ≤
      mostHeld held reservations placed market outcome := by
  have ends := @Ranges.least_le_most _ _ _ _ _ reservations.keySet
    (openQty reservations placed market outcome)
  unfold leastHeld mostHeld
  linarith

/-- A limit at both ends is a limit for every choice of fills. -/
theorem Covered.bounded (covered : Covered held reservations placed) :
    Bounded held reservations placed := by
  intro market outcome last found
  have within := covered market outcome last found
  exact Ranges.forall_subset_of_ends within.sign within.lower within.upper

theorem openQty_of_lookup_none
    {orderId : String} (missing : reservations.lookup orderId = none) :
    openQty reservations placed market outcome orderId = 0 := by
  rw [openQty, missing]

/-- What changes of one order id moves the ends by its parts. -/
theorem range_edit {orderId : String}
    (keys : changed.keySet ⊆ insert orderId reservations.keySet)
    (same : ∀ other, other ≠ orderId →
      openQty changed others market outcome other =
        openQty reservations placed market outcome other) :
    Ranges.least changed.keySet (openQty changed others market outcome) +
          min (openQty reservations placed market outcome orderId) 0 =
        Ranges.least reservations.keySet
            (openQty reservations placed market outcome) +
          min (openQty changed others market outcome orderId) 0 ∧
      Ranges.most changed.keySet (openQty changed others market outcome) +
          max (openQty reservations placed market outcome orderId) 0 =
        Ranges.most reservations.keySet
            (openQty reservations placed market outcome) +
          max (openQty changed others market outcome orderId) 0 := by
  have absent : ∀ (map : KeyedMap String Reservation) (orders : List VenueOrder)
      (other : String), other ∉ map.keySet →
        openQty map orders market outcome other = 0 := by
    intro map orders other missing
    apply openQty_of_lookup_none
    rw [AList.lookup_eq_none, ← KeyedMap.mem_keySet]
    exact missing
  have before := Ranges.range_of_subset
    (Finset.subset_insert orderId reservations.keySet)
    (fun other _ missing => absent reservations placed other missing)
  have now := Ranges.range_of_subset keys
    (fun other _ missing => absent changed others other missing)
  have moved := Ranges.range_of_change
    (Finset.mem_insert_self orderId reservations.keySet) same
  rw [before.1, before.2, now.1, now.2]
  exact moved

end Ends

/-! ## Placing, closing and filling an order -/

section Changes

variable {held after : MarketId → Outcome → Decimal}
  {reservations changed : KeyedMap String Reservation}
  {placed : List VenueOrder}

theorem Covered.narrow (covered : Covered held reservations placed)
    (least : ∀ market outcome,
      leastHeld held reservations placed market outcome ≤
        leastHeld after changed placed market outcome)
    (most : ∀ market outcome, mostHeld after changed placed market outcome ≤
        mostHeld held reservations placed market outcome) :
    Covered after changed placed := by
  intro market outcome last found
  exact (covered market outcome last found).between (least market outcome)
    leastHeld_le_mostHeld (most market outcome)

theorem lastPlaced_cons (one : VenueOrder) (placed : List VenueOrder)
    (market : MarketId) (outcome : Outcome) :
    lastPlaced (one :: placed) market outcome =
      if one.order.market = market ∧ one.order.outcome = outcome then some one
      else lastPlaced placed market outcome := by
  rw [lastPlaced, List.find?_cons]
  by_cases same : one.order.market = market ∧ one.order.outcome = outcome
  · rw [if_pos same, decide_eq_true same]
  · rw [if_neg same, decide_eq_false same, lastPlaced]

theorem range_of_place (one : VenueOrder) {reservation : Reservation}
    (quantity : reservation.remainingQty = one.order.qty)
    (market : MarketId) (outcome : Outcome) :
    leastHeld held
            (AList.insert one.orderId reservation reservations)
            (one :: placed) market outcome +
          min (openQty reservations placed market outcome one.orderId) 0 =
        leastHeld held reservations placed market outcome +
          min (one.amount market outcome) 0 ∧
      mostHeld held
            (AList.insert one.orderId reservation reservations)
            (one :: placed) market outcome +
          max (openQty reservations placed market outcome one.orderId) 0 =
        mostHeld held reservations placed market outcome +
          max (one.amount market outcome) 0 := by
  have own : openQty (AList.insert one.orderId reservation reservations)
      (one :: placed) market outcome one.orderId =
        one.amount market outcome := by
    rw [openQty, AList.lookup_insert, placedAs_cons, if_pos rfl]
    simp only [quantity]
    rfl
  have moved := @range_edit reservations
    (AList.insert one.orderId reservation reservations) placed (one :: placed)
    market outcome one.orderId (by rw [KeyedMap.keySet_insert]) (by
      intro other ne
      unfold openQty
      rw [AList.lookup_insert_ne ne, placedAs_cons,
        if_neg (Ne.symm ne)])
  rw [own] at moved
  unfold leastHeld mostHeld
  constructor
  · linarith [moved.1]
  · linarith [moved.2]

/-- A placed order moves the ends of its own outcome by its own parts at most,
and those of no other outcome outwards. -/
theorem ends_of_place (one : VenueOrder) {reservation : Reservation}
    (quantity : reservation.remainingQty = one.order.qty)
    (market : MarketId) (outcome : Outcome) :
    leastHeld held reservations placed market outcome +
          min (one.amount market outcome) 0 ≤
        leastHeld held
          (AList.insert one.orderId reservation reservations) (one :: placed)
          market outcome ∧
      mostHeld held
          (AList.insert one.orderId reservation reservations) (one :: placed)
          market outcome ≤
        mostHeld held reservations placed market outcome +
          max (one.amount market outcome) 0 := by
  have moved := @range_of_place held reservations placed one _ quantity market
    outcome
  have below := min_le_right
    (openQty reservations placed market outcome one.orderId) 0
  have above := le_max_right
    (openQty reservations placed market outcome one.orderId) 0
  constructor
  · linarith [moved.1]
  · linarith [moved.2]

variable {reservation : Reservation}

/-- An order that there was room for keeps the limits. -/
theorem Covered.place
    (covered : Covered held reservations placed) (one : VenueOrder)
    (quantity : reservation.remainingQty = one.order.qty)
    (room : WithinPosition one
      (leastHeld held reservations placed one.order.market
          one.order.outcome + min (one.order.side.signed one.order.qty) 0)
      (mostHeld held reservations placed one.order.market
          one.order.outcome + max (one.order.side.signed one.order.qty) 0)) :
    Covered held (AList.insert one.orderId reservation reservations)
      (one :: placed) := by
  intro market outcome last found
  have ends := @ends_of_place held reservations placed one _ quantity market
    outcome
  rw [lastPlaced_cons] at found
  by_cases own : one.order.market = market ∧ one.order.outcome = outcome
  · rw [VenueOrder.amount, if_pos own] at ends
    rw [if_pos own, Option.some.injEq] at found
    rw [own.1, own.2] at room
    rw [← found]
    exact room.between ends.1 leastHeld_le_mostHeld ends.2
  · rw [VenueOrder.amount, if_neg own, min_self, max_self, add_zero,
      add_zero] at ends
    rw [if_neg own] at found
    exact (covered market outcome last found).between ends.1
      leastHeld_le_mostHeld ends.2

theorem Covered.close
    (covered : Covered held reservations placed) (orderId : String) :
    Covered held (reservations.erase orderId) placed := by
  have moved := fun market outcome => @range_edit reservations
    (reservations.erase orderId) placed placed market outcome orderId (by
      rw [KeyedMap.keySet_erase]
      exact (Finset.erase_subset _ _).trans (Finset.subset_insert _ _)) (by
      intro other ne
      unfold openQty
      rw [AList.lookup_erase_ne ne])
  have gone : ∀ market outcome, openQty (reservations.erase orderId) placed
      market outcome orderId = 0 := by
    intro market outcome
    exact openQty_of_lookup_none (AList.lookup_erase orderId _)
  refine covered.narrow ?_ ?_
  · intro market outcome
    have least := (moved market outcome).1
    rw [gone, min_self] at least
    have below := min_le_right
      (openQty reservations placed market outcome orderId) 0
    unfold leastHeld
    linarith
  · intro market outcome
    have most := (moved market outcome).2
    rw [gone, max_self] at most
    have above := le_max_right
      (openQty reservations placed market outcome orderId) 0
    unfold mostHeld
    linarith

theorem Covered.fill
    (covered : Covered held reservations placed) {fill : FillEvent Decimal}
    {one : VenueOrder}
    (isPlaced : placedAs placed fill.orderId = some one)
    (found : reservations.lookup fill.orderId = some reservation)
    (market : one.order.market = fill.market)
    (outcome : one.order.outcome = fill.outcome)
    (side : one.order.side = fill.side) (positive : 0 ≤ fill.size)
    (enough : fill.size ≤ reservation.remainingQty)
    (keys : changed.keySet ⊆ insert fill.orderId reservations.keySet)
    (same : ∀ other, other ≠ fill.orderId →
      changed.lookup other = reservations.lookup other)
    (left : changed.lookup fill.orderId =
      if reservation.remainingQty - fill.size = 0 then
        none
      else
        some { reservation with
          remainingQty := reservation.remainingQty - fill.size })
    (filled : ∀ market outcome, after market outcome = held market outcome +
        if fill.market = market ∧ fill.outcome = outcome then
          fill.side.signed fill.size
        else
          0) :
    Covered after changed placed := by
  have ends : ∀ id which,
      leastHeld held reservations placed id which ≤
          leastHeld after changed placed id which ∧
        mostHeld after changed placed id which ≤
          mostHeld held reservations placed id which := by
    intro id which
    have moved := @range_edit reservations changed placed placed id which
      fill.orderId keys (by
        intro other ne
        unfold openQty
        rw [same other ne])
    have before : openQty reservations placed id which fill.orderId =
        if fill.market = id ∧ fill.outcome = which then
          fill.side.signed reservation.remainingQty
        else
          0 := by
      rw [openQty, found, isPlaced, ← market, ← outcome, ← side]
    have now : openQty changed placed id which fill.orderId =
        if fill.market = id ∧ fill.outcome = which then
          fill.side.signed (reservation.remainingQty - fill.size)
        else
          0 := by
      rw [openQty, left, isPlaced, ← market, ← outcome, ← side]
      by_cases done : reservation.remainingQty - fill.size = 0
      · rw [if_pos done, done]
        cases one.order.side with
        | buy => simp [Side.signed]
        | sell => simp [Side.signed]
      · rw [if_neg done]
    rw [before, now] at moved
    unfold leastHeld mostHeld
    rw [filled id which]
    have whole : 0 ≤ reservation.remainingQty := positive.trans enough
    have rest : 0 ≤ reservation.remainingQty - fill.size := by linarith
    by_cases own : fill.market = id ∧ fill.outcome = which
    · simp only [if_pos own] at moved ⊢
      cases direction : fill.side with
      | buy =>
          simp only [direction, Side.signed] at moved ⊢
          rw [min_eq_right whole, min_eq_right rest, max_eq_left whole,
            max_eq_left rest] at moved
          constructor
          · linarith [moved.1]
          · linarith [moved.2]
      | sell =>
          simp only [direction, Side.signed] at moved ⊢
          rw [min_eq_left (neg_nonpos.mpr whole),
            min_eq_left (neg_nonpos.mpr rest),
            max_eq_right (neg_nonpos.mpr whole),
            max_eq_right (neg_nonpos.mpr rest)] at moved
          constructor
          · linarith [moved.1]
          · linarith [moved.2]
    · simp only [if_neg own] at moved ⊢
      constructor
      · linarith [moved.1]
      · linarith [moved.2]
  exact covered.narrow (fun id which => (ends id which).1)
    fun id which => (ends id which).2

end Changes

/-! ## The steps of a run -/

namespace LiveState

variable {S V : Type}

def holdings (state : LiveState S V) :
    (MarketId → Outcome → Decimal) × KeyedMap String Reservation :=
  (state.risk.heldQty, state.reservations)

theorem holdings_congr
    {left right : LiveState S V} (risk : left.risk = right.risk)
    (reservations : left.reservations = right.reservations) :
    left.holdings = right.holdings := by
  rw [holdings, risk, reservations, holdings]

theorem steady_holdings (run : LiveRun S V) :
    Steady run (fun state : LiveState S V => state.holdings) where
  reconcile := fun state =>
    holdings_congr (reconcileOpenOrders_sameFacts run state).risk
      (reconcileOpenOrders_reservations run state)
  rates := fun _ _ => rfl
  record := fun evaluation decision state =>
    holdings_congr (recordDecision_sameFacts evaluation decision state).risk
      (recordDecision_sameOrders evaluation decision state).reservations
  strategies := fun _ _ => rfl

variable {run : LiveRun S V} {envelope : SourceEnvelope Decimal}
  {state : LiveState S V} {placed : List VenueOrder} {fill : FillEvent Decimal}

theorem pipelineOf_holdings {next : LiveState S V} {input : PipelineInput}
    {dailyPnl : Option Decimal}
    (reaches : pipelineOf run envelope state = some (input, dailyPnl, next)) :
    next.holdings = state.holdings := by
  rcases pipelineOf_state reaches with rfl | ⟨market, outcome, book, rfl⟩
  · rfl
  · refine (holdings_congr (recordBreach_risk run _)
      (recordBreach_sameOrders run _).reservations).trans ?_
    unfold holdings
    rw [Prod.mk.injEq]
    refine ⟨?_, rfl⟩
    funext id which
    exact LiveRiskState.refreshMarks_heldQty run.markets run.risk _ id which

theorem covered_admission {admission : Admission S V} (valid : admission.Valid)
    (covered : Covered admission.before.risk.heldQty
      admission.before.reservations placed)
    (room : HasRoom placed admission) :
    Covered admission.after.risk.heldQty admission.after.reservations
      (recordPlaced placed admission) := by
  rw [valid.risk, valid.reservations]
  unfold recordPlaced
  unfold HasRoom at room
  cases answered : admission.orderId with
  | none =>
      simp only [Admission.placed, answered, Option.map_none,
        Option.toList_none, List.nil_append, Admission.reserving]
      exact covered
  | some orderId =>
      simp only [Admission.placed, answered, Option.map_some,
        Option.some.injEq, forall_eq'] at room
      simp only [Admission.placed, answered, Option.map_some,
        Option.toList_some, List.singleton_append, Admission.reserving]
      exact covered.place _ rfl room

/-- A new fill of an open order keeps the limits. -/
theorem applyReservationFill_covered
    (covered : Covered state.risk.heldQty state.reservations placed)
    (fills : FillsOpen state.reservations placed fill) {risk : LiveRiskState}
    (filled : ∀ market outcome, risk.heldQty market outcome =
      state.risk.heldQty market outcome +
        if fill.market = market ∧ fill.outcome = outcome then
          fill.side.signed fill.size
        else
          0) :
    Covered
      (applyReservationFill fill { state with risk := risk }).risk.heldQty
      (applyReservationFill fill { state with risk := risk }).reservations
      placed := by
  obtain ⟨one, reservation, isPlaced, found, market, outcome, side, positive,
    enough⟩ := fills
  rw [(applyReservationFill_sameRisk fill _).1]
  refine covered.fill isPlaced found market outcome side positive enough ?_ ?_
    ?_ filled
  · unfold applyReservationFill
    simp only [found]
    rw [if_neg (not_lt.mpr enough)]
    split
    · rw [KeyedMap.keySet_erase]
      exact (Finset.erase_subset _ _).trans (Finset.subset_insert _ _)
    · rw [KeyedMap.keySet_insert]
  · intro other ne
    unfold applyReservationFill
    simp only [found]
    rw [if_neg (not_lt.mpr enough)]
    split
    · exact AList.lookup_erase_ne ne
    · exact AList.lookup_insert_ne ne
  · unfold applyReservationFill
    simp only [found]
    rw [if_neg (not_lt.mpr enough)]
    split
    · exact AList.lookup_erase _ _
    · exact AList.lookup_insert _

/-- A fill of the reducer, new or known, keeps the limits. -/
theorem takeFill_covered
    (covered : Covered state.risk.heldQty state.reservations placed)
    {identity : EventIdentity}
    (fills : identity ∈ state.risk.appliedFills ∨
      FillsOpen state.reservations placed fill)
    {risk : LiveRiskState} {isNew : Bool} {next : LiveState S V}
    (applied : state.risk.applyFill run.markets run.risk identity fill =
      (risk, isNew))
    (taken : next = if isNew = true then
      applyReservationFill fill { state with risk := risk }
    else
      { state with risk := risk }) :
    Covered next.risk.heldQty next.reservations placed := by
  have held := fun market outcome => LiveRiskState.applyFill_heldQty
    run.markets run.risk state.risk identity fill market outcome
  rw [applied] at held
  unfold LiveRiskState.applyFill at applied
  by_cases known : identity ∈ state.risk.appliedFills
  · rw [if_pos known] at applied
    cases applied
    rw [taken]
    exact covered
  · rw [if_neg known] at applied
    cases applied
    rw [taken, if_pos rfl]
    apply applyReservationFill_covered covered (fills.resolve_left known)
    intro market outcome
    have moved := held market outcome
    rw [if_neg known] at moved
    exact moved

/-- A fact that does not reach the pipeline keeps the limits. -/
theorem processEvent_covered
    (none : pipelineOf run envelope state = Option.none)
    (covered : Covered state.risk.heldQty state.reservations placed)
    (fills : OnlyFills run.fillAuthority state.risk state.reservations placed
      envelope) :
    Covered (state.processEvent run envelope).risk.heldQty
      (state.processEvent run envelope).reservations placed := by
  cases envelope with
  | cexReference reference =>
      cases none
  | pmAccount account =>
      unfold OnlyFills at fills
      simp only [processEvent, accountEvent]
      cases fact : account.fact with
      | fill identity fill =>
          simp only [fact] at fills
          simp only [LiveRiskState.applyAccountEvent]
          exact takeFill_covered covered fills rfl rfl
      | settlement identity market outcome settledSize proceeds timestampMs =>
          simp only [fact] at fills
      | orderAck strategy orderId timestampMs =>
          exact covered
      | orderCancelled strategy orderId timestampMs =>
          exact covered.close orderId
      | orderRejected strategy orderId reason timestampMs =>
          exact covered.close orderId
      | orderStatus strategy orderId status timestampMs =>
          exact covered
  | pmMarket market =>
      unfold OnlyFills at fills
      simp only [processEvent, marketEvent]
      cases fact : market.fact with
      | bookUpdate id outcome bids asks timestampMs =>
          rw [pipelineOf, fact] at none
          cases none
      | fill fill =>
          simp only [fact] at fills
          cases authority : run.fillAuthority with
          | account =>
              exact covered
          | market =>
              rcases fills with other | fills
              · rw [authority] at other
                cases other
              · exact takeFill_covered covered fills rfl rfl
      | bestBidAsk id outcome bid ask timestampMs =>
          exact covered
      | lastTrade id outcome price side size timestampMs =>
          exact covered
      | orderAck strategy orderId timestampMs =>
          exact covered
      | tick timestampMs =>
          exact covered

end LiveState

namespace LiveAudit

variable {S V : Type}

open LiveState

/-- A fact keeps the limits at both ends, when there is room for the orders it
makes the run place. -/
theorem step_covered {run : LiveRun S V} {audit : LiveAudit S V}
    {envelope : SourceEnvelope Decimal}
    (registered : audit.state.Registered run)
    (covered : Covered audit.state.risk.heldQty audit.state.reservations
      audit.placed)
    (fills : FillsOrders run audit envelope)
    (room : PlacesWithRoom run audit envelope) :
    Covered (step run audit envelope).state.risk.heldQty
        (step run audit envelope).state.reservations
        (step run audit envelope).placed ∧
      AdmitsBounded run audit envelope := by
  unfold AdmitsBounded
  simp only [step]
  by_cases takes : audit.state.Takes run envelope
  · have risk : (audit.state.storeFact run envelope).risk = audit.state.risk :=
      storeFact_risk takes.2.2
    have reservations : (audit.state.storeFact run envelope).reservations =
        audit.state.reservations :=
      (storeFact_sameOrders run envelope audit.state).reservations
    unfold FillsOrders at fills
    rw [← risk, ← reservations] at covered fills
    cases reaches : pipelineOf run envelope
        (audit.state.storeFact run envelope) with
    | none =>
        rw [admissions_of_no_pipeline reaches, step_of_takes takes]
        exact ⟨processEvent_covered reaches covered fills, trivial⟩
    | some found =>
        obtain ⟨input, dailyPnl, next⟩ := found
        have chained := admissions_chained (steady_holdings run) registered
          takes reaches
        rw [pipelineOf_holdings reaches] at chained
        have valid := admissions_valid run audit.state envelope
        have kept := @chained_rule _ _ _ LiveState.holdings
          (fun holdings placed => Covered holdings.1 holdings.2 placed)
          HasRoom _ _ _ _
          (fun placed admission mem before hasRoom =>
            covered_admission (valid admission mem) before hasRoom)
          chained room covered
        refine ⟨kept.1, ?_⟩
        refine Trace.EveryStep.imp ?_
          ((kept.2.and room).and (Trace.everyStep_of_forall valid))
        rintro placed admission ⟨⟨before, hasRoom⟩, isValid⟩
        exact (covered_admission isValid before hasRoom).bounded
  · rw [admissions_of_not_takes takes]
    obtain ⟨result, same⟩ := step_of_not_takes takes
    rw [same]
    exact ⟨covered, trivial⟩

/-- An order under a new id that leaves the limits standing had room. -/
theorem hasRoom_of_bounded
    {placed : List VenueOrder} {admission : Admission S V}
    (valid : admission.Valid) (new : PlacedAnew admission)
    (bounded : BoundedAfter placed admission) :
    HasRoom placed admission := by
  intro one isPlaced
  obtain ⟨missing, sign⟩ := new one isPlaced
  unfold BoundedAfter recordPlaced at bounded
  rw [isPlaced, Option.toList_some, List.singleton_append, valid.risk,
    valid.reservations] at bounded
  unfold Admission.placed at isPlaced
  obtain ⟨orderId, answered, rfl⟩ := Option.map_eq_some_iff.mp isPlaced
  rw [answered] at bounded
  have ends := Ranges.ends_of_forall_subset
    (bounded admission.order.market admission.order.outcome _
      (by rw [lastPlaced_cons, if_pos ⟨rfl, rfl⟩]))
  have moved := @range_of_place admission.before.risk.heldQty
    admission.before.reservations placed
    { orderId := orderId
      order := admission.order
      limits := admission.evaluation.limits }
    { strategy := admission.evaluation.strategy
      market := admission.evaluation.market
      price := admission.order.price
      remainingQty := admission.order.qty } rfl admission.order.market
    admission.order.outcome
  rw [openQty_of_lookup_none missing, min_self, max_self, add_zero, add_zero,
    VenueOrder.amount, if_pos ⟨rfl, rfl⟩] at moved
  refine ⟨sign, ?_, ?_⟩
  · rw [← moved.1]
    exact ends.1
  · rw [← moved.2]
    exact ends.2

/-- In every run whose fills are of its open orders, the position limits hold
once open orders fill, in every state and after every admission, when there is
room for each order that is placed; and an order that is placed under a new id
without room breaks them. -/
theorem bounded_placesWithRoom
    (run : LiveRun S V) (store : Option LiveStore) (venue : V)
    (facts : List (SourceEnvelope Decimal))
    (fills : Trace.EveryStep (step run) (FillsOrders run)
      (start run store venue) facts) :
    (Trace.EveryStep (step run) (PlacesWithRoom run) (start run store venue)
        facts →
      Trace.EveryState (step run) IsBounded (start run store venue) facts ∧
        Trace.EveryStep (step run) (AdmitsBounded run)
          (start run store venue) facts) ∧
      (Trace.EveryStep (step run) (PlacesAnew run) (start run store venue)
          facts →
        Trace.EveryStep (step run) (AdmitsBounded run)
          (start run store venue) facts →
        Trace.EveryStep (step run) (PlacesWithRoom run)
          (start run store venue) facts) := by
  have initial : (start run store venue).state.Registered run ∧
      Covered (start run store venue).state.risk.heldQty
        (start run store venue).state.reservations
        (start run store venue).placed := by
    refine ⟨start_registered run store venue, ?_⟩
    intro market outcome last found
    cases found
  have kept : ∀ (audit : LiveAudit S V) envelope,
      (audit.state.Registered run ∧ Covered audit.state.risk.heldQty
        audit.state.reservations audit.placed) →
      (FillsOrders run audit envelope ∧ PlacesWithRoom run audit envelope) →
      ((step run audit envelope).state.Registered run ∧
        Covered (step run audit envelope).state.risk.heldQty
          (step run audit envelope).state.reservations
          (step run audit envelope).placed) ∧
        AdmitsBounded run audit envelope := by
    rintro audit envelope ⟨registered, covered⟩ ⟨isFill, hasRoom⟩
    have next := step_covered registered covered isFill hasRoom
    exact ⟨⟨step_registered envelope registered, next.1⟩, next.2⟩
  constructor
  · intro room
    have both := fills.and room
    constructor
    · have every := Trace.everyState_of_everyStep
        (fun audit envelope holds good => (kept audit envelope holds good).1)
        initial both
      exact every.imp fun audit holds => holds.2.bounded
    · exact Trace.everyStep_of_everyStep kept initial both
  · intro new bounded
    refine (new.and bounded).imp ?_
    rintro audit envelope ⟨isNew, isBounded⟩
    refine Trace.EveryStep.imp ?_ (isBounded.and
      (Trace.everyStep_of_forall fun admission member =>
        And.intro (admissions_valid run audit.state envelope admission member)
          (isNew admission member)))
    rintro placed admission ⟨after, isValid, anew⟩
    exact hasRoom_of_bounded isValid anew after

/-- A run that may hold one share and a half at one half, and have two orders
open. -/
def twoOrdersRun : LiveRun Unit Nat :=
  { SmallRun.buyerRun with
    risk :=
      { SmallRun.limits with
        maxPositionNotional := 3 / 4
        maxOpenOrders := 2 } }

theorem twoOrdersRun_fills (facts : List (PmMarketEnvelope Decimal))
    (books : facts ⊆ [SmallRun.upBook, SmallRun.downBook])
    (audit : LiveAudit Unit Nat) :
    Trace.EveryStep (step twoOrdersRun) (FillsOrders twoOrdersRun) audit
      (facts.map .pmMarket) := by
  induction facts generalizing audit with
  | nil =>
      trivial
  | cons fact rest ih =>
      refine ⟨?_, ih (fun other mem => books (List.mem_cons_of_mem fact mem)) _⟩
      rcases List.mem_cons.mp (books List.mem_cons_self) with rfl | later
      · trivial
      · rw [List.mem_singleton.mp later]
        trivial

theorem oneOrder_bounded :
    Trace.EveryState (step twoOrdersRun) IsBounded
      (start twoOrdersRun none 1) [.pmMarket SmallRun.upBook] := by
  refine ((bounded_placesWithRoom twoOrdersRun none 1 _
    (twoOrdersRun_fills [SmallRun.upBook] (by simp) _)).1
      ⟨?_, trivial⟩).1
  have single : ((LiveState.start twoOrdersRun none 1).admissions twoOrdersRun
      (.pmMarket SmallRun.upBook)).length = 1 := by
    decide +kernel
  obtain ⟨admission, same⟩ := List.length_eq_one_iff.mp single
  have room : ((LiveState.start twoOrdersRun none 1).admissions twoOrdersRun
      (.pmMarket SmallRun.upBook)).all (fun admission =>
        admission.placed.all fun one =>
          0 ≤ one.order.price ∧
            |leastHeld admission.before.risk.heldQty
                admission.before.reservations [] one.order.market
                one.order.outcome +
              min (one.order.side.signed one.order.qty) 0| *
                one.order.price ≤ one.limits.maxPositionNotional ∧
            |mostHeld admission.before.risk.heldQty
                admission.before.reservations [] one.order.market
                one.order.outcome +
              max (one.order.side.signed one.order.qty) 0| *
                one.order.price ≤ one.limits.maxPositionNotional) =
        true := by
    decide +kernel
  unfold PlacesWithRoom
  simp only [start]
  rw [same] at room ⊢
  refine ⟨?_, trivial⟩
  intro one isPlaced
  rw [List.all_cons, isPlaced, Option.all_some, Bool.and_eq_true,
    decide_eq_true_eq] at room
  exact ⟨Or.inl room.1.1, room.1.2.1, room.1.2.2⟩

/-- Each of two orders is within the limit by itself, and both are over it once
they fill. -/
theorem twoOrders_not_bounded :
    (LiveState.start twoOrdersRun none 1).result = none ∧
      Trace.EveryStep (step twoOrdersRun) (FillsOrders twoOrdersRun)
        (start twoOrdersRun none 1)
        [.pmMarket SmallRun.upBook, .pmMarket SmallRun.downBook] ∧
      ¬ Trace.EveryState (step twoOrdersRun) IsBounded
        (start twoOrdersRun none 1)
        [.pmMarket SmallRun.upBook, .pmMarket SmallRun.downBook] := by
  refine ⟨rfl, twoOrdersRun_fills [SmallRun.upBook, SmallRun.downBook]
    (fun _ member => member) _, ?_⟩
  intro every
  have bounded := every.last
  have exceeds : (lastPlaced (Trace.run (step twoOrdersRun)
      (start twoOrdersRun none 1) [.pmMarket SmallRun.upBook,
        .pmMarket SmallRun.downBook]).placed SmallRun.market .up).any
      (fun last =>
        decide (last.limits.maxPositionNotional <
          |(Trace.run (step twoOrdersRun) (start twoOrdersRun none 1)
              [.pmMarket SmallRun.upBook,
                .pmMarket SmallRun.downBook]).state.risk.heldQty
                SmallRun.market .up +
            ∑ orderId ∈ (Trace.run (step twoOrdersRun)
              (start twoOrdersRun none 1) [.pmMarket SmallRun.upBook,
                .pmMarket SmallRun.downBook]).state.reservations.keySet,
              openQty (Trace.run (step twoOrdersRun)
                (start twoOrdersRun none 1) [.pmMarket SmallRun.upBook,
                  .pmMarket SmallRun.downBook]).state.reservations
                (Trace.run (step twoOrdersRun) (start twoOrdersRun none 1)
                  [.pmMarket SmallRun.upBook,
                    .pmMarket SmallRun.downBook]).placed
                SmallRun.market .up orderId| * last.order.price)) =
        true := by
    decide +kernel
  obtain ⟨last, found, larger⟩ := Option.any_eq_true _ _ |>.mp exceeds
  exact absurd (bounded SmallRun.market .up last found _
    (Finset.Subset.refl _)) (not_le.mpr (of_decide_eq_true larger))

end LiveAudit

end Pmkit
