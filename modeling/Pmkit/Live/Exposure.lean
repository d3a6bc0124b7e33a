import Pmkit.Live.Audit
import Pmkit.Live.Limits
import Pmkit.Live.Reservations

/-!
# The exposure of a market

The gate adds an order to the exposure of the market that its strategy was
evaluated on, and reserves its notional there.  A strategy may name any market
in its order.
-/

namespace Pmkit

open MachineInt

/-- The market of the order that a reservation is for: of an order of an
earlier start, what recovery read of it. -/
def orderMarket (placed : List VenueOrder) (orderId : String)
    (reservation : Reservation) : MarketId :=
  match placedAs placed orderId with
  | some one => one.order.market
  | none => reservation.market

def Labelled (reservations : KeyedMap String Reservation)
    (placed : List VenueOrder) : Prop :=
  ∀ orderId reservation, reservations.lookup orderId = some reservation →
    orderMarket placed orderId reservation = reservation.market

namespace LiveState

variable {S V : Type}

def reservedIn (placed : List VenueOrder) (market : MarketId)
    (state : LiveState S V) : Decimal :=
  ((state.reservations.entries.filter fun entry =>
    orderMarket placed entry.1 entry.2 = market).map fun entry =>
      entry.2.notional).sum

/-- An order is charged to its own market: with it the exposure of the market
is within the limit, and its reservation carries the market. -/
structure Charged (placed : List VenueOrder) (admission : Admission S V) :
    Prop where
  within :
    admission.before.risk.marketNotional admission.order.market +
          admission.before.reservedIn placed admission.order.market +
        admission.order.qty * admission.order.price ≤
      admission.evaluation.limits.maxMarketNotional
  carries : ∀ orderId, admission.orderId = some orderId →
    ∃ reservation,
      admission.after.reservations.lookup orderId = some reservation ∧
        reservation.market = admission.order.market

end LiveState

namespace LiveAudit

variable {S V : Type}

/-- The orders that a fact makes the run admit are charged to their own
markets. -/
def AdmitsCharged (run : LiveRun S V) (audit : LiveAudit S V)
    (envelope : SourceEnvelope Decimal) : Prop :=
  Trace.EveryStep recordPlaced LiveState.Charged audit.placed
    (audit.state.admissions run envelope)

/-- The orders that a fact makes the run admit name the market that their
strategy was evaluated on. -/
def AdmitsOwnMarket (run : LiveRun S V) (audit : LiveAudit S V)
    (envelope : SourceEnvelope Decimal) : Prop :=
  ∀ admission ∈ audit.state.admissions run envelope,
    admission.order.market = admission.evaluation.market

/-- The same of the orders that the venue accepts. -/
def PlacesOwnMarket (run : LiveRun S V) (audit : LiveAudit S V)
    (envelope : SourceEnvelope Decimal) : Prop :=
  ∀ admission ∈ audit.state.admissions run envelope,
    admission.orderId.isSome = true →
      admission.order.market = admission.evaluation.market

end LiveAudit

namespace LiveState

variable {S V : Type}

variable {state : LiveState S V} {placed : List VenueOrder}
  {admission : Admission S V} {envelope : SourceEnvelope Decimal}

/-- When the reservations carry the markets of their orders, the notional of a
market is what the gate adds up. -/
theorem reservedIn_eq
    (labelled : Labelled state.reservations placed) (market : MarketId) :
    state.reservedIn placed market =
      state.reserved fun reservation => reservation.market = market := by
  have same : (state.reservations.entries.filter fun entry =>
        orderMarket placed entry.1 entry.2 = market) =
      state.reservations.entries.filter fun entry =>
        entry.2.market = market := by
    apply List.filter_congr
    intro entry mem
    rw [labelled entry.1 entry.2 (KeyedMap.lookup_iff_mem_entries.mpr mem)]
  rw [reservedIn, same, reserved, KeyedMap.values, List.filter_map,
    List.map_map]
  rfl

/-- The exposure of the evaluated market with an admitted order is within its
limit. -/
theorem passesGate_marketNotional {evaluation : Evaluation} {order : PlaceOrder}
    (passes : state.passesGate evaluation order = true) :
    state.risk.marketNotional evaluation.market +
          state.reserved (fun reservation =>
            reservation.market = evaluation.market) +
        order.qty * order.price ≤ evaluation.limits.maxMarketNotional := by
  unfold passesGate at passes
  rw [Bool.and_eq_true] at passes
  obtain ⟨exposure, found, within⟩ := Option.any_eq_true _ _ |>.mp passes.2
  unfold LiveState.exposure at found
  obtain ⟨dailyPnl, _, rfl⟩ := Option.map_eq_some_iff.mp found
  unfold passesAggregatedRisk at within
  simp only [Bool.and_eq_true, decide_eq_true_eq] at within
  exact within.1.1.1.2

theorem charged_of_ownMarket (valid : admission.Valid)
    (labelled : Labelled admission.before.reservations placed)
    (own : admission.order.market = admission.evaluation.market) :
    Charged placed admission where
  within := by
    rw [reservedIn_eq labelled, own]
    exact passesGate_marketNotional valid.gate
  carries := by
    intro orderId answered
    rw [valid.reservations, answered, own]
    exact ⟨_, AList.lookup_insert _, rfl⟩

/-- An order in another market that the venue accepts is never charged to its
own market. -/
theorem not_charged_of_otherMarket (valid : admission.Valid) {orderId : String}
    (answered : admission.orderId = some orderId)
    (other : admission.order.market ≠ admission.evaluation.market) :
    ¬ Charged placed admission := by
  intro charged
  obtain ⟨reservation, found, market⟩ := charged.carries orderId answered
  rw [valid.reservations, answered, Admission.reserving,
    AList.lookup_insert] at found
  cases found
  exact other market.symm

theorem labelled_admission (valid : admission.Valid)
    (labelled : Labelled admission.before.reservations placed)
    (own : admission.order.market = admission.evaluation.market) :
    Labelled admission.after.reservations
      (recordPlaced placed admission) := by
  rw [valid.reservations]
  unfold recordPlaced Admission.placed
  cases admission.orderId with
  | none =>
      exact labelled
  | some answered =>
      intro orderId reservation found
      simp only [Admission.reserving] at found
      rw [KeyedMap.lookup_insert_eq] at found
      simp only [Option.map_some, Option.toList_some, List.singleton_append]
      unfold orderMarket
      rw [placedAs_cons]
      by_cases same : orderId = answered
      · rw [if_pos same, Option.some.injEq] at found
        rw [if_pos same.symm, ← found]
        exact own
      · rw [if_neg same] at found
        rw [if_neg (Ne.symm same)]
        exact labelled orderId reservation found

/-! ## Facts -/

/-- A change that adds no reservation and moves none to another market. -/
def KeepsMarkets (before after : LiveState S V) : Prop :=
  ∀ orderId reservation,
    after.reservations.lookup orderId = some reservation →
      ∃ kept, before.reservations.lookup orderId = some kept ∧
        kept.market = reservation.market

theorem KeepsMarkets.of_eq {before after : LiveState S V}
    (same : after.reservations = before.reservations) :
    KeepsMarkets before after := by
  intro orderId reservation found
  rw [same] at found
  exact ⟨reservation, found, rfl⟩

theorem Labelled.keepsMarkets {before after : LiveState S V}
    (labelled : Labelled before.reservations placed)
    (keeps : KeepsMarkets before after) :
    Labelled after.reservations placed := by
  intro orderId reservation found
  obtain ⟨kept, known, market⟩ := keeps orderId reservation found
  have before := labelled orderId kept known
  unfold orderMarket at before ⊢
  split
  · rename_i one placedOne
    rw [placedOne] at before
    exact before.trans market
  · rfl

theorem close_keepsMarkets (orderId : String) (state : LiveState S V) :
    KeepsMarkets state (state.close orderId) := by
  intro other reservation found
  simp only [close] at found
  rw [KeyedMap.lookup_erase_eq] at found
  split at found
  · cases found
  · exact ⟨reservation, found, rfl⟩

theorem applyReservationFill_keepsMarkets
    (fill : FillEvent Decimal) (state : LiveState S V) :
    KeepsMarkets state (state.applyReservationFill fill) := by
  unfold applyReservationFill
  simp only
  split
  · exact .of_eq rfl
  · rename_i reservation known
    split
    · exact .of_eq rfl
    · split
      · exact close_keepsMarkets fill.orderId state
      · intro orderId other found
        simp only at found
        rw [KeyedMap.lookup_insert_eq] at found
        by_cases same : orderId = fill.orderId
        · rw [if_pos same, Option.some.injEq] at found
          rw [same, ← found]
          exact ⟨reservation, known, rfl⟩
        · rw [if_neg same] at found
          exact ⟨other, found, rfl⟩

theorem processEvent_keepsMarkets {run : LiveRun S V}
    (none : pipelineOf run envelope state = Option.none) :
    KeepsMarkets state (state.processEvent run envelope) := by
  cases envelope with
  | cexReference reference =>
      cases none
  | pmAccount account =>
      simp only [processEvent, accountEvent]
      split
      · exact .of_eq rfl
      · split
        · split
          · exact applyReservationFill_keepsMarkets _ _
          · exact .of_eq rfl
        · exact close_keepsMarkets _ _
        · exact close_keepsMarkets _ _
        · exact .of_eq rfl
        · exact .of_eq rfl
        · exact .of_eq rfl
  | pmMarket market =>
      cases fact : market.fact with
      | bookUpdate id outcome bids asks timestampMs =>
          rw [pipelineOf, fact] at none
          cases none
      | fill fill =>
          simp only [processEvent, marketEvent, fact]
          split
          · exact .of_eq rfl
          · split
            · exact applyReservationFill_keepsMarkets _ _
            · exact .of_eq rfl
      | bestBidAsk id outcome bid ask timestampMs =>
          simp only [processEvent, marketEvent, fact]
          exact .of_eq rfl
      | lastTrade id outcome price side size timestampMs =>
          simp only [processEvent, marketEvent, fact]
          exact .of_eq rfl
      | orderAck strategy orderId timestampMs =>
          simp only [processEvent, marketEvent, fact]
          exact .of_eq rfl
      | tick timestampMs =>
          simp only [processEvent, marketEvent, fact]
          exact .of_eq rfl

theorem steady_reservations (run : LiveRun S V) :
    Steady run (fun state : LiveState S V => state.reservations) where
  reconcile := reconcileOpenOrders_reservations run
  rates := fun _ _ => rfl
  record := fun evaluation decision state =>
    (recordDecision_sameOrders evaluation decision state).reservations
  strategies := fun _ _ => rfl

theorem pipelineOf_reservations {run : LiveRun S V}
    {next : LiveState S V} {input : PipelineInput}
    {dailyPnl : Option Decimal}
    (reaches : pipelineOf run envelope state = some (input, dailyPnl, next)) :
    next.reservations = state.reservations := by
  rcases pipelineOf_state reaches with rfl | ⟨_, _, _, rfl⟩
  · rfl
  · rw [(recordBreach_sameOrders run _).reservations]

end LiveState

namespace LiveAudit

variable {S V : Type}

open LiveState

variable {envelope : SourceEnvelope Decimal}

/-- A fact whose orders name their own markets charges them, and keeps the
reservations labelled. -/
theorem step_charged {run : LiveRun S V} {audit : LiveAudit S V}
    (registered : audit.state.Registered run)
    (labelled : Labelled audit.state.reservations audit.placed)
    (own : AdmitsOwnMarket run audit envelope) :
    Labelled (step run audit envelope).state.reservations
        (step run audit envelope).placed ∧
      AdmitsCharged run audit envelope := by
  unfold AdmitsCharged
  simp only [step]
  by_cases takes : audit.state.Takes run envelope
  · have stored : (audit.state.storeFact run envelope).reservations =
        audit.state.reservations :=
      (storeFact_sameOrders run envelope audit.state).reservations
    cases reaches : pipelineOf run envelope
        (audit.state.storeFact run envelope) with
    | none =>
        rw [admissions_of_no_pipeline reaches, step_of_takes takes]
        refine ⟨?_, trivial⟩
        rw [← stored] at labelled
        exact Labelled.keepsMarkets labelled
          (processEvent_keepsMarkets reaches)
    | some found =>
        obtain ⟨input, dailyPnl, next⟩ := found
        have chained := admissions_chained (steady_reservations run)
          registered takes reaches
        rw [← stored, ← pipelineOf_reservations reaches] at labelled
        have valid := admissions_valid run audit.state envelope
        have kept := chained_rule
          (fun placed admission mem before _ =>
            labelled_admission (valid admission mem) before
              (own admission mem))
          chained (Trace.everyStep_of_forall valid) labelled
        refine ⟨kept.1, ?_⟩
        refine Trace.EveryStep.imp ?_
          (kept.2.and (Trace.everyStep_of_forall fun admission mem =>
              And.intro (valid admission mem) (own admission mem)))
        rintro placed admission ⟨before, isValid, isOwn⟩
        exact charged_of_ownMarket isValid before isOwn
  · rw [admissions_of_not_takes takes]
    obtain ⟨result, same⟩ := step_of_not_takes takes
    rw [same]
    exact ⟨labelled, trivial⟩

theorem placesOwnMarket_of_charged {run : LiveRun S V} {audit : LiveAudit S V}
    (charged : AdmitsCharged run audit envelope) :
    PlacesOwnMarket run audit envelope := by
  intro admission mem accepted
  obtain ⟨orderId, answered⟩ := Option.isSome_iff_exists.mp accepted
  obtain ⟨placed, isCharged⟩ := charged.exists_of_mem mem
  by_contra other
  exact not_charged_of_otherMarket
    (admissions_valid run audit.state envelope admission mem) answered other
    isCharged

/-- Each admitted order is charged to its own market in every run whose
admitted orders name the market that their strategy was evaluated on, and in no
run with an accepted order that names another. -/
theorem admitsCharged_ownMarket
    (run : LiveRun S V) (store : Option LiveStore) (venue : V)
    (facts : List (SourceEnvelope Decimal)) :
    (Trace.EveryStep (step run) (AdmitsOwnMarket run) (start run store venue)
        facts →
      Trace.EveryStep (step run) (AdmitsCharged run) (start run store venue)
        facts) ∧
      (Trace.EveryStep (step run) (AdmitsCharged run) (start run store venue)
          facts →
        Trace.EveryStep (step run) (PlacesOwnMarket run)
          (start run store venue) facts) := by
  constructor
  · intro own
    refine @Trace.everyStep_of_everyStep _ _ _
      (fun audit => audit.state.Registered run ∧
        Labelled audit.state.reservations audit.placed) _ _ ?_ _ _ ?_ own
    · rintro audit envelope ⟨registered, labelled⟩ ownMarket
      have charged := step_charged registered labelled ownMarket
      exact ⟨⟨step_registered envelope registered, charged.1⟩, charged.2⟩
    · refine ⟨start_registered run store venue, ?_⟩
      intro orderId reservation _
      rfl
  · intro charged
    exact charged.imp fun audit envelope => placesOwnMarket_of_charged

theorem buyerRun_charged :
    Trace.EveryStep (step SmallRun.buyerRun) (AdmitsCharged SmallRun.buyerRun)
      (start SmallRun.buyerRun none 1) [.pmMarket SmallRun.upBook] := by
  refine (admitsCharged_ownMarket SmallRun.buyerRun none 1 _).1 ⟨?_, trivial⟩
  have own : ((LiveState.start SmallRun.buyerRun none 1).admissions
      SmallRun.buyerRun (.pmMarket SmallRun.upBook)).all (fun admission =>
        decide (admission.order.market = admission.evaluation.market)) =
          true := by
    decide +kernel
  intro admission member
  exact of_decide_eq_true (List.all_eq_true.mp own admission member)

/-- A run whose strategy buys one share of another market on every event. -/
def strayRun : LiveRun Unit Nat :=
  { SmallRun.buyerRun with
    onEvent := fun state _ =>
      (state, .ok [.place
        { market := otherMarket
          outcome := .up
          side := .buy
          price := 1 / 2
          qty := 1
          postOnly := false
          tif := .gtc }]) }

/-- The order is admitted on the exposure of the market of its strategy, and
reserved there. -/
theorem strayRun_not_charged :
    (LiveState.start strayRun none 1).result = none ∧
      ¬ Trace.EveryStep (step strayRun) (AdmitsCharged strayRun)
        (start strayRun none 1) [.pmMarket SmallRun.upBook] := by
  refine ⟨rfl, ?_⟩
  intro every
  have stray : ((LiveState.start strayRun none 1).admissions strayRun
      (.pmMarket SmallRun.upBook)).any (fun admission =>
        admission.orderId.isSome &&
          decide (admission.order.market ≠ admission.evaluation.market)) =
        true := by
    decide +kernel
  obtain ⟨admission, member, other⟩ := List.any_eq_true.mp stray
  rw [Bool.and_eq_true, decide_eq_true_eq] at other
  obtain ⟨orderId, answered⟩ := Option.isSome_iff_exists.mp other.1
  obtain ⟨placed, charged⟩ := every.1.exists_of_mem member
  exact not_charged_of_otherMarket
    (admissions_valid strayRun _ _ admission member) answered other.2 charged

end LiveAudit

end Pmkit
