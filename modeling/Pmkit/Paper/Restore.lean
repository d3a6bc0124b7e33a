import Pmkit.Paper.OpenOrders
import Pmkit.Paper.Provenance

/-!
# What a restart rebuilds of the simulator

`rebuild_engine` submits every recorded placement again, without its strategy
and at its remaining quantity, and closes the finished takers with an empty
book in the future.  The rebuilt simulator has the open orders of the ledger
just when no open order has a strategy, none fails the limits at what is left
of it, and no later finished taker of its market sweeps it.
-/

namespace Pmkit

open MachineInt

def TrackedOrder.unowned (tracked : TrackedOrder) : TrackedOrder :=
  { tracked with order := { tracked.order with strategy := none } }

/-- Whether an empty book drops the open order that a tracked one mirrors. -/
def sweepsTracked (market : MarketId) (outcome : Outcome) (nowMs : I64)
    (tracked : TrackedOrder) : Bool :=
  onBook market outcome tracked.order.toOrder &&
    (expired tracked.order.toOrder nowMs ||
      (tracked.state = .delayed && tracked.activeAtMs ≤ nowMs))

def closes (config : SimulationConfig) (closing : PlacedOrder)
    (tracked : TrackedOrder) : Bool :=
  !closing.order.postOnly && decide (0 < config.activationLatencyMs) &&
    sweepsTracked closing.order.market closing.order.outcome
      (closing.timestampMs.saturatingAdd config.activationLatencyMs) tracked

theorem closes_unowned (config : SimulationConfig) (closing : PlacedOrder)
    (tracked : TrackedOrder) :
    closes config closing tracked.unowned = closes config closing tracked := rfl

theorem sweeps_eq_sweepsTracked
    (market : MarketId) (outcome : Outcome) (nowMs : I64)
    (opened : SimEngine.Standing × WorkingOrder) :
    SimEngine.sweeps market outcome nowMs opened =
      sweepsTracked market outcome nowMs
        (ExecutorState.trackedOf opened) := by
  obtain ⟨standing, working⟩ := opened
  cases standing with
  | resting => rfl
  | delayed => rfl

namespace PaperLedger

open ExecutorState (trackedOf stateOf EngineSound ensureMarketLimits_eq_ok_iff)

/-! ## One replayed placement -/

section Placement

variable {idPrefix : String} {config : SimulationConfig} {engine : SimEngine}
  {order : IterationOrder String} {ledger : PaperLedger} {placed : PlacedOrder}
  {placement : Placement}

/-- An empty book since ever drops nothing that was alive when it came. -/
theorem primed_openOrder
    (wellFormed : engine.WellFormed) (restored : PlaceOrder) {key : String}
    (fresh : ∀ opened, engine.openOrder key = some opened → ∀ market outcome,
        SimEngine.sweeps market outcome I64.minValue opened = false) :
    (primed order engine restored).openOrder key = engine.openOrder key := by
  unfold primed
  split
  · rw [SimEngine.updateBook_empty_openOrder wellFormed]
    cases opened : engine.openOrder key with
    | none => rfl
    | some found => simp [fresh found opened, Option.filter_some]
  · rfl

theorem primed_booksEmpty (order : IterationOrder String)
    (wellFormed : engine.WellFormed) (empty : engine.BooksEmpty)
    (restored : PlaceOrder) :
    (primed order engine restored).BooksEmpty := by
  unfold primed
  split
  · exact empty.updateBook wellFormed order _ _ _
  · exact empty

/-- Against empty books a maker or a delayed taker is accepted as soon as it
is admitted, and an immediate taker never. -/
theorem primed_accepts_iff
    (sound : EngineSound idPrefix config engine) (empty : engine.BooksEmpty)
    (restored : PlaceOrder) (nowMs : I64) :
    (primed order engine restored).Accepts restored nowMs ↔
      (expired restored nowMs = false ∧
        ensureMarketLimits restored config = .ok ()) ∧
      acceptedState restored config ≠ .immediate := by
  have primedSound := primed_sound order sound restored
  have primedEmpty := primed_booksEmpty order sound.wellFormed empty
    restored
  have limits := ensureMarketLimits_eq_ok_iff restored
    primedSound.config
  unfold SimEngine.Accepts SimEngine.Admits acceptedState
  rw [limits, primedSound.config]
  cases maker : restored.postOnly with
  | true =>
      have found : ∃ book, (primed order engine restored).books.lookup
          (restored.market, restored.outcome) = some book ∧
            crosses book restored = false := by
        obtain ⟨_, _, books, _⟩ := SimEngine.updateBook_spec sound.wellFormed
          order restored.market restored.outcome (.empty I64.minValue)
        refine ⟨.empty I64.minValue, ?_, SimEngine.crosses_empty _ _⟩
        unfold primed
        rw [if_pos maker, books, KeyedMap.lookup_insert_eq, if_pos rfl]
      simp [found]
  | false =>
      by_cases latency : 0 < config.activationLatencyMs
      · simp [latency]
      · simp [latency, primedEmpty.takerFill]

theorem closeReplayedOrder_openOrder
    (sound : EngineSound idPrefix config engine) (restored : PlaceOrder)
    (orderId : Option String) (submittedMs : I64) (key : String) :
    (closeReplayedOrder order engine restored orderId submittedMs
      config).openOrder key =
      (if orderId = some key then none else engine.openOrder key).filter
        fun opened => !(!restored.postOnly &&
          decide (0 < config.activationLatencyMs) &&
          SimEngine.sweeps restored.market restored.outcome
            (submittedMs.saturatingAdd config.activationLatencyMs) opened) := by
  have swept : ∀ other : SimEngine, other.WellFormed →
      (if !restored.postOnly && decide (0 < config.activationLatencyMs) then
        other.updateBook order restored.market restored.outcome
          (.empty (submittedMs.saturatingAdd config.activationLatencyMs))
      else other).openOrder key =
        (other.openOrder key).filter fun opened => !(!restored.postOnly &&
          decide (0 < config.activationLatencyMs) &&
          SimEngine.sweeps restored.market restored.outcome
            (submittedMs.saturatingAdd config.activationLatencyMs) opened) := by
    intro other wellFormed
    cases (!restored.postOnly && decide (0 < config.activationLatencyMs)) with
    | true =>
        simpa using SimEngine.updateBook_empty_openOrder wellFormed order
          restored.market restored.outcome
          (submittedMs.saturatingAdd config.activationLatencyMs) key
    | false =>
        cases opened : other.openOrder key <;> simp [opened, Option.filter_some]
  unfold closeReplayedOrder
  cases orderId with
  | none =>
      simpa using swept engine sound.wellFormed
  | some id =>
      simp only [Option.some.injEq]
      rw [swept _ (SimEngine.cancel_wellFormed sound.wellFormed id),
        SimEngine.cancel_openOrder sound.wellFormed]
      by_cases same : key = id
      · rw [if_pos same, if_pos same.symm]
      · rw [if_neg same, if_neg (Ne.symm same)]

/-- The open orders after one replayed placement: it joins them when it stays
open, and else drops those its closing sweeps. -/
theorem replayedEngine_openOrder
    (sound : EngineSound idPrefix config engine) (timestampMs : I64)
    (recorded : RecordedOrder) {key : String}
    (fresh : ∀ opened, engine.openOrder key = some opened → ∀ market outcome,
        SimEngine.sweeps market outcome I64.minValue opened = false) :
    (ledger.replayedEngine order config engine timestampMs recorded
      placement).openOrder key =
      if ledger.staysOpen placement then
        if (ledger.replayedSubmission order engine timestampMs recorded
            placement).2 = some key then
          if (ledger.restoredOrder recorded placement).postOnly then
            some (.resting, (primed order engine (ledger.restoredOrder recorded
                placement)).workingOrder
                  (ledger.restoredOrder recorded placement) none timestampMs)
          else if 0 < config.activationLatencyMs then
            some (.delayed, (primed order engine (ledger.restoredOrder recorded
                placement)).workingOrder
                  (ledger.restoredOrder recorded placement) none timestampMs)
          else
            none
        else
          engine.openOrder key
      else
        (engine.openOrder key).filter fun opened =>
          !(!(ledger.restoredOrder recorded placement).postOnly &&
            decide (0 < config.activationLatencyMs) &&
            SimEngine.sweeps (ledger.restoredOrder recorded placement).market
              (ledger.restoredOrder recorded placement).outcome
              (timestampMs.saturatingAdd config.activationLatencyMs)
              opened) := by
  unfold replayedEngine replayedSubmission SimEngine.submit
  generalize ledger.restoredOrder recorded placement = restored
  have primedSound := primed_sound order sound restored
  have submitted := SimEngine.submitWithStrategy_submitted
    (primed order engine restored) restored none timestampMs
  have opened := submitted.openOrder primedSound.wellFormed key
  have resultSound := primedSound.submitted submitted
  rw [primedSound.config, primed_openOrder sound.wellFormed restored fresh]
    at opened
  simp only
  cases ledger.staysOpen placement with
  | true =>
      simpa using opened
  | false =>
      simp only [Bool.false_eq_true, if_false]
      rw [closeReplayedOrder_openOrder resultSound, opened]
      congr 1
      by_cases own : ((primed order engine restored).submitWithStrategy restored
          none timestampMs).2 = some key
      · rw [if_pos own]
        rcases submitted.answer with ⟨_, minted⟩ | ⟨_, none, _⟩
        · rw [own] at minted
          have unused := primedSound.wellFormed.openOrder_nextId
          rw [← Option.some.inj minted,
            primed_openOrder sound.wellFormed restored fresh] at unused
          exact unused.symm
        · rw [own] at none
          cases none
      · rw [if_neg own, if_neg own]

/-- A replayed submission is answered with the next identity, and only when
it was admitted and does not take at once. -/
theorem replayedSubmission_minted
    (sound : EngineSound idPrefix config engine) (empty : engine.BooksEmpty)
    {timestampMs : I64} {recorded : RecordedOrder} {actual : String}
    (answered : (ledger.replayedSubmission order engine timestampMs recorded
      placement).2 = some actual) :
    actual = mintedId idPrefix engine.nextId ∧
      ensureMarketLimits (ledger.restoredOrder recorded placement) config =
        .ok () ∧
      acceptedState (ledger.restoredOrder recorded placement) config ≠
        .immediate := by
  rw [replayedSubmission, SimEngine.submit] at answered
  have primedSound := primed_sound order sound
    (ledger.restoredOrder recorded placement)
  rcases (SimEngine.submitWithStrategy_submitted
    (primed order engine (ledger.restoredOrder recorded placement))
    (ledger.restoredOrder recorded placement) none timestampMs).answer with
    ⟨accepted, own⟩ | ⟨_, none, _⟩
  · rw [answered, primedSound.idPrefix,
      primed_nextId order sound.wellFormed] at own
    rw [primed_accepts_iff sound empty] at accepted
    exact ⟨Option.some.inj own, accepted.1.2, accepted.2⟩
  · rw [answered] at none
    cases none

theorem replayedEngine_booksEmpty
    (sound : EngineSound idPrefix config engine) (empty : engine.BooksEmpty)
    (timestampMs : I64) (recorded : RecordedOrder) :
    (ledger.replayedEngine order config engine timestampMs recorded
      placement).BooksEmpty := by
  unfold replayedEngine replayedSubmission SimEngine.submit
  generalize ledger.restoredOrder recorded placement = restored
  have primedSound := primed_sound order sound restored
  have submitted := SimEngine.submitWithStrategy_submitted
    (primed order engine restored) restored none timestampMs
  have resultSound := primedSound.submitted submitted
  have resultEmpty : ((primed order engine restored).submitWithStrategy
      restored none timestampMs).1.BooksEmpty := by
    unfold SimEngine.BooksEmpty
    rw [submitted.frame.1]
    exact primed_booksEmpty order sound.wellFormed empty restored
  simp only
  split
  · exact resultEmpty
  · unfold closeReplayedOrder
    cases minted : ((primed order engine restored).submitWithStrategy restored
        none timestampMs).2 with
    | none =>
        simp only
        split
        · exact resultEmpty.updateBook resultSound.wellFormed order _ _ _
        · exact resultEmpty
    | some id =>
        have cancelledEmpty := resultEmpty.cancel id
        simp only
        split
        · exact cancelledEmpty.updateBook
            (SimEngine.cancel_wellFormed resultSound.wellFormed id) order _ _ _
        · exact cancelledEmpty

/-- The counter moves just when the replayed placement is admitted again. -/
theorem replayedEngine_nextId
    (order : IterationOrder String) (ledger : PaperLedger)
    (placement : Placement)
    (sound : EngineSound idPrefix config engine) (timestampMs : I64)
    (recorded : RecordedOrder) :
    ((expired recorded.toOrder timestampMs = false ∧
        ensureMarketLimits (ledger.restoredOrder recorded placement) config =
          .ok ()) ∧
      (ledger.replayedEngine order config engine timestampMs recorded
        placement).nextId = engine.nextId + 1) ∨
    (¬ (expired recorded.toOrder timestampMs = false ∧
        ensureMarketLimits (ledger.restoredOrder recorded placement) config =
          .ok ()) ∧
      (ledger.replayedEngine order config engine timestampMs recorded
        placement).nextId = engine.nextId) := by
  rw [← ExecutorState.expired_restoredOrder ledger recorded placement]
  unfold replayedEngine replayedSubmission SimEngine.submit
  generalize ledger.restoredOrder recorded placement = restored
  have primedSound := primed_sound order sound restored
  have submitted := SimEngine.submitWithStrategy_submitted
    (primed order engine restored) restored none timestampMs
  have resultSound := primedSound.submitted submitted
  have closed : ∀ stays : Bool,
      (if stays then
        ((primed order engine restored).submitWithStrategy restored none
          timestampMs).1
      else
        closeReplayedOrder order
          ((primed order engine restored).submitWithStrategy restored none
            timestampMs).1 restored
          ((primed order engine restored).submitWithStrategy restored none
            timestampMs).2 timestampMs config).nextId =
        ((primed order engine restored).submitWithStrategy restored none
          timestampMs).1.nextId := by
    intro stays
    cases stays with
    | true => rfl
    | false => exact closeReplayedOrder_nextId resultSound.wellFormed _ _ _ _
  simp only
  rw [closed, ensureMarketLimits_eq_ok_iff _ primedSound.config]
  have start := primed_nextId order sound.wellFormed restored
  by_cases admitted : (primed order engine restored).Admits restored timestampMs
  · left
    refine ⟨admitted, ?_⟩
    rw [ExecutorState.nextId_of_submitted submitted admitted, start]
  · right
    refine ⟨admitted, ?_⟩
    rw [← start]
    generalize (primed order engine restored).submitWithStrategy restored none
      timestampMs = result at submitted
    cases submitted with
    | refused notAdmitted => rfl
    | unfilled isAdmitted _ => exact absurd isAdmitted admitted
    | rests accepted _ => exact absurd accepted.1 admitted
    | waits accepted _ _ => exact absurd accepted.1 admitted
    | takes accepted _ _ _ _ => exact absurd accepted.1 admitted

theorem replayedEngine_sound
    (sound : EngineSound idPrefix config engine) (timestampMs : I64)
    (recorded : RecordedOrder) :
    EngineSound idPrefix config
      (ledger.replayedEngine order config engine timestampMs recorded
        placement) := by
  have resultSound := (primed_sound order sound
    (ledger.restoredOrder recorded placement)).submitted
      (SimEngine.submitWithStrategy_submitted _
        (ledger.restoredOrder recorded placement) none timestampMs)
  unfold replayedEngine replayedSubmission SimEngine.submit
  simp only
  split
  · exact resultSound
  · exact closeReplayedOrder_sound resultSound _ _ _ _

end Placement

/-! ## The placements of a closed ledger -/

section Placements

variable {ledger : PaperLedger} {config : SimulationConfig}
  {order : IterationOrder String} {engine next : SimEngine} {index : Nat}
  {placed : PlacedOrder} {tracked : TrackedOrder}

theorem Provenance.comesFrom (provenance : ledger.Provenance config)
    (found : ledger.orders.lookup (mintedId ledger.idPrefix index) =
      some tracked) :
    ∃ placed, ledger.ComesFrom config (mintedId ledger.idPrefix index) tracked
      index placed := by
  obtain ⟨other, placed, comes⟩ := provenance.tracked _ tracked found
  have same : index = other := mintedId_inj.mp comes.identity
  subst same
  exact ⟨placed, comes⟩

/-- An open order was alive when it was placed, and waits only under a
latency: the beginning of time sweeps none. -/
theorem Provenance.unswept
    (provenance : ledger.Provenance config) {key : String}
    (found : ledger.orders.lookup key = some tracked) (market : MarketId)
    (outcome : Outcome) :
    sweepsTracked market outcome I64.minValue tracked = false := by
  obtain ⟨index, placed, comes⟩ := provenance.tracked key tracked found
  obtain ⟨placement, stored, acked⟩ := comes.acknowledged
  have alive : expired placed.order.toOrder placed.timestampMs = false :=
    provenance.alive index placed placement tracked.state comes.recorded stored
      acked index (le_refl index) placed comes.recorded
  have early : expired tracked.order.toOrder I64.minValue = false := by
    rw [comes.order]
    unfold expired at alive ⊢
    simp only [RecordedOrder.toOrder] at alive ⊢
    cases tif : placed.order.tif with
    | gtc => rfl
    | gtd expireAtMs =>
        rw [tif] at alive
        simp only [decide_eq_false_iff_not, not_le] at alive ⊢
        exact lt_of_le_of_lt (I64.minValue_le placed.timestampMs) alive
  have waits : tracked.state = .delayed →
      I64.minValue < tracked.activeAtMs := by
    intro delayed
    rw [comes.activeAtMs]
    apply I64.minValue_lt_saturatingAdd
    by_contra immediate
    rw [comes.state, acceptedState, if_neg immediate] at delayed
    split at delayed
    · cases delayed
    · cases delayed
  unfold sweepsTracked
  by_cases delayed : tracked.state = .delayed
  · simp [early, waits delayed]
  · simp [early, delayed]

/-- A placement of a closed ledger, as it is replayed. -/
structure ReplaysAs (ledger : PaperLedger) (config : SimulationConfig)
    (index : Nat) (placed : PlacedOrder) (placement : Placement) : Prop where
  found : ledger.placements.lookup placed.eventId = some placement
  identity : placement.expectedOrderId = mintedId ledger.idPrefix index
  staysOpen : ledger.staysOpen placement = true ↔
    (ledger.orders.lookup (mintedId ledger.idPrefix index)).isSome
  tracked : ∀ tracked,
    ledger.orders.lookup (mintedId ledger.idPrefix index) = some tracked →
      ledger.restoredOrder placed.order placement = tracked.order.toOrder ∧
      acceptedState tracked.order.toOrder config = tracked.state ∧
      tracked.state ≠ .immediate ∧
      ∃ state, placement.terminal = some (.ack state)
  finished : ledger.orders.lookup (mintedId ledger.idPrefix index) = none →
    ledger.restoredOrder placed.order placement = placed.order.toOrder

theorem Provenance.replaysAs
    (provenance : ledger.Provenance config) (closed : ledger.Closed)
    (recorded : ledger.placedOrders[index]? = some placed) :
    ∃ placement, ledger.ReplaysAs config index placed placement := by
  obtain ⟨terminal, stored⟩ := provenance.numbered.placement index placed
    recorded
  refine ⟨_, stored, rfl, ?_, ?_, ?_⟩
  · unfold staysOpen
    cases found : ledger.orders.lookup (mintedId ledger.idPrefix index) with
    | none => simp
    | some tracked =>
        obtain ⟨other, comes⟩ := provenance.comesFrom found
        have same := comes.recorded.symm.trans recorded
        cases same
        obtain ⟨placement, again, acked⟩ := comes.acknowledged
        rw [stored] at again
        cases again
        simp only at acked
        simp [acked]
  · intro tracked found
    obtain ⟨other, comes⟩ := provenance.comesFrom found
    have same := comes.recorded.symm.trans recorded
    cases same
    obtain ⟨placement, again, acked⟩ := comes.acknowledged
    rw [stored] at again
    cases again
    have order := comes.order
    refine ⟨?_, ?_, closed.orders _ tracked found, _, acked⟩
    · unfold restoredOrder
      simp only [found]
      rw [← order]
    · rw [comes.state, order]
      rfl
  · intro absent
    unfold restoredOrder
    simp only [absent]

variable {rest : List PlacedOrder} {count : Nat}

theorem getElem?_and_drop_of_drop
    {items : List PlacedOrder} {item : PlacedOrder}
    (remaining : items.drop count = item :: rest) :
    items[count]? = some item ∧ items.drop (count + 1) = rest := by
  constructor
  · rw [← List.head?_drop, remaining]
    rfl
  · rw [← List.drop_drop, remaining]
    rfl

/-- The state of the loop of `rebuild_engine` after some placements: what is
open mirrors a tracked order that passed the limits again and that no
placement since has swept. -/
structure Rebuilding (ledger : PaperLedger) (config : SimulationConfig)
    (count : Nat) (engine : SimEngine) : Prop where
  sound : EngineSound ledger.idPrefix config engine
  booksEmpty : engine.BooksEmpty
  lags : engine.nextId ≤ count
  alive : engine.nextId = count → ∀ placed ∈ ledger.placedOrders.take count,
    expired placed.order.toOrder placed.timestampMs = false
  origin : ∀ key opened, engine.openOrder key = some opened →
    ∃ index < count, ∃ tracked, key = mintedId ledger.idPrefix index ∧
      ledger.orders.lookup key = some tracked ∧
      trackedOf opened = tracked.unowned ∧
      ensureMarketLimits tracked.order.toOrder config = .ok () ∧
      ∀ later < count, index < later → ∀ closing,
        ledger.placedOrders[later]? = some closing →
        ledger.orders.lookup (mintedId ledger.idPrefix later) = none →
          closes config closing tracked = false

theorem Rebuilding.unswept (provenance : ledger.Provenance config)
    (rebuilding : ledger.Rebuilding config count engine) (key : String)
    (opened : SimEngine.Standing × WorkingOrder)
    (found : engine.openOrder key = some opened) (market : MarketId)
    (outcome : Outcome) :
    SimEngine.sweeps market outcome I64.minValue opened = false := by
  obtain ⟨index, before, tracked, identity, lookup, mirrors, _⟩ :=
    rebuilding.origin key opened found
  rw [sweeps_eq_sweepsTracked, mirrors]
  exact provenance.unswept lookup market outcome

/-- The open order of a restored maker or delayed taker mirrors its tracked
order, without the owner. -/
theorem trackedOf_restored (sound : EngineSound ledger.idPrefix config engine)
    (comes : ledger.ComesFrom config (mintedId ledger.idPrefix index) tracked
      index placed)
    (standing : SimEngine.Standing) (state : stateOf standing = tracked.state) :
    trackedOf (standing, engine.workingOrder tracked.order.toOrder none
      placed.timestampMs) = tracked.unowned := by
  simp only [trackedOf, SimEngine.workingOrder, TrackedOrder.unowned, state,
    sound.config, ← comes.submittedMs]
  rw [comes.submittedMs, ← comes.activeAtMs]
  rfl

/-- Where a replayed placement that stays open stands. -/
theorem standing_of_acceptedState {restored : PlaceOrder} {state : OrderState}
    (accepts : acceptedState restored config = state)
    (waits : state ≠ .immediate) (working : WorkingOrder) :
    ∃ standing, stateOf standing = state ∧
      (if restored.postOnly then
        some (SimEngine.Standing.resting, working)
      else if 0 < config.activationLatencyMs then
        some (.delayed, working)
      else
        none) = some (standing, working) := by
  unfold acceptedState at accepts
  by_cases maker : restored.postOnly = true
  · rw [if_pos maker] at accepts
    exact ⟨.resting, accepts, by rw [if_pos maker]⟩
  · rw [if_neg maker] at accepts
    by_cases latency : 0 < config.activationLatencyMs
    · rw [if_pos latency] at accepts
      exact ⟨.delayed, accepts, by rw [if_neg maker, if_pos latency]⟩
    · rw [if_neg latency] at accepts
      exact absurd accepts.symm waits

theorem Rebuilding.step
    (provenance : ledger.Provenance config) (closed : ledger.Closed)
    {count : Nat} (rebuilding : ledger.Rebuilding config count engine)
    (recorded : ledger.placedOrders[count]? = some placed)
    (replayed : ledger.replayPlacement order config engine placed.eventId
      placed.timestampMs placed.order = .ok next) :
    ledger.Rebuilding config (count + 1) next := by
  obtain ⟨placement, replays⟩ := provenance.replaysAs closed recorded
  obtain ⟨matched, rfl⟩ :=
    (replayPlacement_eq_ok_iff replays.found).mp replayed
  have sound := rebuilding.sound
  have lags := rebuilding.lags
  refine ⟨replayedEngine_sound sound _ _,
    replayedEngine_booksEmpty sound rebuilding.booksEmpty _ _, ?_, ?_, ?_⟩
  · rcases replayedEngine_nextId order ledger placement sound
      placed.timestampMs placed.order with
      ⟨_, nextId⟩ | ⟨_, nextId⟩
    · omega
    · omega
  · intro counted other mem
    rcases replayedEngine_nextId order ledger placement sound
      placed.timestampMs placed.order with
      ⟨admitted, nextId⟩ | ⟨_, nextId⟩
    · rw [List.take_add_one, List.mem_append, recorded] at mem
      rcases mem with older | last
      · exact rebuilding.alive (by omega) other older
      · rw [Option.toList_some, List.mem_singleton] at last
        rw [last]
        exact admitted.1
    · omega
  · intro key opened found
    rw [replayedEngine_openOrder sound _ _ (fun opened isOpen =>
      rebuilding.unswept provenance key opened isOpen)] at found
    by_cases stays : ledger.staysOpen placement = true
    · obtain ⟨tracked, tracks⟩ :=
        Option.isSome_iff_exists.mp (replays.staysOpen.mp stays)
      obtain ⟨restored, accepts, waits, acked⟩ := replays.tracked tracked tracks
      obtain ⟨other, comes⟩ := provenance.comesFrom tracks
      have same := comes.recorded.symm.trans recorded
      cases same
      rw [if_pos stays] at found
      by_cases own : (ledger.replayedSubmission order engine placed.timestampMs
          placed.order placement).2 = some key
      · have identity : key = mintedId ledger.idPrefix count :=
          (matched acked key own).trans replays.identity
        rw [if_pos own, restored] at found
        have primedSound := primed_sound order sound
          tracked.order.toOrder
        obtain ⟨standing, state, chosen⟩ := standing_of_acceptedState accepts
          waits ((primed order engine tracked.order.toOrder).workingOrder
            tracked.order.toOrder none placed.timestampMs)
        rw [chosen] at found
        cases found
        obtain ⟨_, limits, _⟩ := replayedSubmission_minted sound
          rebuilding.booksEmpty own
        rw [restored] at limits
        refine ⟨count, Nat.lt_succ_self count, tracked, identity, ?_,
          trackedOf_restored primedSound comes standing state, limits, ?_⟩
        · rw [identity]
          exact tracks
        · intro later bound after
          omega
      · rw [if_neg own] at found
        obtain ⟨index, before, older, identity, lookup, mirrors, limits,
          kept⟩ := rebuilding.origin key opened found
        refine ⟨index, Nat.lt_succ_of_lt before, older, identity, lookup,
          mirrors, limits, ?_⟩
        intro later bound after closing laterFound absent
        by_cases last : later = count
        · rw [last, tracks] at absent
          cases absent
        · exact kept later (by omega) after closing laterFound absent
    · rw [if_neg stays, Option.filter_eq_some_iff] at found
      obtain ⟨wasOpen, survived⟩ := found
      obtain ⟨index, before, older, identity, lookup, mirrors, limits, kept⟩ :=
        rebuilding.origin key opened wasOpen
      refine ⟨index, Nat.lt_succ_of_lt before, older, identity, lookup,
        mirrors, limits, ?_⟩
      intro later bound after closing laterFound absent
      by_cases last : later = count
      · rw [last, recorded] at laterFound
        cases laterFound
        rw [last] at absent
        rw [replays.finished absent, sweeps_eq_sweepsTracked, mirrors]
          at survived
        rw [← closes_unowned]
        exact (Bool.not_eq_true' _).mp survived
      · exact kept later (by omega) after closing laterFound absent

theorem Rebuilding.replayPlaced
    (provenance : ledger.Provenance config) (closed : ledger.Closed)
    (rebuilding : ledger.Rebuilding config count engine)
    (remaining : ledger.placedOrders.drop count = rest)
    (replayed : ledger.replayPlaced order config engine rest = .ok next) :
    ledger.Rebuilding config (count + rest.length) next := by
  induction rest generalizing engine count with
  | nil =>
      cases replayed
      exact rebuilding
  | cons placed rest ih =>
      obtain ⟨recorded, later⟩ := getElem?_and_drop_of_drop remaining
      rw [PaperLedger.replayPlaced] at replayed
      cases first : ledger.replayPlacement order config engine placed.eventId
          placed.timestampMs placed.order with
      | error error =>
          rw [first] at replayed
          cases replayed
      | ok middle =>
          rw [first] at replayed
          have done := ih
            (rebuilding.step provenance closed recorded first) later replayed
          rw [List.length_cons]
          convert done using 1
          omega

/-! ## When everything is restored -/

/-- What lets an open order through the replay: it has no owner, what is left
of it passes the limits, and no finished placement after it sweeps it. -/
structure Restorable (ledger : PaperLedger) (config : SimulationConfig) :
    Prop where
  unowned : ∀ orderId tracked,
    ledger.orders.lookup orderId = some tracked → tracked.order.strategy = none
  limits : ∀ orderId tracked, ledger.orders.lookup orderId = some tracked →
    ensureMarketLimits tracked.order.toOrder config = .ok ()
  kept : ∀ index tracked,
    ledger.orders.lookup (mintedId ledger.idPrefix index) = some tracked →
      ∀ later closing, index < later →
        ledger.placedOrders[later]? = some closing →
        ledger.orders.lookup (mintedId ledger.idPrefix later) = none →
          closes config closing tracked = false

/-- Every tracked order replayed so far is open, and the counter is exact as
long as an acknowledged placement is to come. -/
structure Completing (ledger : PaperLedger) (config : SimulationConfig)
    (count : Nat) (engine : SimEngine) : Prop where
  rebuilding : ledger.Rebuilding config count engine
  counted : ∀ index placed placement state, count ≤ index →
    ledger.placedOrders[index]? = some placed →
    ledger.placements.lookup placed.eventId = some placement →
    placement.terminal = some (.ack state) → engine.nextId = count
  opened : ∀ index < count, ∀ tracked,
    ledger.orders.lookup (mintedId ledger.idPrefix index) = some tracked →
      (engine.openOrder (mintedId ledger.idPrefix index)).isSome

theorem Restorable.passes (provenance : ledger.Provenance config)
    (restorable : ledger.Restorable config)
    (recorded : ledger.placedOrders[index]? = some placed)
    {placement : Placement}
    (replays : ledger.ReplaysAs config index placed placement) :
    ensureMarketLimits (ledger.restoredOrder placed.order placement) config =
      .ok () := by
  cases found : ledger.orders.lookup (mintedId ledger.idPrefix index) with
  | none =>
      rw [replays.finished found]
      exact provenance.passes placed (List.mem_of_getElem? recorded)
  | some tracked =>
      rw [(replays.tracked tracked found).1]
      exact restorable.limits _ tracked found

theorem Completing.step (order : IterationOrder String)
    (provenance : ledger.Provenance config) (closed : ledger.Closed)
    (restorable : ledger.Restorable config) {count : Nat}
    (completing : ledger.Completing config count engine)
    (recorded : ledger.placedOrders[count]? = some placed) :
    ∃ next, ledger.replayPlacement order config engine placed.eventId
        placed.timestampMs placed.order = .ok next ∧
      ledger.Completing config (count + 1) next := by
  obtain ⟨placement, replays⟩ := provenance.replaysAs closed recorded
  have sound := completing.rebuilding.sound
  have empty := completing.rebuilding.booksEmpty
  have passes := restorable.passes provenance recorded replays
  have primedSound := primed_sound order sound
    (ledger.restoredOrder placed.order placement)
  have submitted := SimEngine.submitWithStrategy_submitted
    (primed order engine (ledger.restoredOrder placed.order placement))
    (ledger.restoredOrder placed.order placement) none placed.timestampMs
  have succeeds : ledger.replayPlacement order config engine placed.eventId
      placed.timestampMs placed.order = .ok
        (ledger.replayedEngine order config engine placed.timestampMs
          placed.order placement) := by
    rw [replayPlacement_eq_ok_iff replays.found]
    refine ⟨?_, rfl⟩
    rintro ⟨state, acked⟩ actual answered
    have counted := completing.counted count placed placement state
      (le_refl count) recorded replays.found acked
    rw [(replayedSubmission_minted sound empty answered).1, counted,
      replays.identity]
  refine ⟨_, succeeds, completing.rebuilding.step provenance closed recorded
    succeeds, ?_, ?_⟩
  · intro index later answer state bound laterFound stored acked
    have counted := completing.counted index later answer state (by omega)
      laterFound stored acked
    have alive := provenance.alive index later answer state laterFound stored
      acked count (by omega) placed recorded
    rcases replayedEngine_nextId order ledger placement sound
      placed.timestampMs placed.order with
      ⟨_, nextId⟩ | ⟨refused, _⟩
    · omega
    · exact absurd ⟨alive, passes⟩ refused
  · intro index bound tracked tracks
    rw [replayedEngine_openOrder sound _ _ (fun opened isOpen =>
      completing.rebuilding.unswept provenance _ opened isOpen)]
    by_cases last : index = count
    · subst last
      have stays := replays.staysOpen.mpr (by rw [tracks]; rfl)
      obtain ⟨restored, accepts, waits, state, acked⟩ :=
        replays.tracked tracked tracks
      have counted := completing.counted index placed placement state
        (le_refl index) recorded replays.found acked
      have alive := provenance.alive index placed placement state recorded
        replays.found acked index (le_refl index) placed recorded
      have accepted : (primed order engine (ledger.restoredOrder placed.order
          placement)).Accepts (ledger.restoredOrder placed.order placement)
            placed.timestampMs := by
        rw [primed_accepts_iff sound empty]
        refine ⟨⟨?_, passes⟩, ?_⟩
        · rw [ExecutorState.expired_restoredOrder]
          exact alive
        · rw [restored, accepts]
          exact waits
      have own : (ledger.replayedSubmission order engine placed.timestampMs
          placed.order placement).2 =
            some (mintedId ledger.idPrefix index) := by
        rw [replayedSubmission, SimEngine.submit]
        rcases submitted.answer with ⟨_, own⟩ | ⟨refused, _⟩
        · rw [own, primedSound.idPrefix, primed_nextId order sound.wellFormed,
            counted]
        · exact absurd accepted refused
      rw [if_pos stays, if_pos own, restored]
      obtain ⟨standing, _, chosen⟩ := standing_of_acceptedState accepts waits
        ((primed order engine tracked.order.toOrder).workingOrder
          tracked.order.toOrder none placed.timestampMs)
      rw [chosen]
      rfl
    · have wasOpen := completing.opened index (by omega) tracked tracks
      obtain ⟨opened, isOpen⟩ := Option.isSome_iff_exists.mp wasOpen
      by_cases stays : ledger.staysOpen placement = true
      · have other : (ledger.replayedSubmission order engine
            placed.timestampMs placed.order placement).2 ≠
              some (mintedId ledger.idPrefix index) := by
          intro answered
          have fresh := sound.wellFormed.openOrder_nextId
          rw [sound.idPrefix,
            ← (replayedSubmission_minted sound empty answered).1, isOpen]
            at fresh
          cases fresh
        rw [if_pos stays, if_neg other]
        exact wasOpen
      · have absent : ledger.orders.lookup (mintedId ledger.idPrefix count) =
            none := by
          rw [← Option.not_isSome_iff_eq_none, ← replays.staysOpen]
          exact stays
        obtain ⟨_, _, older, _, lookup, mirrors, _⟩ :=
          completing.rebuilding.origin _ opened isOpen
        rw [tracks] at lookup
        cases lookup
        have kept := restorable.kept index tracked tracks count placed
          (by omega) recorded absent
        rw [← closes_unowned, ← mirrors, closes,
          ← sweeps_eq_sweepsTracked] at kept
        rw [if_neg stays, replays.finished absent, isOpen, Option.filter_some]
        simp only [RecordedOrder.toOrder, kept, Bool.not_false, if_true,
          Option.isSome_some]

theorem Completing.replayPlaced (order : IterationOrder String)
    (provenance : ledger.Provenance config) (closed : ledger.Closed)
    (restorable : ledger.Restorable config)
    (completing : ledger.Completing config count engine)
    (remaining : ledger.placedOrders.drop count = rest) :
    ∃ next, ledger.replayPlaced order config engine rest = .ok next ∧
      ledger.Completing config (count + rest.length) next := by
  induction rest generalizing engine count with
  | nil =>
      exact ⟨engine, rfl, completing⟩
  | cons placed rest ih =>
      obtain ⟨recorded, later⟩ := getElem?_and_drop_of_drop remaining
      obtain ⟨middle, first, progressed⟩ := completing.step order
        provenance closed restorable recorded
      obtain ⟨next, replayed, done⟩ := ih progressed later
      refine ⟨next, ?_, ?_⟩
      · rw [PaperLedger.replayPlaced, first]
        exact replayed
      · rw [List.length_cons]
        convert done using 1
        omega

/-- No placement is renumbered: an open order that fails the limits now is
followed by no acknowledged placement that would be answered again. -/
def KeepsNumbers (ledger : PaperLedger) (config : SimulationConfig) : Prop :=
  ∀ index tracked,
    ledger.orders.lookup (mintedId ledger.idPrefix index) = some tracked →
    ensureMarketLimits tracked.order.toOrder config ≠ .ok () →
      ∀ later placed placement state, index < later →
        ledger.placedOrders[later]? = some placed →
        ledger.placements.lookup placed.eventId = some placement →
        placement.terminal = some (.ack state) →
        acceptedState placed.order.toOrder config ≠ .immediate →
          ensureMarketLimits (ledger.restoredOrder placed.order placement)
            config ≠ .ok ()

/-- The counter is exact as long as an acknowledged placement is to come,
unless an open order failed the limits. -/
structure Numbering (ledger : PaperLedger) (config : SimulationConfig)
    (count : Nat) (engine : SimEngine) : Prop where
  rebuilding : ledger.Rebuilding config count engine
  counted : ∀ index placed placement state, count ≤ index →
    ledger.placedOrders[index]? = some placed →
    ledger.placements.lookup placed.eventId = some placement →
    placement.terminal = some (.ack state) →
      engine.nextId = count ∨ ∃ earlier < count, ∃ tracked,
        ledger.orders.lookup (mintedId ledger.idPrefix earlier) =
          some tracked ∧
        ensureMarketLimits tracked.order.toOrder config ≠ .ok ()

theorem acceptedState_restoredOrder
    (ledger : PaperLedger) (recorded : RecordedOrder) (placement : Placement)
    (config : SimulationConfig) :
    acceptedState (ledger.restoredOrder recorded placement) config =
      acceptedState recorded.toOrder config := by
  unfold restoredOrder
  split
  · rfl
  · rfl

theorem Numbering.step (order : IterationOrder String)
    (provenance : ledger.Provenance config) (closed : ledger.Closed)
    (keeps : ledger.KeepsNumbers config) {count : Nat}
    (numbering : ledger.Numbering config count engine)
    (recorded : ledger.placedOrders[count]? = some placed) :
    ∃ next, ledger.replayPlacement order config engine placed.eventId
        placed.timestampMs placed.order = .ok next ∧
      ledger.Numbering config (count + 1) next := by
  obtain ⟨placement, replays⟩ := provenance.replaysAs closed recorded
  have sound := numbering.rebuilding.sound
  have empty := numbering.rebuilding.booksEmpty
  have succeeds : ledger.replayPlacement order config engine placed.eventId
      placed.timestampMs placed.order = .ok
        (ledger.replayedEngine order config engine placed.timestampMs
          placed.order placement) := by
    rw [replayPlacement_eq_ok_iff replays.found]
    refine ⟨?_, rfl⟩
    rintro ⟨state, acked⟩ actual answered
    obtain ⟨minted, limits, waits⟩ :=
      replayedSubmission_minted sound empty answered
    rcases numbering.counted count placed placement state (le_refl count)
      recorded replays.found acked with
      counted | ⟨earlier, before, tracked, found, failed⟩
    · rw [minted, counted, replays.identity]
    · rw [acceptedState_restoredOrder] at waits
      exact absurd limits (keeps earlier tracked found failed count placed
        placement state before recorded replays.found acked waits)
  refine ⟨_, succeeds, numbering.rebuilding.step provenance closed recorded
    succeeds, ?_⟩
  intro index later answer state bound laterFound stored acked
  rcases numbering.counted index later answer state (by omega) laterFound
    stored acked with counted | ⟨earlier, before, failing⟩
  · have alive := provenance.alive index later answer state laterFound stored
      acked count (by omega) placed recorded
    rcases replayedEngine_nextId order ledger placement sound
      placed.timestampMs placed.order with
      ⟨_, nextId⟩ | ⟨refused, _⟩
    · exact .inl (by omega)
    · have failed : ensureMarketLimits (ledger.restoredOrder placed.order
          placement) config ≠ .ok () := fun passes => refused ⟨alive, passes⟩
      cases found : ledger.orders.lookup
          (mintedId ledger.idPrefix count) with
      | none =>
          rw [replays.finished found] at failed
          exact absurd
            (provenance.passes placed (List.mem_of_getElem? recorded)) failed
      | some tracked =>
          rw [(replays.tracked tracked found).1] at failed
          exact .inr ⟨count, Nat.lt_succ_self count, tracked, found, failed⟩
  · exact .inr ⟨earlier, Nat.lt_succ_of_lt before, failing⟩

theorem Numbering.replayPlaced (order : IterationOrder String)
    (provenance : ledger.Provenance config) (closed : ledger.Closed)
    (keeps : ledger.KeepsNumbers config)
    (numbering : ledger.Numbering config count engine)
    (remaining : ledger.placedOrders.drop count = rest) :
    ∃ next, ledger.replayPlaced order config engine rest = .ok next := by
  induction rest generalizing engine count with
  | nil =>
      exact ⟨engine, rfl⟩
  | cons placed rest ih =>
      obtain ⟨recorded, later⟩ := getElem?_and_drop_of_drop remaining
      obtain ⟨middle, first, progressed⟩ := numbering.step order
        provenance closed keeps recorded
      obtain ⟨next, replayed⟩ := ih progressed later
      refine ⟨next, ?_⟩
      rw [PaperLedger.replayPlaced, first]
      exact replayed

theorem withFeeConfig_rebuilding
    (ledger : PaperLedger) (config : SimulationConfig) :
    ledger.Rebuilding config 0 (.withFeeConfig ledger.idPrefix 0 config) where
  sound := ⟨SimEngine.withFeeConfig_wellFormed _ 0 config, rfl, rfl⟩
  booksEmpty := by
    intro key book found
    simp [SimEngine.withFeeConfig] at found
  lags := le_refl 0
  alive := by simp
  origin := by
    intro key opened found
    have none : (SimEngine.withFeeConfig ledger.idPrefix 0 config).openOrder
        key = none := rfl
    rw [none] at found
    cases found

theorem rebuilding_of_rebuildEngine
    (provenance : ledger.Provenance config) (closed : ledger.Closed)
    (rebuilt : ledger.rebuildEngine order config = .ok engine) :
    ledger.Rebuilding config ledger.placedOrders.length engine := by
  obtain ⟨replayed, replays, rfl⟩ := rebuildEngine_eq_ok_iff.mp rebuilt
  have done := (withFeeConfig_rebuilding ledger config).replayPlaced
    provenance closed rfl replays
  rw [List.drop_zero, Nat.zero_add] at done
  exact ⟨done.sound.drainFills, done.booksEmpty, done.lags, done.alive,
    done.origin⟩

theorem KeepsNumbers.rebuildEngine
    (provenance : ledger.Provenance config) (closed : ledger.Closed)
    (keeps : ledger.KeepsNumbers config) (order : IterationOrder String) :
    ∃ engine, ledger.rebuildEngine order config = .ok engine := by
  have start : ledger.Numbering config 0
      (.withFeeConfig ledger.idPrefix 0 config) :=
    ⟨withFeeConfig_rebuilding ledger config, fun _ _ _ _ _ _ _ _ => .inl rfl⟩
  obtain ⟨replayed, replays⟩ := start.replayPlaced order provenance
    closed keeps rfl
  rw [List.drop_zero] at replays
  exact ⟨_, rebuildEngine_eq_ok_iff.mpr ⟨replayed, replays, rfl⟩⟩

/-- `rebuild_engine` returns an engine whose open orders are exactly the
tracked ones. -/
def Restores (ledger : PaperLedger) (order : IterationOrder String)
    (config : SimulationConfig) : Prop :=
  ∃ engine, ledger.rebuildEngine order config = .ok engine ∧
    ∀ orderId, (engine.openOrder orderId).map trackedOf =
      ledger.orders.lookup orderId

theorem Restores.restorable
    (provenance : ledger.Provenance config) (closed : ledger.Closed)
    (restores : ledger.Restores order config) : ledger.Restorable config := by
  obtain ⟨engine, rebuilt, mirrors⟩ := restores
  have rebuilding := rebuilding_of_rebuildEngine provenance closed rebuilt
  have source : ∀ orderId tracked,
      ledger.orders.lookup orderId = some tracked →
        ∃ index, orderId = mintedId ledger.idPrefix index ∧
          tracked = tracked.unowned ∧
          ensureMarketLimits tracked.order.toOrder config = .ok () ∧
          ∀ later closing, index < later →
            ledger.placedOrders[later]? = some closing →
            ledger.orders.lookup (mintedId ledger.idPrefix later) = none →
              closes config closing tracked = false := by
    intro orderId tracked found
    have restored := mirrors orderId
    rw [found] at restored
    obtain ⟨opened, isOpen, same⟩ := Option.map_eq_some_iff.mp restored
    obtain ⟨index, _, older, identity, lookup, unowned, limits, kept⟩ :=
      rebuilding.origin orderId opened isOpen
    rw [found] at lookup
    cases lookup
    refine ⟨index, identity, same.symm.trans unowned, limits, ?_⟩
    intro later closing after laterFound absent
    exact kept later (List.getElem?_eq_some_iff.mp laterFound).1 after closing
      laterFound absent
  refine ⟨?_, ?_, ?_⟩
  · intro orderId tracked found
    obtain ⟨_, _, unowned, _⟩ := source orderId tracked found
    rw [unowned]
    rfl
  · intro orderId tracked found
    obtain ⟨_, _, _, limits, _⟩ := source orderId tracked found
    exact limits
  · intro index tracked found
    obtain ⟨other, identity, _, _, kept⟩ := source _ tracked found
    have same : index = other := mintedId_inj.mp identity
    subst same
    exact kept

theorem Restorable.restores
    (provenance : ledger.Provenance config) (closed : ledger.Closed)
    (restorable : ledger.Restorable config) (order : IterationOrder String) :
    ledger.Restores order config := by
  have start : ledger.Completing config 0
      (.withFeeConfig ledger.idPrefix 0 config) :=
    ⟨withFeeConfig_rebuilding ledger config, fun _ _ _ _ _ _ _ _ => rfl,
      fun _ no => absurd no (Nat.not_lt_zero _)⟩
  obtain ⟨replayed, replays, done⟩ := start.replayPlaced order
    provenance closed restorable rfl
  rw [List.drop_zero] at replays done
  refine ⟨replayed.drainFills.1,
    rebuildEngine_eq_ok_iff.mpr ⟨replayed, replays, rfl⟩, ?_⟩
  intro orderId
  change (replayed.openOrder orderId).map trackedOf = _
  cases isOpen : replayed.openOrder orderId with
  | some opened =>
      obtain ⟨_, _, tracked, _, lookup, mirrors, _⟩ :=
        done.rebuilding.origin orderId opened isOpen
      have unowned := restorable.unowned orderId tracked lookup
      rw [Option.map_some, mirrors, lookup, TrackedOrder.unowned, ← unowned]
  | none =>
      cases found : ledger.orders.lookup orderId with
      | none => rfl
      | some tracked =>
          obtain ⟨index, placed, comes⟩ :=
            provenance.tracked orderId tracked found
          have bound := (List.getElem?_eq_some_iff.mp comes.recorded).1
          rw [comes.identity] at found isOpen
          have stillOpen := done.opened index (by omega) tracked found
          rw [isOpen] at stillOpen
          cases stillOpen

end Placements

end PaperLedger

def LifecycleEvent.Under (config : SimulationConfig) : LifecycleEvent → Prop
  | .call _ => True
  | .restart _ restartConfig => restartConfig = config

namespace ExecutorState

variable {idPrefix : String} {config : SimulationConfig} {state : ExecutorState}

theorem reread_provenance (provenance : state.ledger.Provenance config) :
    state.reread.Provenance config where
  numbered := ⟨provenance.numbered.count, provenance.numbered.placement⟩
  passes := provenance.passes
  alive := provenance.alive
  tracked := by
    intro orderId tracked found
    obtain ⟨index, placed, comes⟩ := provenance.tracked orderId tracked found
    exact ⟨index, placed, comes.recorded, comes.identity, comes.acknowledged,
      comes.state, comes.submittedMs, comes.activeAtMs, comes.order⟩

theorem reread_closed (closed : state.ledger.Closed) : state.reread.Closed :=
  ⟨closed.placements, closed.orders⟩

theorem Traced.restart
    (traced : state.Traced idPrefix config) (order : IterationOrder String) :
    (state.restart order config).Traced idPrefix config := by
  unfold ExecutorState.restart
  cases restarted : reconstructWithFeeConfig order state.ledger.idPrefix config
      state.ledger.entries with
  | error error =>
      exact traced
  | ok next =>
      obtain ⟨closed, engine, rebuilt, rfl⟩ :=
        (reconstructWithFeeConfig_eq_ok_iff traced.sound.recorded).mp restarted
      have provenance := reread_provenance traced.provenance
      have rebuilding := PaperLedger.rebuilding_of_rebuildEngine provenance
        (reread_closed closed) rebuilt
      have samePrefix : state.reread.idPrefix = idPrefix :=
        traced.sound.ledgerPrefix
      have count : state.reread.placedOrders.length =
          state.reread.nextOrderId := provenance.numbered.count
      refine ⟨⟨reread_recorded traced.sound.recorded,
        rebuilding.sound.wellFormed, rebuilding.sound.idPrefix.trans samePrefix,
        samePrefix, rebuilding.sound.config, rfl⟩, provenance, ?_, ?_⟩
      · rw [← count]
        exact rebuilding.lags
      · intro counted
        have alive := rebuilding.alive (counted.trans count.symm)
        rw [List.take_length] at alive
        exact alive

theorem Traced.live
    (traced : state.Traced idPrefix config) (event : LifecycleEvent)
    (under : event.Under config) :
    (state.live event).Traced idPrefix config := by
  cases event with
  | call call => exact traced.step call
  | restart order restartConfig =>
      cases under
      exact traced.restart order

theorem run_traced {events : List LifecycleEvent}
    (under : ∀ event ∈ events, event.Under config)
    (traced : state.Traced idPrefix config) :
    (Trace.run ExecutorState.live state events).Traced idPrefix config := by
  induction events generalizing state with
  | nil =>
      exact traced
  | cons event rest ih =>
      exact ih
        (fun later mem => under later (List.mem_cons_of_mem event mem))
        (traced.live event (under event List.mem_cons_self))

/-- What an executor wrote, through any calls and restarts under one
configuration, rebuilds the simulator just when every open order gets through
the replay. -/
theorem restores_iff_restorable
    (idPrefix : String) (config : SimulationConfig) (initialCash : Money)
    (events : List LifecycleEvent)
    (under : ∀ event ∈ events, event.Under config)
    (order : IterationOrder String) (ledger : PaperLedger)
    (reconstructed : PaperLedger.reconstruct order
      (Trace.run live (withAccountFeeConfig idPrefix config initialCash)
        events).ledger.entries idPrefix = .ok ledger) :
    ledger.Restores order config ↔ ledger.Restorable config := by
  have traced := run_traced under
    (withAccountFeeConfig_traced idPrefix config initialCash)
  generalize Trace.run live (withAccountFeeConfig idPrefix config initialCash)
    events = state at traced reconstructed
  rw [← traced.sound.ledgerPrefix,
    traced.sound.recorded.reconstruct_eq_ok_iff] at reconstructed
  obtain ⟨closed, rfl⟩ := reconstructed
  have provenance := reread_provenance traced.provenance
  exact ⟨fun restores => restores.restorable provenance (reread_closed closed),
    fun restorable => restorable.restores provenance (reread_closed closed)
      order⟩

end ExecutorState

namespace Sample

/-- Two delayed takers, the second cancelled while both wait. -/
def waitingTakers : List LifecycleEvent :=
  [.call (update 0),
    .call (.submit true (order .buy (50 / 100) false .gtc) 100),
    .call (.submit true (order .buy (50 / 100) false .gtc) 150),
    .call (.cancel "paper-1")]

end Sample

namespace ExecutorState

theorem restartedMaker_restores :
    ∃ ledger, PaperLedger.reconstruct (.stored String)
        (Trace.run live
          (withAccountFeeConfig "paper" (Sample.config 0 none) 100)
          Sample.restartedMaker).ledger.entries "paper" = .ok ledger ∧
      ledger.Restores (.stored String) (Sample.config 0 none) := by
  cases reconstructed : PaperLedger.reconstruct (.stored String)
      (Trace.run live
        (withAccountFeeConfig "paper" (Sample.config 0 none) 100)
        Sample.restartedMaker).ledger.entries "paper" with
  | error error =>
      have succeeds : (PaperLedger.reconstruct (.stored String)
          (Trace.run live
            (withAccountFeeConfig "paper" (Sample.config 0 none) 100)
            Sample.restartedMaker).ledger.entries "paper").toOption.isSome := by
        decide +kernel
      rw [reconstructed] at succeeds
      cases succeeds
  | ok ledger =>
      have facts : (PaperLedger.reconstruct (.stored String)
          (Trace.run live
            (withAccountFeeConfig "paper" (Sample.config 0 none) 100)
            Sample.restartedMaker).ledger.entries "paper").toOption.all
              fun ledger => decide (ledger.placedOrders.length = 1) &&
                ledger.orders.entries.all fun entry =>
                  decide (entry.2.order.strategy = none) := by
        decide +kernel
      rw [reconstructed] at facts
      simp only [Except.toOption, Option.all_some, Bool.and_eq_true,
        decide_eq_true_eq, List.all_eq_true] at facts
      refine ⟨ledger, rfl, (restores_iff_restorable "paper"
        (Sample.config 0 none) 100 Sample.restartedMaker ?_ (.stored String)
        ledger reconstructed).mpr ⟨?_, fun _ _ _ => rfl, ?_⟩⟩
      · simp [Sample.restartedMaker, LifecycleEvent.Under]
      · intro orderId tracked found
        exact facts.2 _ (AList.mem_lookup_iff.mp found)
      · intro index tracked found later closing after laterFound
        have bound := (List.getElem?_eq_some_iff.mp laterFound).1
        omega

/-- Closing the cancelled taker sweeps the one that still waits. -/
theorem waitingTakers_not_restores :
    (∀ event ∈ Sample.waitingTakers, event.Under (Sample.config 100 none)) ∧
    ∃ ledger, PaperLedger.reconstruct (.stored String)
        (Trace.run live
          (withAccountFeeConfig "paper" (Sample.config 100 none) 100)
          Sample.waitingTakers).ledger.entries "paper" = .ok ledger ∧
      ¬ ledger.Restores (.stored String) (Sample.config 100 none) := by
  refine ⟨by simp [Sample.waitingTakers, LifecycleEvent.Under], ?_⟩
  have facts : (PaperLedger.reconstruct (.stored String)
      (Trace.run live
        (withAccountFeeConfig "paper" (Sample.config 100 none) 100)
        Sample.waitingTakers).ledger.entries "paper").toOption.any
          fun ledger => (ledger.orders.lookup "paper-0").isSome &&
            (ledger.rebuildEngine (.stored String)
              (Sample.config 100 none)).toOption.all fun engine =>
                (engine.openOrder "paper-0").isNone := by
    decide +kernel
  obtain ⟨ledger, reconstructed, lost⟩ := (Option.any_eq_true _ _).mp facts
  rw [Bool.and_eq_true] at lost
  refine ⟨ledger, ?_, ?_⟩
  · cases result : PaperLedger.reconstruct (.stored String)
        (Trace.run live
          (withAccountFeeConfig "paper" (Sample.config 100 none) 100)
          Sample.waitingTakers).ledger.entries "paper" with
    | error error =>
        rw [result] at reconstructed
        cases reconstructed
    | ok found =>
        rw [result] at reconstructed
        cases reconstructed
        rfl
  · rintro ⟨engine, rebuilt, mirrors⟩
    have missing := lost.2
    rw [rebuilt] at missing
    have absent : engine.openOrder "paper-0" = none :=
      Option.isNone_iff_eq_none.mp missing
    have tracked := lost.1
    rw [← mirrors "paper-0", absent] at tracked
    cases tracked

end ExecutorState

end Pmkit
