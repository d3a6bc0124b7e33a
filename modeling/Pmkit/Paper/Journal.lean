import Pmkit.Paper.Calls

/-!
# The placements of a ledger

The placements of a ledger, in the order they were recorded, are numbered by
the order identities the ledger expects for them.  `rebuild_engine` reads the
entries only through this list.
-/

namespace Pmkit

open MachineInt

/-- A recorded placement: the identity and the time of its entry. -/
structure PlacedOrder where
  eventId : String
  timestampMs : I64
  order : RecordedOrder
  deriving DecidableEq

def placedOf (entry : PaperLedgerEntry) : Option PlacedOrder :=
  match entry.event with
  | .orderPlaced order => some ⟨entry.eventId, entry.timestampMs, order⟩
  | _ => none

namespace PaperLedger

def placedOrders (ledger : PaperLedger) : List PlacedOrder :=
  ledger.entries.filterMap placedOf

/-- The placements are numbered by their expected order identities. -/
structure Numbered (ledger : PaperLedger) : Prop where
  count : ledger.placedOrders.length = ledger.nextOrderId
  placement : ∀ index placed, ledger.placedOrders[index]? = some placed →
    ∃ terminal, ledger.placements.lookup placed.eventId =
      some ⟨placed.order, mintedId ledger.idPrefix index, terminal⟩

theorem new_numbered (initialCash : Money) (idPrefix : String) :
    (new initialCash idPrefix).Numbered where
  count := rfl
  placement := by
    intro index placed found
    have none : (new initialCash idPrefix).placedOrders = [] := rfl
    rw [none] at found
    cases found

theorem placedOrders_record (ledger : PaperLedger) (entry : PaperLedgerEntry) :
    (ledger.record entry).placedOrders =
      ledger.placedOrders ++ (placedOf entry).toList := by
  simp only [placedOrders, record, List.filterMap_append]
  cases placed : placedOf entry with
  | none => simp [placed]
  | some order => simp [placed]

variable {ledger : PaperLedger}

theorem placedOrders_of_entries
    {next : PaperLedger} (same : next.entries = ledger.entries) :
    next.placedOrders = ledger.placedOrders := by
  unfold placedOrders
  rw [same]

/-- Answering a placement keeps its order and its expected identity. -/
theorem Numbered.answer (numbered : ledger.Numbered) {placementId : String}
    {placement : Placement}
    (found : ledger.placements.lookup placementId = some placement)
    (answer : PlacementOutcome) {index : Nat} {placed : PlacedOrder}
    (mem : ledger.placedOrders[index]? = some placed) :
    ∃ terminal, (AList.insert placementId
        { placement with terminal := some answer }
        ledger.placements).lookup placed.eventId =
      some ⟨placed.order, mintedId ledger.idPrefix index, terminal⟩ := by
  obtain ⟨terminal, stored⟩ := numbered.placement index placed mem
  rw [KeyedMap.lookup_insert_eq]
  by_cases same : placed.eventId = placementId
  · rw [same, found] at stored
    cases stored
    exact ⟨some answer, by rw [if_pos same]⟩
  · exact ⟨terminal, by rw [if_neg same]; exact stored⟩

theorem Numbered.append (recorded : ledger.Recorded)
    (numbered : ledger.Numbered) (timestampMs : I64)
    (event : PaperLedgerEvent) :
    (ledger.append timestampMs event).1.Numbered := by
  rcases append_cases recorded.nextFresh timestampMs event with
    ⟨next, applied, appended⟩ | ⟨error, fees, refused⟩
  · rw [appended]
    have entries := placedOrders_of_entries applied.frame.1
    cases applied with
    | orderPlaced order fresh =>
        constructor
        · rw [placedOrders_record, entries]
          simp [placedOf, nextEntry, numbered.count]
        · intro index placed found
          rw [placedOrders_record, entries] at found
          simp only [placedOf, nextEntry, Option.toList_some] at found
          simp only [record_placements, record_idPrefix,
            KeyedMap.lookup_insert_eq]
          by_cases old : index < ledger.placedOrders.length
          · rw [List.getElem?_append_left old] at found
            obtain ⟨terminal, stored⟩ :=
              numbered.placement index placed found
            refine ⟨terminal, ?_⟩
            rw [if_neg]
            · exact stored
            · intro same
              rw [same, fresh] at stored
              cases stored
          · rw [List.getElem?_append_right (not_lt.mp old)] at found
            have first : index - ledger.placedOrders.length = 0 := by
              by_contra later
              rw [List.getElem?_eq_none (by simp; omega)] at found
              cases found
            rw [first] at found
            cases found
            refine ⟨none, ?_⟩
            have last : index = ledger.nextOrderId := by
              rw [← numbered.count]
              omega
            simp [last]
    | orderAck placementId orderId state activeAtMs placement found unanswered
        expected =>
        constructor
        · rw [placedOrders_record, entries]
          simpa [placedOf, nextEntry] using numbered.count
        · intro index placed mem
          rw [placedOrders_record, entries] at mem
          simp only [placedOf, nextEntry, Option.toList_none,
            List.append_nil] at mem
          exact numbered.answer found (.ack state) mem
    | orderRejected placementId orderId placement found unanswered expected =>
        constructor
        · rw [placedOrders_record, entries]
          simpa [placedOf, nextEntry] using numbered.count
        · intro index placed mem
          rw [placedOrders_record, entries] at mem
          simp only [placedOf, nextEntry, Option.toList_none,
            List.append_nil] at mem
          exact numbered.answer found .rejected mem
    | _ =>
        constructor
        · rw [placedOrders_record, entries]
          simpa [placedOf, nextEntry] using numbered.count
        · intro index placed mem
          rw [placedOrders_record, entries] at mem
          simp only [placedOf, nextEntry, Option.toList_none,
            List.append_nil] at mem
          exact numbered.placement index placed mem
  · rw [refused]
    exact ⟨numbered.count, numbered.placement⟩

theorem Grows.numbered {later : PaperLedger} (grows : ledger.Grows later)
    (recorded : ledger.Recorded) (numbered : ledger.Numbered) :
    later.Numbered := by
  have both : later.Recorded ∧ later.Numbered :=
    grows.preserves
      (fun ledger => ledger.Recorded ∧ ledger.Numbered)
      (fun _ timestampMs event noCash holds =>
        ⟨holds.1.append timestampMs noCash,
          holds.2.append holds.1 timestampMs event⟩)
      ⟨recorded, numbered⟩
  exact both.2

/-! ## Calls that place nothing -/

structure SamePlacements (ledger later : PaperLedger) : Prop where
  placements : later.placements = ledger.placements
  placedOrders : later.placedOrders = ledger.placedOrders
  nextOrderId : later.nextOrderId = ledger.nextOrderId
  idPrefix : later.idPrefix = ledger.idPrefix

theorem SamePlacements.refl (ledger : PaperLedger) :
    SamePlacements ledger ledger :=
  ⟨rfl, rfl, rfl, rfl⟩

theorem SamePlacements.trans {middle later : PaperLedger}
    (first : SamePlacements ledger middle)
    (second : SamePlacements middle later) : SamePlacements ledger later :=
  ⟨second.placements.trans first.placements,
    second.placedOrders.trans first.placedOrders,
    second.nextOrderId.trans first.nextOrderId,
    second.idPrefix.trans first.idPrefix⟩

theorem recordFill_samePlacements
    (ledger : PaperLedger) (fill : FillEvent Decimal) :
    SamePlacements ledger (ledger.recordFill fill).1 := by
  have step := recordFill_step ledger fill
  generalize ledger.recordFill fill = result at step
  cases step with
  | recorded tracked found matched accepted =>
      refine ⟨rfl, ?_, rfl, rfl⟩
      rw [placedOrders_record]
      simp [placedOrders, placedOf, nextEntry, fillEventOf]
  | unmatched error unknown =>
      exact .refl ledger
  | refused tracked error found matched notAccepted =>
      exact ⟨rfl, rfl, rfl, rfl⟩

theorem recordFills_samePlacements
    (ledger : PaperLedger) (fills : List (FillEvent Decimal)) :
    SamePlacements ledger (ledger.recordFills fills).1 :=
  recordFills_related .refl .trans
    (fun ledger fill _ => recordFill_samePlacements ledger fill) ledger

theorem cancelEach_samePlacements
    (timestampMs : I64) (ledger : PaperLedger) (orderIds : List String) :
    SamePlacements ledger (ledger.cancelEach timestampMs orderIds).1 := by
  refine cancelEach_related .refl .trans ?_ orderIds ledger
  intro ledger orderId tracked found
  refine ⟨rfl, ?_, rfl, rfl⟩
  rw [placedOrders_record]
  simp [placedOrders, placedOf, nextEntry]

theorem settle_samePlacements
    (ledger : PaperLedger) (market : MarketId) (outcome : Outcome)
    (settledSize proceeds : Decimal) (timestampMs : I64) :
    SamePlacements ledger
      (ledger.settle market outcome settledSize proceeds timestampMs).1 := by
  rcases settle_cases ledger market outcome settledSize proceeds timestampMs
    with ⟨next, applied, settled⟩ | ⟨error, failed⟩
  · rw [settled]
    cases applied
    refine ⟨rfl, ?_, rfl, rfl⟩
    rw [placedOrders_record]
    simp [placedOrders, placedOf, nextEntry]
  · rw [failed]
    exact .refl ledger

def submittedOrder (ledger : PaperLedger) (order : PlaceOrder)
    (strategy : Option StrategyId) (timestampMs : I64) : PlacedOrder where
  eventId := ledger.nextEventId
  timestampMs := timestampMs
  order := .fromOrder order strategy

section Placement

variable (ledger : PaperLedger) (order : PlaceOrder)
  (strategy : Option StrategyId) (timestampMs : I64)

theorem placed_placedOrders :
    (ledger.placed order strategy timestampMs).placedOrders =
      ledger.placedOrders ++
        [ledger.submittedOrder order strategy timestampMs] := by
  rw [placed, placedOrders_record]
  rfl

theorem rejected_placedOrders :
    (ledger.rejected order strategy timestampMs).placedOrders =
      ledger.placedOrders ++
        [ledger.submittedOrder order strategy timestampMs] := by
  rw [rejected, placedOrders_record, ← placed_placedOrders]
  simp [placedOrders, placedOf, nextEntry]

theorem acknowledged_placedOrders (state : OrderState) (activeAtMs : I64) :
    (ledger.acknowledged order strategy state activeAtMs
        timestampMs).placedOrders =
      ledger.placedOrders ++
        [ledger.submittedOrder order strategy timestampMs] := by
  rw [acknowledged, placedOrders_record, ← placed_placedOrders]
  simp [placedOrders, placedOf, nextEntry]

end Placement

end PaperLedger

namespace ExecutorState

/-- The calls that place nothing leave every placement alone. -/
theorem updateBook_samePlacements
    (receiverOpen : Bool) (fillOrder cancelOrder : IterationOrder String)
    (state : ExecutorState) (market : MarketId) (outcome : Outcome)
    (book : OrderBookL2) :
    state.ledger.SamePlacements (state.updateBook receiverOpen fillOrder
      cancelOrder market outcome book).1.ledger := by
  obtain ⟨orderIds, ledger⟩ := updateBook_ledger receiverOpen fillOrder
    cancelOrder state market outcome book
  rw [ledger]
  exact (PaperLedger.recordFills_samePlacements _ _).trans
    (PaperLedger.cancelEach_samePlacements _ _ _)

theorem cancel_samePlacements (state : ExecutorState) (orderId : String) :
    state.ledger.SamePlacements (state.cancel orderId).1.ledger := by
  obtain ⟨orderIds, ledger⟩ := cancel_ledger state orderId
  rw [ledger]
  exact PaperLedger.cancelEach_samePlacements _ _ _

end ExecutorState

namespace PaperLedger

/-- The loop of `rebuild_engine` over the placements alone. -/
def replayPlaced (order : IterationOrder String) (ledger : PaperLedger)
    (config : SimulationConfig) :
    SimEngine → List PlacedOrder → Except PaperLedgerError SimEngine
  | engine, [] => .ok engine
  | engine, placed :: rest => do
      let engine ← ledger.replayPlacement order config engine placed.eventId
        placed.timestampMs placed.order
      replayPlaced order ledger config engine rest

theorem replayPlacements_eq
    (order : IterationOrder String) (ledger : PaperLedger)
    (config : SimulationConfig) (engine : SimEngine)
    (entries : List PaperLedgerEntry) :
    ledger.replayPlacements order config engine entries =
      ledger.replayPlaced order config engine (entries.filterMap placedOf) := by
  induction entries generalizing engine with
  | nil =>
      rfl
  | cons entry rest ih =>
      rw [replayPlacements]
      cases kind : entry.event with
      | orderPlaced recorded =>
          have placed : placedOf entry =
              some ⟨entry.eventId, entry.timestampMs, recorded⟩ := by
            rw [placedOf, kind]
          rw [List.filterMap_cons, placed]
          simp only [replayPlaced]
          cases ledger.replayPlacement order config engine entry.eventId
              entry.timestampMs recorded with
          | error error => rfl
          | ok next => exact ih next
      | _ =>
          have placed : placedOf entry = none := by
            rw [placedOf, kind]
          rw [List.filterMap_cons, placed]
          exact ih engine

/-! ## One replayed placement -/

section Replay

variable {idPrefix : String} {config : SimulationConfig} {engine : SimEngine}
  {order : IterationOrder String}

/-- A maker is replayed against a book that is empty since ever. -/
def primed (order : IterationOrder String) (engine : SimEngine)
    (restored : PlaceOrder) : SimEngine :=
  if restored.postOnly then
    engine.updateBook order restored.market restored.outcome
      (.empty I64.minValue)
  else
    engine

theorem primed_sound (order : IterationOrder String)
    (sound : ExecutorState.EngineSound idPrefix config engine)
    (restored : PlaceOrder) :
    ExecutorState.EngineSound idPrefix config
      (primed order engine restored) := by
  unfold primed
  split
  · exact sound.updateBook order _ _ _
  · exact sound

theorem primed_nextId (order : IterationOrder String)
    (wellFormed : engine.WellFormed) (restored : PlaceOrder) :
    (primed order engine restored).nextId = engine.nextId := by
  unfold primed
  split
  · obtain ⟨_, _, _, nextId, _⟩ := SimEngine.updateBook_spec wellFormed order
      restored.market restored.outcome (.empty I64.minValue)
    exact nextId
  · rfl

theorem closeReplayedOrder_sound
    (sound : ExecutorState.EngineSound idPrefix config engine)
    (placed : PlaceOrder) (orderId : Option String) (submittedMs : I64)
    (closing : SimulationConfig) :
    ExecutorState.EngineSound idPrefix config
      (closeReplayedOrder order engine placed orderId submittedMs closing) := by
  unfold closeReplayedOrder
  cases orderId with
  | none =>
      simp only
      split
      · exact sound.updateBook order _ _ _
      · exact sound
  | some id =>
      simp only
      split
      · exact (sound.cancel id).updateBook order _ _ _
      · exact sound.cancel id

theorem closeReplayedOrder_nextId
    (wellFormed : engine.WellFormed) (placed : PlaceOrder)
    (orderId : Option String) (submittedMs : I64)
    (closing : SimulationConfig) :
    (closeReplayedOrder order engine placed orderId submittedMs
      closing).nextId = engine.nextId := by
  have swept : ∀ other : SimEngine, other.WellFormed →
      (other.updateBook order placed.market placed.outcome
        (.empty (submittedMs.saturatingAdd closing.activationLatencyMs))).nextId =
        other.nextId := by
    intro other otherFormed
    obtain ⟨_, _, _, nextId, _⟩ := SimEngine.updateBook_spec otherFormed order
      placed.market placed.outcome
      (.empty (submittedMs.saturatingAdd closing.activationLatencyMs))
    exact nextId
  unfold closeReplayedOrder
  cases orderId with
  | none =>
      simp only
      split
      · exact swept engine wellFormed
      · rfl
  | some id =>
      have cancelled := SimEngine.cancel_nextId engine id
      simp only
      split
      · rw [swept _ (SimEngine.cancel_wellFormed wellFormed id), cancelled]
      · exact cancelled

def replayedSubmission (order : IterationOrder String) (ledger : PaperLedger)
    (engine : SimEngine) (timestampMs : I64) (recorded : RecordedOrder)
    (placement : Placement) : SimEngine × Option String :=
  (primed order engine (ledger.restoredOrder recorded placement)).submit
    (ledger.restoredOrder recorded placement) timestampMs

def staysOpen (ledger : PaperLedger) (placement : Placement) : Bool :=
  (match placement.terminal with
    | some (.ack _) => true
    | _ => false) &&
    (ledger.orders.lookup placement.expectedOrderId).isSome

def replayedEngine (order : IterationOrder String) (ledger : PaperLedger)
    (config : SimulationConfig) (engine : SimEngine) (timestampMs : I64)
    (recorded : RecordedOrder) (placement : Placement) : SimEngine :=
  let result := ledger.replayedSubmission order engine timestampMs recorded
    placement
  if ledger.staysOpen placement then
    result.1
  else
    closeReplayedOrder order result.1
      (ledger.restoredOrder recorded placement) result.2 timestampMs config

/-- Replaying a placement succeeds unless an acknowledged one is minted
another identity. -/
theorem replayPlacement_eq_ok_iff
    {ledger : PaperLedger} {eventId : String} {timestampMs : I64}
    {recorded : RecordedOrder} {placement : Placement} {next : SimEngine}
    (found : ledger.placements.lookup eventId = some placement) :
    ledger.replayPlacement order config engine eventId timestampMs recorded =
        .ok next ↔
      ((∃ state, placement.terminal = some (.ack state)) →
        ∀ actual, (ledger.replayedSubmission order engine timestampMs recorded
          placement).2 = some actual → actual = placement.expectedOrderId) ∧
      next = ledger.replayedEngine order config engine timestampMs recorded
        placement := by
  unfold replayedEngine staysOpen replayedSubmission primed
  simp only [replayPlacement, found]
  generalize SimEngine.submit (if (ledger.restoredOrder recorded
    placement).postOnly = true then _ else engine) _ timestampMs = result
  cases terminal : placement.terminal with
  | none =>
      simp [eq_comm]
  | some answer =>
      cases answer with
      | rejected =>
          simp [eq_comm]
      | ack state =>
          by_cases diverged : (result.2.any fun actual =>
              actual ≠ placement.expectedOrderId) = true
          · obtain ⟨actual, minted, ne⟩ :=
              (Option.any_eq_true _ _).mp diverged
            simp only [diverged, if_true, reduceCtorEq, false_iff, not_and]
            intro matched
            have same := matched ⟨state, rfl⟩ actual minted
            simp [same] at ne
          · have matched : ∀ actual, result.2 = some actual →
                actual = placement.expectedOrderId := by
              intro actual minted
              by_contra ne
              exact diverged ((Option.any_eq_true _ _).mpr
                ⟨actual, minted, by simpa using ne⟩)
            rw [if_neg diverged]
            by_cases tracked :
                (ledger.orders.lookup placement.expectedOrderId).isSome = true
            · simpa [tracked, eq_comm] using fun _ => matched
            · simpa [tracked, eq_comm] using fun _ => matched

end Replay

theorem rebuildEngine_eq_ok_iff
    {order : IterationOrder String} {ledger : PaperLedger}
    {config : SimulationConfig} {engine : SimEngine} :
    ledger.rebuildEngine order config = .ok engine ↔
      ∃ replayed, ledger.replayPlaced order config
          (.withFeeConfig ledger.idPrefix 0 config) ledger.placedOrders =
            .ok replayed ∧
        engine = replayed.drainFills.1 := by
  have unfolded : ledger.rebuildEngine order config =
      (ledger.replayPlaced order config
        (.withFeeConfig ledger.idPrefix 0 config) ledger.placedOrders).map
          fun replayed => replayed.drainFills.1 := by
    simp only [rebuildEngine, replayPlacements_eq]
    rfl
  rw [unfolded]
  cases ledger.replayPlaced order config
      (.withFeeConfig ledger.idPrefix 0 config) ledger.placedOrders with
  | error error =>
      simp [Except.map]
  | ok replayed =>
      simp [Except.map, eq_comm]

end PaperLedger

namespace ExecutorState

def reread (state : ExecutorState) : PaperLedger :=
  state.ledger.reframe state.ledger.entries []
    (recordedFees state.ledger.entries)

/-- What a restart from the recorded entries returns. -/
theorem reconstructWithFeeConfig_eq_ok_iff
    {state : ExecutorState} (recorded : state.ledger.Recorded)
    {order : IterationOrder String} {config : SimulationConfig}
    {next : ExecutorState} :
    reconstructWithFeeConfig order state.ledger.idPrefix config
        state.ledger.entries = .ok next ↔
      state.ledger.Closed ∧ ∃ engine,
        state.reread.rebuildEngine order config = .ok engine ∧
          next =
            { engine := engine
              ledger := state.reread
              config := config
              lastTimestampMs := state.reread.lastTimestampMs } := by
  have rereads : ∀ rebuilt,
      PaperLedger.reconstruct order state.ledger.entries
        state.ledger.idPrefix = .ok rebuilt ↔
          state.ledger.Closed ∧ rebuilt = state.reread :=
    fun rebuilt => recorded.reconstruct_eq_ok_iff
  simp only [reconstructWithFeeConfig, bind, Except.bind, pure, Except.pure]
  cases rebuilt : PaperLedger.reconstruct order state.ledger.entries
      state.ledger.idPrefix with
  | error error =>
      have notClosed : ¬ state.ledger.Closed := by
        intro closed
        have succeeds := (rereads state.reread).mpr ⟨closed, rfl⟩
        rw [rebuilt] at succeeds
        cases succeeds
      simp [notClosed]
  | ok ledger =>
      obtain ⟨closed, rfl⟩ := (rereads ledger).mp rebuilt
      simp only [closed, true_and]
      cases state.reread.rebuildEngine order config with
      | error error => simp
      | ok engine => simp [eq_comm]

theorem reread_recorded
    {state : ExecutorState} (recorded : state.ledger.Recorded) :
    state.reread.Recorded :=
  ⟨recorded.numbered, recorded.replayed, recorded.fresh⟩

end ExecutorState

end Pmkit
