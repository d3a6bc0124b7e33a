import Pmkit.Paper.OrderIds

/-!
# Where tracked orders come from

In every run, whatever its calls did, a tracked order goes back to one
numbered placement that was acknowledged, and no placement up to an
acknowledged one had expired when it was recorded.  A restart that replays
the placements relies on nothing else.
-/

namespace Pmkit

open MachineInt

namespace PaperLedger

/-- Orders may leave and shrink, and change in nothing else. -/
def OrdersShrink (before after : PaperLedger) : Prop :=
  ∀ orderId kept, after.orders.lookup orderId = some kept →
    ∃ tracked, before.orders.lookup orderId = some tracked ∧
      kept = { tracked with
        order := { tracked.order with qty := kept.order.qty } }

theorem OrdersShrink.refl (ledger : PaperLedger) :
    OrdersShrink ledger ledger :=
  fun _ kept found => ⟨kept, found, rfl⟩

theorem OrdersShrink.trans
    {before middle after : PaperLedger} (first : OrdersShrink before middle)
    (second : OrdersShrink middle after) : OrdersShrink before after := by
  intro orderId kept found
  obtain ⟨tracked, middleFound, keptEq⟩ := second orderId kept found
  obtain ⟨source, sourceFound, trackedEq⟩ := first orderId tracked middleFound
  refine ⟨source, sourceFound, ?_⟩
  rw [keptEq, trackedEq]

theorem recordFill_shrink (ledger : PaperLedger) (fill : FillEvent Decimal) :
    OrdersShrink ledger (ledger.recordFill fill).1 := by
  have step := recordFill_step ledger fill
  generalize ledger.recordFill fill = result at step
  cases step with
  | recorded tracked found matched accepted =>
      intro orderId kept stored
      rw [record_orders] at stored
      simp only [ordersAfterFill] at stored
      split at stored
      · rw [KeyedMap.lookup_insert_eq] at stored
        split at stored
        · rename_i same
          cases stored
          subst same
          exact ⟨tracked, found, rfl⟩
        · exact ⟨kept, stored, rfl⟩
      · rw [KeyedMap.lookup_erase_eq] at stored
        split at stored
        · cases stored
        · exact ⟨kept, stored, rfl⟩
  | unmatched error unknown =>
      exact .refl ledger
  | refused tracked error found matched notAccepted =>
      exact fun _ kept stored => ⟨kept, stored, rfl⟩

theorem recordFills_shrink
    (ledger : PaperLedger) (fills : List (FillEvent Decimal)) :
    OrdersShrink ledger (ledger.recordFills fills).1 :=
  recordFills_related .refl .trans
    (fun ledger fill _ => recordFill_shrink ledger fill) ledger

theorem cancelEach_shrink
    (timestampMs : I64) (ledger : PaperLedger) (orderIds : List String) :
    OrdersShrink ledger (ledger.cancelEach timestampMs orderIds).1 := by
  intro orderId kept stored
  rw [(cancelEach_orders timestampMs ledger orderIds).2 orderId] at stored
  split at stored
  · cases stored
  · exact ⟨kept, stored, rfl⟩

theorem settle_shrink
    (ledger : PaperLedger) (market : MarketId) (outcome : Outcome)
    (settledSize proceeds : Decimal) (timestampMs : I64) :
    OrdersShrink ledger
      (ledger.settle market outcome settledSize proceeds timestampMs).1 := by
  rcases settle_cases ledger market outcome settledSize proceeds timestampMs
    with ⟨next, applied, settled⟩ | ⟨error, failed⟩
  · rw [settled]
    cases applied
    exact fun _ kept stored => ⟨kept, stored, rfl⟩
  · rw [failed]
    exact .refl ledger

/-- A tracked order is what is left of one acknowledged placement. -/
structure ComesFrom (ledger : PaperLedger) (config : SimulationConfig)
    (orderId : String) (tracked : TrackedOrder) (index : Nat)
    (placed : PlacedOrder) : Prop where
  recorded : ledger.placedOrders[index]? = some placed
  identity : orderId = mintedId ledger.idPrefix index
  acknowledged : ∃ placement,
    ledger.placements.lookup placed.eventId = some placement ∧
      placement.terminal = some (.ack tracked.state)
  state : tracked.state = acceptedState placed.order.toOrder config
  submittedMs : tracked.submittedMs = placed.timestampMs
  activeAtMs : tracked.activeAtMs =
    placed.timestampMs.saturatingAdd config.activationLatencyMs
  order : tracked.order = { placed.order with qty := tracked.order.qty }

/-- What the placements and the tracked orders of a ledger meet in every
run. -/
structure Provenance (ledger : PaperLedger) (config : SimulationConfig) :
    Prop where
  numbered : ledger.Numbered
  passes : ∀ placed ∈ ledger.placedOrders,
    ensureMarketLimits placed.order.toOrder config = .ok ()
  alive : ∀ (index : Nat) (placed : PlacedOrder) (placement : Placement)
      (state : OrderState),
    ledger.placedOrders[index]? = some placed →
    ledger.placements.lookup placed.eventId = some placement →
    placement.terminal = some (.ack state) →
      ∀ earlier ≤ index, ∀ other : PlacedOrder,
        ledger.placedOrders[earlier]? = some other →
        expired other.order.toOrder other.timestampMs = false
  tracked : ∀ orderId tracked, ledger.orders.lookup orderId = some tracked →
    ∃ index placed, ledger.ComesFrom config orderId tracked index placed

theorem new_provenance
    (initialCash : Money) (idPrefix : String) (config : SimulationConfig) :
    (new initialCash idPrefix).Provenance config := by
  have none : (new initialCash idPrefix).placedOrders = [] := rfl
  refine ⟨new_numbered initialCash idPrefix, ?_, ?_, ?_⟩
  · intro placed mem
    rw [none] at mem
    cases mem
  · intro index placed placement state found
    rw [none] at found
    cases found
  · intro orderId tracked found
    simp [new, empty] at found

variable {ledger : PaperLedger} {config : SimulationConfig}

/-- Losing and shrinking orders keeps the provenance of the others. -/
theorem Provenance.shrink {later : PaperLedger}
    (provenance : ledger.Provenance config) (numbered : later.Numbered)
    (same : ledger.SamePlacements later) (shrink : ledger.OrdersShrink later) :
    later.Provenance config := by
  refine ⟨numbered, ?_, ?_, ?_⟩
  · rw [same.placedOrders]
    exact provenance.passes
  · rw [same.placedOrders, same.placements]
    exact provenance.alive
  · intro orderId kept found
    obtain ⟨tracked, stored, keptEq⟩ := shrink orderId kept found
    obtain ⟨index, placed, comes⟩ := provenance.tracked orderId tracked stored
    refine ⟨index, placed, ?_⟩
    rw [keptEq]
    refine ⟨?_, ?_, ?_, comes.state, comes.submittedMs, comes.activeAtMs, ?_⟩
    · rw [same.placedOrders]
      exact comes.recorded
    · rw [same.idPrefix]
      exact comes.identity
    · rw [same.placements]
      exact comes.acknowledged
    · have order := comes.order
      simp only
      rw [order]

/-- A new placement keeps the provenance of the older ones. -/
theorem Provenance.extend
    {ledger later : PaperLedger} {config : SimulationConfig}
    (provenance : ledger.Provenance config)
    (fresh : ledger.placements.lookup ledger.nextEventId = none)
    (numbered : later.Numbered) {added : PlacedOrder} {answer : Placement}
    (placedOrders : later.placedOrders = ledger.placedOrders ++ [added])
    (eventId : added.eventId = ledger.nextEventId)
    (idPrefix : later.idPrefix = ledger.idPrefix)
    (placements : ∀ key, later.placements.lookup key =
      if key = ledger.nextEventId then some answer
      else ledger.placements.lookup key)
    (passes : ensureMarketLimits added.order.toOrder config = .ok ())
    (alive : ∀ state, answer.terminal = some (.ack state) →
      ∀ placed ∈ ledger.placedOrders ++ [added],
        expired placed.order.toOrder placed.timestampMs = false)
    (tracked : ∀ orderId kept, later.orders.lookup orderId = some kept →
      ledger.orders.lookup orderId = some kept ∨
        ∃ index placed, later.ComesFrom config orderId kept index placed) :
    later.Provenance config := by
  have older : ∀ {index : Nat} {placed : PlacedOrder},
      ledger.placedOrders[index]? = some placed →
        later.placedOrders[index]? = some placed ∧
          later.placements.lookup placed.eventId =
            ledger.placements.lookup placed.eventId := by
    intro index placed found
    have bound : index < ledger.placedOrders.length :=
      (List.getElem?_eq_some_iff.mp found).1
    obtain ⟨terminal, stored⟩ :=
      provenance.numbered.placement index placed found
    refine ⟨?_, ?_⟩
    · rw [placedOrders, List.getElem?_append_left bound]
      exact found
    · rw [placements, if_neg]
      intro same
      rw [same, fresh] at stored
      cases stored
  have split : ∀ {index : Nat} {placed : PlacedOrder},
      later.placedOrders[index]? = some placed →
        ledger.placedOrders[index]? = some placed ∨ placed = added := by
    intro index placed found
    rw [placedOrders] at found
    by_cases bound : index < ledger.placedOrders.length
    · rw [List.getElem?_append_left bound] at found
      exact .inl found
    · rw [List.getElem?_append_right (not_lt.mp bound)] at found
      have mem := List.mem_of_getElem? found
      exact .inr (List.mem_singleton.mp mem)
  refine ⟨numbered, ?_, ?_, ?_⟩
  · intro placed mem
    rw [placedOrders, List.mem_append, List.mem_singleton] at mem
    rcases mem with old | rfl
    · exact provenance.passes placed old
    · exact passes
  · intro index placed placement state found stored acked earlier before other
      otherFound
    rcases split found with old | rfl
    · rw [(older old).2] at stored
      have bound : index < ledger.placedOrders.length :=
        (List.getElem?_eq_some_iff.mp old).1
      rw [placedOrders,
        List.getElem?_append_left (lt_of_le_of_lt before bound)] at otherFound
      exact provenance.alive index placed placement state old stored acked
        earlier before other otherFound
    · rw [placements, if_pos eventId] at stored
      cases stored
      have mem := List.mem_of_getElem? otherFound
      rw [placedOrders] at mem
      exact alive state acked other mem
  · intro orderId kept found
    rcases tracked orderId kept found with old | comes
    · obtain ⟨index, placed, comes⟩ := provenance.tracked orderId kept old
      obtain ⟨placement, stored, acked⟩ := comes.acknowledged
      exact ⟨index, placed, (older comes.recorded).1,
        by rw [idPrefix]; exact comes.identity,
        ⟨placement, by rw [(older comes.recorded).2]; exact stored, acked⟩,
        comes.state, comes.submittedMs, comes.activeAtMs, comes.order⟩
    · exact comes

theorem placed_placements {order : PlaceOrder} {strategy : Option StrategyId}
    {timestampMs : I64} (key : String) :
    (ledger.placed order strategy timestampMs).placements.lookup key =
      if key = ledger.nextEventId then
        some (ledger.newPlacement order strategy)
      else
        ledger.placements.lookup key := by
  simp only [placed, record_placements, KeyedMap.lookup_insert_eq]

theorem Provenance.recordFills
    (provenance : ledger.Provenance config) (recorded : ledger.Recorded)
    (fills : List (FillEvent Decimal)) :
    (ledger.recordFills fills).1.Provenance config :=
  provenance.shrink
    ((recordFills_grows ledger fills).numbered recorded provenance.numbered)
    (recordFills_samePlacements ledger fills) (recordFills_shrink ledger fills)

end PaperLedger

namespace ExecutorState

/-- The invariant of every run: provenance, and a simulator counter that lags
the ledger's unless every placement was alive. -/
structure Traced (idPrefix : String) (config : SimulationConfig)
    (state : ExecutorState) : Prop where
  sound : state.Sound idPrefix config
  provenance : state.ledger.Provenance config
  lags : state.engine.nextId ≤ state.ledger.nextOrderId
  alive : state.engine.nextId = state.ledger.nextOrderId →
    ∀ placed ∈ state.ledger.placedOrders,
      expired placed.order.toOrder placed.timestampMs = false

section Submission

variable {idPrefix : String} {config : SimulationConfig}
  {state next : ExecutorState} {order : PlaceOrder}
  {strategy : Option StrategyId} {nowMs : I64}

theorem Traced.counters (traced : state.Traced idPrefix config)
    {result : SimEngine × Option String}
    (submitted : SimEngine.Submitted state.engine order strategy nowMs result)
    (ledger : PaperLedger)
    (nextOrderId : ledger.nextOrderId = state.ledger.nextOrderId + 1)
    (placedOrders : ledger.placedOrders = state.ledger.placedOrders ++
      [state.ledger.submittedOrder order strategy nowMs]) :
    result.1.nextId ≤ ledger.nextOrderId ∧
      (result.1.nextId = ledger.nextOrderId → ∀ placed ∈ ledger.placedOrders,
          expired placed.order.toOrder placed.timestampMs = false) := by
  have lags := traced.lags
  by_cases admitted : state.engine.Admits order nowMs
  · have nextId := nextId_of_submitted submitted admitted
    refine ⟨by omega, ?_⟩
    intro same placed mem
    rw [placedOrders, List.mem_append, List.mem_singleton] at mem
    rcases mem with old | rfl
    · exact traced.alive (by omega) placed old
    · exact admitted.1
  · cases submitted with
    | refused notAdmitted =>
        refine ⟨by simp only; omega, ?_⟩
        intro same
        simp only at same
        omega
    | unfilled isAdmitted _ => exact absurd isAdmitted admitted
    | rests accepted _ => exact absurd accepted.1 admitted
    | waits accepted _ _ => exact absurd accepted.1 admitted
    | takes accepted _ _ _ _ => exact absurd accepted.1 admitted

theorem SubmissionStep.traced (traced : state.Traced idPrefix config)
    (sound : next.Sound idPrefix config)
    (step : SubmissionStep state order strategy nowMs next) :
    next.Traced idPrefix config := by
  have fresh := traced.sound.recorded.nextFresh
  have recorded := traced.sound.recorded
  have provenance := traced.provenance
  have passes : ensureSubmittable order state.config state.ledger = .ok () →
      ensureMarketLimits (state.ledger.submittedOrder order strategy
        nowMs).order.toOrder config = .ok () := by
    intro check
    rw [← traced.sound.config]
    exact ensureSubmittable_limits check
  cases step with
  | refused error check =>
      exact traced
  | rejected result check submitted noId =>
      have grows := PaperLedger.rejected_grows order strategy nowMs fresh
      have answered := provenance.extend fresh
        (grows.numbered recorded provenance.numbered)
        (PaperLedger.rejected_placedOrders _ order strategy nowMs) rfl rfl
        PaperLedger.rejected_placements (passes check)
        (fun state no => nomatch no)
        (fun _ _ found => .inl found)
      have same := PaperLedger.recordFills_samePlacements
        (state.ledger.rejected order strategy nowMs) result.1.pendingFills
      have counters := traced.counters submitted
        (state.concluded result.1
          (state.ledger.rejected order strategy nowMs) nowMs).ledger
        same.nextOrderId
        (same.placedOrders.trans (PaperLedger.rejected_placedOrders _ _ _ _))
      exact ⟨sound, answered.recordFills
        ((grows.recorded recorded rfl).1) result.1.pendingFills,
        counters.1, counters.2⟩
  | diverged result actual check submitted minted ne =>
      have grows := PaperLedger.placed_grows order strategy nowMs fresh
      have counters := traced.counters submitted
        (state.ledger.placed order strategy nowMs) rfl
        (PaperLedger.placed_placedOrders _ _ _ _)
      refine ⟨sound, ?_, counters.1, counters.2⟩
      exact provenance.extend fresh
        (grows.numbered recorded provenance.numbered)
        (PaperLedger.placed_placedOrders _ order strategy nowMs) rfl rfl
        PaperLedger.placed_placements (passes check)
        (fun state no => nomatch no)
        (fun _ _ found => .inl found)
  | accepted result check submitted minted =>
      have grows := PaperLedger.acknowledged_grows order strategy
        (acceptedState order state.config)
        (nowMs.saturatingAdd state.config.activationLatencyMs) nowMs fresh
      have placedOrders := PaperLedger.acknowledged_placedOrders state.ledger
        order strategy nowMs (acceptedState order state.config)
        (nowMs.saturatingAdd state.config.activationLatencyMs)
      have same := PaperLedger.recordFills_samePlacements
        (state.ledger.acknowledged order strategy
          (acceptedState order state.config)
          (nowMs.saturatingAdd state.config.activationLatencyMs) nowMs)
        result.1.pendingFills
      have counters := traced.counters submitted
        (state.concluded result.1 (state.ledger.acknowledged order strategy
            (acceptedState order state.config)
            (nowMs.saturatingAdd state.config.activationLatencyMs) nowMs)
          nowMs).ledger
        same.nextOrderId (same.placedOrders.trans placedOrders)
      have alive : ∀ placed ∈ state.ledger.placedOrders ++
          [state.ledger.submittedOrder order strategy nowMs],
          expired placed.order.toOrder placed.timestampMs = false := by
        rcases submitted.answer with ⟨accepted, own⟩ | ⟨_, none, _⟩
        · rw [minted] at own
          have nextIds := traced.sound.expectedOrderId_iff.mp
            (Option.some.inj own)
          intro placed mem
          rw [List.mem_append, List.mem_singleton] at mem
          rcases mem with old | rfl
          · exact traced.alive nextIds placed old
          · exact accepted.1.1
        · rw [minted] at none
          cases none
      have answered := provenance.extend fresh
        (grows.numbered recorded provenance.numbered) placedOrders rfl rfl
        (PaperLedger.acknowledged_placements _ _) (passes check)
        (fun _ _ => alive) (by
          intro orderId kept found
          rw [PaperLedger.acknowledged_orders] at found
          by_cases own : orderId = state.ledger.expectedOrderId
          · rw [if_pos own] at found
            cases found
            refine Or.inr ⟨state.ledger.nextOrderId,
              state.ledger.submittedOrder order strategy nowMs, ?_, own, ?_,
              ?_, rfl, ?_, rfl⟩
            · rw [placedOrders, ← provenance.numbered.count]
              exact List.getElem?_concat_length
            · refine ⟨_, PaperLedger.acknowledged_placements _ _ _ |>.trans
                (if_pos rfl), rfl⟩
            · rw [← traced.sound.config]
              rfl
            · rw [← traced.sound.config]
              rfl
          · rw [if_neg own] at found
            exact .inl found)
      exact ⟨sound, answered.recordFills
        ((grows.recorded recorded rfl).1) result.1.pendingFills,
        counters.1, counters.2⟩

end Submission

theorem updateBook_shrink
    (receiverOpen : Bool) (fillOrder cancelOrder : IterationOrder String)
    (state : ExecutorState) (market : MarketId) (outcome : Outcome)
    (book : OrderBookL2) :
    state.ledger.OrdersShrink (state.updateBook receiverOpen fillOrder
      cancelOrder market outcome book).1.ledger := by
  obtain ⟨orderIds, ledger⟩ := updateBook_ledger receiverOpen fillOrder
    cancelOrder state market outcome book
  rw [ledger]
  exact (PaperLedger.recordFills_shrink _ _).trans
    (PaperLedger.cancelEach_shrink _ _ _)

theorem cancel_shrink (state : ExecutorState) (orderId : String) :
    state.ledger.OrdersShrink (state.cancel orderId).1.ledger := by
  obtain ⟨orderIds, ledger⟩ := cancel_ledger state orderId
  rw [ledger]
  exact PaperLedger.cancelEach_shrink _ _ _

theorem Traced.shrink {idPrefix : String} {config : SimulationConfig}
    {state next : ExecutorState} (traced : state.Traced idPrefix config)
    (sound : next.Sound idPrefix config) (numbered : next.ledger.Numbered)
    (same : state.ledger.SamePlacements next.ledger)
    (shrink : state.ledger.OrdersShrink next.ledger)
    (nextId : next.engine.nextId = state.engine.nextId) :
    next.Traced idPrefix config := by
  refine ⟨sound, traced.provenance.shrink numbered same shrink, ?_, ?_⟩
  · rw [nextId, same.nextOrderId]
    exact traced.lags
  · rw [nextId, same.nextOrderId, same.placedOrders]
    exact traced.alive

theorem Traced.step
    {idPrefix : String} {config : SimulationConfig} {state : ExecutorState}
    (traced : state.Traced idPrefix config) (call : ExecutorCall) :
    (state.step call).Traced idPrefix config := by
  have fresh := traced.sound.recorded.nextFresh
  have sound := step_sound traced.sound call
  have numbered := (step_grows state call).numbered traced.sound.recorded
    traced.provenance.numbered
  cases call with
  | submit receiverOpen order nowMs =>
      simp only [ExecutorState.step, submit_state fresh] at sound ⊢
      exact (submitOwned_step fresh receiverOpen order none nowMs).traced
        traced sound
  | submitForStrategy receiverOpen order strategy nowMs =>
      exact (submitOwned_step fresh receiverOpen order (some strategy)
        nowMs).traced traced sound
  | updateBook receiverOpen fillOrder cancelOrder market outcome book =>
      refine traced.shrink sound numbered
        (updateBook_samePlacements receiverOpen fillOrder cancelOrder state
          market outcome book)
        (updateBook_shrink receiverOpen fillOrder cancelOrder state market
          outcome book) ?_
      simp only [ExecutorState.step, (updateBook_engine receiverOpen fillOrder
        cancelOrder state market outcome book).1]
      obtain ⟨_, _, _, nextId, _⟩ := SimEngine.updateBook_spec
        traced.sound.wellFormed fillOrder market outcome book
      exact nextId
  | cancel orderId =>
      refine traced.shrink sound numbered (cancel_samePlacements state orderId)
        (cancel_shrink state orderId) ?_
      simp only [ExecutorState.step, (cancel_engine state orderId).1]
      exact SimEngine.cancel_nextId state.engine orderId
  | cancelAll =>
      simp only [ExecutorState.step, cancelAll_eq] at sound numbered ⊢
      exact traced.shrink sound numbered
        (PaperLedger.cancelEach_samePlacements _ _ _)
        (PaperLedger.cancelEach_shrink _ _ _) rfl
  | settle market outcome settledSize proceeds timestampMs =>
      refine traced.shrink sound numbered ?_ ?_ ?_
      · simp only [ExecutorState.step, settle_ledger]
        exact PaperLedger.settle_samePlacements _ _ _ _ _ _
      · simp only [ExecutorState.step, settle_ledger]
        exact PaperLedger.settle_shrink _ _ _ _ _ _
      · simp only [ExecutorState.step, (settle_engine state market outcome
          settledSize proceeds timestampMs).1]

theorem withAccountFeeConfig_traced
    (idPrefix : String) (config : SimulationConfig) (initialCash : Money) :
    (withAccountFeeConfig idPrefix config initialCash).Traced idPrefix
      config where
  sound := withAccountFeeConfig_sound idPrefix config initialCash
  provenance := PaperLedger.new_provenance initialCash idPrefix config
  lags := le_refl 0
  alive := by
    intro _ placed mem
    have none : (withAccountFeeConfig idPrefix config
        initialCash).ledger.placedOrders = [] := rfl
    rw [none] at mem
    cases mem

end ExecutorState

end Pmkit
