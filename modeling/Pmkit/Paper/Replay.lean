import Pmkit.Paper.Calls

/-!
# When a replay gives the live account back

Replaying the entries of an executor returns its account in every state of a
run just when no call breaks one of three rules: an accepted submission has
the identity the ledger expects, an immediate fill is taken by the account,
and no refused sell leaves a fee behind.
-/

namespace Pmkit

open MachineInt

namespace PaperLedger

def RefusedSell (ledger : PaperLedger) (fill : FillEvent Decimal) : Prop :=
  (∃ tracked, ledger.orders.lookup fill.orderId = some tracked ∧
    Matches tracked fill) ∧
    0 ≤ fill.price ∧ 0 ≤ fill.size ∧ 0 ≤ fill.fee ∧ fill.side = .sell ∧
    (ledger.account.position fill.market fill.outcome).quantity < fill.size

def LeavesFee : PaperLedger → List (FillEvent Decimal) → Prop
  | _, [] => False
  | ledger, fill :: rest =>
      (ledger.RefusedSell fill ∧ fill.fee ≠ 0) ∨
        ((ledger.recordFill fill).2 = .ok () ∧
          (ledger.recordFill fill).1.LeavesFee rest)

/-- The ledger replays to itself: entries recorded, fees recorded, nothing
left open. -/
structure Balanced (ledger : PaperLedger) : Prop where
  recorded : ledger.Recorded
  fees : ledger.account.fees = recordedFees ledger.entries
  closed : ledger.Closed

theorem new_balanced (initialCash : Money) (idPrefix : String) :
    (new initialCash idPrefix).Balanced where
  recorded := new_recorded initialCash idPrefix
  fees := by
    simp [new, empty, PortfolioLedger.new, recordedFees, openingEntry,
      PaperLedgerEvent.fee]
  closed := by
    constructor
    · intro key placement found
      simp [new, empty] at found
    · intro orderId tracked found
      simp [new, empty] at found

/-- A replay returns the account exactly for balanced ledgers. -/
theorem Recorded.replays_iff_balanced
    {ledger : PaperLedger} (recorded : ledger.Recorded) :
    (∀ order : IterationOrder String, ∃ rebuilt,
      reconstruct order ledger.entries ledger.idPrefix = .ok rebuilt ∧
        rebuilt.state = ledger.state ∧ rebuilt.fillCount = ledger.fillCount) ↔
      ledger.Balanced := by
  constructor
  · intro replays
    obtain ⟨rebuilt, result, sameState, _⟩ := replays (.stored String)
    obtain ⟨closed, rfl⟩ := recorded.reconstruct_eq_ok_iff.mp result
    have fees := congrArg PaperAccountState.fees sameState
    exact ⟨recorded, fees.symm, closed⟩
  · intro balanced order
    refine ⟨_, recorded.reconstruct_eq_ok_iff.mpr ⟨balanced.closed, rfl⟩,
      ?_, rfl⟩
    rw [← balanced.fees]
    rfl

variable {ledger : PaperLedger}

theorem Applied.record_fees
    {next : PaperLedger} {timestampMs : I64} {event : PaperLedgerEvent}
    (applied : Applied ledger ledger.nextEventId timestampMs event next)
    (fees : ledger.account.fees = recordedFees ledger.entries) :
    (next.record (ledger.nextEntry timestampMs event)).account.fees =
      recordedFees (next.record (ledger.nextEntry timestampMs event)).entries := by
  have entries := applied.frame.1
  simp only [record, entries]
  rw [recordedFees_append, applied.fees, fees]
  rfl

theorem Closed.ordersAfterFill (closed : ledger.Closed) {orderId : String}
    {tracked : TrackedOrder}
    (found : ledger.orders.lookup orderId = some tracked)
    (fillSize : Decimal) {key : String} {after : TrackedOrder}
    (kept : (PaperLedger.ordersAfterFill ledger.orders orderId tracked
      fillSize).lookup key = some after) :
    after.state ≠ .immediate := by
  unfold PaperLedger.ordersAfterFill at kept
  split at kept
  · rw [KeyedMap.lookup_insert_eq] at kept
    split at kept
    · cases kept
      exact closed.orders orderId tracked found
    · exact closed.orders key after kept
  · rw [KeyedMap.lookup_erase_eq] at kept
    split at kept
    · cases kept
    · exact closed.orders key after kept

/-- Recording fills keeps a balanced ledger balanced unless it reaches a
refused sell with a fee. -/
theorem Balanced.recordFills (balanced : ledger.Balanced)
    (fills : List (FillEvent Decimal)) :
    (ledger.recordFills fills).1.Balanced ↔ ¬ ledger.LeavesFee fills := by
  induction fills generalizing ledger with
  | nil =>
      simpa [PaperLedger.recordFills, LeavesFee] using balanced
  | cons fill rest ih =>
      have step := recordFill_step ledger fill
      have recorded := (recordFill_grows ledger fill).preserves _
        (fun _ timestampMs _ noCash holds => holds.append timestampMs noCash)
        balanced.recorded
      rw [PaperLedger.recordFills, LeavesFee]
      generalize ledger.recordFill fill = result at step recorded
      cases step with
      | recorded tracked found matched accepted =>
          have notRefused : ¬ ledger.RefusedSell fill := by
            rintro ⟨_, _, _, _, sell, short⟩
            exact absurd (accepted.2.2.2 sell) (not_le.mpr short)
          have applied : Applied ledger ledger.nextEventId fill.timestampMs
              (fillEventOf fill) _ :=
            .fill _ _ _ _ _ _ _ tracked found matched accepted
          have after : (PaperLedger.record { ledger with
                account := (ledger.account.applyFill (ledgerFillOf fill)).1
                orders := PaperLedger.ordersAfterFill ledger.orders
                  fill.orderId tracked fill.size
                fillCount := ledger.fillCount + 1 }
              (ledger.nextEntry fill.timestampMs
                (fillEventOf fill))).Balanced :=
            ⟨recorded, applied.record_fees balanced.fees,
              balanced.closed.placements,
              fun _ _ kept => balanced.closed.ordersAfterFill found _ kept⟩
          simpa [notRefused] using ih after
      | unmatched error unknown =>
          have notRefused : ¬ ledger.RefusedSell fill := by
            rintro ⟨⟨tracked, found, agrees⟩, _⟩
            exact unknown tracked found agrees
          simpa [notRefused] using balanced
      | refused tracked error found matched notAccepted =>
          have sameFees : (ledger.account.fees +
              PortfolioLedger.charged (ledgerFillOf fill) =
                recordedFees ledger.entries) ↔
              ¬ (ledger.RefusedSell fill ∧ fill.fee ≠ 0) := by
            rw [← balanced.fees, add_eq_left, PortfolioLedger.charged]
            by_cases valid :
                PortfolioLedger.validateFill (ledgerFillOf fill) = .ok ()
            · obtain ⟨price, size, fee⟩ :=
                PortfolioLedger.validateFill_eq_ok_iff.mp valid
              have sell : fill.side = .sell ∧
                  (ledger.account.position fill.market
                    fill.outcome).quantity < fill.size := by
                by_contra covered
                apply notAccepted
                refine ⟨price, size, fee, ?_⟩
                intro side
                exact not_lt.mp fun short => covered ⟨side, short⟩
              have refused : ledger.RefusedSell fill :=
                ⟨⟨tracked, found, matched⟩, price, size, fee, sell⟩
              rw [if_pos valid]
              simp only [refused, true_and, ne_eq, not_not]
              exact Iff.rfl
            · have notRefused : ¬ ledger.RefusedSell fill := by
                rintro ⟨_, price, size, fee, _⟩
                exact valid (PortfolioLedger.validateFill_eq_ok_iff.mpr
                  ⟨price, size, fee⟩)
              rw [if_neg valid]
              simp [notRefused]
          simp only [reduceCtorEq, false_and, or_false]
          rw [← sameFees]
          constructor
          · intro still
            exact still.fees
          · intro fees
            exact ⟨recorded, fees, balanced.closed.placements,
              balanced.closed.orders⟩

theorem RefusedSell.not_recorded {fill : FillEvent Decimal}
    (refused : ledger.RefusedSell fill) :
    (ledger.recordFill fill).2 ≠ .ok () := by
  have step := recordFill_step ledger fill
  generalize ledger.recordFill fill = result at step
  cases step with
  | recorded tracked found matched accepted =>
      obtain ⟨_, _, _, _, sell, short⟩ := refused
      exact absurd (accepted.2.2.2 sell) (not_le.mpr short)
  | unmatched error unknown =>
      simp
  | refused tracked error found matched notAccepted =>
      simp

theorem not_leavesFee_of_recorded {fills : List (FillEvent Decimal)}
    (recorded : (ledger.recordFills fills).2 = .ok ()) :
    ¬ ledger.LeavesFee fills := by
  induction fills generalizing ledger with
  | nil =>
      exact not_false
  | cons fill rest ih =>
      rw [PaperLedger.recordFills] at recorded
      rintro (⟨refused, _⟩ | ⟨recordedFirst, later⟩)
      · have failed := refused.not_recorded
        cases first : ledger.recordFill fill with
        | mk next result =>
            rw [first] at recorded failed
            cases result with
            | error error => cases recorded
            | ok done => exact failed rfl
      · cases first : ledger.recordFill fill with
        | mk next result =>
            rw [first] at recorded recordedFirst later
            simp only at recordedFirst
            subst recordedFirst
            exact ih recorded later

theorem Balanced.cancelEach (balanced : ledger.Balanced) (timestampMs : I64)
    (orderIds : List String) :
    (ledger.cancelEach timestampMs orderIds).1.Balanced := by
  refine @cancelEach_related
    (fun before after => before.Balanced → after.Balanced) (fun _ => id)
    (fun first second => second ∘ first) timestampMs ?_ orderIds ledger balanced
  intro ledger orderId tracked found balanced
  have recorded := (cancel_grows ledger orderId timestampMs).preserves _
    (fun _ timestampMs _ noCash holds => holds.append timestampMs noCash)
    balanced.recorded
  rw [cancel_tracked found] at recorded
  have applied : Applied ledger ledger.nextEventId timestampMs
      (.orderCancelled orderId) _ :=
    .orderCancelled orderId tracked found
  refine ⟨recorded, applied.record_fees balanced.fees,
    balanced.closed.placements, ?_⟩
  intro key after kept
  rw [record_orders, KeyedMap.lookup_erase_eq] at kept
  split at kept
  · cases kept
  · exact balanced.closed.orders key after kept

end PaperLedger

namespace ExecutorState

/-- What an accepted submission must meet to stay replayable. -/
def SubmissionReplays (state : ExecutorState) (order : PlaceOrder)
    (nowMs : I64) : Prop :=
  ensureSubmittable order state.config state.ledger = .ok () →
    state.engine.Accepts order nowMs →
      state.engine.nextId = state.ledger.nextOrderId ∧
        (acceptedState order state.config = .immediate →
          ∀ fill, state.engine.takerFill
              (mintedId state.engine.idPrefix state.engine.nextId) order nowMs
              nowMs = some fill →
            state.ledger.account.Accepts (PaperLedger.ledgerFillOf fill))

def CallReplays (state : ExecutorState) : ExecutorCall → Prop
  | .submit _ order nowMs => state.SubmissionReplays order nowMs
  | .submitForStrategy _ order _ nowMs => state.SubmissionReplays order nowMs
  | .updateBook _ fillOrder _ market outcome book =>
      ¬ state.ledger.LeavesFee
        (state.engine.updateBook fillOrder market outcome book).pendingFills
  | .cancel _ => True
  | .cancelAll => True
  | .settle _ _ _ _ _ => True

/-- Replaying every recorded entry returns the live account. -/
def Replays (idPrefix : String) (state : ExecutorState) : Prop :=
  ∀ order : IterationOrder String, ∃ rebuilt,
    PaperLedger.reconstruct order state.ledger.entries idPrefix = .ok rebuilt ∧
      rebuilt.state = state.ledger.state ∧
      rebuilt.fillCount = state.ledger.fillCount

/-- The invariant of a run whose calls all stay replayable. -/
structure Replayable (idPrefix : String) (config : SimulationConfig)
    (state : ExecutorState) : Prop where
  sound : state.Sound idPrefix config
  balanced : state.ledger.Balanced
  drained : state.engine.pendingFills = []

end ExecutorState

namespace PaperLedger

section Placement

variable {ledger : PaperLedger} {order : PlaceOrder}
  {strategy : Option StrategyId} {timestampMs : I64}

theorem Balanced.rejected (balanced : ledger.Balanced) :
    (ledger.rejected order strategy timestampMs).Balanced := by
  have fresh := balanced.recorded.nextFresh
  refine ⟨(balanced.recorded.grown (rejected_grows order strategy timestampMs
    fresh)), ?_, ?_, balanced.closed.orders⟩
  · simp only [PaperLedger.rejected, placed, record, nextEntry]
    rw [recordedFees_append, recordedFees_append, ← balanced.fees]
    simp [PaperLedgerEvent.fee]
  · intro key placement found
    rw [rejected_placements] at found
    split at found
    · cases found
      simp
    · exact balanced.closed.placements key placement found

theorem acknowledged_fees
    (order : PlaceOrder) (strategy : Option StrategyId) (timestampMs : I64)
    (fees : ledger.account.fees = recordedFees ledger.entries)
    (state : OrderState) (activeAtMs : I64) :
    (ledger.acknowledged order strategy state activeAtMs
        timestampMs).account.fees =
      recordedFees (ledger.acknowledged order strategy state activeAtMs
        timestampMs).entries := by
  simp only [PaperLedger.acknowledged, placed, record, nextEntry]
  rw [recordedFees_append, recordedFees_append, ← fees]
  simp [PaperLedgerEvent.fee]

theorem Closed.acknowledged_placements
    (closed : ledger.Closed) (state : OrderState) (activeAtMs : I64)
    {key : String} {placement : Placement}
    (found : (ledger.acknowledged order strategy state activeAtMs
      timestampMs).placements.lookup key = some placement) :
    placement.terminal ≠ none := by
  rw [PaperLedger.acknowledged_placements] at found
  split at found
  · cases found
    simp
  · exact closed.placements key placement found

theorem Balanced.acknowledged
    (balanced : ledger.Balanced) (state : OrderState) (activeAtMs : I64)
    (working : state ≠ .immediate) :
    (ledger.acknowledged order strategy state activeAtMs
      timestampMs).Balanced := by
  refine ⟨balanced.recorded.grown (acknowledged_grows order strategy state
      activeAtMs timestampMs balanced.recorded.nextFresh),
    acknowledged_fees _ _ _ balanced.fees state activeAtMs,
    fun _ _ found => balanced.closed.acknowledged_placements state activeAtMs
      found, ?_⟩
  intro key tracked found
  rw [acknowledged_orders] at found
  split at found
  · cases found
    exact working
  · exact balanced.closed.orders key tracked found

/-- An immediate order closes exactly when the account takes its fill. -/
theorem Balanced.acknowledged_fill
    (balanced : ledger.Balanced) (order : PlaceOrder)
    (strategy : Option StrategyId) (activeAtMs : I64)
    {fill : FillEvent Decimal}
    (identity : fill.orderId = ledger.expectedOrderId)
    (agrees : Matches
      (newTracked order strategy .immediate activeAtMs timestampMs) fill) :
    ((ledger.acknowledged order strategy .immediate activeAtMs
        timestampMs).recordFills [fill]).1.Balanced ↔
      ledger.account.Accepts (ledgerFillOf fill) := by
  have recorded := balanced.recorded.grown
    (acknowledged_grows order strategy .immediate activeAtMs timestampMs
      balanced.recorded.nextFresh)
  have fees := acknowledged_fees order strategy timestampMs balanced.fees
    .immediate activeAtMs
  have placements : ∀ key placement,
      (ledger.acknowledged order strategy .immediate activeAtMs
        timestampMs).placements.lookup key = some placement →
        placement.terminal ≠ none :=
    fun _ _ found => balanced.closed.acknowledged_placements .immediate
      activeAtMs found
  have orders := acknowledged_orders ledger order strategy timestampMs
    .immediate activeAtMs
  have opened := orders fill.orderId
  rw [if_pos identity] at opened
  have account : (ledger.acknowledged order strategy .immediate activeAtMs
      timestampMs).account = ledger.account := rfl
  generalize ledger.acknowledged order strategy .immediate activeAtMs
    timestampMs = answered at *
  have step := recordFill_step answered fill
  have grown := recorded.grown (recordFill_grows answered fill)
  simp only [PaperLedger.recordFills]
  generalize answered.recordFill fill = result at step grown
  cases step with
  | recorded tracked found matched accepted =>
      have applied : Applied answered answered.nextEventId fill.timestampMs
          (fillEventOf fill) _ :=
        .fill _ _ _ _ _ _ _ tracked found matched accepted
      rw [opened] at found
      cases found
      rw [account] at accepted
      refine ⟨fun _ => accepted, fun _ => ⟨grown, applied.record_fees fees,
        placements, ?_⟩⟩
      intro key kept stillOpen
      rw [record_orders, PaperLedger.ordersAfterFill] at stillOpen
      simp only [newTracked, reduceCtorEq, false_and, if_false,
        KeyedMap.lookup_erase_eq] at stillOpen
      split at stillOpen
      · cases stillOpen
      · rename_i other
        rw [orders key, if_neg (identity ▸ other)] at stillOpen
        exact balanced.closed.orders key kept stillOpen
  | unmatched error unknown =>
      exact absurd agrees (unknown _ opened)
  | refused tracked error found matched notAccepted =>
      rw [account] at notAccepted
      refine ⟨fun still => ?_, fun accepted => absurd accepted notAccepted⟩
      exact absurd rfl (still.closed.orders fill.orderId _ opened)

/-- A placement without an answer is not balanced. -/
theorem placed_not_balanced :
    ¬ (ledger.placed order strategy timestampMs).Balanced := by
  intro balanced
  exact absurd rfl (balanced.closed.placements ledger.nextEventId _
    placed_lookup)

end Placement

end PaperLedger

namespace ExecutorState

section Submission

variable {idPrefix : String} {config : SimulationConfig}
  {state next : ExecutorState} {order : PlaceOrder}
  {strategy : Option StrategyId} {nowMs : I64}

/-- The two counters agree exactly when the two identities do. -/
theorem Sound.expectedOrderId_iff (sound : state.Sound idPrefix config) :
    state.ledger.expectedOrderId =
        mintedId state.engine.idPrefix state.engine.nextId ↔
      state.engine.nextId = state.ledger.nextOrderId := by
  rw [PaperLedger.expectedOrderId, sound.enginePrefix, sound.ledgerPrefix,
    mintedId_inj]
  exact eq_comm

/-- The fill of an immediate taker agrees with the order the ledger opened
for it. -/
theorem takerFill_matches
    {engine : SimEngine} {orderId : String} {fill : FillEvent Decimal}
    (filled : engine.takerFill orderId order nowMs nowMs = some fill)
    (state : OrderState) (activeAtMs : I64) :
    PaperLedger.Matches
      (PaperLedger.newTracked order strategy state activeAtMs nowMs) fill := by
  obtain ⟨_, market, outcome, side, _, size, _⟩ :=
    SimEngine.takerFill_fields filled
  simp [PaperLedger.Matches, PaperLedger.fillMismatch, PaperLedger.newTracked,
    RecordedOrder.fromOrder, market, outcome, side, size]

theorem SubmissionStep.balanced_iff
    (replayable : state.Replayable idPrefix config)
    (step : SubmissionStep state order strategy nowMs next) :
    next.ledger.Balanced ↔ state.SubmissionReplays order nowMs := by
  have balanced := replayable.balanced
  have ids := replayable.sound.expectedOrderId_iff
  cases step with
  | refused error check =>
      refine ⟨fun _ passes => ?_, fun _ => balanced⟩
      rw [check] at passes
      cases passes
  | rejected result check submitted noId =>
      rcases submitted.answer with ⟨_, minted⟩ | ⟨notAccepted, _, _, _, fills⟩
      · rw [noId] at minted
        cases minted
      · refine ⟨fun _ _ accepted => absurd accepted notAccepted, fun _ => ?_⟩
        simp only [concluded, fills, replayable.drained,
          PaperLedger.recordFills]
        exact balanced.rejected
  | diverged result actual check submitted minted ne =>
      rcases submitted.answer with ⟨accepted, own⟩ | ⟨_, none, _⟩
      · rw [minted] at own
        cases own
        refine ⟨fun no => ?_, fun replays => ?_⟩
        · exact absurd no PaperLedger.placed_not_balanced
        · exact absurd (ids.mpr (replays check accepted).1) ne
      · rw [minted] at none
        cases none
  | accepted result check submitted minted =>
      have config := replayable.sound.config
      have engineConfig := replayable.sound.engineConfig
      have sameId : ∀ id, result.2 = some id →
          id = mintedId state.engine.idPrefix state.engine.nextId →
            state.engine.nextId = state.ledger.nextOrderId := by
        intro id answer own
        rw [minted] at answer
        cases answer
        exact ids.mp own
      cases submitted with
      | refused notAdmitted =>
          cases minted
      | unfilled admitted notAccepted =>
          cases minted
      | rests accepted postOnly =>
          have working : acceptedState order state.config = .resting := by
            simp [acceptedState, postOnly]
          refine ⟨fun _ _ _ => ⟨sameId _ rfl rfl, ?_⟩, fun _ => ?_⟩
          · rw [working]
            intro no
            cases no
          · simp only [concluded, replayable.drained, PaperLedger.recordFills,
              working]
            exact balanced.acknowledged .resting _ (by simp)
      | waits accepted taker latency =>
          have working : acceptedState order state.config = .delayed := by
            rw [engineConfig] at latency
            simp [acceptedState, taker, config, latency]
          refine ⟨fun _ _ _ => ⟨sameId _ rfl rfl, ?_⟩, fun _ => ?_⟩
          · rw [working]
            intro no
            cases no
          · simp only [concluded, replayable.drained, PaperLedger.recordFills,
              working]
            exact balanced.acknowledged .delayed _ (by simp)
      | takes accepted taker immediate fill filled =>
          have working : acceptedState order state.config = .immediate := by
            rw [engineConfig] at immediate
            simp [acceptedState, taker, config, immediate]
          have identity : fill.orderId = state.ledger.expectedOrderId := by
            rw [(SimEngine.takerFill_fields filled).1]
            exact Option.some.inj minted
          have closes := balanced.acknowledged_fill order strategy
            (nowMs.saturatingAdd state.config.activationLatencyMs) identity
            (takerFill_matches filled .immediate
              (nowMs.saturatingAdd state.config.activationLatencyMs))
          simp only [concluded, replayable.drained, working, List.nil_append]
          rw [closes]
          constructor
          · intro taken _ _
            refine ⟨sameId _ rfl rfl, fun _ other otherFilled => ?_⟩
            rw [filled] at otherFilled
            cases otherFilled
            exact taken
          · intro replays
            exact (replays check accepted).2 working fill filled

theorem SubmissionStep.drained (replayable : state.Replayable idPrefix config)
    (step : SubmissionStep state order strategy nowMs next)
    (balanced : next.ledger.Balanced) : next.engine.pendingFills = [] := by
  cases step with
  | refused error check =>
      exact replayable.drained
  | rejected result check submitted noId =>
      rfl
  | diverged result actual check submitted minted ne =>
      exact absurd balanced PaperLedger.placed_not_balanced
  | accepted result check submitted minted =>
      rfl

end Submission

variable {state : ExecutorState} {config : SimulationConfig}

theorem updateBook_balanced_iff (balanced : state.ledger.Balanced)
    (receiverOpen : Bool) (fillOrder cancelOrder : IterationOrder String)
    (market : MarketId) (outcome : Outcome) (book : OrderBookL2) :
    (state.updateBook receiverOpen fillOrder cancelOrder market outcome
        book).1.ledger.Balanced ↔
      ¬ state.ledger.LeavesFee
        (state.engine.updateBook fillOrder market outcome book).pendingFills := by
  have filled := balanced.recordFills
    (state.engine.updateBook fillOrder market outcome book).pendingFills
  rw [← filled]
  simp only [updateBook, SimEngine.drainFills]
  cases recorded : state.ledger.recordFills
      (state.engine.updateBook fillOrder market outcome book).pendingFills with
  | mk ledger result =>
      cases result with
      | error error =>
          exact Iff.rfl
      | ok done =>
          have ledgerBalanced : ledger.Balanced := by
            have kept := filled.mpr (PaperLedger.not_leavesFee_of_recorded
              (by rw [recorded]))
            rw [recorded] at kept
            exact kept
          have swept := ledgerBalanced.cancelEach book.timestampMs
            (state.ledger.maturingDelayed cancelOrder market outcome
              book.timestampMs)
          refine iff_of_true ?_ ledgerBalanced
          simp only
          cases cancelled : ledger.cancelEach book.timestampMs
              (state.ledger.maturingDelayed cancelOrder market outcome
                book.timestampMs) with
          | mk last answer =>
              rw [cancelled] at swept
              cases answer with
              | error error => exact swept
              | ok done => exact swept

theorem cancel_balanced (balanced : state.ledger.Balanced)
    (orderId : String) : (state.cancel orderId).1.ledger.Balanced := by
  have single := balanced.cancelEach state.lastTimestampMs [orderId]
  unfold cancel
  cases state.engine.cancel orderId with
  | mk engine freed =>
      cases freed with
      | none =>
          exact balanced
      | some notional =>
          simp only [PaperLedger.cancelEach] at single ⊢
          cases cancelled : state.ledger.cancel orderId
              state.lastTimestampMs with
          | mk ledger result =>
              rw [cancelled] at single
              cases result with
              | error error => exact single
              | ok done => exact single

theorem settle_balanced (balanced : state.ledger.Balanced)
    (market : MarketId) (outcome : Outcome) (settledSize proceeds : Decimal)
    (timestampMs : I64) :
    (state.settle market outcome settledSize proceeds
      timestampMs).1.ledger.Balanced := by
  have recorded := balanced.recorded.grown
    (settle_grows state market outcome settledSize proceeds timestampMs)
  unfold settle at recorded ⊢
  rcases PaperLedger.settle_cases state.ledger market outcome settledSize
    proceeds timestampMs with ⟨next, applied, settled⟩ | ⟨error, failed⟩
  · rw [settled] at recorded ⊢
    refine ⟨recorded, applied.record_fees balanced.fees, ?_, ?_⟩
    · cases applied
      exact balanced.closed.placements
    · cases applied
      exact balanced.closed.orders
  · rw [failed]
    exact balanced

variable {idPrefix : String}

theorem step_balanced_iff
    (replayable : state.Replayable idPrefix config) (call : ExecutorCall) :
    (state.step call).ledger.Balanced ↔ state.CallReplays call := by
  have fresh := replayable.sound.recorded.nextFresh
  cases call with
  | submit receiverOpen order nowMs =>
      simp only [step, CallReplays, submit_state fresh]
      exact (submitOwned_step fresh receiverOpen order none
        nowMs).balanced_iff replayable
  | submitForStrategy receiverOpen order strategy nowMs =>
      exact (submitOwned_step fresh receiverOpen order (some strategy)
        nowMs).balanced_iff replayable
  | updateBook receiverOpen fillOrder cancelOrder market outcome book =>
      exact updateBook_balanced_iff replayable.balanced receiverOpen fillOrder
        cancelOrder market outcome book
  | cancel orderId =>
      exact iff_of_true (cancel_balanced replayable.balanced orderId) trivial
  | cancelAll =>
      refine iff_of_true ?_ trivial
      simp only [step, cancelAll_eq]
      exact replayable.balanced.cancelEach _ _
  | settle market outcome settledSize proceeds timestampMs =>
      exact iff_of_true (settle_balanced replayable.balanced market outcome
        settledSize proceeds timestampMs) trivial

theorem step_drained
    (replayable : state.Replayable idPrefix config) {call : ExecutorCall}
    (balanced : (state.step call).ledger.Balanced) :
    (state.step call).engine.pendingFills = [] := by
  have fresh := replayable.sound.recorded.nextFresh
  cases call with
  | submit receiverOpen order nowMs =>
      simp only [step, submit_state fresh] at balanced ⊢
      exact (submitOwned_step fresh receiverOpen order none nowMs).drained
        replayable balanced
  | submitForStrategy receiverOpen order strategy nowMs =>
      exact (submitOwned_step fresh receiverOpen order (some strategy)
        nowMs).drained replayable balanced
  | updateBook receiverOpen fillOrder cancelOrder market outcome book =>
      simp only [step, (updateBook_engine receiverOpen fillOrder cancelOrder
        state market outcome book).1]
      rfl
  | cancel orderId =>
      simp only [step, (cancel_engine state orderId).1]
      rw [SimEngine.cancel_pendingFills]
      exact replayable.drained
  | cancelAll =>
      simp only [step, cancelAll_eq]
      exact replayable.drained
  | settle market outcome settledSize proceeds timestampMs =>
      simp only [step, (settle_engine state market outcome settledSize
        proceeds timestampMs).1]
      exact replayable.drained

theorem Sound.replays_iff_balanced
    {config : SimulationConfig} {state : ExecutorState}
    (sound : state.Sound idPrefix config) :
    state.Replays idPrefix ↔ state.ledger.Balanced := by
  unfold Replays
  rw [← sound.ledgerPrefix]
  exact sound.recorded.replays_iff_balanced

/-- In a run from a new account, replaying the recorded entries returns the
live account in every state exactly when every call meets its rule. -/
theorem replays_everyState_iff
    (idPrefix : String) (config : SimulationConfig) (initialCash : Money)
    (calls : List ExecutorCall) :
    Trace.EveryState step (Replays idPrefix)
        (withAccountFeeConfig idPrefix config initialCash) calls ↔
      Trace.EveryStep step CallReplays
        (withAccountFeeConfig idPrefix config initialCash) calls := by
  apply Trace.everyState_iff_everyStep
    (Replayable idPrefix config)
  · intro state replayable
    exact (Sound.replays_iff_balanced replayable.sound).mpr replayable.balanced
  · intro state call replayable replays
    have balanced := (step_balanced_iff replayable call).mpr replays
    exact ⟨step_sound replayable.sound call, balanced,
      step_drained replayable balanced⟩
  · intro state call replayable replays
    have sound := step_sound replayable.sound call
    exact (step_balanced_iff replayable call).mp
      ((Sound.replays_iff_balanced sound).mp replays)
  · exact ⟨withAccountFeeConfig_sound idPrefix config initialCash,
      PaperLedger.new_balanced initialCash idPrefix, rfl⟩

end ExecutorState

namespace Sample

def market : MarketId :=
  ⟨"btc-5m", by decide⟩

def book (timestampMs : I64) : OrderBookL2 where
  bids := [(44 / 100, 50)]
  asks := [(46 / 100, 50)]
  timestampMs := timestampMs
  lastTradePrice := none

def config (activationLatencyMs : I64) (marketLimits : Option MarketLimits) :
    SimulationConfig where
  activationLatencyMs := activationLatencyMs
  makerQueueAheadBps := 0
  slippageBps := 0
  marketImpactBps := 0
  feeModel := none
  marketLimits := marketLimits

def order (side : Side) (price : Decimal) (postOnly : Bool)
    (tif : TimeInForce) : PlaceOrder where
  market := market
  outcome := .up
  side := side
  price := price
  qty := 10
  postOnly := postOnly
  tif := tif

def update (timestampMs : I64) : ExecutorCall :=
  .updateBook true (.stored String) (.stored String) market .up
    (book timestampMs)

/-- A taker sells ten shares that the account does not hold. -/
def uncoveredSell : List ExecutorCall :=
  [update 0, .submit true (order .sell (40 / 100) false .gtc) 100]

end Sample

def ExecutorCall.PositiveQuantity : ExecutorCall → Prop
  | .submit _ order _ => 0 < order.qty
  | .submitForStrategy _ order _ _ => 0 < order.qty
  | _ => True

namespace ExecutorState

/-- The refused fill of an uncovered sell leaves its immediate order open, and
every later reconstruction fails. -/
theorem uncoveredSell_not_replays :
    (∀ call ∈ Sample.uncoveredSell, call.PositiveQuantity) ∧
      ¬ (Trace.run step (withAccountFeeConfig "paper" (Sample.config 0 none) 0)
        Sample.uncoveredSell).Replays "paper" := by
  constructor
  · simp [Sample.uncoveredSell, Sample.update, Sample.order,
      ExecutorCall.PositiveQuantity]
  · intro replays
    obtain ⟨rebuilt, result, _⟩ := replays (.stored String)
    have failed : (PaperLedger.reconstruct (.stored String)
        (Trace.run step (withAccountFeeConfig "paper" (Sample.config 0 none) 0)
          Sample.uncoveredSell).ledger.entries "paper").toOption.isNone := by
      decide +kernel
    rw [result] at failed
    cases failed

end ExecutorState

end Pmkit
