import Pmkit.Paper.OpenOrders

/-!
# The times of the entries

Every entry of a call carries the time of the call.  When no call goes behind
the last entry, the entries are ordered by time, and so they come back from a
query that sorts by time and sequence.
-/

namespace Pmkit

open MachineInt

namespace PaperLedger

def AddsAt (timestampMs : I64) (ledger later : PaperLedger) : Prop :=
  ∃ added, later.entries = ledger.entries ++ added ∧
    later.pending = ledger.pending ++ added ∧
    ∀ entry ∈ added, entry.timestampMs = timestampMs

theorem AddsAt.refl (timestampMs : I64) (ledger : PaperLedger) :
    AddsAt timestampMs ledger ledger :=
  ⟨[], by simp, by simp, by simp⟩

variable {timestampMs : I64}

theorem AddsAt.trans {ledger middle later : PaperLedger}
    (first : AddsAt timestampMs ledger middle)
    (second : AddsAt timestampMs middle later) :
    AddsAt timestampMs ledger later := by
  obtain ⟨early, earlyEntries, earlyPending, earlyTimes⟩ := first
  obtain ⟨late, lateEntries, latePending, lateTimes⟩ := second
  refine ⟨early ++ late, ?_, ?_, ?_⟩
  · rw [lateEntries, earlyEntries, List.append_assoc]
  · rw [latePending, earlyPending, List.append_assoc]
  · intro entry mem
    rcases List.mem_append.mp mem with older | newer
    · exact earlyTimes entry older
    · exact lateTimes entry newer

theorem AddsAt.record
    (ledger : PaperLedger) (timestampMs : I64) (event : PaperLedgerEvent)
    {changed : PaperLedger} (entries : changed.entries = ledger.entries)
    (pending : changed.pending = ledger.pending) :
    AddsAt timestampMs ledger
      (changed.record (ledger.nextEntry timestampMs event)) := by
  refine ⟨[ledger.nextEntry timestampMs event], ?_, ?_, ?_⟩
  · rw [← entries]
    rfl
  · rw [← pending]
    rfl
  · intro entry mem
    rw [List.mem_singleton.mp mem]
    rfl

theorem recordFills_addsAt {fills : List (FillEvent Decimal)}
    (times : ∀ fill ∈ fills, fill.timestampMs = timestampMs)
    (ledger : PaperLedger) :
    AddsAt timestampMs ledger (ledger.recordFills fills).1 := by
  refine recordFills_related (AddsAt.refl timestampMs) .trans ?_ ledger
  intro ledger fill mem
  have step := recordFill_step ledger fill
  generalize ledger.recordFill fill = result at step
  cases step with
  | recorded tracked found matched accepted =>
      rw [times fill mem]
      exact .record ledger timestampMs _ rfl rfl
  | unmatched error unknown =>
      exact .refl timestampMs ledger
  | refused tracked error found matched notAccepted =>
      exact ⟨[], by simp, by simp, by simp⟩

theorem cancelEach_addsAt
    (timestampMs : I64) (ledger : PaperLedger) (orderIds : List String) :
    AddsAt timestampMs ledger (ledger.cancelEach timestampMs orderIds).1 :=
  cancelEach_related (AddsAt.refl timestampMs) .trans
    (fun ledger _ _ _ => .record ledger timestampMs _ rfl rfl) orderIds ledger

theorem settle_addsAt
    (ledger : PaperLedger) (market : MarketId) (outcome : Outcome)
    (settledSize proceeds : Decimal) (timestampMs : I64) :
    AddsAt timestampMs ledger
      (ledger.settle market outcome settledSize proceeds timestampMs).1 := by
  rcases settle_cases ledger market outcome settledSize proceeds timestampMs
    with ⟨next, applied, settled⟩ | ⟨error, failed⟩
  · rw [settled]
    exact .record ledger timestampMs _ applied.frame.1 applied.frame.2.1
  · rw [failed]
    exact .refl timestampMs ledger

def Ordered (ledger : PaperLedger) : Prop :=
  ledger.entries.Pairwise fun left right =>
    left.timestampMs ≤ right.timestampMs

theorem Ordered.le_last {ledger : PaperLedger} (ordered : ledger.Ordered)
    {entry : PaperLedgerEntry} (mem : entry ∈ ledger.entries) :
    entry.timestampMs ≤ ledger.lastTimestampMs := by
  unfold Ordered at ordered
  unfold lastTimestampMs
  generalize ledger.entries = entries at ordered mem
  induction entries using List.reverseRecOn with
  | nil =>
      cases mem
  | append_singleton before last _ =>
      rw [List.getLast?_append_of_ne_nil _ (by simp), List.getLast?_singleton]
      simp only [Option.map_some, Option.getD_some]
      rw [List.pairwise_append] at ordered
      rcases List.mem_append.mp mem with older | newest
      · exact ordered.2.2 entry older last List.mem_cons_self
      · rw [List.mem_singleton.mp newest]

theorem Ordered.addsAt {ledger later : PaperLedger}
    (ordered : ledger.Ordered) (adds : AddsAt timestampMs ledger later)
    (after : ledger.lastTimestampMs ≤ timestampMs) :
    later.Ordered ∧ ledger.lastTimestampMs ≤ later.lastTimestampMs := by
  obtain ⟨added, entries, _, times⟩ := adds
  constructor
  · unfold Ordered
    rw [entries, List.pairwise_append]
    refine ⟨ordered, ?_, ?_⟩
    · rw [List.pairwise_iff_forall_sublist]
      intro left right sublist
      rw [times left (sublist.subset (by simp)),
        times right (sublist.subset (by simp))]
    · intro left mem right newer
      rw [times right newer]
      exact (ordered.le_last mem).trans after
  · unfold lastTimestampMs at after ⊢
    rw [entries]
    cases added using List.reverseRecOn with
    | nil =>
        simp
    | append_singleton before last =>
        have time := times last (by simp)
        simpa [List.getLast?_append, time] using after

theorem AddsAt.last {ledger later : PaperLedger}
    (adds : AddsAt timestampMs ledger later)
    (more : later.entries ≠ ledger.entries) :
    later.lastTimestampMs = timestampMs := by
  obtain ⟨added, entries, _, times⟩ := adds
  unfold lastTimestampMs
  cases added using List.reverseRecOn with
  | nil =>
      rw [List.append_nil] at entries
      exact absurd entries more
  | append_singleton before last =>
      have time := times last (by simp)
      rw [entries]
      simp [List.getLast?_append, time]

end PaperLedger

namespace ExecutorState

/-- The time a call records its entries at: cancellations are recorded at the
time of the last call that succeeded. -/
def callTime (state : ExecutorState) : ExecutorCall → I64
  | .submit _ _ nowMs => nowMs
  | .submitForStrategy _ _ _ nowMs => nowMs
  | .updateBook _ _ _ _ _ book => book.timestampMs
  | .cancel _ => state.lastTimestampMs
  | .cancelAll => state.lastTimestampMs
  | .settle _ _ _ _ timestampMs => timestampMs

/-- The entries are ordered by time, and no open order is younger than the
last of them. -/
structure Timely (state : ExecutorState) : Prop where
  ordered : state.ledger.Ordered
  submitted : ∀ orderId opened,
    state.engine.openOrder orderId = some opened →
      opened.2.submittedMs ≤ state.ledger.lastTimestampMs

section Steps

variable {idPrefix : String} {config : SimulationConfig}
  {state next : ExecutorState}

theorem bookFills_timestampMs
    (wellFormed : state.engine.WellFormed) {fillOrder : IterationOrder String}
    {market : MarketId} {outcome : Outcome} {book : OrderBookL2}
    (timely : state.Timely)
    (after : state.ledger.lastTimestampMs ≤ book.timestampMs)
    {fill : FillEvent Decimal}
    (mem : fill ∈ state.engine.bookFills fillOrder market outcome book) :
    fill.timestampMs = book.timestampMs := by
  have young : ∀ orderId standing (working : WorkingOrder),
      state.engine.openOrder orderId = some (standing, working) →
        max book.timestampMs working.submittedMs = book.timestampMs := by
    intro orderId standing working opened
    exact max_eq_left ((timely.submitted orderId _ opened).trans after)
  rcases (SimEngine.mem_bookFills wellFormed).mp mem with
    ⟨delayed, waiting, _, _, filled⟩ | ⟨key, resting, stored, _, _, filled⟩
  · obtain ⟨_, _, _, _, _, _, time⟩ := SimEngine.takerFill_fields filled
    rw [time]
    exact young delayed.orderId .delayed delayed
      (wellFormed.openOrder_delayed waiting)
  · obtain ⟨_, _, _, _, _, _, time⟩ := SimEngine.makerFill_fields filled
    rw [time]
    exact young key .resting resting (SimEngine.openOrder_resting stored)

/-- A book update keeps the submission times of what it leaves open. -/
theorem openAfter_submittedMs
    {engine : SimEngine} {market : MarketId} {outcome : Outcome}
    {book : OrderBookL2} {before after : SimEngine.Standing × WorkingOrder}
    (left : engine.openAfter market outcome book before = some after) :
    after.2.submittedMs = before.2.submittedMs := by
  obtain ⟨standing, working⟩ := before
  cases standing with
  | resting =>
      simp only [SimEngine.openAfter, SimEngine.restingAfter,
        SimEngine.afterFill] at left
      obtain ⟨remainder, kept, rfl⟩ := Option.map_eq_some_iff.mp left
      split at kept
      · cases kept
      · split at kept
        · split at kept
          · cases kept
            rfl
          · split at kept
            · cases kept
            · cases kept
              rfl
        · cases kept
          rfl
  | delayed =>
      simp only [SimEngine.openAfter] at left
      split at left
      · cases left
        rfl
      · cases left

theorem Timely.later (timely : state.Timely) {timestampMs : I64}
    (adds : PaperLedger.AddsAt timestampMs state.ledger next.ledger)
    (after : state.ledger.lastTimestampMs ≤ timestampMs)
    (opened : ∀ orderId opened, next.engine.openOrder orderId = some opened →
      opened.2.submittedMs ≤ next.ledger.lastTimestampMs ∨
        ∃ before, state.engine.openOrder orderId = some before ∧
          opened.2.submittedMs = before.2.submittedMs) :
    next.Timely := by
  obtain ⟨ordered, last⟩ := timely.ordered.addsAt adds after
  refine ⟨ordered, ?_⟩
  intro orderId working isOpen
  rcases opened orderId working isOpen with new | ⟨before, wasOpen, same⟩
  · exact new
  · rw [same]
    exact (timely.submitted orderId before wasOpen).trans last

variable {order : PlaceOrder} {strategy : Option StrategyId} {nowMs : I64}

theorem submitted_timestampMs (drained : state.engine.pendingFills = [])
    {result : SimEngine × Option String}
    (submitted : SimEngine.Submitted state.engine order strategy nowMs result) :
    ∀ fill ∈ result.1.pendingFills, fill.timestampMs = nowMs := by
  intro fill mem
  cases submitted with
  | takes accepted taker immediate own filled =>
      simp only [drained, List.nil_append, List.mem_singleton] at mem
      obtain ⟨_, _, _, _, _, _, time⟩ := SimEngine.takerFill_fields filled
      rw [mem, time, max_self]
  | _ =>
      simp only [drained, List.not_mem_nil] at mem

/-- A submission that passes the checks records its placement, and all that
follows, at its time. -/
theorem SubmissionStep.addsAt (drained : state.engine.pendingFills = [])
    (step : SubmissionStep state order strategy nowMs next) :
    next = state ∨
      (PaperLedger.AddsAt nowMs (state.ledger.placed order strategy nowMs)
        next.ledger ∧
      ∃ result, SimEngine.Submitted state.engine order strategy nowMs result ∧
        next.engine.openOrder = result.1.openOrder) := by
  cases step with
  | refused error check =>
      exact .inl rfl
  | rejected result check submitted noId =>
      refine Or.inr ⟨?_, result, submitted, rfl⟩
      exact (PaperLedger.AddsAt.record _ nowMs _ rfl rfl).trans
        (PaperLedger.recordFills_addsAt
          (submitted_timestampMs drained submitted) _)
  | diverged result actual check submitted minted ne =>
      exact .inr ⟨.refl nowMs _, result, submitted, rfl⟩
  | accepted result check submitted minted =>
      refine Or.inr ⟨?_, result, submitted, rfl⟩
      exact (PaperLedger.AddsAt.record _ nowMs _ rfl rfl).trans
        (PaperLedger.recordFills_addsAt
          (submitted_timestampMs drained submitted) _)

theorem SubmissionStep.timely (wellFormed : state.engine.WellFormed)
    (drained : state.engine.pendingFills = []) (timely : state.Timely)
    (after : state.ledger.lastTimestampMs ≤ nowMs)
    (step : SubmissionStep state order strategy nowMs next) :
    next.Timely ∧ PaperLedger.AddsAt nowMs state.ledger next.ledger := by
  rcases step.addsAt drained with
    rfl | ⟨answered, result, submitted, sameOpen⟩
  · exact ⟨timely, .refl nowMs next.ledger⟩
  · have adds := (PaperLedger.AddsAt.record state.ledger nowMs
      (.orderPlaced (.fromOrder order strategy)) rfl rfl).trans answered
    have more : next.ledger.entries ≠ state.ledger.entries := by
      obtain ⟨added, entries, _⟩ := answered
      rw [entries]
      simp [PaperLedger.placed, PaperLedger.record]
    have last := adds.last more
    refine ⟨timely.later adds after ?_, adds⟩
    intro orderId opened isOpen
    rw [sameOpen, submitted.openOrder wellFormed] at isOpen
    split at isOpen
    · left
      rw [last]
      split at isOpen
      · cases isOpen
        exact le_refl nowMs
      · split at isOpen
        · cases isOpen
          exact le_refl nowMs
        · cases isOpen
    · exact .inr ⟨opened, isOpen, rfl⟩

theorem Timely.step
    (timely : state.Timely) (sound : state.Sound idPrefix config)
    (drained : state.engine.pendingFills = []) {call : ExecutorCall}
    (after : state.ledger.lastTimestampMs ≤ state.callTime call) :
    (state.step call).Timely ∧
      PaperLedger.AddsAt (state.callTime call) state.ledger
        (state.step call).ledger := by
  have fresh := sound.recorded.nextFresh
  have wellFormed := sound.wellFormed
  cases call with
  | submit receiverOpen order nowMs =>
      simp only [ExecutorState.step, submit_state fresh]
      exact (submitOwned_step fresh receiverOpen order none nowMs).timely
        wellFormed drained timely after
  | submitForStrategy receiverOpen order strategy nowMs =>
      exact (submitOwned_step fresh receiverOpen order (some strategy)
        nowMs).timely wellFormed drained timely after
  | updateBook receiverOpen fillOrder cancelOrder market outcome book =>
      have adds : PaperLedger.AddsAt book.timestampMs state.ledger
          (state.updateBook receiverOpen fillOrder cancelOrder market outcome
            book).1.ledger := by
        obtain ⟨orderIds, ledger⟩ := updateBook_ledger receiverOpen fillOrder
          cancelOrder state market outcome book
        obtain ⟨_, _, _, _, _, _, _, fills⟩ := SimEngine.updateBook_spec
          wellFormed fillOrder market outcome book
        rw [ledger, fills, drained, List.nil_append]
        exact (PaperLedger.recordFills_addsAt (fun _ mem =>
          bookFills_timestampMs wellFormed timely after mem) _).trans
            (PaperLedger.cancelEach_addsAt _ _ _)
      refine ⟨timely.later adds after ?_, adds⟩
      intro orderId opened isOpen
      simp only [ExecutorState.step, (updateBook_engine receiverOpen fillOrder
        cancelOrder state market outcome book).1] at isOpen
      change (state.engine.updateBook fillOrder market outcome
        book).openOrder orderId = some opened at isOpen
      rw [SimEngine.updateBook_openOrder wellFormed,
        Option.bind_eq_some_iff] at isOpen
      obtain ⟨before, wasOpen, left⟩ := isOpen
      exact .inr ⟨before, wasOpen, openAfter_submittedMs left⟩
  | cancel orderId =>
      have adds : PaperLedger.AddsAt state.lastTimestampMs state.ledger
          (state.cancel orderId).1.ledger := by
        obtain ⟨orderIds, ledger⟩ := cancel_ledger state orderId
        rw [ledger]
        exact PaperLedger.cancelEach_addsAt _ _ _
      refine ⟨timely.later adds after ?_, adds⟩
      intro key opened isOpen
      simp only [ExecutorState.step, (cancel_engine state orderId).1,
        SimEngine.cancel_openOrder wellFormed] at isOpen
      split at isOpen
      · cases isOpen
      · exact .inr ⟨opened, isOpen, rfl⟩
  | cancelAll =>
      have adds : PaperLedger.AddsAt state.lastTimestampMs state.ledger
          state.cancelAll.1.ledger := by
        rw [cancelAll_eq]
        exact PaperLedger.cancelEach_addsAt _ _ _
      refine ⟨timely.later adds after ?_, adds⟩
      intro key opened isOpen
      simp only [ExecutorState.step, cancelAll_eq] at isOpen
      cases isOpen
  | settle market outcome settledSize proceeds timestampMs =>
      have adds : PaperLedger.AddsAt timestampMs state.ledger
          (state.settle market outcome settledSize proceeds
            timestampMs).1.ledger := by
        rw [settle_ledger]
        exact PaperLedger.settle_addsAt _ _ _ _ _ _
      refine ⟨timely.later adds after ?_, adds⟩
      intro key opened isOpen
      simp only [ExecutorState.step, (settle_engine state market outcome
        settledSize proceeds timestampMs).1] at isOpen
      exact .inr ⟨opened, isOpen, rfl⟩

theorem withAccountFeeConfig_timely
    (idPrefix : String) (config : SimulationConfig) (initialCash : Money) :
    (withAccountFeeConfig idPrefix config initialCash).Timely where
  ordered := List.pairwise_singleton _ _
  submitted := by
    intro orderId opened isOpen
    cases isOpen

end Steps

end ExecutorState

end Pmkit
