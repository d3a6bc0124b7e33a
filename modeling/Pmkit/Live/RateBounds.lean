import Pmkit.Library.FixedWindows
import Pmkit.Library.Trace
import Pmkit.Live.Rates

/-!
# What the rate limits bound

The windows of the portfolio and of each strategy are those that the accepted
times cut.  This bounds what any span of time accepts, and it makes the windows
a function of the accepted submissions, so that a restart finds them again.
-/

namespace Pmkit

open MachineInt

/-- What the constructor of the limits checks, with the width of the maxima. -/
structure OrderRateLimits.Valid (limits : OrderRateLimits) : Prop where
  strategyPositive : 0 < limits.maxPerStrategy
  strategyFits : limits.maxPerStrategy ≤ 4294967295
  portfolioPositive : 0 < limits.maxPerPortfolio
  portfolioFits : limits.maxPerPortfolio ≤ 4294967295
  durationPositive : 0 < limits.windowDurationMs.1

/-- The rate state of a run with the submissions that it accepted. -/
structure RateRun where
  state : OrderRateState
  accepted : List (StrategyId × I64)

namespace RateRun

def start : RateRun where
  state := .default
  accepted := []

/-- One `try_accept`. -/
def step (limits : OrderRateLimits) (run : RateRun)
    (submission : StrategyId × I64) : RateRun where
  state := (run.state.tryAccept limits submission.1 submission.2).1
  accepted :=
    if (run.state.tryAccept limits submission.1 submission.2).2 then
      run.accepted ++ [submission]
    else
      run.accepted

def strategyTimes (run : RateRun) (strategy : StrategyId) : List Int :=
  (run.accepted.filter fun submission => submission.1 = strategy).map
    fun submission => submission.2.1

def portfolioTimes (run : RateRun) : List Int :=
  run.accepted.map fun submission => submission.2.1

end RateRun

/-- The answers of `try_accept` to some submissions. -/
def OrderRateState.answers (limits : OrderRateLimits) :
    OrderRateState → List (StrategyId × I64) → List Bool
  | _, [] => []
  | state, submission :: rest =>
      (state.tryAccept limits submission.1 submission.2).2 ::
        answers limits
          (state.tryAccept limits submission.1 submission.2).1 rest

/-- No span takes more than two windows, no window more than its maximum, and
the accepted submissions in any order restore a state that answers alike. -/
structure RateRun.Bounded (limits : OrderRateLimits) (run : RateRun) :
    Prop where
  strategySpan : ∀ strategy begin,
    FixedWindows.within begin (begin + limits.windowDurationMs.1)
      (run.strategyTimes strategy) ≤ 2 * limits.maxPerStrategy
  portfolioSpan : ∀ begin,
    FixedWindows.within begin (begin + limits.windowDurationMs.1)
      run.portfolioTimes ≤ 2 * limits.maxPerPortfolio
  strategyWindow : ∀ strategy window,
    run.state.perStrategy.lookup strategy = some window →
      FixedWindows.within window.startedAtMs.1
        (window.startedAtMs.1 + limits.windowDurationMs.1)
        (run.strategyTimes strategy) ≤ limits.maxPerStrategy
  portfolioWindow : ∀ window, run.state.portfolio = some window →
    FixedWindows.within window.startedAtMs.1
      (window.startedAtMs.1 + limits.windowDurationMs.1)
      run.portfolioTimes ≤ limits.maxPerPortfolio
  restores : ∀ accepted,
    accepted.Perm (run.accepted.map fun submission =>
      (some submission.1, submission.2)) →
    ∀ later, (OrderRateState.default.restore limits accepted).answers limits
      later = run.state.answers limits later

namespace FixedOrderWindow

/-- Whether a window has ended, without the bounds of the numbers. -/
theorem ended_iff
    {durationMs : I64} (nonneg : 0 ≤ durationMs.1) (window : FixedOrderWindow)
    (timestampMs : I64) :
    window.ended timestampMs durationMs = true ↔
      window.startedAtMs.1 + durationMs.1 < timestampMs.1 := by
  have lower : (-(2 ^ 63) : ℤ) ≤ window.startedAtMs.1 :=
    window.startedAtMs.2.1
  have upper : timestampMs.1 ≤ 2 ^ 63 - 1 := timestampMs.2.2
  rw [ended, decide_eq_true_eq]
  change max (-(2 ^ 63) : ℤ)
      (min (2 ^ 63 - 1) (window.startedAtMs.1 + durationMs.1)) <
        timestampMs.1 ↔ _
  omega

def recordAll (durationMs : I64) (window : Option FixedOrderWindow)
    (times : List I64) : Option FixedOrderWindow :=
  times.foldl (fun window time => some (recordAt time durationMs window))
    window

/-- A window and the times that it was made from. -/
structure Cuts (durationMs : I64) (maximum : Nat)
    (window : Option FixedOrderWindow) (earlier current : List Int) :
    Prop where
  cut : FixedWindows.Cut durationMs.1 maximum earlier current
  started : current.head? = window.map fun window => window.startedAtMs.1
  accepted : current.length = (window.map FixedOrderWindow.accepted).getD 0

theorem Cuts.record
    {durationMs : I64} (nonneg : 0 ≤ durationMs.1) {maximum : Nat}
    (fits : maximum ≤ 4294967295) {window : Option FixedOrderWindow}
    {earlier current : List Int}
    (cuts : Cuts durationMs maximum window earlier current)
    {timestampMs : I64}
    (room : (window.all fun window =>
      window.hasCapacity timestampMs durationMs maximum) = true)
    (after : ∀ time ∈ current, time ≤ timestampMs.1) :
    ∃ before now, before ++ now = earlier ++ current ++ [timestampMs.1] ∧
      Cuts durationMs maximum
        (some (recordAt timestampMs durationMs window)) before now := by
  cases window with
  | none =>
      refine ⟨earlier ++ current, [timestampMs.1], rfl, ?_, rfl, rfl⟩
      refine .next cuts.cut ?_
      intro start found
      rw [cuts.started] at found
      cases found
  | some window =>
      have started : current.head? = some window.startedAtMs.1 := cuts.started
      have accepted : current.length = window.accepted := cuts.accepted
      by_cases ended : window.ended timestampMs durationMs = true
      · refine ⟨earlier ++ current, [timestampMs.1], rfl, ?_, ?_, ?_⟩
        · refine .next cuts.cut ?_
          intro start found
          rw [started] at found
          cases found
          exact (ended_iff nonneg window timestampMs).mp ended
        · rw [recordAt, FixedOrderWindow.record, if_pos ended]
          rfl
        · rw [recordAt, FixedOrderWindow.record, if_pos ended]
          rfl
      · simp only [Option.all_some, hasCapacity, ended, Bool.false_or,
          decide_eq_true_eq] at room
        have running := mt (ended_iff nonneg window timestampMs).mpr ended
        refine ⟨earlier, current ++ [timestampMs.1],
          (List.append_assoc ..).symm, ?_, ?_, ?_⟩
        · refine .take cuts.cut started ?_ (by omega) (by omega)
          exact after _ (List.mem_of_mem_head? started)
        · rw [recordAt, FixedOrderWindow.record, if_neg ended,
            List.head?_append, started]
          rfl
        · rw [recordAt, FixedOrderWindow.record, if_neg ended,
            List.length_append, accepted]
          change window.accepted + 1 = min (window.accepted + 1) (2 ^ 32 - 1)
          omega

end FixedOrderWindow

/-! ## The windows of a run -/

/-- Recording a submission touches the window of its strategy alone. -/
theorem OrderRateState.lookup_record
    (state : OrderRateState) (owner : StrategyId)
    (timestampMs durationMs : I64) (strategy : StrategyId) :
    ((state.recordPortfolio timestampMs durationMs).recordStrategy owner
        timestampMs durationMs).perStrategy.lookup strategy =
      if strategy = owner then
        some (FixedOrderWindow.recordAt timestampMs durationMs
          (state.perStrategy.lookup owner))
      else
        state.perStrategy.lookup strategy :=
  KeyedMap.lookup_insert_eq _ _ _ _

namespace RateRun

variable {limits : OrderRateLimits} {run : RateRun}

/-- The windows of a run are those of its accepted times, which come in
order. -/
structure Kept (limits : OrderRateLimits) (run : RateRun) : Prop where
  ordered : run.accepted.Pairwise fun left right => left.2 ≤ right.2
  portfolio : run.state.portfolio =
    FixedOrderWindow.recordAll limits.windowDurationMs none
      (run.accepted.map Prod.snd)
  strategy : ∀ strategy, run.state.perStrategy.lookup strategy =
    FixedOrderWindow.recordAll limits.windowDurationMs none
      ((run.accepted.filter fun submission =>
        submission.1 = strategy).map Prod.snd)
  portfolioCuts : ∃ earlier current,
    earlier ++ current = run.portfolioTimes ∧
      FixedOrderWindow.Cuts limits.windowDurationMs limits.maxPerPortfolio
        run.state.portfolio earlier current
  strategyCuts : ∀ strategy, ∃ earlier current,
    earlier ++ current = run.strategyTimes strategy ∧
      FixedOrderWindow.Cuts limits.windowDurationMs limits.maxPerStrategy
        (run.state.perStrategy.lookup strategy) earlier current

theorem start_kept (limits : OrderRateLimits) : start.Kept limits where
  ordered := List.Pairwise.nil
  portfolio := rfl
  strategy := fun _ => rfl
  portfolioCuts := ⟨[], [], rfl, .none, rfl, rfl⟩
  strategyCuts := fun _ => ⟨[], [], rfl, .none, rfl, rfl⟩

variable {submission : StrategyId × I64}

/-- A submission that is not accepted changes nothing. -/
theorem step_refused
    (full : run.state.hasCapacity limits submission.1 submission.2 = false) :
    run.step limits submission = run := by
  simp [step, OrderRateState.tryAccept, full]

theorem step_accepted
    (room : run.state.hasCapacity limits submission.1 submission.2 = true) :
    run.step limits submission =
      { state := (run.state.recordPortfolio submission.2
          limits.windowDurationMs).recordStrategy submission.1 submission.2
            limits.windowDurationMs
        accepted := run.accepted ++ [submission] } := by
  simp [step, OrderRateState.tryAccept, room]

/-- A submission that is not before an accepted one keeps the windows. -/
theorem Kept.step (valid : limits.Valid) (kept : run.Kept limits)
    {submission : StrategyId × I64}
    (after : ∀ accepted ∈ run.accepted, accepted.2 ≤ submission.2) :
    (run.step limits submission).Kept limits := by
  have nonneg := valid.durationPositive.le
  cases room : run.state.hasCapacity limits submission.1 submission.2 with
  | false =>
      rw [step_refused room]
      exact kept
  | true =>
      rw [step_accepted room]
      rw [OrderRateState.hasCapacity, Bool.and_eq_true] at room
      refine ⟨?_, ?_, ?_, ?_, ?_⟩
      · refine List.pairwise_append.mpr
          ⟨kept.ordered, List.pairwise_singleton _ _, ?_⟩
        intro accepted mem other isLast
        rw [List.mem_singleton.mp isLast]
        exact after accepted mem
      · rw [List.map_append, FixedOrderWindow.recordAll, List.foldl_append]
        change some _ = some _
        rw [kept.portfolio]
        rfl
      · intro strategy
        rw [OrderRateState.lookup_record, List.filter_append]
        by_cases own : strategy = submission.1
        · rw [if_pos own, ← own, kept.strategy, List.filter_singleton,
            decide_eq_true own.symm, List.map_append,
            FixedOrderWindow.recordAll, FixedOrderWindow.recordAll,
            List.foldl_append]
          rfl
        · rw [if_neg own, kept.strategy, List.filter_singleton,
            decide_eq_false (Ne.symm own), cond_false, List.append_nil]
      · obtain ⟨earlier, current, whole, cuts⟩ := kept.portfolioCuts
        obtain ⟨before, now, parts, recorded⟩ := cuts.record nonneg
          valid.portfolioFits room.1 (by
            intro time mem
            have inside : time ∈ run.portfolioTimes := by
              rw [← whole]
              exact List.mem_append_right _ mem
            obtain ⟨accepted, isAccepted, rfl⟩ := List.mem_map.mp inside
            exact after accepted isAccepted)
        refine ⟨before, now, ?_, recorded⟩
        rw [parts, whole, portfolioTimes, portfolioTimes, List.map_append]
        rfl
      · intro strategy
        obtain ⟨earlier, current, whole, cuts⟩ := kept.strategyCuts strategy
        by_cases own : strategy = submission.1
        · subst own
          obtain ⟨before, now, parts, recorded⟩ := cuts.record nonneg
            valid.strategyFits room.2 (by
              intro time mem
              have inside : time ∈ run.strategyTimes submission.1 := by
                rw [← whole]
                exact List.mem_append_right _ mem
              obtain ⟨accepted, isAccepted, rfl⟩ := List.mem_map.mp inside
              exact after accepted (List.mem_of_mem_filter isAccepted))
          refine ⟨before, now, ?_, ?_⟩
          · rw [parts, whole, strategyTimes, strategyTimes, List.filter_append,
              List.map_append, List.filter_singleton, decide_eq_true rfl]
            rfl
          · rw [OrderRateState.lookup_record, if_pos rfl]
            exact recorded
        · refine ⟨earlier, current, ?_, ?_⟩
          · rw [whole, strategyTimes, strategyTimes, List.filter_append,
              List.filter_singleton, decide_eq_false (Ne.symm own), cond_false,
              List.append_nil]
          · rw [OrderRateState.lookup_record, if_neg own]
            exact cuts

end RateRun

/-! ## Restart -/

namespace OrderRateState

structure SameWindows (left right : OrderRateState) : Prop where
  portfolio : left.portfolio = right.portfolio
  strategy : ∀ strategy,
    left.perStrategy.lookup strategy = right.perStrategy.lookup strategy

theorem SameWindows.answers
    {limits : OrderRateLimits} {left right : OrderRateState}
    (same : left.SameWindows right) (later : List (StrategyId × I64)) :
    left.answers limits later = right.answers limits later := by
  induction later generalizing left right with
  | nil =>
      rfl
  | cons submission rest ih =>
      have room : left.hasCapacity limits submission.1 submission.2 =
          right.hasCapacity limits submission.1 submission.2 := by
        rw [hasCapacity, hasCapacity, same.portfolio, same.strategy]
      rw [OrderRateState.answers, OrderRateState.answers, tryAccept, tryAccept,
        room]
      split
      · congr 1
        apply ih
        constructor
        · change some _ = some _
          rw [same.portfolio]
        · intro strategy
          rw [lookup_record, lookup_record, same.strategy, same.strategy]
      · exact congrArg _ (ih same)

variable (limits : OrderRateLimits)

theorem restoreAll_portfolio
    (accepted : List (Option StrategyId × I64)) (state : OrderRateState) :
    (accepted.foldl (restoreOne limits) state).portfolio =
      FixedOrderWindow.recordAll limits.windowDurationMs state.portfolio
        (accepted.map Prod.snd) := by
  induction accepted generalizing state with
  | nil =>
      rfl
  | cons first rest ih =>
      have one : (restoreOne limits state first).portfolio =
          some (FixedOrderWindow.recordAt first.2 limits.windowDurationMs
            state.portfolio) := by
        unfold restoreOne
        cases first.1 with
        | none => rfl
        | some strategy => rfl
      rw [List.foldl_cons, ih, one]
      rfl

theorem restoreAll_strategy
    (accepted : List (Option StrategyId × I64)) (state : OrderRateState)
    (strategy : StrategyId) :
    (accepted.foldl (restoreOne limits) state).perStrategy.lookup strategy =
      FixedOrderWindow.recordAll limits.windowDurationMs
        (state.perStrategy.lookup strategy)
        ((accepted.filter fun submission =>
          submission.1 = some strategy).map Prod.snd) := by
  induction accepted generalizing state with
  | nil =>
      rfl
  | cons first rest ih =>
      obtain ⟨owner, timestampMs⟩ := first
      rw [List.foldl_cons, ih, List.filter_cons]
      cases owner with
      | none => simp [restoreOne, recordPortfolio]
      | some other =>
          have one : (restoreOne limits state
              (some other, timestampMs)).perStrategy.lookup strategy =
            if strategy = other then
              some (FixedOrderWindow.recordAt timestampMs
                limits.windowDurationMs (state.perStrategy.lookup other))
            else
              state.perStrategy.lookup strategy :=
            lookup_record state other timestampMs limits.windowDurationMs
              strategy
          rw [one]
          by_cases own : strategy = other
          · subst own
            simp [FixedOrderWindow.recordAll]
          · simp [own, Ne.symm own]

end OrderRateState

namespace RateRun

variable {limits : OrderRateLimits} {run : RateRun}

/-- Accepted submissions that are sorted by their times give the same times, of
all of them and of each strategy. -/
theorem Kept.restores
    (kept : run.Kept limits) {accepted : List (Option StrategyId × I64)}
    (rearranged : accepted.Perm (run.accepted.map fun submission =>
      (some submission.1, submission.2))) :
    (OrderRateState.default.restore limits accepted).SameWindows
      run.state := by
  let sorted := accepted.insertionSort fun left right => left.2 ≤ right.2
  have perm : sorted.Perm (run.accepted.map fun submission =>
      (some submission.1, submission.2)) :=
    (List.perm_insertionSort _ accepted).trans rearranged
  have ordered : sorted.Pairwise fun left right => left.2 ≤ right.2 := by
    have total : Std.Total fun left right : Option StrategyId × I64 =>
        left.2 ≤ right.2 := ⟨fun left right => le_total left.2 right.2⟩
    have transitive : IsTrans (Option StrategyId × I64)
        fun left right => left.2 ≤ right.2 :=
      ⟨fun _ _ _ first second => le_trans first second⟩
    exact List.pairwise_insertionSort _ accepted
  have times : ∀ keep : Option StrategyId × I64 → Bool,
      (sorted.filter keep).map Prod.snd =
        ((run.accepted.map fun submission =>
          (some submission.1, submission.2)).filter keep).map Prod.snd := by
    intro keep
    refine @List.Perm.eq_of_pairwise I64 (· ≤ ·) _ _ ?_ ?_ ?_
      ((perm.filter keep).map _)
    · exact fun _ _ _ _ => le_antisymm
    · rw [List.pairwise_map]
      exact ordered.sublist List.filter_sublist
    · rw [List.pairwise_map]
      refine List.Pairwise.sublist List.filter_sublist ?_
      rw [List.pairwise_map]
      exact kept.ordered
  constructor
  · have all := times fun _ => true
    rw [List.filter_true, List.filter_true, List.map_map] at all
    rw [kept.portfolio]
    change (sorted.foldl (OrderRateState.restoreOne limits) _).portfolio = _
    rw [OrderRateState.restoreAll_portfolio, all]
    rfl
  · intro strategy
    have own := times fun submission => submission.1 = some strategy
    rw [List.filter_map, List.map_map] at own
    rw [kept.strategy]
    change (sorted.foldl (OrderRateState.restoreOne limits)
      _).perStrategy.lookup strategy = _
    rw [OrderRateState.restoreAll_strategy, own]
    have same : ((fun submission : Option StrategyId × I64 =>
        decide (submission.1 = some strategy)) ∘
          fun submission : StrategyId × I64 =>
            (some submission.1, submission.2)) =
        fun submission => decide (submission.1 = strategy) := by
      funext submission
      simp
    rw [same]
    rfl

theorem Kept.bounded (valid : limits.Valid) (kept : run.Kept limits) :
    run.Bounded limits where
  strategySpan := by
    intro strategy begin
    obtain ⟨earlier, current, whole, cuts⟩ := kept.strategyCuts strategy
    rw [← whole]
    exact cuts.cut.span_le valid.durationPositive.le valid.strategyPositive _
  portfolioSpan := by
    intro begin
    obtain ⟨earlier, current, whole, cuts⟩ := kept.portfolioCuts
    rw [← whole]
    exact cuts.cut.span_le valid.durationPositive.le valid.portfolioPositive _
  strategyWindow := by
    intro strategy window found
    obtain ⟨earlier, current, whole, cuts⟩ := kept.strategyCuts strategy
    rw [found] at cuts
    rw [← whole]
    exact cuts.cut.window_le valid.durationPositive.le valid.strategyPositive
      cuts.started
  portfolioWindow := by
    intro window found
    obtain ⟨earlier, current, whole, cuts⟩ := kept.portfolioCuts
    rw [found] at cuts
    rw [← whole]
    exact cuts.cut.window_le valid.durationPositive.le valid.portfolioPositive
      cuts.started
  restores := fun _ rearranged later =>
    (kept.restores rearranged).answers later

theorem accepted_step (limits : OrderRateLimits) (run : RateRun)
    (submission : StrategyId × I64) :
    (run.step limits submission).accepted = run.accepted ∨
      (run.step limits submission).accepted =
        run.accepted ++ [submission] := by
  simp only [step]
  split
  · exact .inr rfl
  · exact .inl rfl

theorem everyStep_after
    (limits : OrderRateLimits) {submissions : List (StrategyId × I64)}
    (ordered : submissions.Pairwise fun left right => left.2 ≤ right.2)
    (run : RateRun) (before : ∀ accepted ∈ run.accepted,
      ∀ submission ∈ submissions, accepted.2 ≤ submission.2) :
    Trace.EveryStep (step limits)
      (fun run submission => ∀ accepted ∈ run.accepted,
        accepted.2 ≤ submission.2) run submissions := by
  induction submissions generalizing run with
  | nil =>
      trivial
  | cons first rest ih =>
      obtain ⟨least, later⟩ := List.pairwise_cons.mp ordered
      refine ⟨fun accepted mem =>
        before accepted mem first List.mem_cons_self, ?_⟩
      apply ih later
      intro accepted mem submission inside
      rcases run.accepted_step limits first with same | added
      · rw [same] at mem
        exact before accepted mem submission
          (List.mem_cons_of_mem first inside)
      · rw [added] at mem
        rcases List.mem_append.mp mem with old | new
        · exact before accepted old submission
            (List.mem_cons_of_mem first inside)
        · rw [List.mem_singleton.mp new]
          exact least submission inside

/-- In every state of a run the limits bound each span and each window of what
was accepted, and a restart answers as the run does. -/
theorem bounded_everyState
    (limits : OrderRateLimits) (valid : limits.Valid)
    (submissions : List (StrategyId × I64))
    (ordered : submissions.Pairwise fun left right => left.2 ≤ right.2) :
    Trace.EveryState (step limits) (Bounded limits) start submissions := by
  have after := everyStep_after limits ordered start
    (fun accepted member => absurd member List.not_mem_nil)
  have kept : Trace.EveryState (step limits) (Kept limits) start
      submissions :=
    Trace.everyState_of_everyStep
      (fun run submission kept after => kept.step valid after)
      (start_kept limits) after
  exact kept.imp fun run kept => kept.bounded valid

/-- The default limits, and three submissions of one strategy. -/
theorem default_bounded :
    Trace.EveryState (step .default) (Bounded .default) start
      [(⟨"maker", by decide⟩, 0), (⟨"maker", by decide⟩, 60000),
        (⟨"maker", by decide⟩, 60001)] := by
  refine bounded_everyState .default ⟨?_, ?_, ?_, ?_, ?_⟩ _ ?_
  · decide
  · decide
  · decide
  · decide
  · decide +kernel
  · simp only [List.pairwise_cons, List.mem_cons, List.not_mem_nil, or_false,
      forall_eq_or_imp, forall_eq, List.Pairwise.nil, IsEmpty.forall_iff,
      implies_true, and_true]
    decide +kernel

end RateRun

end Pmkit
