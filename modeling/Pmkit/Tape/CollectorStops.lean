import Pmkit.Tape.CollectorRuns

/-!
# The shutdown of a collector

After a cancellation each step that does something brings the run closer to its
return.
-/

namespace Pmkit

/-- The steps that a cancelled task has left. -/
def ShardStage.remaining : ShardStage → Nat
  | .selecting (.frame _) true => 5
  | .selecting _ true => 3
  | .selecting _ false => 2
  | .beating _ => 3
  | .sending _ => 4
  | .ended _ => 1

namespace ShardTask

def remaining (task : ShardTask) : Nat :=
  if task.joined then 0 else task.stage.remaining

variable {config : CollectorConfig} {shard : Nat} {task : ShardTask}
  {closed room : Bool} {event : ShardEvent}

/-- A step of a cancelled task does nothing, or leaves it with fewer steps, what
it sends included. -/
theorem advance_remaining :
    task.advance config shard true closed room event = (task, []) ∨
      (task.advance config shard true closed room event).1.stage.remaining +
          (task.advance config shard true closed room event).2.length <
        task.stage.remaining := by
  unfold advance
  split
  case h_10 => exact .inl rfl
  case h_1 wait polled stage =>
    rw [if_pos rfl, stage]
    cases wait <;> cases polled <;> simp [finish, ShardStage.remaining]
  case h_3 message stage =>
    rw [stage]
    simp only [refuse]
    split <;> simp [ShardStage.remaining]
  case h_8 record stage =>
    rw [stage]
    cases closed <;> cases room <;>
      simp [afterPump, finish, ShardStage.remaining]
  all_goals
    right
    try split
    all_goals simp [afterPump, ShardStage.remaining, *]

end ShardTask

namespace Collector

/-- The steps that a cancelled run has left. -/
def remaining (shardCount : Nat) (run : Collector) : Nat :=
  (∑ shard ∈ Finset.range shardCount, (run.tasks shard).remaining) +
    run.channel.length + run.writer.isNone.toNat + (!run.writerJoined).toNat

variable {config : CollectorConfig} {shardCount : Nat} {run : Collector}

theorem remaining_le (kept : Kept config shardCount run) :
    run.remaining shardCount ≤ 5 * shardCount + config.channelCapacity + 2 := by
  have each : ∀ shard ∈ Finset.range shardCount,
      (run.tasks shard).remaining ≤ 5 := by
    intro shard _
    unfold ShardTask.remaining ShardStage.remaining
    split
    · omega
    · split <;> omega
  have sum := Finset.sum_le_sum each
  rw [Finset.sum_const_nat fun _ _ => rfl, Finset.card_range] at sum
  have bounded := kept.bounded
  have writer := run.writer.isNone.toNat_le
  have joined := (!run.writerJoined).toNat_le
  unfold remaining
  omega

theorem step_remaining (kept : Kept config shardCount run)
    (cancelled : run.cancelled = true) (action : CollectorAction) :
    (run.step config shardCount action).cancelled = true ∧
      (run.step config shardCount action = run ∨
        (run.step config shardCount action).remaining shardCount <
          run.remaining shardCount) := by
  cases action with
  | shutdown => exact ⟨rfl, .inl (by simp only [step, ← cancelled])⟩
  | shard shard event =>
      by_cases within : shard < shardCount
      swap
      · simp [step, within, cancelled]
      simp only [step, if_pos within, cancelled, true_and]
      generalize decide (run.channel.length < config.channelCapacity) = room
      have advances := @ShardTask.advance_advances config shard _ true
        run.writer.isSome room event (kept.task shard).sound
      rcases @ShardTask.advance_remaining config shard (run.tasks shard)
        run.writer.isSome room event with same | less
      · rw [same, Function.update_eq_self, List.append_nil, ← cancelled]
        exact .inl rfl
      · have unjoined : (run.tasks shard).joined = false := by
          refine Bool.eq_false_iff.mpr fun joined => ?_
          obtain ⟨result, ended, _⟩ := (kept.task shard).joined joined
          simp [ShardTask.advance_of_ended ended] at less
        generalize (run.tasks shard).advance config shard true
          run.writer.isSome room event = moved at advances less ⊢
        have sum := sum_update ShardTask.remaining within run.tasks moved.1
        simp only [ShardTask.remaining, advances.joined, unjoined,
          Bool.false_eq_true, if_false] at sum
        right
        simp only [remaining, ShardTask.remaining, List.length_append]
        omega
  | write fault =>
      simp only [step]
      split
      case h_1 record rest writer channel =>
        refine ⟨cancelled, .inr ?_⟩
        simp only [remaining, channel, List.length_cons]
        omega
      case h_2 record rest message writer channel =>
        refine ⟨cancelled, .inr ?_⟩
        simp +arith [remaining, channel, writer]
      case h_3 => exact ⟨cancelled, .inl rfl⟩
  | flush fault =>
      simp only [step]
      split
      · rename_i ready
        cases fault <;> exact ⟨cancelled, .inr (by simp [remaining, ready.1])⟩
      · exact ⟨cancelled, .inl rfl⟩
  | join shard =>
      simp only [step]
      split
      case h_2 => exact ⟨cancelled, .inl rfl⟩
      case h_1 result stage unjoined =>
        by_cases within : shard < shardCount
        swap
        · simp [within, cancelled]
        rw [if_pos within]
        generalize joined : { run.tasks shard with joined := true } = after
        have sum := sum_update ShardTask.remaining within run.tasks after
        have before : (run.tasks shard).remaining = 1 := by
          simp [ShardTask.remaining, unjoined, stage, ShardStage.remaining]
        have now : after.remaining = 0 := by
          rw [← joined]
          rfl
        have less : remaining shardCount
            { run with tasks := Function.update run.tasks shard after } <
            run.remaining shardCount := by
          simp only [remaining]
          omega
        cases result with
        | ok reconnects => exact ⟨cancelled, .inr less⟩
        | error error => exact ⟨rfl, .inr less⟩
  | joinWriter =>
      simp only [step]
      split
      · rename_i ended
        by_cases joined : run.writerJoined = true
        · cases run
          simp_all
        · exact ⟨rfl, .inr (by simp [remaining, joined])⟩
      · exact ⟨cancelled, .inl rfl⟩

def Idle (config : CollectorConfig) (shardCount : Nat) (run : Collector) :
    Prop :=
  ∀ action, run.step config shardCount action = run

/-- A task that waits for its cancellation can see it, and one that waits for
room in the channel has a writer that can make it. -/
theorem joined_of_idle (idle : run.Idle config shardCount)
    (cancelled : run.cancelled = true) {shard : Nat}
    (within : shard < shardCount) : (run.tasks shard).joined = true := by
  have stays : ∀ event, ((run.tasks shard).advance config shard true
      run.writer.isSome (run.channel.length < config.channelCapacity)
      event).1.stage = (run.tasks shard).stage := by
    intro event
    have same := congrArg (fun run => (run.tasks shard).stage)
      (idle (.shard shard event))
    simpa only [step, if_pos within, Function.update_self, cancelled] using same
  cases stage : (run.tasks shard).stage with
  | selecting wait polled =>
      have poll := stays .poll
      simp [ShardTask.advance, ShardTask.finish, stage] at poll
  | beating connection =>
      have beat := stays (.beat true)
      simp [ShardTask.advance, ShardTask.afterPump, stage] at beat
  | sending record =>
      have send := stays .send
      have written := congrArg Collector.written (idle (.write none))
      cases writer : run.writer <;> cases channel : run.channel <;>
        simp [ShardTask.advance, ShardTask.afterPump, ShardTask.finish, step,
          stage, writer, channel] at send written
  | ended result =>
      by_contra unjoined
      rw [Bool.not_eq_true] at unjoined
      have joined := congrArg (fun run => (run.tasks shard).joined)
        (idle (.join shard))
      cases result <;> simp [step, stage, unjoined, within, join] at joined

theorem returned_of_idle (kept : Kept config shardCount run)
    (idle : run.Idle config shardCount) (cancelled : run.cancelled = true) :
    run.result shardCount ≠ none := by
  have joined : ∀ shard ∈ List.range shardCount,
      (run.tasks shard).joined = true := fun shard mem =>
    joined_of_idle idle cancelled (List.mem_range.mp mem)
  cases writer : run.writer with
  | some outcome =>
      have done := congrArg Collector.writerJoined (idle .joinWriter)
      simp only [step, writer, Option.isSome_some, if_true] at done
      rw [result, if_pos ⟨List.all_eq_true.mpr joined, done.symm⟩, writer]
      cases run.shardError <;> cases outcome <;> simp
  | none =>
      have written := congrArg Collector.written (idle (.write none))
      have flushed := congrArg Collector.writer (idle (.flush none))
      have ended : (List.range shardCount).all run.hasEnded = true :=
        List.all_eq_true.mpr fun shard mem => hasEnded_iff.mpr
          (((kept.task shard).joined (joined shard mem)).imp fun _ => And.left)
      cases channel : run.channel <;>
        simp [step, writer, channel, ended] at written flushed

/-- Only so many steps of a cancelled run do something, and one in which no step
does anything has returned. -/
structure Stops (config : CollectorConfig) (shardCount : Nat)
    (run : Collector) : Prop where
  bounded : ∀ later, Trace.EveryStep (step config shardCount)
      (fun run action => run.step config shardCount action ≠ run) run later →
    later.length ≤ 5 * shardCount + config.channelCapacity + 2
  returns : ∀ later,
    (Trace.run (step config shardCount) run later).Idle config shardCount →
    (Trace.run (step config shardCount) run later).result shardCount ≠ none

theorem cancelled_stops (config : CollectorConfig)
    (subscriptions : List Subscription) (actions : List CollectorAction)
    (cancelled : (after config subscriptions actions).cancelled = true) :
    Stops config (planShards subscriptions config.shardSize).length
      (after config subscriptions actions) := by
  have kept := kept_after config subscriptions actions
  generalize after config subscriptions actions = run at kept cancelled ⊢
  generalize (planShards subscriptions config.shardSize).length = count
    at kept ⊢
  have preserved : ∀ run action,
      Kept config count run ∧ run.cancelled = true →
      Kept config count (run.step config count action) ∧
        (run.step config count action).cancelled = true :=
    fun run action holds => ⟨kept_step holds.1 action,
      (step_remaining holds.1 holds.2 action).1⟩
  constructor
  · intro later effective
    exact (Trace.EveryStep.length_le (remaining count)
      (fun run action holds changes => ⟨preserved run action holds,
        (step_remaining holds.1 holds.2 action).2.resolve_left changes⟩)
      ⟨kept, cancelled⟩ effective).trans (remaining_le kept)
  · intro later idle
    have holds := Trace.run_invariant preserved later ⟨kept, cancelled⟩
    exact returned_of_idle holds.1 idle holds.2

theorem cancelled_stops_brief :
    Stops briefConfig 1 (after briefConfig [⟨"book"⟩] briefActions) :=
  cancelled_stops briefConfig [⟨"book"⟩] briefActions rfl

end Collector

end Pmkit
