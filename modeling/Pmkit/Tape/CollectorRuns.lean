import Mathlib.Algebra.Order.BigOperators.Group.Finset
import Pmkit.Library.Interleaving
import Pmkit.Library.Trace
import Pmkit.Tape.Collector

/-!
# Runs of the collector

In every order of the steps the tape has, of each shard, the first frames that
it received.  A run that returns a report has written all of them, and it
returns an error when a shard has used up its budget of refusals.
-/

namespace Pmkit

open Interleaving

namespace Collector

def shardOf (record : RawRecord) : Nat :=
  record.connection.shard

/-- The reconnects of a task that has been joined. -/
def joinedReconnects (task : ShardTask) : Nat :=
  if task.joined then task.reconnects else 0

def writerFailed (run : Collector) : Bool :=
  match run.writer with
  | some (.error _) => true
  | _ => false

/-- Of the frames that a shard received, those on the tape and in the channel
come first, and unless the writer has failed only the frame that the shard is
sending comes after them. -/
structure KeptTask (config : CollectorConfig) (failed : Bool)
    (error : Option CollectorError) (tape channel : List RawRecord)
    (shard : Nat) (task : ShardTask) : Prop where
  sound : task.Sound config shard
  kept : failed = false →
    ownedBy shardOf shard (tape ++ channel) ++ task.stage.inHand =
      task.received
  earlier : ownedBy shardOf shard tape <+: task.received
  joined : task.joined = true → ∃ result, task.stage = .ended result ∧
    (error = none → ∃ reconnects, result = .ok reconnects)

/-- What holds in every state. -/
structure Kept (config : CollectorConfig) (shardCount : Nat)
    (run : Collector) : Prop where
  task : ∀ shard, KeptTask config run.writerFailed run.shardError run.tape
    run.channel shard (run.tasks shard)
  owned : ∀ record ∈ run.tape ++ run.channel, shardOf record < shardCount
  written : run.written = run.tape.length
  bounded : run.channel.length ≤ config.channelCapacity
  closed : run.writer.isSome → run.channel = []
  flushed : ∀ written, run.writer = some (.ok written) →
    written = run.tape.length ∧ ∀ shard < shardCount, run.hasEnded shard
  reconnects : run.shardError = none → run.reconnects =
    ∑ shard ∈ Finset.range shardCount, joinedReconnects (run.tasks shard)
  error : ∀ error, run.shardError = some error → ∃ shard < shardCount,
    (run.tasks shard).stage = .ended (.error error)

theorem kept_start {config : CollectorConfig} {shardCount : Nat} :
    Kept config shardCount start where
  task := fun shard => ⟨ShardTask.sound_start config shard, fun _ => rfl,
    List.nil_prefix, by simp [start, ShardTask.start]⟩
  owned := by simp [start]
  written := rfl
  bounded := by simp [start]
  closed := fun _ => rfl
  flushed := by simp [start]
  reconnects := fun _ => by simp [start, ShardTask.start, joinedReconnects]
  error := by simp [start]

theorem sum_update (measure : ShardTask → Nat) {shardCount shard : Nat}
    (within : shard < shardCount) (tasks : Nat → ShardTask)
    (task : ShardTask) :
    (∑ other ∈ Finset.range shardCount,
        measure (Function.update tasks shard task other)) +
      measure (tasks shard) =
    (∑ other ∈ Finset.range shardCount, measure (tasks other)) +
      measure task := by
  have mem : shard ∈ Finset.range shardCount := Finset.mem_range.mpr within
  have others : ∀ other ∈ (Finset.range shardCount).erase shard,
      measure (Function.update tasks shard task other) =
        measure (tasks other) := by
    intro other mem
    rw [Function.update_of_ne (Finset.ne_of_mem_erase mem)]
  rw [← Finset.add_sum_erase _ _ mem, ← Finset.add_sum_erase _ _ mem,
    Finset.sum_congr rfl others, Function.update_self]
  omega

theorem hasEnded_iff {run : Collector} {shard : Nat} :
    run.hasEnded shard = true ↔
      ∃ result, (run.tasks shard).stage = .ended result := by
  unfold hasEnded
  split <;> simp_all

variable {config : CollectorConfig} {shardCount : Nat} {run : Collector}

section Step

variable (kept : Kept config shardCount run)

include kept

theorem keptTask_shard
    {shard : Nat} {after : ShardTask} {sent : List RawRecord} {room : Bool}
    (advances : ShardTask.Advances config shard run.writer.isSome room
      (run.tasks shard) after sent)
    (isOpen : run.writerFailed = false → run.writer.isSome = false)
    (running : after.joined = false) (other : Nat) :
    KeptTask config run.writerFailed run.shardError run.tape
      (run.channel ++ sent) other
      (Function.update run.tasks shard after other) := by
  have before := kept.task other
  have channel : ∀ mine, ownedBy shardOf other sent = mine →
      ownedBy shardOf other (run.tape ++ (run.channel ++ sent)) =
        ownedBy shardOf other (run.tape ++ run.channel) ++ mine := by
    intro mine own
    rw [← own]
    simp [ownedBy]
  by_cases same : other = shard
  · subst same
    obtain ⟨new, received, inHand⟩ := advances.received
    have mine : ownedBy shardOf other sent = sent :=
      List.filter_eq_self.mpr fun record mem =>
        decide_eq_true (advances.own record mem)
    rw [Function.update_self]
    refine ⟨advances.sound, fun sane => ?_, ?_, by simp [running]⟩
    · rw [channel sent mine, List.append_assoc, ← inHand (isOpen sane),
        ← List.append_assoc, before.kept sane, received]
    · rw [received]
      exact before.earlier.trans (List.prefix_append _ _)
  · have none : ownedBy shardOf other sent = [] := by
      refine List.filter_eq_nil_iff.mpr fun record mem => ?_
      have own := advances.own record mem
      simp only [shardOf, own, decide_eq_true_eq]
      exact fun equal => same equal.symm
    rw [Function.update_of_ne same]
    refine ⟨before.sound, fun sane => ?_, before.earlier, before.joined⟩
    rw [channel [] none, List.append_nil]
    exact before.kept sane

theorem kept_shard (shard : Nat) (event : ShardEvent) :
    Kept config shardCount
      (run.step config shardCount (.shard shard event)) := by
  simp only [step]
  by_cases within : shard < shardCount
  swap
  · rw [if_neg within]
    exact kept
  rw [if_pos within]
  have before := kept.task shard
  have advances := @ShardTask.advance_advances config shard _ run.cancelled
    run.writer.isSome (run.channel.length < config.channelCapacity) event
    before.sound
  by_cases ended : run.hasEnded shard = true
  · rw [ShardTask.advance_of_ended (hasEnded_iff.mp ended).choose_spec,
      Function.update_eq_self, List.append_nil]
    exact kept
  have running : (run.tasks shard).joined = false :=
    Bool.eq_false_iff.mpr fun isJoined =>
      ended (hasEnded_iff.mpr ((before.joined isJoined).imp fun _ => And.left))
  have unflushed : ∀ written, run.writer ≠ some (.ok written) :=
    fun written flushed => ended ((kept.flushed written flushed).2 shard within)
  have isOpen : run.writerFailed = false → run.writer.isSome = false := by
    unfold writerFailed
    match writer : run.writer with
    | none => exact fun _ => rfl
    | some (.ok written) => exact absurd writer (unflushed written)
    | some (.error message) => exact fun no => by cases no
  refine ⟨keptTask_shard kept advances isOpen (advances.joined.trans running),
    ?_, kept.written, ?_, ?_, ?_, ?_, ?_⟩
  · intro record mem
    rw [← List.append_assoc] at mem
    rcases List.mem_append.mp mem with earlier | now
    · exact kept.owned record earlier
    · exact (advances.own record now).trans_lt within
  · have bounded := kept.bounded
    have one := advances.one
    by_cases room : run.channel.length < config.channelCapacity
    · rw [List.length_append]
      omega
    · rw [advances.stopped (Or.inr (decide_eq_false room)), List.append_nil]
      exact bounded
  · intro isSome
    rw [advances.stopped (Or.inl isSome), List.append_nil]
    exact kept.closed isSome
  · exact fun written flushed => absurd flushed (unflushed written)
  · intro sane
    have sum := sum_update joinedReconnects within run.tasks
      ((run.tasks shard).advance config shard run.cancelled run.writer.isSome
        (run.channel.length < config.channelCapacity) event).1
    have same := advances.joined.trans running
    simp only [joinedReconnects, same, running, Bool.false_eq_true, if_false,
      Nat.add_zero] at sum
    exact (kept.reconnects sane).trans sum.symm
  · intro error sets
    obtain ⟨failed, small, stage⟩ := kept.error error sets
    have other : failed ≠ shard := fun own =>
      ended (hasEnded_iff.mpr ⟨_, own ▸ stage⟩)
    exact ⟨failed, small, (congrArg ShardTask.stage
      (Function.update_of_ne other _ _)).trans stage⟩

theorem kept_write (fault : Option String) :
    Kept config shardCount (run.step config shardCount (.write fault)) := by
  simp only [step]
  split
  case h_1 record rest writer channel =>
    have moved : run.tape ++ [record] ++ rest = run.tape ++ run.channel := by
      rw [channel, List.append_assoc, List.singleton_append]
    have bounded := kept.bounded
    rw [channel, List.length_cons] at bounded
    refine ⟨fun shard => ?_, by rw [moved]; exact kept.owned, ?_,
      Nat.le_of_succ_le bounded, by simp [writer], by simp [writer],
      kept.reconnects, kept.error⟩
    · have before := kept.task shard
      have same := before.kept (by rw [writerFailed, writer])
      refine ⟨before.sound, fun _ => by rw [moved]; exact same, ?_,
        before.joined⟩
      rw [← same, ← moved]
      exact ((List.prefix_append _ rest).filter _).trans
        (List.prefix_append _ _)
    · rw [List.length_append, kept.written, List.length_singleton]
  case h_2 record rest message writer channel =>
    refine { kept with
      task := fun shard => { kept.task shard with
        kept := fun sane => (by cases sane) }
      owned := fun record mem => ?_
      bounded := Nat.zero_le _
      closed := fun _ => rfl
      flushed := by simp }
    rw [List.append_nil] at mem
    exact kept.owned record (List.mem_append_left _ mem)
  case h_3 => exact kept

theorem kept_flush (fault : Option String) :
    Kept config shardCount (run.step config shardCount (.flush fault)) := by
  simp only [step]
  split
  case isTrue ready =>
    have ended : ∀ shard < shardCount, run.hasEnded shard := fun shard within =>
      List.all_eq_true.mp ready.2.2 shard (List.mem_range.mpr within)
    have empty : run.channel = [] := List.isEmpty_iff.mp ready.2.1
    have sane : run.writerFailed = false := by
      rw [writerFailed, Option.isNone_iff_eq_none.mp ready.1]
    cases fault with
    | none =>
        exact { kept with
          task := fun shard => { kept.task shard with
            kept := fun _ => (kept.task shard).kept sane }
          closed := fun _ => empty
          flushed := by
            rintro _ ⟨⟩
            exact ⟨kept.written, ended⟩ }
    | some message =>
        exact { kept with
          task := fun shard => { kept.task shard with
            kept := fun failed => (by cases failed) }
          closed := fun _ => empty
          flushed := by simp }
  case isFalse => exact kept

theorem kept_join (shard : Nat) :
    Kept config shardCount (run.step config shardCount (.join shard)) := by
  simp only [step]
  split
  case h_2 => exact kept
  case h_1 result stage unjoined =>
    by_cases within : shard < shardCount
    swap
    · rw [if_neg within]
      exact kept
    rw [if_pos within]
    generalize joined : { run.tasks shard with joined := true } = after
    have stages : ∀ other, (Function.update run.tasks shard after
        other).stage = (run.tasks other).stage := by
      intro other
      by_cases same : other = shard
      · rw [same, Function.update_self, ← joined]
      · rw [Function.update_of_ne same]
    have flushed : ∀ written, run.writer = some (.ok written) →
        written = run.tape.length ∧ ∀ other < shardCount,
          hasEnded { run with tasks := Function.update run.tasks shard after }
            other := by
      intro written isFlushed
      have before := kept.flushed written isFlushed
      refine ⟨before.1, fun other small => ?_⟩
      simp only [hasEnded, stages]
      exact before.2 other small
    have task : ∀ error : Option CollectorError,
        (error = none → run.shardError = none ∧
          ∃ reconnects, result = .ok reconnects) →
        ∀ other, KeptTask config run.writerFailed error run.tape run.channel
          other (Function.update run.tasks shard after other) := by
      intro error sane other
      have before := kept.task other
      by_cases same : other = shard
      · have sound := (kept.task shard).sound
        subst same
        rw [Function.update_self, ← joined]
        exact ⟨⟨sound.own, sound.current, sound.sorted, sound.ended,
          sound.failures, sound.within, sound.exhausted⟩, before.kept,
          before.earlier, fun _ => ⟨_, stage, fun none => (sane none).2⟩⟩
      · rw [Function.update_of_ne same]
        refine ⟨before.sound, before.kept, before.earlier, fun isJoined => ?_⟩
        obtain ⟨result, ended, ok⟩ := before.joined isJoined
        exact ⟨result, ended, fun none => ok (sane none).1⟩
    cases result with
    | ok reconnects =>
        refine ⟨task _ fun sane => ⟨sane, _, rfl⟩, kept.owned, kept.written,
          kept.bounded, kept.closed, flushed, fun sane => ?_, ?_⟩
        · have sum := sum_update joinedReconnects within run.tasks after
          have counted : joinedReconnects after = reconnects := by
            rw [← joined, (kept.task shard).sound.ended reconnects stage]
            rfl
          have nothing : joinedReconnects (run.tasks shard) = 0 := by
            rw [joinedReconnects, unjoined]
            rfl
          rw [counted, nothing, Nat.add_zero, ← kept.reconnects sane] at sum
          exact sum.symm
        · intro error sets
          obtain ⟨failed, small, ended⟩ := kept.error error sets
          exact ⟨failed, small, (stages failed).trans ended⟩
    | error error =>
        refine ⟨task _ (by simp [join]), kept.owned, kept.written, kept.bounded,
          kept.closed, flushed, by simp [join], fun first sets => ?_⟩
        simp only [join] at sets ⊢
        cases sane : run.shardError with
        | none =>
            rw [sane] at sets
            cases sets
            exact ⟨shard, within, (stages shard).trans stage⟩
        | some earlier =>
            rw [sane] at sets
            cases sets
            obtain ⟨failed, small, ended⟩ := kept.error _ sane
            exact ⟨failed, small, (stages failed).trans ended⟩

theorem kept_step (action : CollectorAction) :
    Kept config shardCount (run.step config shardCount action) := by
  cases action with
  | shutdown => exact { kept with }
  | shard shard event => exact kept_shard kept shard event
  | write fault => exact kept_write kept fault
  | flush fault => exact kept_flush kept fault
  | join shard => exact kept_join kept shard
  | joinWriter =>
      simp only [step]
      split
      · exact { kept with }
      · exact kept

end Step

/-! ## The tape of a run -/

/-- The run over the shards of the subscriptions, after the given steps. -/
def after (config : CollectorConfig) (subscriptions : List Subscription)
    (actions : List CollectorAction) : Collector :=
  Trace.run (step config (planShards subscriptions config.shardSize).length)
    start actions

theorem kept_after (config : CollectorConfig)
    (subscriptions : List Subscription) (actions : List CollectorAction) :
    Kept config (planShards subscriptions config.shardSize).length
      (after config subscriptions actions) := by
  have preserved : ∀ run action,
      Kept config (planShards subscriptions config.shardSize).length run →
      Kept config (planShards subscriptions config.shardSize).length
        (run.step config _ action) :=
    fun _ action kept => kept_step kept action
  exact Trace.run_invariant preserved actions kept_start

/-- What each shard received. -/
def scripts (shardCount : Nat) (run : Collector) :
    List (Nat × List RawRecord) :=
  (List.range shardCount).map fun shard => (shard, (run.tasks shard).received)

/-- The frames of one connection. -/
def framesOf (run : Collector) (connection : ConnectionId) :
    List RawRecord :=
  (run.tasks connection.shard).received.filter fun record =>
    record.connection = connection

/-- What a run with a report leaves in its sink: the records are read back,
they interleave what the shards received, and those with the id of a connection
are its frames. -/
structure Collected (text : RawTapeText) (shardCount : Nat) (run : Collector)
    (report : CollectorReport) : Prop where
  decoded : (Lines.splitInclusive newline run.sink).mapM
    (decodeRawRecord text) = .ok (run.tape.map RawRecord.entry)
  interleaves : Interleaves shardOf (scripts shardCount run) run.tape
  connection : ∀ connection : ConnectionId, connection.shard < shardCount →
    (run.tape.map RawRecord.entry).filter
        (fun entry => entry.connectionId = connection.text) =
      (framesOf run connection).map RawRecord.entry
  epochs : ∀ shard, (run.tasks shard).received.Pairwise fun earlier later =>
    earlier.connection.epoch ≤ later.connection.epoch
  report : report =
    { shards := shardCount
      framesWritten := run.tape.length
      reconnects :=
        ∑ shard ∈ Finset.range shardCount, (run.tasks shard).reconnects }

variable {outcome : Except CollectorError CollectorReport}

/-- The first error of a shard comes before an error of the writer. -/
theorem result_cases (returned : run.result shardCount = some outcome) :
    (∀ shard < shardCount, (run.tasks shard).joined = true) ∧
      ((∃ error, run.shardError = some error ∧ outcome = .error error) ∨
        run.shardError = none ∧
          ((∃ written, run.writer = some (.ok written) ∧ outcome = .ok
            { shards := shardCount
              framesWritten := written
              reconnects := run.reconnects }) ∨
          ∃ message, run.writer = some (.error message) ∧
            outcome = .error (.tape message))) := by
  unfold result at returned
  split at returned
  · rename_i joined
    refine ⟨fun shard within => ?_, ?_⟩
    · exact List.all_eq_true.mp joined.1 shard (List.mem_range.mpr within)
    · split at returned <;> simp_all
  · cases returned

/-- Whatever the order of the steps, a run that returns a report has written
each frame that a shard received, once and in its order. -/
theorem returned_collected (text : RawTapeText) (config : CollectorConfig)
    (subscriptions : List Subscription) (actions : List CollectorAction)
    {report : CollectorReport}
    (returned : (after config subscriptions actions).result
      (planShards subscriptions config.shardSize).length = some (.ok report)) :
    Collected text (planShards subscriptions config.shardSize).length
      (after config subscriptions actions) report := by
  have kept := kept_after config subscriptions actions
  obtain ⟨joined, ends⟩ := result_cases returned
  obtain ⟨sane, written, flushed, rfl⟩ : _ ∧ ∃ written, _ ∧ _ = _ := by
    simpa using ends
  have complete := kept.flushed written flushed
  have empty : (after config subscriptions actions).channel = [] :=
    kept.closed (by rw [flushed]; rfl)
  have follows : ∀ shard, shard < (planShards subscriptions
      config.shardSize).length → ownedBy shardOf shard
        (after config subscriptions actions).tape =
      ((after config subscriptions actions).tasks shard).received := by
    intro shard within
    have whole := (kept.task shard).kept (by rw [writerFailed, flushed])
    obtain ⟨result, ended⟩ := hasEnded_iff.mp (complete.2 shard within)
    rw [ended, empty, List.append_nil] at whole
    simpa [ShardStage.inHand] using whole
  refine ⟨?_, ⟨?_, ?_⟩, ?_, fun shard => (kept.task shard).sound.sorted, ?_⟩
  · exact mapM_decode text _
  · intro record member
    have owned := kept.owned record (List.mem_append_left _ member)
    simp [scripts, owned]
  · intro script member
    obtain ⟨shard, within, rfl⟩ := List.mem_map.mp member
    exact follows shard (List.mem_range.mp within)
  · intro connection within
    rw [framesOf, ← follows connection.shard within, List.filter_map, ownedBy,
      List.filter_filter]
    congr 1
    apply List.filter_congr
    intro record _
    have same : record.entry.connectionId = connection.text ↔
        record.connection = connection :=
      ConnectionId.text_injective.eq_iff
    by_cases own : record.connection = connection
    · simp [same, own, shardOf]
    · simp [same, own]
  · rw [kept.reconnects sane, complete.1]
    have all : ∀ shard ∈ Finset.range (planShards subscriptions
        config.shardSize).length, joinedReconnects
          ((after config subscriptions actions).tasks shard) =
        ((after config subscriptions actions).tasks shard).reconnects := by
      intro shard member
      rw [joinedReconnects, if_pos (joined shard (Finset.mem_range.mp member))]
    rw [Finset.sum_congr rfl all]

def briefConfig : CollectorConfig where
  shardSize := ⟨1, Nat.one_pos⟩
  channelCapacity := ⟨1, Nat.one_pos⟩
  maxConsecutiveReconnectFailures := ⟨2, Nat.two_pos⟩

/-- One frame, a lost connection and a refused one before the shutdown. -/
def briefActions : List CollectorAction :=
  [.poll, .connected, .poll, .received (some ⟨⟨1, by decide⟩, "book"⟩),
    .send, .poll, .received none, .poll, .slept, .poll, .refused "down"].map
      (.shard 0) ++
    [.shutdown, .shard 0 .poll, .write none, .flush none, .joinWriter, .join 0]

theorem returned_collected_brief :
    Collected .compact 1 (after briefConfig [⟨"book"⟩] briefActions)
      { shards := 1, framesWritten := 1, reconnects := 1 } :=
  returned_collected .compact briefConfig [⟨"book"⟩] briefActions rfl

/-- What every state owes: the tape has only frames of the shards, of each
shard the first ones, and while the writer works what is not on the tape fits
into the channel and one hand for each shard. -/
structure Bounded (config : CollectorConfig) (shardCount : Nat)
    (run : Collector) : Prop where
  owned : ∀ record ∈ run.tape, shardOf record < shardCount
  earlier : ∀ shard, ownedBy shardOf shard run.tape <+:
    (run.tasks shard).received
  channel : run.channel.length ≤ config.channelCapacity
  pressure : run.writerFailed = false →
    ∑ shard ∈ Finset.range shardCount, (run.tasks shard).received.length ≤
      run.tape.length + config.channelCapacity + shardCount

/-- Every state of every run, also one that ends in an error, is bounded. -/
theorem after_bounded (config : CollectorConfig)
    (subscriptions : List Subscription) (actions : List CollectorAction) :
    Bounded config (planShards subscriptions config.shardSize).length
      (after config subscriptions actions) := by
  have kept := kept_after config subscriptions actions
  refine ⟨fun record member => kept.owned record
    (List.mem_append_left _ member), fun shard => (kept.task shard).earlier,
    kept.bounded, fun sane => ?_⟩
  generalize after config subscriptions actions = run at kept sane ⊢
  generalize (planShards subscriptions config.shardSize).length = count at kept ⊢
  have oneHand : ∀ stage : ShardStage, stage.inHand.length ≤ 1 := by
    intro stage
    cases stage <;> simp [ShardStage.inHand]
  have each : ∀ shard ∈ Finset.range count,
      (run.tasks shard).received.length ≤
        (ownedBy shardOf shard (run.tape ++ run.channel)).length + 1 := by
    intro shard _
    rw [← (kept.task shard).kept sane, List.length_append]
    exact Nat.add_le_add_left (oneHand _) _
  have sorted := (perm_flatMap_ownedBy shardOf (List.nodup_range (n := count))
    fun record member => List.mem_range.mpr (kept.owned record member)).length_eq
  have range : (List.range count).toFinset = Finset.range count := by
    ext shard
    simp
  rw [List.length_flatMap, ← List.sum_toFinset _ List.nodup_range, range,
    List.length_append] at sorted
  have total := Finset.sum_le_sum each
  rw [Finset.sum_add_distrib, ← sorted, ← Finset.card_eq_sum_ones,
    Finset.card_range] at total
  have bounded := kept.bounded
  omega

/-- A crash may cut the bytes of the sink anywhere.  The recovery keeps their
complete lines, and these are, of each shard, the first frames it received. -/
theorem after_recovers (text : RawTapeText) (config : CollectorConfig)
    (subscriptions : List Subscription) (actions : List CollectorAction)
    (count : Nat) :
    ∃ kept, recordTape (kept.map RawRecord.entry) <+:
        (after config subscriptions actions).sink.take count ∧
      newline ∉ ((after config subscriptions actions).sink.take count).drop
        (recordTape (kept.map RawRecord.entry)).length ∧
      recoverableRawTapePrefix text
          ((after config subscriptions actions).sink.take count) =
        .ok (recordTape (kept.map RawRecord.entry)).length ∧
      (Lines.splitInclusive newline
        (recordTape (kept.map RawRecord.entry))).mapM
          (decodeRawRecord text) = .ok (kept.map RawRecord.entry) ∧
      ∀ shard, ownedBy shardOf shard kept <+:
        ((after config subscriptions actions).tasks shard).received := by
  have kept := kept_after config subscriptions actions
  generalize after config subscriptions actions = run at kept ⊢
  obtain ⟨whole, tail, _, cut, unmarked, _, _⟩ :=
    Lines.take_join (bytes_plain (run.tape.map RawRecord.entry)) count
  simp only [← List.map_take, ← recordTape_eq_join] at cut
  refine ⟨run.tape.take whole, ?_, ?_, ?_, mapM_decode text _, fun shard =>
    ((List.take_prefix whole run.tape).filter _).trans (kept.task shard).earlier⟩
  all_goals rw [sink, cut]
  · exact List.prefix_append _ _
  · rw [List.drop_left]
    exact unmarked
  · rw [recoverableRawTapePrefix, recordTape_eq_join,
      Lines.splitInclusive_join (bytes_plain _)]
    have recovered := recoverableFrom_lines text
      ((run.tape.take whole).map RawRecord.entry) unmarked 0
    rw [recovered, Nat.zero_add, recordTape_eq_join]

/-- How a run that has returned answers the refusals of its shards. -/
structure FailsClosed (config : CollectorConfig) (shardCount : Nat)
    (run : Collector) (outcome : Except CollectorError CollectorReport) :
    Prop where
  budget : ∀ shard, refusals (run.tasks shard).attempts ≤
    config.maxConsecutiveReconnectFailures
  exhausted : (∃ shard message,
      outcome = .error (.reconnectExhausted shard message)) ↔
    ∃ shard < shardCount, refusals (run.tasks shard).attempts =
      config.maxConsecutiveReconnectFailures
  message : ∀ shard message,
    outcome = .error (.reconnectExhausted shard message) →
      shard < shardCount ∧
      refusals (run.tasks shard).attempts =
        config.maxConsecutiveReconnectFailures ∧
      (run.tasks shard).attempts.head? = some (some message)

end Collector

end Pmkit
