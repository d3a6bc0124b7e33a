import Mathlib.Data.PNat.Notation
import Pmkit.Library.Chunks
import Pmkit.Tape.RawTape

/-!
# The collector

Each shard of the subscriptions keeps one connection open and sends the frames
that it receives into one bounded channel, from which a writer appends them to
the raw tape.  The tasks of the shards, the writer and the loop that joins them
take their steps in any order.
-/

namespace Pmkit

open MachineInt

structure Subscription where
  topic : String
  deriving DecidableEq

structure CollectedFrame where
  receiptTimeMs : I64
  raw : String
  deriving DecidableEq

structure CollectorConfig where
  shardSize : ℕ+
  channelCapacity : ℕ+
  maxConsecutiveReconnectFailures : ℕ+

structure CollectorReport where
  shards : Nat
  framesWritten : Nat
  reconnects : Nat
  deriving DecidableEq

inductive CollectorError where
  | reconnectExhausted (shard : Nat) (message : String)
  | tape (message : String)
  deriving DecidableEq

def planShards (subscriptions : List Subscription) (shardSize : ℕ+) :
    List (List Subscription) :=
  Chunks.chunks shardSize subscriptions

structure ConnectionId where
  shard : Nat
  epoch : Nat
  deriving DecidableEq

/-- The `connection_id` of a connection. -/
def ConnectionId.text (connection : ConnectionId) : String :=
  "shard-" ++ toString connection.shard ++ "-epoch-" ++
    toString connection.epoch

/-- A record names its connection; the source has the text of it here. -/
structure RawRecord where
  receiptTimeMs : I64
  connection : ConnectionId
  raw : String
  deriving DecidableEq

def RawRecord.entry (record : RawRecord) : RawTapeRecord where
  receiptTimeMs := record.receiptTimeMs
  connectionId := record.connection.text
  raw := record.raw

/-! ## The task of a shard -/

inductive PumpOutcome where
  | shutdown
  | reconnect
  | sinkClosed
  deriving DecidableEq

/-- What a `select!` waits for beside the cancellation. -/
inductive ShardWait where
  | connect
  | frame (connection : ConnectionId)
  | backoff
  deriving DecidableEq

/-- Where `run_shard` stands.  A `select!` polls the cancellation first:
`polled` says that it did and found none. -/
inductive ShardStage where
  | selecting (wait : ShardWait) (polled : Bool)
  | beating (connection : ConnectionId)
  | sending (record : RawRecord)
  | ended (result : Except CollectorError Nat)

/-- What happens to a task.  A `received` without a frame is a clean close or
an error of the stream. -/
inductive ShardEvent where
  | poll
  | connected
  | refused (message : String)
  | tick
  | beat (failed : Bool)
  | received (frame : Option CollectedFrame)
  | send
  | slept
  deriving DecidableEq

/-- A task with its history: the frames that it received, and the answers to
its attempts to connect, the latest first. -/
structure ShardTask where
  epoch : Nat
  reconnects : Nat
  consecutiveFailures : Nat
  stage : ShardStage
  joined : Bool
  received : List RawRecord
  attempts : List (Option String)

namespace ShardTask

def start : ShardTask where
  epoch := 0
  reconnects := 0
  consecutiveFailures := 0
  stage := .selecting .connect false
  joined := false
  received := []
  attempts := []

def finish (task : ShardTask) : ShardTask :=
  { task with stage := .ended (.ok task.reconnects) }

/-- How `run_shard` goes on after `pump_connection`. -/
def afterPump (task : ShardTask) : PumpOutcome → ShardTask
  | .shutdown => task.finish
  | .sinkClosed => task.finish
  | .reconnect =>
      { task with
        reconnects := task.reconnects + 1
        stage := .selecting .backoff false }

/-- A connection that was refused. -/
def refuse (config : CollectorConfig) (shard : Nat) (task : ShardTask)
    (message : String) : ShardTask :=
  let failures := task.consecutiveFailures + 1
  { task with
    consecutiveFailures := failures
    stage :=
      if failures ≥ config.maxConsecutiveReconnectFailures then
        .ended (.error (.reconnectExhausted shard message))
      else
        .selecting .backoff false
    attempts := some message :: task.attempts }

/-- One step of `run_shard`, and what it sends.  A full channel holds the task
back, and a closed one ends it. -/
def advance (config : CollectorConfig) (shard : Nat)
    (cancelled closed room : Bool) (task : ShardTask) (event : ShardEvent) :
    ShardTask × List RawRecord :=
  match task.stage, event with
  | .selecting wait _, .poll =>
      if cancelled then
        (task.finish, [])
      else
        ({ task with stage := .selecting wait true }, [])
  | .selecting .connect true, .connected =>
      ({ task with
        epoch := task.epoch + 1
        consecutiveFailures := 0
        stage := .selecting (.frame ⟨shard, task.epoch⟩) false
        attempts := none :: task.attempts }, [])
  | .selecting .connect true, .refused message =>
      (task.refuse config shard message, [])
  | .selecting (.frame connection) true, .tick =>
      ({ task with stage := .beating connection }, [])
  | .beating connection, .beat failed =>
      if failed then
        (task.afterPump .reconnect, [])
      else
        ({ task with stage := .selecting (.frame connection) false }, [])
  | .selecting (.frame connection) true, .received (some frame) =>
      let record := ⟨frame.receiptTimeMs, connection, frame.raw⟩
      ({ task with
        stage := .sending record
        received := task.received ++ [record] }, [])
  | .selecting (.frame _) true, .received none =>
      (task.afterPump .reconnect, [])
  | .sending record, .send =>
      if closed then
        (task.afterPump .sinkClosed, [])
      else if room then
        ({ task with
          stage := .selecting (.frame record.connection) false }, [record])
      else
        (task, [])
  | .selecting .backoff true, .slept =>
      ({ task with stage := .selecting .connect false }, [])
  | _, _ => (task, [])

end ShardTask

/-! ## The run -/

inductive CollectorAction where
  | shutdown
  | shard (shard : Nat) (event : ShardEvent)
  | write (fault : Option String)
  | flush (fault : Option String)
  | join (shard : Nat)
  | joinWriter
  deriving DecidableEq

/-- The tasks, the channel, the writer with its tape, and what the loop of
`run` has joined. -/
structure Collector where
  tasks : Nat → ShardTask
  channel : List RawRecord
  tape : List RawRecord
  written : Nat
  writer : Option (Except String Nat)
  writerJoined : Bool
  cancelled : Bool
  reconnects : Nat
  shardError : Option CollectorError

namespace Collector

def start : Collector where
  tasks := fun _ => .start
  channel := []
  tape := []
  written := 0
  writer := none
  writerJoined := false
  cancelled := false
  reconnects := 0
  shardError := none

def hasEnded (run : Collector) (shard : Nat) : Bool :=
  match (run.tasks shard).stage with
  | .ended _ => true
  | _ => false

/-- What the loop does with the result of a task. -/
def join (run : Collector) : Except CollectorError Nat → Collector
  | .ok reconnects => { run with reconnects := run.reconnects + reconnects }
  | .error error =>
      { run with
        shardError := run.shardError.or (some error)
        cancelled := true }

/-- One step of a task, of the writer or of the loop.  A writer that fails
takes the receiver of the channel with it; one that flushes has seen the last
sender go. -/
def step (config : CollectorConfig) (shardCount : Nat) (run : Collector) :
    CollectorAction → Collector
  | .shutdown => { run with cancelled := true }
  | .shard shard event =>
      if shard < shardCount then
        let moved := (run.tasks shard).advance config shard run.cancelled
          run.writer.isSome (run.channel.length < config.channelCapacity) event
        { run with
          tasks := Function.update run.tasks shard moved.1
          channel := run.channel ++ moved.2 }
      else
        run
  | .write fault =>
      match run.writer, run.channel, fault with
      | none, record :: rest, none =>
          { run with
            channel := rest
            tape := run.tape ++ [record]
            written := run.written + 1 }
      | none, _ :: _, some message =>
          { run with channel := [], writer := some (.error message) }
      | _, _, _ => run
  | .flush fault =>
      if run.writer.isNone ∧ run.channel.isEmpty ∧
          (List.range shardCount).all run.hasEnded then
        match fault with
        | none => { run with writer := some (.ok run.written) }
        | some message => { run with writer := some (.error message) }
      else
        run
  | .join shard =>
      match (run.tasks shard).stage, (run.tasks shard).joined with
      | .ended result, false =>
          if shard < shardCount then
            { run with
              tasks := Function.update run.tasks shard
                { run.tasks shard with joined := true } }.join result
          else
            run
      | _, _ => run
  | .joinWriter =>
      if run.writer.isSome then
        { run with writerJoined := true, cancelled := true }
      else
        run

/-- What `run` returns once every task and the writer are joined. -/
def result (shardCount : Nat) (run : Collector) :
    Option (Except CollectorError CollectorReport) :=
  if (List.range shardCount).all (fun shard => (run.tasks shard).joined) ∧
      run.writerJoined then
    match run.shardError, run.writer with
    | some error, _ => some (.error error)
    | none, some (.ok framesWritten) =>
        some (.ok
          { shards := shardCount, framesWritten, reconnects := run.reconnects })
    | none, some (.error message) => some (.error (.tape message))
    | none, none => none
  else
    none

/-- The bytes of the sink. -/
def sink (run : Collector) : List UInt8 :=
  recordTape (run.tape.map RawRecord.entry)

end Collector

/-! ## Connection ids -/

theorem ConnectionId.text_injective : Function.Injective ConnectionId.text := by
  intro left right same
  have letters := congrArg String.toList same
  have middle : "-epoch-".toList = '-' :: "epoch-".toList := by decide
  simp only [ConnectionId.text, String.toList_append, middle,
    Delimited.toString_natural, List.append_assoc, List.cons_append]
    at letters
  obtain ⟨shards, epochs⟩ := Delimited.cut_first
    (Delimited.minus_not_mem_toDigits left.shard)
    (Delimited.minus_not_mem_toDigits right.shard)
    (List.append_cancel_left letters)
  have epoch := Delimited.toDigits_injective (List.append_cancel_left epochs)
  have shard := Delimited.toDigits_injective shards
  cases left
  cases right
  cases shard
  cases epoch
  rfl

/-! ## Steps of a task -/

/-- The frame that a task is sending. -/
def ShardStage.inHand : ShardStage → List RawRecord
  | .sending record => [record]
  | _ => []

/-- The connection that is open. -/
def ShardStage.current : ShardStage → Option ConnectionId
  | .selecting (.frame connection) _ => some connection
  | .beating connection => some connection
  | .sending record => some record.connection
  | _ => none

/-- How often a shard has been refused since its last connection. -/
def refusals (attempts : List (Option String)) : Nat :=
  (attempts.takeWhile Option.isSome).length

namespace ShardTask

/-- The frames of a task are those of its connections, one after the other, and
the last one is open.  The task is within its budget of refusals, or it has
ended with the refusal that used it up. -/
structure Sound (config : CollectorConfig) (shard : Nat) (task : ShardTask) :
    Prop where
  own : ∀ record ∈ task.received,
    record.connection.shard = shard ∧ record.connection.epoch < task.epoch
  current : ∀ connection, task.stage.current = some connection →
    connection.shard = shard ∧ connection.epoch + 1 = task.epoch
  sorted : task.received.Pairwise fun earlier later =>
    earlier.connection.epoch ≤ later.connection.epoch
  ended : ∀ reconnects, task.stage = .ended (.ok reconnects) →
    reconnects = task.reconnects
  failures : task.consecutiveFailures = refusals task.attempts
  within : (∀ error, task.stage ≠ .ended (.error error)) →
    refusals task.attempts < config.maxConsecutiveReconnectFailures
  exhausted : ∀ error, task.stage = .ended (.error error) →
    refusals task.attempts = config.maxConsecutiveReconnectFailures ∧
      ∃ message, task.attempts.head? = some (some message) ∧
        error = .reconnectExhausted shard message

/-- What a step of a task sends was in its hand, and what it receives it takes
into its hand. -/
structure Advances (config : CollectorConfig) (shard : Nat)
    (closed room : Bool) (before after : ShardTask) (sent : List RawRecord) :
    Prop where
  sound : after.Sound config shard
  received : ∃ new, after.received = before.received ++ new ∧
    (closed = false →
      before.stage.inHand ++ new = sent ++ after.stage.inHand)
  own : ∀ record ∈ sent, record.connection.shard = shard
  one : sent.length ≤ 1
  stopped : closed = true ∨ room = false → sent = []
  joined : after.joined = before.joined

theorem sound_start (config : CollectorConfig) (shard : Nat) :
    start.Sound config shard where
  own := by simp [start]
  current := by simp [start, ShardStage.current]
  sorted := List.Pairwise.nil
  ended := by simp [start]
  failures := rfl
  within := fun _ => config.maxConsecutiveReconnectFailures.pos
  exhausted := by simp [start]

variable {config : CollectorConfig} {shard : Nat} {task : ShardTask}
  {cancelled closed room : Bool} {event : ShardEvent}

theorem Advances.same (sound : task.Sound config shard) :
    Advances config shard closed room task task [] :=
  ⟨sound, ⟨[], by simp, by simp⟩, by simp, by simp, fun _ => rfl, rfl⟩

/-- A step that only moves the stage on, with no connection opened and no frame
received. -/
theorem Advances.quiet (sound : task.Sound config shard)
    (running : ∀ error, task.stage ≠ .ended (.error error))
    {stage : ShardStage} {reconnects : Nat}
    (current : ∀ connection, stage.current = some connection →
      task.stage.current = some connection)
    (ended : ∀ result, stage = .ended result → result = .ok reconnects)
    (inHand : closed = false → stage.inHand = task.stage.inHand) :
    Advances config shard closed room task
      { task with stage := stage, reconnects := reconnects } [] where
  sound :=
    { own := sound.own
      current := fun connection opened =>
        sound.current connection (current connection opened)
      sorted := sound.sorted
      ended := fun _ isEnded => by injection ended _ isEnded
      failures := sound.failures
      within := fun _ => sound.within running
      exhausted := fun _ isEnded => by cases ended _ isEnded }
  received := ⟨[], by simp, fun isOpen => by simp [inHand isOpen]⟩
  own := by simp
  one := by simp
  stopped := fun _ => rfl
  joined := rfl

theorem advances_refuse (sound : task.Sound config shard)
    {polled : Bool} (stage : task.stage = .selecting .connect polled)
    (message : String) :
    Advances config shard closed room task
      (task.refuse config shard message) [] := by
  have within := sound.within (by simp [stage])
  have more : refusals (some message :: task.attempts) =
      task.consecutiveFailures + 1 := by
    rw [sound.failures]
    rfl
  refine ⟨⟨sound.own, ?_, sound.sorted, ?_, more.symm, ?_, ?_⟩,
    ⟨[], by simp [refuse], fun _ => ?_⟩, by simp, by simp, fun _ => rfl, rfl⟩
  · simp only [refuse]
    split <;> simp [ShardStage.current]
  · simp only [refuse]
    split <;> simp
  · simp only [refuse]
    split
    · simp
    · omega
  · simp only [refuse]
    split
    · rintro _ ⟨⟩
      have failures := sound.failures
      exact ⟨by omega, message, rfl, rfl⟩
    · simp
  · simp only [refuse, stage]
    split <;> rfl

theorem advance_advances (sound : task.Sound config shard) :
    Advances config shard closed room task
      (task.advance config shard cancelled closed room event).1
      (task.advance config shard cancelled closed room event).2 := by
  unfold advance
  split
  case h_1 wait polled stage =>
    have running : ∀ error, task.stage ≠ .ended (.error error) := by simp [stage]
    split
    · exact .quiet sound running (by simp [ShardStage.current]) (by simp)
        fun _ => by rw [stage]; rfl
    · refine .quiet sound running ?_ (by simp) fun _ => by rw [stage]; rfl
      cases wait <;> simp [stage, ShardStage.current]
  case h_2 stage =>
    -- the epoch of the new connection is above all before it
    refine ⟨⟨?_, by simp [ShardStage.current], sound.sorted, by simp, rfl,
      fun _ => config.maxConsecutiveReconnectFailures.pos, by simp⟩,
      ⟨[], by simp, fun _ => by rw [stage]; rfl⟩, by simp, by simp, by simp, rfl⟩
    intro record mem
    have earlier := sound.own record mem
    exact ⟨earlier.1, Nat.lt_succ_of_lt earlier.2⟩
  case h_3 message stage => exact advances_refuse sound stage message
  case h_6 connection frame stage =>
    have opened := sound.current connection (by rw [stage]; rfl)
    refine ⟨⟨?_, ?_, ?_, by simp, sound.failures,
      fun _ => sound.within (by simp [stage]), by simp⟩,
      ⟨_, rfl, fun _ => by rw [stage]; rfl⟩, by simp, by simp, by simp, rfl⟩
    · intro record mem
      rcases List.mem_append.mp mem with before | now
      · exact sound.own record before
      · rw [List.mem_singleton.mp now]
        exact ⟨opened.1, Nat.lt_of_succ_le opened.2.le⟩
    · rintro _ ⟨⟩
      exact opened
    · refine List.pairwise_append.mpr
        ⟨sound.sorted, List.pairwise_singleton _ _, ?_⟩
      intro earlier mem later now
      rw [List.mem_singleton.mp now]
      have before := (sound.own earlier mem).2
      have last := opened.2
      show earlier.connection.epoch ≤ connection.epoch
      omega
  case h_8 record stage =>
    have running : ∀ error, task.stage ≠ .ended (.error error) := by simp [stage]
    have current := sound.current record.connection (by rw [stage]; rfl)
    by_cases ends : closed = true
    · rw [if_pos ends]
      exact .quiet sound running (by simp [ShardStage.current]) (by simp)
        fun isOpen => by simp [isOpen] at ends
    · by_cases free : room = true
      · rw [if_neg ends, if_pos free]
        refine ⟨⟨sound.own, ?_, sound.sorted, by simp, sound.failures,
          fun _ => sound.within running, by simp⟩,
          ⟨[], by simp, fun _ => by rw [stage]; rfl⟩, by simpa using current.1,
          by simp, by simp [ends, free], rfl⟩
        rintro _ ⟨⟩
        exact current
      · rw [if_neg ends, if_neg free]
        exact .same sound
  case h_10 => exact .same sound
  all_goals
    try split
    all_goals
      refine .quiet sound (by simp [*]) ?_ ?_ fun _ => ?_ <;>
        simp [ShardStage.current, ShardStage.inHand, *]

theorem advance_of_ended
    {result : Except CollectorError Nat} (ended : task.stage = .ended result) :
    task.advance config shard cancelled closed room event = (task, []) := by
  unfold advance
  rw [ended]

end ShardTask

end Pmkit
