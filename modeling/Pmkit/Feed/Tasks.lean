import Pmkit.Feed.Interleaving

/-!
# Source tasks and the loop that joins them

A source sends its signals through a channel and returns.  The loop of the
merge polls the channel first and the set of tasks second, so a source that
sends its last signals and returns between the two polls is joined before its
signals are received.
-/

namespace Pmkit

open MachineInt Interleaving

variable {D : Type}

/-- A fixture sends into the channel of the merge.  A task has a channel of its
own, which a wrapper forwards. -/
inductive SourceKind where
  | fixture
  | task
  deriving DecidableEq

/-- The task set: running, returned and not yet joined, or joined. -/
inductive TaskStage where
  | running
  | finished
  | joined
  deriving DecidableEq

/-- What one task still has in hand, latest first: the signal that the wrapper
is sending, its own channel, and what the source has not sent. -/
structure SourceTask (D : Type) where
  held : Option (SourceSignal D)
  inner : List (SourceSignal D)
  unsent : List (SourceSignal D)
  returned : Bool
  stage : TaskStage

/-- The steps of a task: the source sends a signal, its future returns, the
wrapper takes a signal and hands it on, and the task ends. -/
inductive TaskAction where
  | emit
  | sourceReturns
  | take
  | hand
  | finish
  deriving DecidableEq

/-- The channel of the merge. -/
abbrev SignalChannel (D : Type) : Type :=
  List (String × SourceSignal D)

def channelCapacity : Nat := 128

namespace SourceTask

def ofSignals (signals : List (SourceSignal D)) : SourceTask D where
  held := none
  inner := []
  unsent := signals
  returned := false
  stage := .running

def pending (task : SourceTask D) : List (SourceSignal D) :=
  task.held.toList ++ task.inner ++ task.unsent

/-- One step of a running task with the channel of the merge.  A full channel
holds its sender back, and a wrapper does not end before it has drained the
channel of its source. -/
def advance (kind : SourceKind) (name : String) (task : SourceTask D)
    (channel : SignalChannel D) :
    TaskAction → SourceTask D × SignalChannel D
  | .emit =>
      match task.unsent with
      | [] => (task, channel)
      | signal :: rest =>
          match kind with
          | .fixture =>
              if channel.length < channelCapacity then
                ({ task with unsent := rest }, channel ++ [(name, signal)])
              else
                (task, channel)
          | .task =>
              if task.inner.length < channelCapacity then
                ({ task with inner := task.inner ++ [signal], unsent := rest },
                  channel)
              else
                (task, channel)
  | .sourceReturns =>
      if task.unsent.isEmpty then
        ({ task with returned := true }, channel)
      else
        (task, channel)
  | .take =>
      match task.held, task.inner with
      | none, signal :: rest =>
          ({ task with held := some signal, inner := rest }, channel)
      | _, _ => (task, channel)
  | .hand =>
      match task.held with
      | none => (task, channel)
      | some signal =>
          if channel.length < channelCapacity then
            ({ task with held := none }, channel ++ [(name, signal)])
          else
            (task, channel)
  | .finish =>
      if task.returned ∧ task.held.isNone ∧ task.inner.isEmpty ∧
          task.unsent.isEmpty then
        ({ task with stage := .finished }, channel)
      else
        (task, channel)

end SourceTask

/-! ## The loop -/

/-- Where the loop stands: before its poll of the channel, or between that poll
and the poll of the task set. -/
inductive LoopPhase where
  | pollSignals
  | pollJoin
  deriving DecidableEq

/-- The tasks, the channel and the loop.  The inputs that the loop selected are
kept as well. -/
structure FeedRun (D : Type) where
  names : List String
  tasks : String → SourceTask D
  channel : SignalChannel D
  phase : LoopPhase
  inputs : List (MergeInput D)
  merge : MergeState D

inductive FeedAction (D : Type) where
  | task (name : String) (action : TaskAction)
  | pollSignals (order : IterationOrder (QueuedFact D))
  | pollJoin (name : String) (order : IterationOrder (QueuedFact D))

namespace FeedRun

/-- The tasks as `forward` spawns them. -/
def start (definitions : List (SourceDefinition D)) : FeedRun D where
  names := definitions.map SourceDefinition.name
  tasks := fun name =>
    match definitions.find? fun definition => definition.name = name with
    | some definition => .ofSignals definition.signals
    | none => .ofSignals []
  channel := []
  phase := .pollSignals
  inputs := []
  merge := MergedFeed.start (definitions.map SourceDefinition.name)

/-- Give one input to the loop, which then polls the channel again. -/
def feedInput (feed : MergedFeed D) (order : IterationOrder (QueuedFact D))
    (run : FeedRun D) (input : MergeInput D) : FeedRun D :=
  { run with
    phase := .pollSignals
    inputs := run.inputs ++ [input]
    merge := feed.step run.merge ⟨input, order⟩ }

/-- One step of a task or of the loop.  Nothing happens after `forward` has
returned. -/
def step (feed : MergedFeed D) (kind : SourceKind) (run : FeedRun D)
    (action : FeedAction D) : FeedRun D :=
  if run.merge.result.isSome then
    run
  else
    match action with
    | .task name action =>
        if name ∈ run.names ∧ (run.tasks name).stage = .running then
          let (task, channel) :=
            (run.tasks name).advance kind name run.channel action
          { run with
            tasks := Function.update run.tasks name task
            channel := channel }
        else
          run
    | .pollSignals order =>
        match run.phase with
        | .pollJoin => run
        | .pollSignals =>
            match run.channel with
            | [] => { run with phase := .pollJoin }
            | (name, signal) :: rest =>
                feedInput feed order { run with channel := rest }
                  (.signal name signal)
    | .pollJoin name order =>
        match run.phase with
        | .pollSignals => run
        | .pollJoin =>
            if run.names.all fun name =>
                (run.tasks name).stage = .joined then
              feedInput feed order run .tasksEnded
            else if name ∈ run.names ∧
                (run.tasks name).stage = .finished then
              feedInput feed order
                { run with
                  tasks := Function.update run.tasks name
                    { run.tasks name with stage := .joined } }
                (.joined name (.ok ()))
            else if run.names.all fun name =>
                (run.tasks name).stage ≠ .finished then
              -- nothing is ready: the loop sleeps, and then polls again
              { run with phase := .pollSignals }
            else
              run

end FeedRun

/-- Sources that send the end of their stream last and cover the replay. -/
structure MergedFeed.Completes (feed : MergedFeed D)
    (definition : SourceDefinition D) : Prop where
  eof : ∃ before, definition.signals = before ++ [.eof] ∧
    hasEof before = false
  covers : feed.mode = .backtest → ∀ replayEnd,
    feed.replayEndMs = some replayEnd →
      ∃ final, lastWatermark definition.signals = some final ∧
        replayEnd ≤ final

def OutrunError (result : Option (Except DataSourceError Unit)) : Prop :=
  result = some (.error (.replayGap "premature EOF")) ∨
    result = some (.error (.replayGap
      "historical coverage ends before replay end"))

namespace FeedRun

/-- No source is taken to have ended early.  Whatever a joined source sent has
been received, and a successful merge has received everything. -/
structure NothingOutrun (definitions : List (SourceDefinition D))
    (run : FeedRun D) : Prop where
  noError : ¬ OutrunError run.merge.result
  received : ∀ definition ∈ definitions,
    (run.tasks definition.name).stage = .joined →
      signalsOf definition.name run.inputs = definition.signals
  complete : run.merge.result = some (.ok ()) → ∀ definition ∈ definitions,
    signalsOf definition.name run.inputs = definition.signals

/-- The loop joins a task only when none of its signals is left in the channel:
the task sent nothing after the poll that found the channel empty. -/
def InTime (run : FeedRun D) : FeedAction D → Prop
  | .task _ _ => True
  | .pollSignals _ => True
  | .pollJoin name _ =>
      run.merge.result = none → run.phase = .pollJoin → name ∈ run.names →
        (run.tasks name).stage = .finished →
          ∀ signal, (name, signal) ∉ run.channel

end FeedRun

/-! ## What a task has in hand -/

def sentBy (name : String) (channel : SignalChannel D) :
    List (SourceSignal D) :=
  (channel.filter fun entry => entry.1 = name).map Prod.snd

theorem sentBy_append (name : String) (first second : SignalChannel D) :
    sentBy name (first ++ second) = sentBy name first ++ sentBy name second := by
  simp [sentBy]

theorem sentBy_own (name : String) (signals : List (SourceSignal D)) :
    sentBy name (signals.map fun signal => (name, signal)) = signals := by
  induction signals with
  | nil => rfl
  | cons signal rest ih =>
      rw [List.map_cons]
      unfold sentBy at ih ⊢
      rw [List.filter_cons_of_pos (by simp), List.map_cons,
        ih]

theorem sentBy_other {name other : String} (ne : other ≠ name)
    (signals : List (SourceSignal D)) :
    sentBy name (signals.map fun signal => (other, signal)) = [] := by
  simp [sentBy, ne]

theorem sentBy_ne_nil_iff (name : String) (channel : SignalChannel D) :
    sentBy name channel ≠ [] ↔ ∃ signal, (name, signal) ∈ channel := by
  constructor
  · intro nonempty
    obtain ⟨signal, mem⟩ := List.exists_mem_of_ne_nil _ nonempty
    obtain ⟨⟨owner, same⟩, inside, rfl⟩ := List.mem_map.mp mem
    obtain ⟨inside, own⟩ := List.mem_filter.mp inside
    simp only [decide_eq_true_eq] at own
    exact ⟨same, own ▸ inside⟩
  · rintro ⟨signal, mem⟩ empty
    have inside : signal ∈ sentBy name channel :=
      List.mem_map.mpr ⟨(name, signal), List.mem_filter.mpr ⟨mem, by simp⟩, rfl⟩
    rw [empty] at inside
    cases inside

namespace SourceTask

/-- A fixture has nothing between the source and the channel of the merge. -/
def Direct (kind : SourceKind) (task : SourceTask D) : Prop :=
  kind = .fixture → task.held = none ∧ task.inner = []

/-- What a step of a running task does: it puts the first of its pending
signals into the channel, or none, and has none left when it ends. -/
structure Advances (kind : SourceKind) (name : String)
    (before after : SourceTask D) (channel channel' : SignalChannel D)
    (sent : List (SourceSignal D)) : Prop where
  channel : channel' = channel ++ sent.map fun signal => (name, signal)
  pending : before.pending = sent ++ after.pending
  direct : after.Direct kind
  stage : after.stage = .running ∨ after.stage = .finished ∧ after.pending = []

theorem Advances.same
    {kind : SourceKind} {name : String} {before after : SourceTask D}
    {channel : SignalChannel D} (pending : before.pending = after.pending)
    (direct : after.Direct kind) (stage : after.stage = .running) :
    Advances kind name before after channel channel [] where
  channel := by simp
  pending := pending
  direct := direct
  stage := Or.inl stage

theorem advance_cases
    {kind : SourceKind} {task : SourceTask D} (direct : task.Direct kind)
    (running : task.stage = .running) (name : String)
    (channel : SignalChannel D) (action : TaskAction) :
    ∃ sent, Advances kind name task
      (task.advance kind name channel action).1 channel
      (task.advance kind name channel action).2 sent := by
  have idle : Advances kind name task task channel channel [] :=
    .same rfl direct running
  cases action with
  | emit =>
      simp only [advance]
      split
      · exact ⟨[], idle⟩
      · rename_i signal rest unsent
        cases kind with
        | fixture =>
            obtain ⟨free, empty⟩ := direct rfl
            simp only
            split
            · refine ⟨[signal], rfl, ?_, fun _ => ⟨free, empty⟩,
                Or.inl running⟩
              simp [pending, free, empty, unsent]
            · exact ⟨[], idle⟩
        | task =>
            simp only
            split
            · refine ⟨[], .same ?_ ?_ running⟩
              · simp [pending, unsent]
              · intro no
                cases no
            · exact ⟨[], idle⟩
  | sourceReturns =>
      simp only [advance]
      split
      · exact ⟨[], .same rfl direct running⟩
      · exact ⟨[], idle⟩
  | take =>
      simp only [advance]
      split
      · rename_i signal rest free waiting
        refine ⟨[], .same ?_ ?_ running⟩
        · simp [pending, free, waiting]
        · intro fixture
          rw [(direct fixture).2] at waiting
          cases waiting
      · exact ⟨[], idle⟩
  | hand =>
      simp only [advance]
      split
      · exact ⟨[], idle⟩
      · rename_i signal held
        split
        · refine ⟨[signal], rfl, ?_, ?_, Or.inl running⟩
          · simp [pending, held]
          · intro fixture
            exact ⟨rfl, (direct fixture).2⟩
        · exact ⟨[], idle⟩
  | finish =>
      simp only [advance]
      split
      · rename_i ends
        obtain ⟨_, held, inner, unsent⟩ := ends
        have empty : task.pending = [] := by
          rw [Option.isNone_iff_eq_none] at held
          rw [List.isEmpty_iff] at inner unsent
          simp [pending, held, inner, unsent]
        exact ⟨[], by simp, rfl, direct, Or.inr ⟨rfl, empty⟩⟩
      · exact ⟨[], idle⟩

end SourceTask

/-! ## The merge of one input -/

namespace MergedFeed

variable {feed : MergedFeed D} {definitions : List (SourceDefinition D)}
  {order : IterationOrder (QueuedFact D)} {state : MergeState D}
  {done : List (MergeInput D)}

variable {message : String} {input : MergeInput D}
  {states : KeyedMap String SourceState} {definition : SourceDefinition D}

theorem not_outrunError_of_ne (first : message ≠ "premature EOF")
    (second : message ≠ "historical coverage ends before replay end") :
    ¬ OutrunError (some (.error (.replayGap message))) := by
  rintro (premature | early)
  · cases premature
    exact first rfl
  · cases early
    exact second rfl

theorem Tracks.releaseSafe (tracks : Tracks definitions done state) :
    Tracks definitions done (feed.releaseSafe order state) := by
  rcases releaseSafe_cases feed order state with
    ⟨_, same⟩ | ⟨frontier, sent, _, releases⟩
  · rw [same]
    exact tracks
  · rw [releases.frame]
    exact ⟨tracks.known, tracks.only, tracks.count, tracks.completed,
      tracks.accepted⟩

/-- A release ends a running merge only when the receiver is gone. -/
theorem releaseSafe_result (running : state.result = none) :
    (feed.releaseSafe order state).result = none ∨
      (feed.releaseSafe order state).result = some (.error .sinkClosed) := by
  rcases releaseSafe_cases feed order state with
    ⟨_, same⟩ | ⟨frontier, sent, _, releases⟩
  · rw [same]
    exact .inl running
  · rcases releases.outcome with ⟨same, _⟩ | ⟨closed, _⟩
    · exact .inl (same.trans running)
    · exact .inr closed

theorem settle_ended (ended : state.result.isSome = true) :
    settle state = state := by
  unfold settle
  rw [if_pos (Or.inl ended)]

/-- The round that ends with an error of its branch. -/
theorem step_failed (running : state.result = none)
    (failed : feed.select order state input = state.fail states message) :
    (feed.step state ⟨input, order⟩).result =
      some (.error (.replayGap message)) := by
  have ended : (state.fail states message).result.isSome = true := rfl
  rw [step, running]
  simp only
  rw [failed, settle_ended ended]
  rfl

/-- What a round leaves behind that ends no source early. -/
structure RoundEnds (definitions : List (SourceDefinition D))
    (done : List (MergeInput D)) (after : MergeState D) : Prop where
  noError : ¬ OutrunError after.result
  tracks : after.result = none → Tracks definitions done after
  complete : after.result = some (.ok ()) →
    definitions.length ≤ done.countP MergeInput.isJoined

theorem RoundEnds.settle (tracks : Tracks definitions done state)
    (result : state.result = none ∨ state.result = some (.error .sinkClosed)) :
    RoundEnds definitions done (MergedFeed.settle state) := by
  rcases result with running | closed
  · unfold MergedFeed.settle
    split
    · refine ⟨?_, fun _ => tracks, ?_⟩
      · simp [running, OutrunError]
      · simp [running]
    · rename_i stops
      have all : definitions.length ≤ done.countP MergeInput.isJoined := by
        rw [← tracks.completed, ← tracks.count]
        exact not_lt.mp fun less => stops (Or.inr less)
      split
      · refine ⟨not_outrunError_of_ne (by decide) (by decide), ?_, ?_⟩
        · intro no
          cases no
        · intro no
          cases no
      · split
        · refine ⟨not_outrunError_of_ne (by decide) (by decide), ?_, ?_⟩
          · intro no
            cases no
          · intro no
            cases no
        · refine ⟨by simp [OutrunError], ?_, fun _ => all⟩
          intro no
          cases no
  · rw [settle_ended (by simp [closed])]
    refine ⟨by simp [closed, OutrunError], ?_, ?_⟩
    · simp [closed]
    · simp [closed]

theorem RoundEnds.progress (running : state.result = none)
    (tracks : Tracks definitions done state)
    {middle : MergeState D} (progress : Progress feed state input middle) :
    RoundEnds definitions (done ++ [input])
      (feed.step state ⟨input, order⟩) := by
  have still : middle.result = none := by
    cases progress <;> exact running
  have next : Tracks definitions (done ++ [input])
      (feed.releaseSafe order middle) :=
    (tracks.of_progress progress).releaseSafe
  rw [step, running]
  simp only
  rw [select_of_progress progress]
  exact .settle next (releaseSafe_result still)

/-- A round that ends with another error. -/
theorem RoundEnds.failed (running : state.result = none)
    (failed : feed.select order state input = state.fail states message)
    (first : message ≠ "premature EOF")
    (second : message ≠ "historical coverage ends before replay end") :
    RoundEnds definitions (done ++ [input])
      (feed.step state ⟨input, order⟩) := by
  have ended := step_failed running failed
  refine ⟨?_, ?_, ?_⟩
  · rw [ended]
    exact not_outrunError_of_ne first second
  · simp [ended]
  · simp [ended]

theorem RoundEnds.signal (running : state.result = none)
    (tracks : Tracks definitions done state) (source : String)
    (signal : SourceSignal D) :
    RoundEnds definitions (done ++ [.signal source signal])
      (feed.step state ⟨.signal source signal, order⟩) := by
  cases known : state.states.lookup source with
  | none =>
      have unknown : feed.select order state (.signal source signal) =
          state.fail (recordGap state.states source) "unknown source" := by
        simp [select, receive, known]
      exact .failed running unknown (by decide) (by decide)
  | some sourceState =>
      cases signal with
      | data envelope =>
          by_cases late : (sourceState.watermark.any fun watermark =>
              decide ((QueuedFact.ofEnvelope source envelope).timestampMs ≤
                watermark)) = true
          · have failed : feed.select order state
                (.signal source (.data envelope)) =
                  state.fail (recordGap state.states source)
                    "late record" := by
              simp [select, receive, known, late]
            exact .failed running failed (by decide) (by decide)
          · refine .progress running tracks
              (.data source envelope sourceState known ?_)
            intro watermark marked
            simpa [marked] using late
      | watermark next =>
          by_cases regressed : (sourceState.watermark.any fun prev =>
              decide (next < prev)) = true
          · have failed : feed.select order state
                (.signal source (.watermark next)) =
                  state.fail (recordGap state.states source)
                    "watermark regressed" := by
              simp [select, receive, known, regressed]
            exact .failed running failed (by decide) (by decide)
          · refine .progress running tracks
              (.watermark source next sourceState known ?_)
            intro prev marked
            simpa [marked] using regressed
      | eof =>
          exact .progress running tracks (.eof source sourceState known)

theorem RoundEnds.joined (running : state.result = none)
    (tracks : Tracks definitions done state)
    (mem : definition ∈ definitions)
    (completes : feed.Completes definition)
    (received : signalsOf definition.name done = definition.signals) :
    RoundEnds definitions (done ++ [.joined definition.name (.ok ())])
      (feed.step state ⟨.joined definition.name (.ok ()), order⟩) := by
  obtain ⟨sourceState, known, watermark, eofSeen⟩ :=
    tracks.known definition mem
  rw [received] at watermark eofSeen
  obtain ⟨before, shape, _⟩ := completes.eof
  refine .progress running tracks
    (.completed definition.name sourceState known ?_ ?_)
  · rw [eofSeen, shape]
    simp [hasEof]
  · by_cases backtest : feed.mode = .backtest
    · cases ends : feed.replayEndMs with
      | none =>
          simp [endsEarly, ends]
      | some replayEnd =>
          obtain ⟨final, last, covers⟩ := completes.covers backtest _ ends
          refine endsEarly_of_covers (watermark.trans last) ?_
          intro _ other same
          rw [ends] at same
          cases same
          exact covers
    · simp [endsEarly, backtest]

/-- Joining a source before the end of its stream was received is an error. -/
theorem joined_premature (running : state.result = none)
    (tracks : Tracks definitions done state)
    (mem : definition ∈ definitions)
    (unseen : hasEof (signalsOf definition.name done) = false) :
    (feed.step state ⟨.joined definition.name (.ok ()), order⟩).result =
      some (.error (.replayGap "premature EOF")) := by
  obtain ⟨sourceState, known, _, eofSeen⟩ := tracks.known definition mem
  rw [unseen] at eofSeen
  have failed : feed.select order state (.joined definition.name (.ok ())) =
      state.fail (recordGap state.states definition.name) "premature EOF" := by
    simp [select, complete, known, eofSeen]
  exact step_failed running failed

end MergedFeed

/-! ## Delivery -/

def MergeInput.joinedName : MergeInput D → Option String
  | .signal _ _ => none
  | .joined source _ => some source
  | .joinFailed _ => none
  | .tasksEnded => none

def joinedNames (inputs : List (MergeInput D)) : List String :=
  inputs.filterMap MergeInput.joinedName

theorem length_joinedNames (inputs : List (MergeInput D)) :
    (joinedNames inputs).length = inputs.countP MergeInput.isJoined := by
  induction inputs with
  | nil => rfl
  | cons input rest ih =>
      unfold joinedNames at ih ⊢
      cases input <;>
        simp [List.filterMap_cons, List.countP_cons, MergeInput.joinedName,
          MergeInput.isJoined, ih]

theorem joinedNames_snoc (inputs : List (MergeInput D)) (input : MergeInput D) :
    joinedNames (inputs ++ [input]) =
      joinedNames inputs ++ input.joinedName.toList := by
  cases input <;>
    simp [joinedNames, List.filterMap_cons, MergeInput.joinedName]

namespace FeedRun

variable {feed : MergedFeed D} {kind : SourceKind}
  {definitions : List (SourceDefinition D)} {run : FeedRun D}

/-- Every signal of a source is in one place: received, in the channel, or
still in the hands of its task. -/
structure Delivers (kind : SourceKind)
    (definitions : List (SourceDefinition D)) (run : FeedRun D) : Prop where
  names : run.names = definitions.map SourceDefinition.name
  conserved : ∀ definition ∈ definitions,
    definition.signals = signalsOf definition.name run.inputs ++
      sentBy definition.name run.channel ++
        (run.tasks definition.name).pending
  ended : ∀ definition ∈ definitions,
    (run.tasks definition.name).stage ≠ .running →
      (run.tasks definition.name).pending = []
  direct : ∀ definition ∈ definitions,
    (run.tasks definition.name).Direct kind
  received : ∀ definition ∈ definitions,
    (run.tasks definition.name).stage = .joined →
      signalsOf definition.name run.inputs = definition.signals
  joinedOnce : (joinedNames run.inputs).Nodup
  joined : ∀ name ∈ joinedNames run.inputs,
    name ∈ run.names ∧ (run.tasks name).stage = .joined

/-- When as many sources were joined as there are, all were. -/
theorem Delivers.all (delivers : Delivers kind definitions run)
    (enough : definitions.length ≤ run.inputs.countP MergeInput.isJoined) :
    ∀ definition ∈ definitions,
      signalsOf definition.name run.inputs = definition.signals := by
  have inside : joinedNames run.inputs ⊆ run.names := fun name mem =>
    (delivers.joined name mem).1
  have perm : (joinedNames run.inputs).Perm run.names := by
    apply (List.subperm_of_subset delivers.joinedOnce inside).perm_of_length_le
    rw [length_joinedNames, delivers.names, List.length_map]
    exact enough
  intro definition mem
  apply delivers.received definition mem
  have named : definition.name ∈ run.names := by
    rw [delivers.names]
    exact List.mem_map_of_mem mem
  exact (delivers.joined _ (perm.mem_iff.mpr named)).2

variable {name : String}

theorem Delivers.advance (delivers : Delivers kind definitions run)
    (running : (run.tasks name).stage = .running) (named : name ∈ run.names)
    (action : TaskAction) :
    Delivers kind definitions
      { run with
        tasks := Function.update run.tasks name
          ((run.tasks name).advance kind name run.channel action).1
        channel :=
          ((run.tasks name).advance kind name run.channel action).2 } := by
  have direct : (run.tasks name).Direct kind := by
    rw [delivers.names] at named
    obtain ⟨definition, mem, rfl⟩ := List.mem_map.mp named
    exact delivers.direct definition mem
  obtain ⟨sent, advances⟩ := SourceTask.advance_cases direct running name
    run.channel action
  have unjoined : ∀ other, (Function.update run.tasks name
      ((run.tasks name).advance kind name run.channel action).1 other).stage =
        .joined → other ≠ name ∧ (run.tasks other).stage = .joined := by
    intro other stage
    by_cases same : other = name
    · subst same
      rw [Function.update_self] at stage
      rcases advances.stage with running | ⟨finished, _⟩
      · rw [running] at stage
        cases stage
      · rw [finished] at stage
        cases stage
    · rw [Function.update_of_ne same] at stage
      exact ⟨same, stage⟩
  constructor
  · exact delivers.names
  · intro definition mem
    have before := delivers.conserved definition mem
    dsimp only
    rw [advances.channel, sentBy_append]
    by_cases same : definition.name = name
    · rw [same, Function.update_self, sentBy_own]
      rw [same, advances.pending] at before
      simpa using before
    · rw [Function.update_of_ne same, sentBy_other (Ne.symm same)]
      simpa using before
  · intro definition mem stage
    by_cases same : definition.name = name
    · simp only [same, Function.update_self] at stage ⊢
      rcases advances.stage with running | ⟨_, empty⟩
      · exact absurd running stage
      · exact empty
    · simp only [Function.update_of_ne same] at stage ⊢
      exact delivers.ended definition mem stage
  · intro definition mem
    by_cases same : definition.name = name
    · simp only [same, Function.update_self]
      exact advances.direct
    · simp only [Function.update_of_ne same]
      exact delivers.direct definition mem
  · intro definition mem stage
    exact delivers.received definition mem (unjoined _ stage).2
  · exact delivers.joinedOnce
  · intro other mem
    obtain ⟨inside, stage⟩ := delivers.joined other mem
    refine ⟨inside, ?_⟩
    have ne : other ≠ name := by
      rintro rfl
      rw [running] at stage
      cases stage
    simp only [Function.update_of_ne ne]
    exact stage

theorem Delivers.receive (delivers : Delivers kind definitions run)
    {signal : SourceSignal D} {rest : SignalChannel D}
    (waiting : run.channel = (name, signal) :: rest)
    (phase : LoopPhase) (merge : MergeState D) :
    Delivers kind definitions
      { run with
        channel := rest
        phase := phase
        inputs := run.inputs ++ [.signal name signal]
        merge := merge } := by
  have moved : ∀ source, signalsOf source (run.inputs ++ [.signal name signal])
      ++ sentBy source rest =
        signalsOf source run.inputs ++ sentBy source run.channel := by
    intro source
    rw [waiting]
    by_cases same : name = source
    · subst same
      simp [MergedFeed.signalsOf_snoc, sentBy]
    · simp [signalsOf, ownedBy, MergeInput.source, sentBy, same]
  constructor
  · exact delivers.names
  · intro definition mem
    rw [moved]
    exact delivers.conserved definition mem
  · exact delivers.ended
  · exact delivers.direct
  · intro definition mem stage
    have before := delivers.received definition mem stage
    have whole := delivers.conserved definition mem
    have empty := delivers.ended definition mem (by
      rw [stage]
      simp)
    rw [empty, List.append_nil] at whole
    have after := moved definition.name
    rw [← whole] at after
    have none : sentBy definition.name rest = [] := by
      rw [before] at whole
      have none : sentBy definition.name run.channel = [] := by
        simpa using whole
      rw [waiting] at none
      unfold sentBy at none ⊢
      rw [List.filter_cons] at none
      split at none
      · cases none
      · exact none
    rw [none, List.append_nil] at after
    exact after
  · simpa [joinedNames_snoc, MergeInput.joinedName] using delivers.joinedOnce
  · intro other mem
    apply delivers.joined other
    simpa [joinedNames_snoc, MergeInput.joinedName] using mem

theorem Delivers.join (delivers : Delivers kind definitions run)
    (named : name ∈ run.names)
    (finished : (run.tasks name).stage = .finished)
    (inTime : sentBy name run.channel = [])
    (phase : LoopPhase) (merge : MergeState D) :
    Delivers kind definitions
      { run with
        tasks := Function.update run.tasks name
          { run.tasks name with stage := .joined }
        phase := phase
        inputs := run.inputs ++ [.joined name (.ok ())]
        merge := merge } := by
  constructor
  · exact delivers.names
  · intro definition mem
    rw [MergedFeed.signalsOf_joined]
    have before := delivers.conserved definition mem
    by_cases same : definition.name = name
    · simpa only [same, Function.update_self, SourceTask.pending] using before
    · simpa only [Function.update_of_ne same] using before
  · intro definition mem stage
    by_cases same : definition.name = name
    · simp only [same, Function.update_self]
      have empty := delivers.ended definition mem
        (by simp [same, finished])
      rw [same] at empty
      exact empty
    · simp only [Function.update_of_ne same] at stage ⊢
      exact delivers.ended definition mem stage
  · intro definition mem
    have before := delivers.direct definition mem
    by_cases same : definition.name = name
    · rw [same] at before
      simp only [same, Function.update_self]
      exact before
    · simpa only [Function.update_of_ne same] using before
  · intro definition mem stage
    rw [MergedFeed.signalsOf_joined]
    by_cases same : definition.name = name
    · have whole := delivers.conserved definition mem
      rw [delivers.ended definition mem (by simp [same, finished]), same,
        inTime] at whole
      rw [same]
      simpa using whole.symm
    · simp only [Function.update_of_ne same] at stage
      exact delivers.received definition mem stage
  · have fresh : name ∉ joinedNames run.inputs := by
      intro mem
      rw [(delivers.joined name mem).2] at finished
      cases finished
    rw [joinedNames_snoc]
    exact List.nodup_append.mpr ⟨delivers.joinedOnce, List.nodup_singleton name, by
      intro other mem last isLast same
      have own : last = name := by
        simpa [MergeInput.joinedName] using isLast
      exact fresh (own ▸ same ▸ mem)⟩
  · intro other mem
    rw [joinedNames_snoc, List.mem_append] at mem
    by_cases same : other = name
    · subst same
      exact ⟨named, by simp⟩
    · simp only [Function.update_of_ne same]
      rcases mem with earlier | last
      · exact delivers.joined other earlier
      · exact absurd (by simpa [MergeInput.joinedName] using last)
          same

theorem Delivers.tasksEnded (delivers : Delivers kind definitions run)
    (phase : LoopPhase) (merge : MergeState D) :
    Delivers kind definitions
      { run with
        phase := phase
        inputs := run.inputs ++ [.tasksEnded]
        merge := merge } := by
  have same : ∀ source, signalsOf source (run.inputs ++ [.tasksEnded]) =
      signalsOf source run.inputs := by
    intro source
    simp [signalsOf, ownedBy, MergeInput.source]
  refine ⟨delivers.names, ?_, delivers.ended, delivers.direct, ?_, ?_, ?_⟩
  · intro definition mem
    rw [same]
    exact delivers.conserved definition mem
  · intro definition mem stage
    rw [same]
    exact delivers.received definition mem stage
  · simpa [joinedNames_snoc, MergeInput.joinedName] using delivers.joinedOnce
  · intro other mem
    apply delivers.joined other
    simpa [joinedNames_snoc, MergeInput.joinedName] using mem

theorem Delivers.phase
    (delivers : Delivers kind definitions run) (phase : LoopPhase) :
    Delivers kind definitions { run with phase := phase } where
  names := delivers.names
  conserved := delivers.conserved
  ended := delivers.ended
  direct := delivers.direct
  received := delivers.received
  joinedOnce := delivers.joinedOnce
  joined := delivers.joined

theorem start_delivers (nodup : (definitions.map SourceDefinition.name).Nodup) :
    Delivers kind definitions (start definitions) := by
  have own : ∀ definition ∈ definitions,
      (start definitions).tasks definition.name =
        .ofSignals definition.signals := by
    intro definition mem
    simp only [start]
    cases found : definitions.find? fun other =>
        other.name = definition.name with
    | none =>
        have against := List.find?_eq_none.mp found definition mem
        simp at against
    | some other =>
        have sameName : other.name = definition.name := by
          simpa using List.find?_some found
        have same : other = definition :=
          List.inj_on_of_nodup_map nodup (List.mem_of_find?_eq_some found)
            mem sameName
        simp [same]
  refine ⟨rfl, ?_, ?_, ?_, ?_, List.nodup_nil, ?_⟩
  · intro definition mem
    rw [own definition mem]
    simp [start, signalsOf, ownedBy, sentBy, SourceTask.pending,
      SourceTask.ofSignals]
  · intro definition mem stage
    rw [own definition mem] at stage
    exact absurd rfl stage
  · intro definition mem _
    rw [own definition mem]
    exact ⟨rfl, rfl⟩
  · intro definition mem stage
    rw [own definition mem] at stage
    cases stage
  · intro name mem
    cases mem

end FeedRun

/-! ## Schedules -/

namespace FeedRun

variable {feed : MergedFeed D} {kind : SourceKind}
  {definitions : List (SourceDefinition D)} {run : FeedRun D}

/-- The invariant of a schedule that joins in time. -/
structure InStep (kind : SourceKind)
    (definitions : List (SourceDefinition D)) (run : FeedRun D) : Prop where
  delivers : Delivers kind definitions run
  round : MergedFeed.RoundEnds definitions run.inputs run.merge

theorem InStep.nothingOutrun (inStep : InStep kind definitions run) :
    NothingOutrun definitions run where
  noError := inStep.round.noError
  received := inStep.delivers.received
  complete := fun complete =>
    inStep.delivers.all (inStep.round.complete complete)

theorem start_inStep (nodup : (definitions.map SourceDefinition.name).Nodup) :
    InStep kind definitions (start definitions) where
  delivers := start_delivers nodup
  round := by
    have unique : MergedFeed.duplicateName []
        (definitions.map SourceDefinition.name) = none :=
      MergedFeed.duplicateName_eq_none nodup (by simp)
    have shape : (start definitions).merge = MergedFeed.settle
        (MergedFeed.initial (definitions.map SourceDefinition.name)) := by
      simp only [start, MergedFeed.start, unique]
      rfl
    rw [shape]
    exact .settle (MergedFeed.initial_tracks nodup) (Or.inl rfl)

theorem step_ended (ended : run.merge.result.isSome = true)
    (action : FeedAction D) : run.step feed kind action = run := by
  unfold step
  rw [if_pos ended]

/-- One step of a schedule that joins in time. -/
theorem InStep.step
    (completes : ∀ definition ∈ definitions, feed.Completes definition)
    (inStep : InStep kind definitions run) {action : FeedAction D}
    (inTime : run.InTime action) :
    InStep kind definitions (run.step feed kind action) := by
  by_cases ended : run.merge.result.isSome = true
  · rw [step_ended ended]
    exact inStep
  have running : run.merge.result = none := by simpa using ended
  have tracks := inStep.round.tracks running
  unfold FeedRun.step
  rw [if_neg ended]
  cases action with
  | task name action =>
      dsimp only
      split
      · rename_i known
        exact ⟨inStep.delivers.advance known.2 known.1 action, inStep.round⟩
      · exact inStep
  | pollSignals order =>
      dsimp only
      split
      · exact inStep
      · split
        · exact ⟨inStep.delivers.phase _, inStep.round⟩
        · rename_i name signal rest waiting
          exact ⟨inStep.delivers.receive waiting _ _,
            .signal running tracks name signal⟩
  | pollJoin name order =>
      dsimp only
      split
      · exact inStep
      · rename_i joining
        split
        · exact ⟨inStep.delivers.tasksEnded _ _,
            .failed running rfl (by decide) (by decide)⟩
        · split
          · rename_i ready
            obtain ⟨named, finished⟩ := ready
            have none : sentBy name run.channel = [] := by
              by_contra left
              obtain ⟨signal, mem⟩ := (sentBy_ne_nil_iff _ _).mp left
              exact inTime running joining named finished signal mem
            have after := inStep.delivers.join named finished none
              .pollSignals run.merge
            have before := inStep.delivers.names
            rw [before] at named
            obtain ⟨definition, mem, rfl⟩ := List.mem_map.mp named
            have received : signalsOf definition.name run.inputs =
                definition.signals := by
              have all := after.received definition mem (by simp)
              rwa [MergedFeed.signalsOf_joined] at all
            exact ⟨inStep.delivers.join (before ▸ named) finished none _ _,
              .joined running tracks mem (completes definition mem) received⟩
          · split
            · exact ⟨inStep.delivers.phase _, inStep.round⟩
            · exact inStep

/-- The end of the stream is in the channel when any signal is. -/
theorem Delivers.unseen (delivers : Delivers kind definitions run)
    {definition : SourceDefinition D} (mem : definition ∈ definitions)
    (completes : feed.Completes definition)
    (finished : (run.tasks definition.name).stage = .finished)
    {signal : SourceSignal D}
    (left : (definition.name, signal) ∈ run.channel) :
    hasEof (signalsOf definition.name run.inputs) = false := by
  obtain ⟨before, shape, noEof⟩ := completes.eof
  have whole := delivers.conserved definition mem
  have empty := delivers.ended definition mem (by
    rw [finished]
    simp)
  rw [empty, List.append_nil, shape] at whole
  have some := (sentBy_ne_nil_iff _ _).mpr ⟨signal, left⟩
  obtain ⟨init, last, ends⟩ := List.eq_nil_or_concat
    (sentBy definition.name run.channel) |>.resolve_left some
  rw [ends, List.concat_eq_append, ← List.append_assoc] at whole
  obtain ⟨parts, _⟩ := List.append_inj' whole rfl
  rw [parts] at noEof
  simp only [hasEof, List.any_append, Bool.or_eq_false_iff] at noEof ⊢
  exact noEof.1

theorem step_join {name : String} {order : IterationOrder (QueuedFact D)}
    (running : run.merge.result = none) (joining : run.phase = .pollJoin)
    (named : name ∈ run.names)
    (finished : (run.tasks name).stage = .finished) :
    (run.step feed kind (.pollJoin name order)).merge =
      feed.step run.merge ⟨.joined name (.ok ()), order⟩ := by
  have notAll : ¬ (run.names.all fun other =>
      decide ((run.tasks other).stage = .joined)) = true := by
    intro all
    have joined := List.all_eq_true.mp all name named
    rw [decide_eq_true_eq, finished] at joined
    cases joined
  unfold FeedRun.step
  rw [if_neg (by simp [running])]
  simp only [joining]
  rw [if_neg notAll, if_pos ⟨named, finished⟩]
  rfl

/-- A join that comes too early is a premature end of its source. -/
theorem InStep.inTime
    (completes : ∀ definition ∈ definitions, feed.Completes definition)
    (inStep : InStep kind definitions run) {action : FeedAction D}
    (after : NothingOutrun definitions (run.step feed kind action)) :
    run.InTime action := by
  cases action with
  | task name action => trivial
  | pollSignals order => trivial
  | pollJoin name order =>
      intro running joining named finished signal left
      have unseen : hasEof (signalsOf name run.inputs) = false := by
        rw [inStep.delivers.names] at named
        obtain ⟨definition, mem, rfl⟩ := List.mem_map.mp named
        exact inStep.delivers.unseen mem
          (completes definition mem) finished left
      apply after.noError
      rw [step_join running joining named finished]
      rw [inStep.delivers.names] at named
      obtain ⟨definition, mem, rfl⟩ := List.mem_map.mp named
      exact .inl (MergedFeed.joined_premature running
        (inStep.round.tracks running) mem unseen)

/-- The loop takes no source to have ended early, and drops no signal, just
when no task is joined while the channel has signals of it. -/
theorem nothingOutrun_iff
    (feed : MergedFeed D) (kind : SourceKind)
    (definitions : List (SourceDefinition D))
    (nodup : (definitions.map SourceDefinition.name).Nodup)
    (completes : ∀ definition ∈ definitions, feed.Completes definition)
    (schedule : List (FeedAction D)) :
    Trace.EveryState (step feed kind) (NothingOutrun definitions)
        (start definitions) schedule ↔
      Trace.EveryStep (step feed kind) InTime (start definitions) schedule :=
  Trace.everyState_iff_everyStep (InStep kind definitions)
    (fun _ inStep => inStep.nothingOutrun)
    (fun _ _ inStep inTime => inStep.step completes inTime)
    (fun _ _ inStep after => inStep.inTime completes after)
    (start_inStep nodup)

end FeedRun

namespace QuickSource

def source : SourceDefinition Decimal where
  name := "binance"
  signals := [.watermark (I64.clamp 5), .eof]

def feed : MergedFeed Decimal where
  mode := .live
  replayEndMs := none
  format := { value := id, text := toString, debug := id }
  sink := fun _ => true

theorem completes :
    ∀ definition ∈ [source], feed.Completes definition := by
  intro definition mem
  rw [List.mem_singleton] at mem
  subst mem
  refine ⟨⟨[.watermark (I64.clamp 5)], rfl, rfl⟩, ?_⟩
  intro no
  cases no

def polls : FeedAction Decimal :=
  .pollSignals (.stored (QueuedFact Decimal))

def joins : FeedAction Decimal :=
  .pollJoin "binance" (.stored (QueuedFact Decimal))

def acts (action : TaskAction) : FeedAction Decimal :=
  .task "binance" action

/-- The wrapper hands both signals on before the task ends and is joined. -/
def received : List (FeedAction Decimal) :=
  [acts .emit, acts .emit, acts .sourceReturns, acts .take, acts .hand,
    acts .take, acts .hand, acts .finish, polls, polls, polls, joins]

theorem nothingOutrun_iff_received :
    (Trace.EveryState (FeedRun.step feed .task)
        (FeedRun.NothingOutrun [source]) (FeedRun.start [source]) received ↔
      Trace.EveryStep (FeedRun.step feed .task) FeedRun.InTime
        (FeedRun.start [source]) received) ∧
      Trace.EveryStep (FeedRun.step feed .task) FeedRun.InTime
        (FeedRun.start [source]) received := by
  refine ⟨FeedRun.nothingOutrun_iff feed .task [source] (by simp) completes
    received, ?_⟩
  refine ⟨trivial, trivial, trivial, trivial, trivial, trivial, trivial,
    trivial, trivial, trivial, trivial, ?_, trivial⟩
  intro _ _ _ _ signal left
  have empty : (Trace.run (FeedRun.step feed .task) (FeedRun.start [source])
      (received.take 11)).channel = [] := by
    decide +kernel
  have none : ("binance", signal) ∈ ([] : SignalChannel Decimal) :=
    empty ▸ left
  cases none

/-- The channel is empty when the loop polls it; then the source sends both
signals and ends; then the loop polls the task set. -/
def outrun : List (FeedAction Decimal) :=
  [polls, acts .emit, acts .emit, acts .sourceReturns, acts .finish, joins]

theorem outrun_premature :
    (∀ definition ∈ [source], feed.Completes definition) ∧
      (Trace.run (FeedRun.step feed .fixture) (FeedRun.start [source])
        outrun).merge.result =
          some (.error (.replayGap "premature EOF")) :=
  ⟨completes, by decide +kernel⟩

end QuickSource

end Pmkit
