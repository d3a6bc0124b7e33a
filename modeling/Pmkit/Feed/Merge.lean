import Mathlib.Data.List.MinMax
import Pmkit.Feed.Order
import Pmkit.Library.Trace

/-!
# The merge of sources

Sources deliver facts and watermarks in any interleaving.  A fact is held back
until every source promised not to deliver anything at or before it, and then
released in order.  Whatever breaks that promise, or ends early, stops the
merge with an error.
-/

namespace Pmkit

open MachineInt

inductive FeedMode where
  | backtest
  | paper
  | live
  deriving DecidableEq

inductive SourceSignal (D : Type) where
  | data (envelope : SourceEnvelope D)
  | watermark (timestampMs : I64)
  | eof
  deriving DecidableEq

structure SourceState where
  lastEventTimestampMs : Option I64
  watermark : Option I64
  eofSeen : Bool
  gapCount : Nat
  deriving DecidableEq

/-- `SourceState::default`. -/
def SourceState.default : SourceState where
  lastEventTimestampMs := none
  watermark := none
  eofSeen := false
  gapCount := 0

structure SourceDefinition (D : Type) where
  name : String
  signals : List (SourceSignal D)

/-- What the loop selects: a signal of a source, or the end of a task, which
may have failed with or without a known source, or of all tasks. -/
inductive MergeInput (D : Type) where
  | signal (source : String) (signal : SourceSignal D)
  | joined (source : String) (result : Except DataSourceError Unit)
  | joinFailed (source : Option String)
  | tasksEnded

/-- An input, and how the heap decides between equal facts while it is
handled. -/
structure MergeEvent (D : Type) where
  input : MergeInput D
  order : IterationOrder (QueuedFact D)

/-- The fixed parts of a merge.  The sink says of each send whether the
receiver is still there. -/
structure MergedFeed (D : Type) where
  mode : FeedMode
  replayEndMs : Option I64
  format : EventFormat D
  sink : Nat → Bool

/-- The variables of the loop, with the facts that were accepted into the
queue, those that were sent, and what `forward` returned. -/
structure MergeState (D : Type) where
  states : KeyedMap String SourceState
  sourceCount : Nat
  completed : Nat
  queued : List (QueuedFact D)
  accepted : List (QueuedFact D)
  released : List (QueuedFact D)
  result : Option (Except DataSourceError Unit)

/-- `merge_frontier`: the least watermark, once every source has one. -/
def mergeFrontier (states : KeyedMap String SourceState) : Option I64 :=
  (states.values.mapM SourceState.watermark).bind List.min?

/-- `record_gaps`. -/
def recordGaps (states : KeyedMap String SourceState) :
    List String → KeyedMap String SourceState
  | [] => states
  | source :: rest =>
      let state := (states.lookup source).getD .default
      recordGaps
        (states.insert source { state with gapCount := state.gapCount + 1 })
        rest

/-- `record_gap`. -/
def recordGap (states : KeyedMap String SourceState) (source : String) :
    KeyedMap String SourceState :=
  recordGaps states [source]

/-- `record_unattributable_gap`. -/
def recordUnattributableGap (states : KeyedMap String SourceState) :
    KeyedMap String SourceState :=
  recordGaps states (states.retain fun _ state => !state.eofSeen).keys

/-- `record_missing_watermark_gaps`. -/
def recordMissingWatermarkGaps (states : KeyedMap String SourceState) :
    KeyedMap String SourceState :=
  recordGaps states (states.retain fun _ state => state.watermark.isNone).keys

namespace MergeState

variable {D : Type}

/-- End with a replay gap. -/
def fail (state : MergeState D) (states : KeyedMap String SourceState)
    (message : String) : MergeState D :=
  { state with
    states := states
    result := some (.error (.replayGap message)) }

end MergeState

namespace MergedFeed

variable {D : Type}

/-- The loop of `release_safe` under a frontier. -/
def releaseLoop (feed : MergedFeed D) (order : IterationOrder (QueuedFact D))
    (frontier : I64) : Nat → MergeState D → MergeState D
  | 0, state => state
  | fuel + 1, state =>
      match PriorityQueue.pop (QueuedFact.cmp feed.format) order
          state.queued with
      | none => state
      | some (next, rest) =>
          if next.timestampMs ≤ frontier then
            if feed.sink state.released.length then
              feed.releaseLoop order frontier fuel
                { state with
                  queued := rest
                  released := state.released ++ [next] }
            else
              { state with
                queued := rest
                result := some (.error .sinkClosed) }
          else
            state

/-- `release_safe`.  Every round of its loop takes a fact out of the queue. -/
def releaseSafe (feed : MergedFeed D) (order : IterationOrder (QueuedFact D))
    (state : MergeState D) : MergeState D :=
  match mergeFrontier state.states with
  | none => state
  | some frontier =>
      feed.releaseLoop order frontier state.queued.length state

/-! ## The branches of the loop -/

def observed (state : SourceState) (timestampMs : I64) : SourceState :=
  { state with
    lastEventTimestampMs :=
      match state.lastEventTimestampMs with
      | none => some timestampMs
      | some previous => some (max previous timestampMs) }

def receive (feed : MergedFeed D) (order : IterationOrder (QueuedFact D))
    (state : MergeState D) (source : String) (signal : SourceSignal D) :
    MergeState D :=
  match state.states.lookup source with
  | none => state.fail (recordGap state.states source) "unknown source"
  | some sourceState =>
      match signal with
      | .data envelope =>
          let queued := QueuedFact.ofEnvelope source envelope
          if sourceState.watermark.any
              fun watermark => queued.timestampMs ≤ watermark then
            state.fail (recordGap state.states source) "late record"
          else
            feed.releaseSafe order
              { state with
                states := state.states.insert source
                  (observed sourceState queued.timestampMs)
                queued := state.queued ++ [queued]
                accepted := state.accepted ++ [queued] }
      | .watermark watermark =>
          if sourceState.watermark.any fun previous => watermark < previous then
            state.fail (recordGap state.states source) "watermark regressed"
          else
            feed.releaseSafe order
              { state with
                states := state.states.insert source
                  { sourceState with watermark := some watermark } }
      | .eof =>
          feed.releaseSafe order
            { state with
              states := state.states.insert source
                { sourceState with eofSeen := true } }

def endsEarly (feed : MergedFeed D) (sourceState : SourceState) : Bool :=
  feed.mode = .backtest && feed.replayEndMs.any fun replayEnd =>
    sourceState.watermark.getD I64.minValue < replayEnd

def complete (feed : MergedFeed D) (order : IterationOrder (QueuedFact D))
    (state : MergeState D) (source : String) :
    Except DataSourceError Unit → MergeState D
  | .error (.replayGap message) =>
      state.fail (recordGap state.states source) message
  | .error error => { state with result := some (.error error) }
  | .ok () =>
      match state.states.lookup source with
      | none =>
          state.fail state.states "completed unknown source"
      | some sourceState =>
          if !sourceState.eofSeen then
            state.fail (recordGap state.states source) "premature EOF"
          else if feed.endsEarly sourceState then
            state.fail (recordGap state.states source)
              "historical coverage ends before replay end"
          else
            feed.releaseSafe order
              { state with completed := state.completed + 1 }

def select (feed : MergedFeed D) (order : IterationOrder (QueuedFact D))
    (state : MergeState D) : MergeInput D → MergeState D
  | .signal source signal => feed.receive order state source signal
  | .joined source result => feed.complete order state source result
  | .joinFailed (some source) =>
      state.fail (recordGap state.states source) "source task failed"
  | .joinFailed none =>
      state.fail (recordUnattributableGap state.states)
        "source task failed without identity"
  | .tasksEnded =>
      state.fail (recordUnattributableGap state.states)
        "source task set ended early"

/-- The loop condition, and what follows the loop.  When every source
completed and facts are left, no branch can be selected. -/
def settle (state : MergeState D) : MergeState D :=
  if state.result.isSome ∨ state.completed < state.sourceCount then
    state
  else if state.queued ≠ [] then
    state.fail
      (recordGaps state.states (state.queued.map QueuedFact.source).dedup)
      "queued event exceeds terminal merge frontier"
  else if state.states.values.any fun source => source.watermark.isNone then
    state.fail (recordMissingWatermarkGaps state.states)
      "source did not warm up"
  else
    { state with result := some (.ok ()) }

/-- One round of the loop. -/
def step (feed : MergedFeed D) (state : MergeState D) (event : MergeEvent D) :
    MergeState D :=
  match state.result with
  | some _ => state
  | none => settle (feed.select event.order state event.input)

def duplicateName (seen : List String) : List String → Option String
  | [] => none
  | name :: rest =>
      if name ∈ seen then
        some name
      else
        duplicateName (name :: seen) rest

def initialStates : List String → KeyedMap String SourceState
  | [] => ∅
  | name :: rest => (initialStates rest).insert name .default

/-- `forward` up to its loop. -/
def start (names : List String) : MergeState D :=
  let state : MergeState D :=
    { states := initialStates names
      sourceCount := (initialStates names).entries.length
      completed := 0
      queued := []
      accepted := []
      released := []
      result := none }
  match duplicateName [] names with
  | some name =>
      { state with
        states := ∅
        result := some (.error (.replayGap ("duplicate source name: " ++ name))) }
  | none => settle state

/-- `forward` over the inputs that its loop selects. -/
def forward (feed : MergedFeed D) (names : List String)
    (events : List (MergeEvent D)) : MergeState D :=
  Trace.run feed.step (start names) events

end MergedFeed

end Pmkit
