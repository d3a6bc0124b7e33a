import Pmkit.Feed.Safety
import Pmkit.Library.Interleaving

/-!
# The merge does not depend on arrival order

Sources that keep their promises, delivered in any interleaving: the merge
ends successfully, and releases exactly their facts, in one order when no two
facts compare equal.
-/

namespace Pmkit

open MachineInt Interleaving

variable {D : Type}

namespace MergeInput

def source : MergeInput D → Option String
  | signal source _ => some source
  | joined source _ => some source
  | joinFailed source => source
  | tasksEnded => none

def signalOf : MergeInput D → Option (SourceSignal D)
  | signal _ received => some received
  | _ => none

def factOf : MergeInput D → Option (QueuedFact D)
  | signal source (.data envelope) => some (.ofEnvelope source envelope)
  | _ => none

def isJoined : MergeInput D → Bool
  | joined _ _ => true
  | _ => false

end MergeInput

def lastWatermark : List (SourceSignal D) → Option I64
  | [] => none
  | .watermark watermark :: rest => some ((lastWatermark rest).getD watermark)
  | _ :: rest => lastWatermark rest

def hasEof (signals : List (SourceSignal D)) : Bool :=
  signals.any fun
    | .eof => true
    | _ => false

namespace SourceDefinition

/-- What the loop sees of a source: its signals, and then that its task
returned. -/
def inputs (definition : SourceDefinition D) : List (MergeInput D) :=
  definition.signals.map (.signal definition.name) ++
    [.joined definition.name (.ok ())]

def facts (definition : SourceDefinition D) : List (QueuedFact D) :=
  definition.inputs.filterMap MergeInput.factOf

def script (definition : SourceDefinition D) :
    Option String × List (MergeInput D) :=
  (some definition.name, definition.inputs)

end SourceDefinition

namespace MergedFeed

/-- Sources that keep their promises: facts are above the last watermark, the
watermarks never go back, the last one covers every fact of every source and
the end of a backtest, and the end of the stream is announced. -/
structure Legal (feed : MergedFeed D)
    (definitions : List (SourceDefinition D)) : Prop where
  names : (definitions.map SourceDefinition.name).Nodup
  data : ∀ definition ∈ definitions, ∀ earlier envelope later,
    definition.signals = earlier ++ .data envelope :: later →
      ∀ watermark, lastWatermark earlier = some watermark →
        watermark < envelope.canonicalKey.timestampMs
  watermarks : ∀ definition ∈ definitions, ∀ earlier watermark later,
    definition.signals = earlier ++ .watermark watermark :: later →
      ∀ previous, lastWatermark earlier = some previous →
        previous ≤ watermark
  final : ∀ definition ∈ definitions, ∃ watermark,
    lastWatermark definition.signals = some watermark ∧
      (∀ other ∈ definitions, ∀ fact ∈ other.facts,
        fact.timestampMs ≤ watermark) ∧
      (feed.mode = .backtest → ∀ replayEnd, feed.replayEndMs = some replayEnd →
        replayEnd ≤ watermark)
  eof : ∀ definition ∈ definitions,
    definition.signals.getLast? = some .eof

def Interleaved (definitions : List (SourceDefinition D))
    (events : List (MergeEvent D)) : Prop :=
  Interleaves MergeInput.source (definitions.map SourceDefinition.script)
    (events.map MergeEvent.input)

end MergedFeed

theorem lastWatermark_append (first second : List (SourceSignal D)) :
    lastWatermark (first ++ second) =
      (lastWatermark second).or (lastWatermark first) := by
  induction first with
  | nil =>
      simp [lastWatermark]
  | cons signal rest ih =>
      cases signal with
      | watermark watermark =>
          simp only [List.cons_append, lastWatermark, ih]
          cases lastWatermark second with
          | none => simp
          | some later => simp
      | data envelope =>
          simpa [lastWatermark] using ih
      | eof =>
          simpa [lastWatermark] using ih

def signalsOf (name : String) (inputs : List (MergeInput D)) :
    List (SourceSignal D) :=
  (ownedBy MergeInput.source (some name) inputs).filterMap MergeInput.signalOf

theorem signalsOf_append (name : String) (first second : List (MergeInput D)) :
    signalsOf name (first ++ second) =
      signalsOf name first ++ signalsOf name second := by
  simp [signalsOf, ownedBy]

theorem SourceDefinition.filterMap_signalOf (definition : SourceDefinition D) :
    definition.inputs.filterMap MergeInput.signalOf = definition.signals := by
  rw [inputs, List.filterMap_append, List.filterMap_map]
  simp [MergeInput.signalOf, Function.comp_def]

namespace MergedFeed

variable {feed : MergedFeed D} {definitions : List (SourceDefinition D)}

variable {done : List (MergeInput D)} {input : MergeInput D}
  {definition : SourceDefinition D} {name : String} {state : MergeState D}
  {events : List (MergeEvent D)}

variable {rest : List (MergeInput D)}

theorem next_of_interleaves
    (interleaves : Interleaves MergeInput.source
      (definitions.map SourceDefinition.script) (done ++ input :: rest)) :
    ∃ definition ∈ definitions, input.source = some definition.name ∧
      definition.inputs =
        ownedBy MergeInput.source (some definition.name) done ++
          input :: ownedBy MergeInput.source (some definition.name) rest := by
  obtain ⟨script, mem, owner, shape⟩ := interleaves.next
  obtain ⟨definition, inside, rfl⟩ := List.mem_map.mp mem
  refine ⟨definition, inside, owner.symm, ?_⟩
  have same : some definition.name = input.source := owner
  rw [same]
  exact shape

theorem signals_of_next {signal : SourceSignal D}
    (shape : definition.inputs =
      ownedBy MergeInput.source (some definition.name) done ++
        .signal name signal ::
          ownedBy MergeInput.source (some definition.name) rest) :
    definition.signals =
      signalsOf definition.name done ++
        signal :: signalsOf definition.name rest := by
  rw [← definition.filterMap_signalOf, shape]
  simp [signalsOf, MergeInput.signalOf]

/-- A join comes after all signals of its source, and reports success. -/
theorem joined_of_next {result : Except DataSourceError Unit}
    (shape : definition.inputs =
      ownedBy MergeInput.source (some definition.name) done ++
        .joined name result ::
          ownedBy MergeInput.source (some definition.name) rest) :
    result = .ok () ∧ definition.signals = signalsOf definition.name done := by
  unfold SourceDefinition.inputs at shape
  rcases List.eq_nil_or_concat
    (ownedBy MergeInput.source (some definition.name) rest) with
    last | ⟨others, final, more⟩
  · rw [last] at shape
    obtain ⟨before, same⟩ := List.append_inj' shape rfl
    cases same
    refine ⟨rfl, ?_⟩
    rw [signalsOf, ← before, List.filterMap_map]
    simp [MergeInput.signalOf, Function.comp_def]
  · rw [more, List.concat_eq_append, ← List.cons_append,
      ← List.append_assoc] at shape
    obtain ⟨before, _⟩ := List.append_inj' shape rfl
    have inside : MergeInput.joined name result ∈
        definition.signals.map (.signal definition.name) := by
      rw [before]
      simp
    obtain ⟨signal, _, no⟩ := List.mem_map.mp inside
    cases no

/-! ## Following the scripts -/

/-- What a state knows after some inputs of the sources. -/
structure Tracks (definitions : List (SourceDefinition D))
    (done : List (MergeInput D)) (state : MergeState D) : Prop where
  known : ∀ definition ∈ definitions, ∃ sourceState,
    state.states.lookup definition.name = some sourceState ∧
      sourceState.watermark =
        lastWatermark (signalsOf definition.name done) ∧
      sourceState.eofSeen = hasEof (signalsOf definition.name done)
  only : ∀ name sourceState, state.states.lookup name = some sourceState →
    ∃ definition ∈ definitions, definition.name = name
  count : state.sourceCount = definitions.length
  completed : state.completed = done.countP MergeInput.isJoined
  accepted : state.accepted = done.filterMap MergeInput.factOf

theorem signalsOf_snoc
    (name : String) (done : List (MergeInput D)) (signal : SourceSignal D) :
    signalsOf name (done ++ [.signal name signal]) =
      signalsOf name done ++ [signal] := by
  simp [signalsOf, ownedBy, MergeInput.source, MergeInput.signalOf]

theorem hasEof_of_getLast?
    {signals : List (SourceSignal D)} (last : signals.getLast? = some .eof) :
    hasEof signals = true :=
  List.any_eq_true.mpr ⟨.eof, List.mem_of_getLast? last, rfl⟩

theorem Tracks.insert (tracks : Tracks definitions done state)
    {before : SourceState} (found : state.states.lookup name = some before)
    (signal : SourceSignal D) (after : SourceState)
    (watermark : after.watermark =
      lastWatermark (signalsOf name done ++ [signal]))
    (eofSeen : after.eofSeen = hasEof (signalsOf name done ++ [signal])) :
    (∀ definition ∈ definitions, ∃ sourceState,
      (state.states.insert name after).lookup definition.name =
          some sourceState ∧ sourceState.watermark = lastWatermark
          (signalsOf definition.name (done ++ [.signal name signal])) ∧
        sourceState.eofSeen = hasEof
          (signalsOf definition.name (done ++ [.signal name signal]))) ∧
    ∀ other sourceState,
      (state.states.insert name after).lookup other = some sourceState →
        ∃ definition ∈ definitions, definition.name = other := by
  constructor
  · intro definition mem
    rw [KeyedMap.lookup_insert_eq]
    by_cases same : definition.name = name
    · rw [if_pos same, same, signalsOf_snoc]
      exact ⟨after, rfl, watermark, eofSeen⟩
    · rw [if_neg same]
      have others : signalsOf definition.name
          (done ++ [MergeInput.signal name signal]) =
            signalsOf definition.name done := by
        have ne : ¬ name = definition.name := fun equal => same equal.symm
        simp [signalsOf, ownedBy, MergeInput.source, ne]
      rw [others]
      exact tracks.known definition mem
  · intro other sourceState stored
    rw [KeyedMap.lookup_insert_eq] at stored
    by_cases same : other = name
    · rw [same]
      exact tracks.only name before found
    · rw [if_neg same] at stored
      exact tracks.only other sourceState stored

theorem signalsOf_joined
    (name : String) (done : List (MergeInput D)) (source : String)
    (result : Except DataSourceError Unit) :
    signalsOf name (done ++ [.joined source result]) = signalsOf name done := by
  rw [signalsOf_append]
  simp only [signalsOf, ownedBy, List.filter_cons]
  split <;> simp [MergeInput.signalOf]

/-- A state goes on following the scripts with each progress. -/
theorem Tracks.of_progress
    {middle : MergeState D} (tracks : Tracks definitions done state)
    (progress : Progress feed state input middle) :
    Tracks definitions (done ++ [input]) middle := by
  have follows : ∀ source before,
      state.states.lookup source = some before →
        before.watermark = lastWatermark (signalsOf source done) ∧
          before.eofSeen = hasEof (signalsOf source done) := by
    intro source before found
    obtain ⟨definition, mem, rfl⟩ := tracks.only source before found
    obtain ⟨known, same, watermark, eofSeen⟩ :=
      tracks.known definition mem
    rw [found] at same
    cases same
    exact ⟨watermark, eofSeen⟩
  cases progress with
  | data source envelope sourceState known timely =>
      obtain ⟨watermark, eofSeen⟩ := follows source sourceState known
      have inserted := tracks.insert known (.data envelope)
        (observed sourceState
          (QueuedFact.ofEnvelope source envelope).timestampMs)
        (watermark.trans (by simp [lastWatermark_append, lastWatermark]))
        (eofSeen.trans (by simp [hasEof]))
      refine ⟨inserted.1, inserted.2, tracks.count, ?_, ?_⟩
      · simp [tracks.completed, MergeInput.isJoined]
      · simp [tracks.accepted, MergeInput.factOf]
  | watermark source next sourceState known forward =>
      obtain ⟨_, eofSeen⟩ := follows source sourceState known
      have inserted := tracks.insert known (.watermark next)
        { sourceState with watermark := some next }
        (by simp [lastWatermark_append, lastWatermark])
        (eofSeen.trans (by simp [hasEof]))
      refine ⟨inserted.1, inserted.2, tracks.count, ?_, ?_⟩
      · simp [tracks.completed, MergeInput.isJoined]
      · simp [tracks.accepted, MergeInput.factOf]
  | eof source sourceState known =>
      obtain ⟨watermark, _⟩ := follows source sourceState known
      have inserted := tracks.insert known .eof
        { sourceState with eofSeen := true }
        (watermark.trans (by simp [lastWatermark_append, lastWatermark]))
        (by simp [hasEof])
      refine ⟨inserted.1, inserted.2, tracks.count, ?_, ?_⟩
      · simp [tracks.completed, MergeInput.isJoined]
      · simp [tracks.accepted, MergeInput.factOf]
  | completed source sourceState known eofSeen covers =>
      refine ⟨?_, tracks.only, tracks.count, ?_, ?_⟩
      · intro definition mem
        rw [signalsOf_joined]
        exact tracks.known definition mem
      · simp [tracks.completed, MergeInput.isJoined]
      · simp [tracks.accepted, MergeInput.factOf]

theorem endsEarly_of_covers {sourceState : SourceState} {final : I64}
    (marked : sourceState.watermark = some final)
    (covers : feed.mode = .backtest → ∀ replayEnd,
      feed.replayEndMs = some replayEnd → replayEnd ≤ final) :
    feed.endsEarly sourceState = false := by
  simp only [endsEarly, marked, Option.getD_some, Bool.and_eq_false_iff,
    decide_eq_false_iff_not, Option.any_eq_false]
  by_cases backtest : feed.mode = .backtest
  · right
    intro replayEnd ends
    simpa using covers backtest replayEnd ends
  · exact .inl backtest

theorem Tracks.progress (legal : feed.Legal definitions)
    (tracks : Tracks definitions done state)
    (interleaves : Interleaves MergeInput.source
      (definitions.map SourceDefinition.script) (done ++ input :: rest)) :
    ∃ middle, Progress feed state input middle ∧
      Tracks definitions (done ++ [input]) middle := by
  obtain ⟨definition, mem, owner, shape⟩ := next_of_interleaves interleaves
  obtain ⟨sourceState, found, watermark, eofSeen⟩ :=
    tracks.known definition mem
  have goesOn : ∃ middle, Progress feed state input middle := by
    cases input with
    | joinFailed failed =>
        have inside : MergeInput.joinFailed failed ∈ definition.inputs := by
          rw [shape]
          simp
        simp [SourceDefinition.inputs] at inside
    | tasksEnded =>
        cases owner
    | signal name signal =>
        cases owner
        have signals := signals_of_next shape
        cases signal with
        | data envelope =>
            refine ⟨_, .data definition.name envelope sourceState found ?_⟩
            intro mark marked
            exact legal.data definition mem _ envelope _ signals mark
              (watermark.symm.trans marked)
        | watermark next =>
            refine ⟨_, .watermark definition.name next sourceState found ?_⟩
            intro prev marked
            exact legal.watermarks definition mem _ next _ signals prev
              (watermark.symm.trans marked)
        | eof =>
            exact ⟨_, .eof definition.name sourceState found⟩
    | joined name result =>
        cases owner
        obtain ⟨rfl, signals⟩ := joined_of_next shape
        obtain ⟨final, last, _, covers⟩ := legal.final definition mem
        refine ⟨_, .completed definition.name sourceState found ?_ ?_⟩
        · rw [eofSeen, ← signals]
          exact hasEof_of_getLast? (legal.eof definition mem)
        · exact endsEarly_of_covers (by rw [watermark, ← signals, last]) covers
  obtain ⟨middle, progress⟩ := goesOn
  exact ⟨middle, progress, tracks.of_progress progress⟩

theorem select_of_progress {middle : MergeState D}
    (progress : Progress feed state input middle)
    (order : IterationOrder (QueuedFact D)) :
    feed.select order state input = feed.releaseSafe order middle := by
  cases progress with
  | data source envelope sourceState known timely =>
      have inTime : (sourceState.watermark.any fun watermark =>
          decide ((QueuedFact.ofEnvelope source envelope).timestampMs ≤
            watermark)) = false := by
        rw [Option.any_eq_false]
        intro watermark marked
        simpa using timely watermark marked
      simp [select, receive, known, inTime]
  | watermark source watermark sourceState known forward =>
      have goesOn : (sourceState.watermark.any fun prev =>
          decide (watermark < prev)) = false := by
        rw [Option.any_eq_false]
        intro prev marked
        simpa using forward prev marked
      simp [select, receive, known, goesOn]
  | eof source sourceState known =>
      simp [select, receive, known]
  | completed source sourceState known eofSeen covers =>
      simp [select, complete, known, eofSeen, covers]

theorem releaseSafe_open (receives : ∀ send, feed.sink send = true)
    (order : IterationOrder (QueuedFact D)) (state : MergeState D) :
    ∃ queued released, feed.releaseSafe order state =
        { state with queued := queued, released := released } ∧
      ∀ frontier, mergeFrontier state.states = some frontier →
        ∀ waiting ∈ queued, frontier < waiting.timestampMs := by
  rcases releaseSafe_cases feed order state with
    ⟨none, same⟩ | ⟨frontier, sent, found, releases⟩
  · refine ⟨state.queued, state.released, same, ?_⟩
    intro frontier no
    rw [none] at no
    cases no
  · rcases releases.outcome with ⟨result, _, beyond⟩ | ⟨_, _, send, gone⟩
    · refine ⟨(feed.releaseSafe order state).queued,
        state.released ++ sent, ?_, ?_⟩
      · refine releases.frame.trans ?_
        rw [result]
      · intro other same
        rw [found] at same
        cases same
        exact beyond
    · rw [receives send] at gone
      cases gone

theorem countP_isJoined_of_interleaves
    (legal : feed.Legal definitions) {inputs : List (MergeInput D)}
    (interleaves : Interleaves MergeInput.source
      (definitions.map SourceDefinition.script) inputs) :
    inputs.countP MergeInput.isJoined = definitions.length := by
  have nodup : ((definitions.map SourceDefinition.script).map
      Prod.fst).Nodup := by
    rw [List.map_map]
    have distinct := legal.names.map (Option.some_injective String)
    rw [List.map_map] at distinct
    exact distinct
  have one : ∀ definition : SourceDefinition D,
      definition.inputs.countP MergeInput.isJoined = 1 := by
    intro definition
    have none : (definition.signals.map
        (MergeInput.signal definition.name)).countP MergeInput.isJoined = 0 := by
      rw [List.countP_eq_zero]
      intro input mem
      obtain ⟨signal, _, rfl⟩ := List.mem_map.mp mem
      simp [MergeInput.isJoined]
    rw [SourceDefinition.inputs, List.countP_append, none]
    rfl
  rw [(interleaves.perm nodup).countP_eq, List.flatMap_map, List.countP_flatMap]
  have ones : definitions.map (List.countP MergeInput.isJoined ∘
      fun definition => definition.script.2) = definitions.map fun _ => 1 :=
    List.map_congr_left fun definition _ => one definition
  exact (congrArg List.sum ones).trans (by simp)

theorem join_is_left
    (interleaves : Interleaves MergeInput.source
      (definitions.map SourceDefinition.script) (done ++ input :: rest)) :
    0 < (input :: rest).countP MergeInput.isJoined := by
  obtain ⟨definition, mem, _, shape⟩ := next_of_interleaves interleaves
  have last : definition.inputs.getLast? =
      some (.joined definition.name (.ok ())) := by
    simp [SourceDefinition.inputs]
  rw [shape, List.getLast?_append_of_ne_nil _ (List.cons_ne_nil _ _)] at last
  rw [List.countP_pos_iff]
  refine ⟨.joined definition.name (.ok ()), ?_, rfl⟩
  rcases List.mem_cons.mp (List.mem_of_getLast? last) with same | later
  · rw [same]
    exact List.mem_cons_self
  · exact List.mem_cons_of_mem input (List.mem_of_mem_filter later)

theorem mapM_watermark_of_le {lower : I64} {sources : List SourceState}
    (above : ∀ source ∈ sources, ∃ watermark,
      source.watermark = some watermark ∧ lower ≤ watermark) :
    ∃ watermarks, sources.mapM SourceState.watermark = some watermarks ∧
      watermarks.length = sources.length ∧
      ∀ watermark ∈ watermarks, lower ≤ watermark := by
  induction sources with
  | nil =>
      exact ⟨[], rfl, rfl, by simp⟩
  | cons source rest ih =>
      obtain ⟨watermark, marked, first⟩ := above source List.mem_cons_self
      obtain ⟨watermarks, all, lengths, others⟩ := ih
        fun other mem => above other (List.mem_cons_of_mem source mem)
      refine ⟨watermark :: watermarks, ?_, by simp [lengths], ?_⟩
      · rw [List.mapM_cons, marked, all]
        rfl
      · intro other mem
        rcases List.mem_cons.mp mem with rfl | later
        · exact first
        · exact others other later

theorem le_mergeFrontier {states : KeyedMap String SourceState} {lower : I64}
    (above : ∀ source sourceState, states.lookup source = some sourceState →
      ∃ watermark, sourceState.watermark = some watermark ∧ lower ≤ watermark)
    {known : String} {knownState : SourceState}
    (found : states.lookup known = some knownState) :
    ∃ frontier, mergeFrontier states = some frontier ∧ lower ≤ frontier := by
  have values : ∀ sourceState ∈ states.values, ∃ watermark,
      sourceState.watermark = some watermark ∧ lower ≤ watermark := by
    intro sourceState mem
    obtain ⟨source, stored⟩ := KeyedMap.mem_values.mp mem
    exact above source sourceState stored
  obtain ⟨watermarks, all, lengths, bounded⟩ := mapM_watermark_of_le values
  have mem := KeyedMap.mem_values.mpr ⟨known, found⟩
  have nonempty : watermarks ≠ [] := by
    rintro rfl
    rw [List.length_nil] at lengths
    rw [List.length_eq_zero_iff.mp lengths.symm] at mem
    cases mem
  cases least : watermarks.min? with
  | none => exact absurd (List.min?_eq_none_iff.mp least) nonempty
  | some frontier =>
      refine ⟨frontier, ?_, bounded frontier (List.min?_eq_some_iff.mp least).1⟩
      rw [mergeFrontier, all]
      exact least

/-! ## Whole runs -/

section Finish

variable {inputs : List (MergeInput D)} {state : MergeState D}

theorem signalsOf_of_interleaves
    (interleaves : Interleaves MergeInput.source
      (definitions.map SourceDefinition.script) inputs)
    {definition : SourceDefinition D} (mem : definition ∈ definitions) :
    signalsOf definition.name inputs = definition.signals := by
  have follows := interleaves.follows definition.script
    (List.mem_map_of_mem mem)
  have own : ownedBy MergeInput.source (some definition.name) inputs =
      definition.inputs := follows
  rw [signalsOf, own, definition.filterMap_signalOf]

theorem perm_facts_of_interleaves (legal : feed.Legal definitions)
    (interleaves : Interleaves MergeInput.source
      (definitions.map SourceDefinition.script) inputs) :
    (inputs.filterMap MergeInput.factOf).Perm
      (definitions.flatMap SourceDefinition.facts) := by
  have nodup : ((definitions.map SourceDefinition.script).map
      Prod.fst).Nodup := by
    have distinct := legal.names.map (Option.some_injective String)
    rw [List.map_map] at distinct ⊢
    exact distinct
  have perm := (interleaves.perm nodup).filterMap MergeInput.factOf
  rw [List.flatMap_map, List.filterMap_flatMap] at perm
  exact perm

theorem Tracks.covers
    (legal : feed.Legal definitions) (tracks : Tracks definitions inputs state)
    (interleaves : Interleaves MergeInput.source
      (definitions.map SourceDefinition.script) inputs)
    {name : String} {sourceState : SourceState}
    (found : state.states.lookup name = some sourceState) :
    ∃ watermark, sourceState.watermark = some watermark ∧
      ∀ fact ∈ definitions.flatMap SourceDefinition.facts,
        fact.timestampMs ≤ watermark := by
  obtain ⟨definition, mem, rfl⟩ := tracks.only name sourceState found
  obtain ⟨tracked, stored, watermark, _⟩ := tracks.known definition mem
  rw [found] at stored
  cases stored
  obtain ⟨final, last, above, _⟩ := legal.final definition mem
  rw [signalsOf_of_interleaves interleaves mem, last] at watermark
  refine ⟨final, watermark, ?_⟩
  intro fact inside
  obtain ⟨other, otherMem, own⟩ := List.mem_flatMap.mp inside
  exact above other otherMem fact own

theorem Tracks.finish (legal : feed.Legal definitions) (safe : Safe feed state)
    (running : state.result = none)
    (tracks : Tracks definitions inputs state)
    (interleaves : Interleaves MergeInput.source
      (definitions.map SourceDefinition.script) inputs)
    (drained : ∀ frontier, mergeFrontier state.states = some frontier →
      ∀ waiting ∈ state.queued, frontier < waiting.timestampMs) :
    (settle state).result = some (.ok ()) := by
  have all : ¬ state.completed < state.sourceCount := by
    rw [tracks.completed, tracks.count,
      countP_isJoined_of_interleaves legal interleaves]
    exact lt_irrefl _
  have empty : state.queued = [] := by
    rw [List.eq_nil_iff_forall_not_mem]
    intro waiting mem
    have kept := safe.kept (by simp [running])
    have accepted : waiting ∈ state.accepted :=
      kept.mem_iff.mpr (List.mem_append_right _ mem)
    rw [tracks.accepted] at accepted
    have fact := (perm_facts_of_interleaves legal interleaves).subset accepted
    obtain ⟨definition, inside, _⟩ := List.mem_flatMap.mp fact
    obtain ⟨tracked, stored, _⟩ := tracks.known definition inside
    obtain ⟨frontier, found, above⟩ := le_mergeFrontier
      (fun source sourceState known => by
        obtain ⟨watermark, marked, covers⟩ :=
          tracks.covers legal interleaves known
        exact ⟨watermark, marked, covers waiting fact⟩) stored
    exact absurd above (not_le.mpr (drained frontier found waiting mem))
  have warm : state.states.values.any
      (fun source => source.watermark.isNone) = false := by
    rw [List.any_eq_false]
    intro sourceState mem
    obtain ⟨name, found⟩ := KeyedMap.mem_values.mp mem
    obtain ⟨watermark, marked, _⟩ := tracks.covers legal interleaves found
    simp [marked]
  simp [settle, running, all, empty, warm]

end Finish

/-- One round over a legal input: the state follows the scripts, and goes on
or, after the last input, ends successfully. -/
theorem Tracks.round (legal : feed.Legal definitions)
    (receives : ∀ send, feed.sink send = true)
    {event : MergeEvent D}
    (safe : Safe feed state)
    (running : state.result = none) (tracks : Tracks definitions done state)
    (interleaves : Interleaves MergeInput.source
      (definitions.map SourceDefinition.script) (done ++ event.input :: rest)) :
    (feed.step state event).accepted =
        (done ++ [event.input]).filterMap MergeInput.factOf ∧
      (rest = [] → (feed.step state event).result = some (.ok ())) ∧
      (rest ≠ [] → (feed.step state event).result = none ∧
        Tracks definitions (done ++ [event.input])
          (feed.step state event)) := by
  obtain ⟨middle, progress, follows⟩ := tracks.progress legal interleaves
  obtain ⟨middleSafe, middleRunning, _⟩ := safe.progress running progress
  obtain ⟨queued, released, same, drained⟩ :=
    releaseSafe_open receives event.order middle
  have selected := select_of_progress progress event.order
  rw [same] at selected
  have afterSafe := middleSafe.releaseSafe middleRunning event.order
  rw [same] at afterSafe
  have after : Tracks definitions (done ++ [event.input])
      { middle with queued := queued, released := released } :=
    ⟨follows.known, follows.only, follows.count, follows.completed,
      follows.accepted⟩
  have step : feed.step state event =
      settle { middle with queued := queued, released := released } := by
    rw [MergedFeed.step, running]
    exact congrArg settle selected
  rw [step]
  refine ⟨?_, ?_, ?_⟩
  · rw [(settle_released _).2]
    exact follows.accepted
  · rintro rfl
    exact after.finish legal afterSafe middleRunning interleaves drained
  · intro more
    obtain ⟨next, others, rfl⟩ := List.exists_cons_of_ne_nil more
    rw [List.append_cons] at interleaves
    have left := join_is_left interleaves
    have total := countP_isJoined_of_interleaves legal interleaves
    rw [List.countP_append] at total
    have goesOn : middle.completed < middle.sourceCount := by
      rw [follows.completed, follows.count]
      omega
    have unchanged : settle
        { middle with queued := queued, released := released } =
          { middle with queued := queued, released := released } := by
      simp [settle, middleRunning, goesOn]
    rw [unchanged]
    exact ⟨middleRunning, after⟩

theorem Tracks.run (legal : feed.Legal definitions)
    (receives : ∀ send, feed.sink send = true)
    (safe : Safe feed state)
    (running : state.result = none) (tracks : Tracks definitions done state)
    (some : events ≠ [])
    (interleaves : Interleaves MergeInput.source
      (definitions.map SourceDefinition.script)
        (done ++ events.map MergeEvent.input)) :
    (Trace.run feed.step state events).result = .some (.ok ()) ∧
      (Trace.run feed.step state events).accepted =
        (done ++ events.map MergeEvent.input).filterMap
          MergeInput.factOf := by
  induction events generalizing done state with
  | nil =>
      exact absurd rfl some
  | cons event rest ih =>
      rw [List.map_cons] at interleaves
      obtain ⟨accepted, ends, goesOn⟩ :=
        tracks.round legal receives safe running interleaves
      rw [Trace.run_cons, List.map_cons]
      cases rest with
      | nil =>
          exact ⟨ends rfl, accepted⟩
      | cons next others =>
          obtain ⟨running, follows⟩ := goesOn (List.cons_ne_nil _ _)
          rw [List.append_cons] at interleaves ⊢
          exact ih (safe.step event) running follows
            (List.cons_ne_nil _ _) interleaves

/-! ## The start -/

theorem lookup_initialStates (names : List String) (name : String) :
    (initialStates names).lookup name =
      if name ∈ names then some .default else none := by
  induction names with
  | nil =>
      simp [initialStates]
  | cons first rest ih =>
      rw [initialStates, KeyedMap.lookup_insert_eq, ih]
      by_cases same : name = first
      · simp [same]
      · simp [same]

theorem length_initialStates {names : List String} (nodup : names.Nodup) :
    (initialStates names).entries.length = names.length := by
  induction names with
  | nil =>
      rfl
  | cons first rest ih =>
      rw [List.nodup_cons] at nodup
      have fresh : first ∉ initialStates rest := by
        rw [← AList.lookup_eq_none, lookup_initialStates, if_neg nodup.1]
      rw [initialStates, AList.insert_of_notMem fresh, List.length_cons,
        List.length_cons, ih nodup.2]

theorem duplicateName_eq_none {seen names : List String} (nodup : names.Nodup)
    (fresh : ∀ name ∈ names, name ∉ seen) :
    duplicateName seen names = none := by
  induction names generalizing seen with
  | nil =>
      rfl
  | cons name rest ih =>
      rw [List.nodup_cons] at nodup
      rw [duplicateName, if_neg (fresh name List.mem_cons_self)]
      apply ih nodup.2
      intro other mem
      rw [List.mem_cons, not_or]
      refine ⟨?_, fresh other (List.mem_cons_of_mem name mem)⟩
      rintro rfl
      exact nodup.1 mem

/-- The variables of `forward` before its loop. -/
def initial (names : List String) : MergeState D where
  states := initialStates names
  sourceCount := (initialStates names).entries.length
  completed := 0
  queued := []
  accepted := []
  released := []
  result := none

theorem initial_tracks (nodup : (definitions.map SourceDefinition.name).Nodup) :
    Tracks definitions []
      (initial (definitions.map SourceDefinition.name)) := by
  have count := length_initialStates nodup
  rw [List.length_map] at count
  refine ⟨?_, ?_, count, rfl, rfl⟩
  · intro definition mem
    refine ⟨.default, ?_, rfl, rfl⟩
    simp only [initial]
    rw [lookup_initialStates, if_pos (List.mem_map_of_mem mem)]
  · intro name sourceState found
    simp only [initial] at found
    rw [lookup_initialStates] at found
    split at found
    · rename_i mem
      obtain ⟨definition, inside, same⟩ := List.mem_map.mp mem
      exact ⟨definition, inside, same⟩
    · cases found

theorem start_tracks
    (legal : feed.Legal definitions) (some : definitions ≠ []) :
    (start (definitions.map SourceDefinition.name) :
        MergeState D).result = none ∧
      Tracks definitions []
        (start (definitions.map SourceDefinition.name)) := by
  have count := length_initialStates legal.names
  rw [List.length_map] at count
  have positive : 0 < definitions.length := List.length_pos_iff.mpr some
  have unique : duplicateName []
      (definitions.map SourceDefinition.name) = none :=
    duplicateName_eq_none legal.names (by simp)
  have shape : (start (definitions.map SourceDefinition.name) : MergeState D) =
        { states := initialStates (definitions.map SourceDefinition.name)
          sourceCount := definitions.length
          completed := 0
          queued := []
          accepted := []
          released := []
          result := none } := by
    simp [start, unique, settle, count, positive]
  rw [shape, ← count]
  exact ⟨rfl, initial_tracks legal.names⟩

theorem forward_of_interleaved (receives : ∀ send, feed.sink send = true)
    (legal : feed.Legal definitions)
    (interleaved : Interleaved definitions events) :
    (feed.forward (definitions.map SourceDefinition.name) events).result =
        some (.ok ()) ∧
      (feed.forward (definitions.map SourceDefinition.name)
        events).released.Perm (definitions.flatMap SourceDefinition.facts) := by
  have finished : (feed.forward (definitions.map SourceDefinition.name)
        events).result = some (.ok ()) ∧
      (feed.forward (definitions.map SourceDefinition.name) events).accepted =
        (events.map MergeEvent.input).filterMap MergeInput.factOf := by
    by_cases sources : definitions = []
    · subst sources
      have none : events = [] := by
        rw [List.eq_nil_iff_forall_not_mem]
        intro event mem
        have owned := interleaved.owned event.input
          (List.mem_map_of_mem mem)
        cases owned
      subst none
      exact ⟨rfl, rfl⟩
    · obtain ⟨running, tracks⟩ := start_tracks legal sources
      have some : events ≠ [] := by
        rintro rfl
        obtain ⟨definition, others, rfl⟩ := List.exists_cons_of_ne_nil sources
        have follows := interleaved.follows definition.script (by simp)
        have empty : ([] : List (MergeInput D)) = definition.inputs := follows
        simp [SourceDefinition.inputs] at empty
      exact tracks.run legal receives (start_safe feed _) running some
        interleaved
  have safe := forward_safe feed (definitions.map SourceDefinition.name) events
  refine ⟨finished.1, (safe.released_perm finished.1).trans ?_⟩
  rw [finished.2]
  exact perm_facts_of_interleaves legal interleaved

/-- Legal sources to a receiver that is there: in every interleaving `forward`
returns successfully and has released exactly their facts, in order; and when
no two facts compare equal, every interleaving releases the same sequence. -/
theorem forward_interleaving
    (feed : MergedFeed D) (receives : ∀ send, feed.sink send = true)
    (definitions : List (SourceDefinition D)) (legal : feed.Legal definitions)
    (events : List (MergeEvent D)) (interleaved : Interleaved definitions events) :
    (feed.forward (definitions.map SourceDefinition.name) events).result =
        some (.ok ()) ∧
      (feed.forward (definitions.map SourceDefinition.name)
        events).released.Perm (definitions.flatMap SourceDefinition.facts) ∧
      (feed.forward (definitions.map SourceDefinition.name)
        events).released.Pairwise
          (fun left right => (QueuedFact.cmp feed.format left right).isLE) ∧
      ((definitions.flatMap SourceDefinition.facts).Pairwise
          (fun left right => QueuedFact.cmp feed.format left right ≠ .eq) →
        ∀ others, Interleaved definitions others →
          (feed.forward (definitions.map SourceDefinition.name)
              others).released =
            (feed.forward (definitions.map SourceDefinition.name)
              events).released) := by
  obtain ⟨result, perm⟩ := forward_of_interleaved receives legal interleaved
  have sorted := (forward_safe feed
    (definitions.map SourceDefinition.name) events).sorted
  refine ⟨result, perm, sorted, ?_⟩
  intro distinct others otherInterleaved
  obtain ⟨_, otherPerm⟩ :=
    forward_of_interleaved receives legal otherInterleaved
  have otherSorted := (forward_safe feed
    (definitions.map SourceDefinition.name) others).sorted
  refine List.Perm.eq_of_pairwise ?_ otherSorted sorted
    (otherPerm.trans perm.symm)
  intro left right leftMember rightMember before after
  by_contra different
  have symmetric : Std.Symm fun left right : QueuedFact D =>
      QueuedFact.cmp feed.format left right ≠ .eq :=
    ⟨fun _ _ unequal equal => unequal (Std.OrientedCmp.eq_symm equal)⟩
  exact distinct.forall (otherPerm.subset leftMember)
    (perm.subset rightMember) different
    (Std.OrientedCmp.isLE_antisymm before after)

end MergedFeed

namespace Sample

def metadata (sourceId : String) (timestampMs : I64) : StreamMetadata where
  schemaVersion := 1
  sourceId := sourceId
  sourceTimeMs := timestampMs
  canonicalSourceRank := 0
  receiptTimeMs := timestampMs
  connectionId := "connection"
  connectionEpoch := 1
  frameSequence := 1
  ingestSequence := 1

def tick (timestampMs : I64) : SourceEnvelope Decimal :=
  .pmMarket
    { metadata := metadata "pm" timestampMs
      rawFrame := []
      fact := .tick timestampMs }

def trade (timestampMs : I64) : SourceEnvelope Decimal :=
  .cexReference
    { metadata := metadata "cex" timestampMs
      fact :=
        { asset := .btc
          exchange := .binance
          aggregateTradeId := 1
          price := 100
          qty := 1
          isBuyerMaker := true
          timestampMs := timestampMs } }

def feed : MergedFeed Decimal where
  mode := .backtest
  replayEndMs := some 10
  format := { value := id, text := toString, debug := id }
  sink := fun _ => true

def sources : List (SourceDefinition Decimal) :=
  [{ name := "pm", signals := [.data (tick 5), .watermark 10, .eof] },
    { name := "cex", signals := [.watermark 3, .data (trade 7), .watermark 10,
      .eof] }]

/-- The reference trade arrives before the earlier tick. -/
def arrivals : List (MergeEvent Decimal) :=
  [.signal "cex" (.watermark 3), .signal "cex" (.data (trade 7)),
    .signal "pm" (.data (tick 5)), .signal "cex" (.watermark 10),
    .signal "pm" (.watermark 10), .signal "pm" .eof, .joined "pm" (.ok ()),
    .signal "cex" .eof, .joined "cex" (.ok ())].map fun input =>
      { input := input, order := .stored _ }

theorem sources_legal : feed.Legal sources where
  names := by decide
  data := by
    intro definition mem earlier envelope later shape watermark marked
    simp only [sources, List.mem_cons, List.not_mem_nil, or_false] at mem
    rcases mem with rfl | rfl
    · rcases earlier with
        _ | ⟨first, _ | ⟨second, _ | ⟨third, more⟩⟩⟩ <;>
        simp_all [lastWatermark]
    · rcases earlier with
        _ | ⟨first, _ | ⟨second, _ | ⟨third, _ | ⟨fourth, more⟩⟩⟩⟩ <;>
        simp_all [lastWatermark]
      obtain ⟨rfl, rfl, _⟩ := shape
      cases marked
      decide
  watermarks := by
    intro definition mem earlier watermark later shape prev marked
    simp only [sources, List.mem_cons, List.not_mem_nil, or_false] at mem
    rcases mem with rfl | rfl
    · rcases earlier with
        _ | ⟨first, _ | ⟨second, _ | ⟨third, more⟩⟩⟩ <;>
        simp_all [lastWatermark]
      obtain ⟨rfl, _⟩ := shape
      cases marked
    · rcases earlier with
        _ | ⟨first, _ | ⟨second, _ | ⟨third, _ | ⟨fourth, more⟩⟩⟩⟩ <;>
        simp_all [lastWatermark]
      obtain ⟨rfl, rfl, rfl, _⟩ := shape
      cases marked
      decide
  final := by
    intro definition mem
    refine ⟨10, ?_, ?_, ?_⟩
    · simp only [sources, List.mem_cons, List.not_mem_nil, or_false] at mem
      rcases mem with rfl | rfl <;> rfl
    · simp only [sources, List.mem_cons, List.not_mem_nil, or_false]
      rintro other (rfl | rfl) fact inside
      · have same : fact = .ofEnvelope "pm" (tick 5) := by
          simpa [SourceDefinition.facts, SourceDefinition.inputs,
            MergeInput.factOf] using inside
        rw [same]
        decide
      · have same : .ofEnvelope "cex" (trade 7) = fact := by
          simpa [SourceDefinition.facts, SourceDefinition.inputs,
            MergeInput.factOf] using inside
        rw [← same]
        decide
    · intro _ replayEnd ends
      cases ends
      exact le_refl _
  eof := by
    simp [sources]

end Sample

namespace MergedFeed

theorem arrivals_released :
    (Sample.feed.forward ["pm", "cex"] Sample.arrivals).result =
        some (.ok ()) ∧
      (Sample.feed.forward ["pm", "cex"] Sample.arrivals).released.Perm
        (Sample.sources.flatMap SourceDefinition.facts) := by
  have forwarded := forward_interleaving Sample.feed (fun _ => rfl)
    Sample.sources Sample.sources_legal Sample.arrivals
    ⟨by simp [Sample.arrivals, Sample.sources, MergeInput.source,
      SourceDefinition.script], by
      intro script member
      simp only [Sample.sources, List.map_cons, List.map_nil, List.mem_cons,
        List.not_mem_nil, or_false] at member
      rcases member with rfl | rfl <;> rfl⟩
  exact ⟨forwarded.1, forwarded.2.1⟩

end MergedFeed

end Pmkit
