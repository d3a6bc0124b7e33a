import Pmkit.Feed.Merge
import Pmkit.Library.Fallible

/-!
# The merge releases safely

What is released stays below every watermark, a later fact must be above its
source's watermark, so nothing that is accepted can belong before a fact that
is already out.  This holds in every run, with every error.
-/

namespace Pmkit

open MachineInt

theorem mergeFrontier_le {states : KeyedMap String SourceState} {frontier : I64}
    (found : mergeFrontier states = some frontier) {source : String}
    {sourceState : SourceState}
    (known : states.lookup source = some sourceState) :
    ∃ watermark, sourceState.watermark = some watermark ∧
      frontier ≤ watermark := by
  obtain ⟨watermarks, all, least⟩ := Option.bind_eq_some_iff.mp found
  have mapped := Fallible.mapM_eq_some_iff.mp all
  have mem : sourceState.watermark ∈ watermarks.map some := by
    rw [← mapped]
    exact List.mem_map_of_mem (KeyedMap.mem_values.mpr ⟨source, known⟩)
  obtain ⟨watermark, inside, same⟩ := List.mem_map.mp mem
  exact ⟨watermark, same.symm, (List.min?_eq_some_iff.mp least).2 _ inside⟩

/-! ## Releasing -/

namespace MergedFeed

variable {D : Type} {feed : MergedFeed D}
  {order : IterationOrder (QueuedFact D)} {frontier : I64}

/-- What a release does under a frontier: it moves the facts at or below the
frontier out of the queue, in order, unless the receiver is gone. -/
structure Releases (feed : MergedFeed D) (frontier : I64)
    (before after : MergeState D) (sent : List (QueuedFact D)) : Prop where
  frame : after =
    { before with
      queued := after.queued
      released := before.released ++ sent
      result := after.result }
  safe : ∀ fact ∈ sent, fact.timestampMs ≤ frontier
  sorted : sent.Pairwise fun left right =>
    (QueuedFact.cmp feed.format left right).isLE
  ahead : ∀ fact ∈ sent, ∀ waiting ∈ after.queued,
    (QueuedFact.cmp feed.format fact waiting).isLE
  outcome :
    (after.result = before.result ∧
      before.queued.Perm (sent ++ after.queued) ∧
      ∀ waiting ∈ after.queued, frontier < waiting.timestampMs) ∨
    (after.result = some (.error .sinkClosed) ∧
      (∃ lost, before.queued.Perm (sent ++ lost :: after.queued)) ∧
      ∃ send, feed.sink send = false)

variable {sent released : List (QueuedFact D)} {state : MergeState D}
  {states : KeyedMap String SourceState}

theorem Releases.mem_before {before after : MergeState D}
    (releases : Releases feed frontier before after sent) {fact : QueuedFact D}
    (mem : fact ∈ sent ∨ fact ∈ after.queued) : fact ∈ before.queued := by
  rcases releases.outcome with ⟨_, perm, _⟩ | ⟨_, ⟨lost, perm⟩, _⟩
  · exact perm.mem_iff.mpr (List.mem_append.mpr mem)
  · refine perm.mem_iff.mpr (List.mem_append.mpr ?_)
    exact mem.imp id (List.mem_cons_of_mem lost)

theorem Releases.cons {before after : MergeState D} {next : QueuedFact D}
    {rest sent : List (QueuedFact D)}
    (perm : (next :: rest).Perm before.queued)
    (least : ∀ other ∈ before.queued,
      (QueuedFact.cmp feed.format next other).isLE)
    (safe : next.timestampMs ≤ frontier)
    (releases : Releases feed frontier { before with
        queued := rest
        released := before.released ++ [next] } after sent) :
    Releases feed frontier before after (next :: sent) := by
  have later : ∀ fact, fact ∈ sent ∨ fact ∈ after.queued →
      (QueuedFact.cmp feed.format next fact).isLE := by
    intro fact mem
    have inRest : fact ∈ rest := releases.mem_before mem
    exact least fact (perm.subset (List.mem_cons_of_mem next inRest))
  refine ⟨?_, ?_, ?_, ?_, ?_⟩
  · refine releases.frame.trans ?_
    simp
  · intro fact mem
    rcases List.mem_cons.mp mem with rfl | other
    · exact safe
    · exact releases.safe fact other
  · exact List.pairwise_cons.mpr
      ⟨fun fact mem => later fact (Or.inl mem), releases.sorted⟩
  · intro fact mem waiting inQueue
    rcases List.mem_cons.mp mem with rfl | other
    · exact later waiting (Or.inr inQueue)
    · exact releases.ahead fact other waiting inQueue
  · rcases releases.outcome with ⟨result, moved, beyond⟩ |
      ⟨result, ⟨lost, moved⟩, gone⟩
    · exact .inl ⟨result, perm.symm.trans (moved.cons next), beyond⟩
    · exact .inr ⟨result, ⟨lost, perm.symm.trans (moved.cons next)⟩, gone⟩

theorem releaseLoop_releases
    (feed : MergedFeed D) (order : IterationOrder (QueuedFact D))
    (frontier : I64) {fuel : Nat}
    (enough : state.queued.length ≤ fuel) :
    ∃ sent, Releases feed frontier state
      (feed.releaseLoop order frontier fuel state) sent := by
  induction fuel generalizing state with
  | zero =>
      have empty : state.queued = [] :=
        List.length_eq_zero_iff.mp (Nat.le_zero.mp enough)
      refine ⟨[], ?_, by simp, List.Pairwise.nil, by simp, Or.inl ⟨rfl, ?_, ?_⟩⟩
      · simp [releaseLoop]
      · simp [releaseLoop]
      · simp [releaseLoop, empty]
  | succ fuel ih =>
      rw [releaseLoop]
      cases popped : PriorityQueue.pop (QueuedFact.cmp feed.format) order
          state.queued with
      | none =>
          have empty := PriorityQueue.pop_eq_none_iff.mp popped
          exact ⟨[], by simp, by simp, List.Pairwise.nil, by simp,
            Or.inl ⟨rfl, List.Perm.refl _, by simp [empty]⟩⟩
      | some pair =>
          obtain ⟨next, rest⟩ := pair
          have perm := PriorityQueue.pop_perm popped
          have least : ∀ other ∈ state.queued,
              (QueuedFact.cmp feed.format next other).isLE :=
            fun other mem => PriorityQueue.pop_least popped mem
          simp only
          by_cases safe : next.timestampMs ≤ frontier
          · rw [if_pos safe]
            by_cases taken : feed.sink state.released.length = true
            · rw [if_pos taken]
              have shorter : ({ state with
                  queued := rest
                  released := state.released ++ [next] } :
                    MergeState D).queued.length ≤ fuel := by
                have lengths := perm.length_eq
                rw [List.length_cons] at lengths
                change rest.length ≤ fuel
                omega
              obtain ⟨sent, releases⟩ := ih shorter
              exact ⟨next :: sent, releases.cons perm least safe⟩
            · rw [if_neg taken]
              refine ⟨[], by simp, by simp, List.Pairwise.nil, by simp,
                Or.inr ⟨rfl, ⟨next, perm.symm⟩, _, by simpa using taken⟩⟩
          · rw [if_neg safe]
            refine ⟨[], by simp, by simp, List.Pairwise.nil, by simp,
              Or.inl ⟨rfl, List.Perm.refl _, ?_⟩⟩
            intro waiting mem
            exact lt_of_lt_of_le (not_le.mp safe)
              (QueuedFact.timestampMs_le_of_cmp (least waiting mem))

theorem releaseSafe_cases
    (feed : MergedFeed D) (order : IterationOrder (QueuedFact D))
    (state : MergeState D) :
    (mergeFrontier state.states = none ∧ feed.releaseSafe order state = state) ∨
    ∃ frontier sent, mergeFrontier state.states = some frontier ∧
      Releases feed frontier state (feed.releaseSafe order state) sent := by
  unfold releaseSafe
  cases found : mergeFrontier state.states with
  | none => exact .inl ⟨rfl, rfl⟩
  | some frontier =>
      obtain ⟨sent, releases⟩ :=
        releaseLoop_releases feed order frontier
          (le_refl state.queued.length)
      exact .inr ⟨frontier, sent, rfl, releases⟩

/-! ## What a round can do -/

/-- The change of a branch before its release. -/
inductive Progress (feed : MergedFeed D) (state : MergeState D) :
    MergeInput D → MergeState D → Prop where
  | data (source : String) (envelope : SourceEnvelope D)
      (sourceState : SourceState)
      (known : state.states.lookup source = some sourceState)
      (timely : ∀ watermark, sourceState.watermark = some watermark →
        watermark < (QueuedFact.ofEnvelope source envelope).timestampMs) :
      Progress feed state (.signal source (.data envelope))
        { state with
          states := state.states.insert source
            (observed sourceState
              (QueuedFact.ofEnvelope source envelope).timestampMs)
          queued := state.queued ++ [.ofEnvelope source envelope]
          accepted := state.accepted ++ [.ofEnvelope source envelope] }
  | watermark (source : String) (watermark : I64) (sourceState : SourceState)
      (known : state.states.lookup source = some sourceState)
      (forward : ∀ previous, sourceState.watermark = some previous →
        previous ≤ watermark) :
      Progress feed state (.signal source (.watermark watermark))
        { state with
          states := state.states.insert source
            { sourceState with watermark := some watermark } }
  | eof (source : String) (sourceState : SourceState)
      (known : state.states.lookup source = some sourceState) :
      Progress feed state (.signal source .eof)
        { state with
          states := state.states.insert source
            { sourceState with eofSeen := true } }
  | completed (source : String) (sourceState : SourceState)
      (known : state.states.lookup source = some sourceState)
      (eofSeen : sourceState.eofSeen = true)
      (covers : feed.endsEarly sourceState = false) :
      Progress feed state (.joined source (.ok ()))
        { state with completed := state.completed + 1 }

theorem select_cases
    (feed : MergedFeed D) (order : IterationOrder (QueuedFact D))
    (state : MergeState D) (input : MergeInput D) :
    (∃ states error, feed.select order state input =
      { state with states := states, result := some (.error error) }) ∨
    ∃ middle, Progress feed state input middle ∧
      feed.select order state input = feed.releaseSafe order middle := by
  cases input with
  | signal source signal =>
      simp only [select, receive]
      cases known : state.states.lookup source with
      | none => exact .inl ⟨_, _, rfl⟩
      | some sourceState =>
          cases signal with
          | data envelope =>
              simp only
              split
              · exact .inl ⟨_, _, rfl⟩
              · rename_i timely
                refine Or.inr ⟨_, .data source envelope sourceState known ?_,
                  rfl⟩
                intro watermark marked
                simpa [marked] using timely
          | watermark watermark =>
              simp only
              split
              · exact .inl ⟨_, _, rfl⟩
              · rename_i forward
                refine Or.inr ⟨_, .watermark source watermark sourceState known
                  ?_, rfl⟩
                intro prev marked
                simpa [marked] using forward
          | eof =>
              exact .inr ⟨_, .eof source sourceState known, rfl⟩
  | joined source result =>
      simp only [select]
      cases result with
      | error error =>
          cases error with
          | replayGap message => exact .inl ⟨_, _, rfl⟩
          | unavailable message => exact .inl ⟨_, _, rfl⟩
          | notAvailable => exact .inl ⟨_, _, rfl⟩
          | historyUnavailable exchange => exact .inl ⟨_, _, rfl⟩
          | sinkClosed => exact .inl ⟨_, _, rfl⟩
      | ok done =>
          simp only [complete]
          cases known : state.states.lookup source with
          | none => exact .inl ⟨_, _, rfl⟩
          | some sourceState =>
              simp only
              split
              · exact .inl ⟨_, _, rfl⟩
              · rename_i seen
                split
                · exact .inl ⟨_, _, rfl⟩
                · rename_i covers
                  exact .inr ⟨_, .completed source sourceState known
                    (by simpa using seen) (by simpa using covers), rfl⟩
  | joinFailed source =>
      cases source with
      | none => exact .inl ⟨_, _, rfl⟩
      | some source => exact .inl ⟨_, _, rfl⟩
  | tasksEnded => exact .inl ⟨_, _, rfl⟩

theorem settle_cases (state : MergeState D) :
    (settle state = state ∧
      (state.result.isSome ∨ state.completed < state.sourceCount)) ∨
    (state.result = none ∧ ∃ states error, settle state =
      { state with states := states, result := some (.error error) }) ∨
    (state.result = none ∧ state.queued = [] ∧
      settle state = { state with result := some (.ok ()) }) := by
  unfold settle
  split
  · rename_i goesOn
    exact .inl ⟨rfl, goesOn⟩
  · rename_i stops
    have running : state.result = none := by
      simpa using fun isSome => stops (Or.inl isSome)
    split
    · exact .inr (Or.inl ⟨running, _, _, rfl⟩)
    · rename_i empty
      split
      · exact .inr (Or.inl ⟨running, _, _, rfl⟩)
      · exact .inr (Or.inr ⟨running, by simpa using empty, rfl⟩)

/-! ## The invariant -/

def Covered (states : KeyedMap String SourceState)
    (released : List (QueuedFact D)) : Prop :=
  ∀ fact ∈ released, ∀ source sourceState,
    states.lookup source = some sourceState →
      ∃ watermark, sourceState.watermark = some watermark ∧
        fact.timestampMs ≤ watermark

/-- The invariant of every run. -/
structure Safe (feed : MergedFeed D) (state : MergeState D) : Prop where
  sorted : state.released.Pairwise fun left right =>
    (QueuedFact.cmp feed.format left right).isLE
  ahead : ∀ fact ∈ state.released, ∀ waiting ∈ state.queued,
    (QueuedFact.cmp feed.format fact waiting).isLE
  covered : state.result = none → Covered state.states state.released
  kept : state.result ≠ some (.error .sinkClosed) →
    state.accepted.Perm (state.released ++ state.queued)
  finished : state.result = some (.ok ()) → state.queued = []

/-- A failure changes nothing but the gap counts. -/
theorem Safe.failed (safe : Safe feed state)
    (running : state.result = none) (states : KeyedMap String SourceState)
    (error : DataSourceError) :
    Safe feed
      { state with states := states, result := some (.error error) } where
  sorted := safe.sorted
  ahead := safe.ahead
  covered := fun no => nomatch no
  kept := fun _ => safe.kept (by simp [running])
  finished := fun no => nomatch no

theorem Covered.insert (covered : Covered states released) {source : String}
    {before after : SourceState} (known : states.lookup source = some before)
    (forward : ∀ watermark, before.watermark = some watermark →
      ∃ later, after.watermark = some later ∧ watermark ≤ later) :
    Covered (states.insert source after) released := by
  intro fact mem other sourceState found
  rw [KeyedMap.lookup_insert_eq] at found
  by_cases same : other = source
  · rw [if_pos same] at found
    cases found
    obtain ⟨watermark, marked, below⟩ := covered fact mem source before known
    obtain ⟨later, markedLater, above⟩ := forward watermark marked
    exact ⟨later, markedLater, le_trans below above⟩
  · rw [if_neg same] at found
    exact covered fact mem other sourceState found

theorem Covered.accepts (covered : Covered states released) {source : String}
    {sourceState : SourceState}
    (known : states.lookup source = some sourceState) {fact : QueuedFact D}
    (timely : ∀ watermark, sourceState.watermark = some watermark →
      watermark < fact.timestampMs) :
    ∀ earlier ∈ released, earlier.timestampMs < fact.timestampMs := by
  intro earlier mem
  obtain ⟨watermark, marked, below⟩ :=
    covered earlier mem source sourceState known
  exact lt_of_le_of_lt below (timely watermark marked)

theorem Safe.progress {middle : MergeState D} {input : MergeInput D}
    (safe : Safe feed state) (running : state.result = none)
    (progress : Progress feed state input middle) :
    Safe feed middle ∧ middle.result = none ∧
      middle.released = state.released := by
  have covered := safe.covered running
  have kept := safe.kept (by simp [running])
  cases progress with
  | data source envelope sourceState known timely =>
      have above := covered.accepts known timely
      refine ⟨⟨safe.sorted, ?_, fun _ => covered.insert known ?_, fun _ => ?_,
        fun no => ?_⟩, running, rfl⟩
      · intro fact mem waiting inQueue
        rcases List.mem_append.mp inQueue with older | new
        · exact safe.ahead fact mem waiting older
        · rw [List.mem_singleton] at new
          subst new
          rw [QueuedFact.cmp_of_timestampMs_lt (above fact mem)]
          rfl
      · intro watermark marked
        exact ⟨watermark, marked, le_refl _⟩
      · rw [← List.append_assoc]
        exact kept.append_right _
      · simp [running] at no
  | watermark source watermark sourceState known forward =>
      refine ⟨⟨safe.sorted, safe.ahead, fun _ => covered.insert known ?_,
        fun _ => kept, fun no => ?_⟩, running, rfl⟩
      · intro prev marked
        exact ⟨watermark, rfl, forward prev marked⟩
      · simp [running] at no
  | eof source sourceState known =>
      refine ⟨⟨safe.sorted, safe.ahead, fun _ => covered.insert known ?_,
        fun _ => kept, fun no => ?_⟩, running, rfl⟩
      · intro watermark marked
        exact ⟨watermark, marked, le_refl _⟩
      · simp [running] at no
  | completed source sourceState known eofSeen covers =>
      exact ⟨⟨safe.sorted, safe.ahead, safe.covered, safe.kept,
        safe.finished⟩, running, rfl⟩

theorem Safe.releases {before after : MergeState D} {frontier : I64}
    (safe : Safe feed before)
    (running : before.result = none)
    (found : mergeFrontier before.states = some frontier)
    (releases : Releases feed frontier before after sent) :
    Safe feed after := by
  have frame := releases.frame
  have released : after.released = before.released ++ sent := by
    rw [frame]
  have states : after.states = before.states := by
    rw [frame]
  have accepted : after.accepted = before.accepted := by
    rw [frame]
  have kept := safe.kept (by simp [running])
  refine ⟨?_, ?_, ?_, ?_, ?_⟩
  · rw [released, List.pairwise_append]
    refine ⟨safe.sorted, releases.sorted, ?_⟩
    intro fact mem later inSent
    exact safe.ahead fact mem later (releases.mem_before (Or.inl inSent))
  · intro fact mem waiting inQueue
    rw [released] at mem
    rcases List.mem_append.mp mem with older | new
    · exact safe.ahead fact older waiting
        (releases.mem_before (Or.inr inQueue))
    · exact releases.ahead fact new waiting inQueue
  · intro _ fact mem source sourceState known
    rw [released] at mem
    rw [states] at known
    rcases List.mem_append.mp mem with older | new
    · exact safe.covered running fact older source sourceState known
    · obtain ⟨watermark, marked, above⟩ := mergeFrontier_le found known
      exact ⟨watermark, marked, le_trans (releases.safe fact new) above⟩
  · intro notClosed
    rcases releases.outcome with ⟨_, moved, _⟩ | ⟨closed, _⟩
    · rw [accepted, released, List.append_assoc]
      exact kept.trans (moved.append_left before.released)
    · exact absurd closed notClosed
  · intro finished
    rcases releases.outcome with ⟨same, _⟩ | ⟨closed, _⟩
    · rw [same, running] at finished
      cases finished
    · rw [closed] at finished
      cases finished

theorem Safe.releaseSafe (safe : Safe feed state)
    (running : state.result = none) (order : IterationOrder (QueuedFact D)) :
    Safe feed (feed.releaseSafe order state) := by
  rcases releaseSafe_cases feed order state with
    ⟨_, same⟩ | ⟨frontier, sent, found, releases⟩
  · rw [same]
    exact safe
  · exact safe.releases running found releases

theorem Safe.settle (safe : Safe feed state) :
    Safe feed (settle state) := by
  rcases settle_cases state with
    ⟨same, _⟩ | ⟨running, states, error, failed⟩ | ⟨running, empty, done⟩
  · rw [same]
    exact safe
  · rw [failed]
    exact safe.failed running states error
  · rw [done]
    exact ⟨safe.sorted, safe.ahead, (fun no => nomatch no),
      fun _ => safe.kept (by simp [running]), fun _ => empty⟩

theorem Safe.step
    {state : MergeState D} (safe : Safe feed state) (event : MergeEvent D) :
    Safe feed (feed.step state event) := by
  unfold MergedFeed.step
  cases running : state.result with
  | some result => exact safe
  | none =>
      apply Safe.settle
      rcases select_cases feed event.order state event.input with
        ⟨states, error, failed⟩ | ⟨middle, progress, released⟩
      · rw [failed]
        exact safe.failed running states error
      · obtain ⟨middleSafe, middleRunning, _⟩ := safe.progress running progress
        rw [released]
        exact middleSafe.releaseSafe middleRunning event.order

theorem start_safe (feed : MergedFeed D) (names : List String) :
    Safe feed (start names) := by
  unfold start
  split
  · exact ⟨List.Pairwise.nil, by simp, (fun no => nomatch no),
      fun _ => List.Perm.refl _, fun no => nomatch no⟩
  · apply Safe.settle
    exact ⟨List.Pairwise.nil, by simp, fun _ => by simp [Covered],
      fun _ => List.Perm.refl _, fun no => nomatch no⟩

/-! ## Every round is safe -/

theorem settle_released (state : MergeState D) :
    (settle state).released = state.released ∧
      (settle state).accepted = state.accepted := by
  rcases settle_cases state with
    ⟨same, _⟩ | ⟨_, states, error, failed⟩ | ⟨_, _, done⟩
  · rw [same]
    exact ⟨rfl, rfl⟩
  · rw [failed]
    exact ⟨rfl, rfl⟩
  · rw [done]
    exact ⟨rfl, rfl⟩

/-- What a round sends is at or below the least watermark of all sources when
it is sent, and what it accepts is above everything sent before. -/
def RoundSafe (feed : MergedFeed D) (state : MergeState D)
    (event : MergeEvent D) : Prop :=
  ∃ sent fresh,
    (feed.step state event).released = state.released ++ sent ∧
    (feed.step state event).accepted = state.accepted ++ fresh ∧
    (∀ fact ∈ sent, ∃ frontier,
      mergeFrontier (feed.select event.order state event.input).states =
        some frontier ∧ fact.timestampMs ≤ frontier ∧ ∀ source sourceState,
        (feed.select event.order state event.input).states.lookup source =
          some sourceState →
        ∃ watermark, sourceState.watermark = some watermark ∧
          frontier ≤ watermark) ∧
    ∀ fact ∈ fresh, ∀ earlier ∈ state.released,
      earlier.timestampMs < fact.timestampMs

theorem Progress.accepts {middle : MergeState D} {input : MergeInput D}
    (safe : Safe feed state) (running : state.result = none)
    (progress : Progress feed state input middle) :
    ∃ fresh, middle.accepted = state.accepted ++ fresh ∧
      ∀ fact ∈ fresh, ∀ earlier ∈ state.released,
        earlier.timestampMs < fact.timestampMs := by
  cases progress with
  | data source envelope sourceState known timely =>
      refine ⟨_, rfl, ?_⟩
      intro fact mem
      rw [List.mem_singleton] at mem
      subst mem
      exact (safe.covered running).accepts known timely
  | watermark source watermark sourceState known forward =>
      exact ⟨[], (List.append_nil _).symm, by simp⟩
  | eof source sourceState known =>
      exact ⟨[], (List.append_nil _).symm, by simp⟩
  | completed source sourceState known eofSeen covers =>
      exact ⟨[], (List.append_nil _).symm, by simp⟩

theorem Safe.roundSafe (safe : Safe feed state) (event : MergeEvent D) :
    feed.RoundSafe state event := by
  unfold RoundSafe MergedFeed.step
  cases running : state.result with
  | some result =>
      exact ⟨[], [], (List.append_nil _).symm, (List.append_nil _).symm,
        by simp, by simp⟩
  | none =>
      obtain ⟨sameReleased, sameAccepted⟩ :=
        settle_released (feed.select event.order state event.input)
      simp only
      rw [sameReleased, sameAccepted]
      rcases select_cases feed event.order state event.input with
        ⟨states, error, failed⟩ | ⟨middle, progress, selected⟩
      · rw [failed]
        exact ⟨[], [], (List.append_nil _).symm, (List.append_nil _).symm,
          by simp, by simp⟩
      · obtain ⟨fresh, accepted, above⟩ := progress.accepts safe running
        obtain ⟨_, _, unreleased⟩ := safe.progress running progress
        rw [selected]
        rcases releaseSafe_cases feed event.order middle with
          ⟨_, same⟩ | ⟨frontier, sent, found, releases⟩
        · rw [same]
          exact ⟨[], fresh, by rw [unreleased, List.append_nil], accepted,
            by simp, above⟩
        · have frame := releases.frame
          refine ⟨sent, fresh, ?_, ?_, ?_, above⟩
          · rw [frame, ← unreleased]
          · rw [frame]
            exact accepted
          · intro fact mem
            rw [frame]
            exact ⟨frontier, found, releases.safe fact mem,
              fun source sourceState known => mergeFrontier_le found known⟩

theorem forward_safe (feed : MergedFeed D) (names : List String)
    (events : List (MergeEvent D)) : Safe feed (feed.forward names events) :=
  Trace.run_invariant (fun _ event safe => safe.step event) events
    (start_safe feed names)

/-- A successful end releases what was accepted. -/
theorem Safe.released_perm (safe : Safe feed state)
    (finished : state.result = some (.ok ())) :
    state.released.Perm state.accepted := by
  have kept := safe.kept (by simp [finished])
  rw [safe.finished finished, List.append_nil] at kept
  exact kept.symm

/-- In every run, whatever the sources deliver and however it ends: the
released facts are sorted, with timestamps that never decrease; each was at or
below the least watermark when it was released; each fact accepted later is
above it; and when `forward` returns successfully, exactly the accepted facts
were released. -/
theorem forward_releasesSafely
    (feed : MergedFeed D) (names : List String)
    (events : List (MergeEvent D)) :
    (feed.forward names events).released.Pairwise
        (fun left right => left.timestampMs ≤ right.timestampMs) ∧
      (feed.forward names events).released.Pairwise
        (fun left right => (QueuedFact.cmp feed.format left right).isLE) ∧
      Trace.EveryStep feed.step feed.RoundSafe (start names) events ∧
      ((feed.forward names events).result = some (.ok ()) →
        (feed.forward names events).released.Perm
          (feed.forward names events).accepted) := by
  have safe := forward_safe feed names events
  refine ⟨safe.sorted.imp fun before =>
    QueuedFact.timestampMs_le_of_cmp before, safe.sorted, ?_,
    safe.released_perm⟩
  exact Trace.everyStep_of_invariant (fun _ event safe => safe.step event)
    (fun _ event safe => safe.roundSafe event) (start_safe feed names)

end MergedFeed

end Pmkit
