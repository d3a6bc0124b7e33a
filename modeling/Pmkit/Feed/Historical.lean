import Pmkit.Feed.Safety
import Pmkit.Library.JsonText
import Pmkit.Store.Paging

/-!
# Replaying stored frames into a backtest

The historical source reads the frames of a scope page by page, sends those of
its window and then says that the stream ended.  It never sends a watermark, so
the merge of a backtest has no frontier: it holds every fact back and ends with
an error.
-/

namespace Pmkit

open MachineInt

/-! ## The source -/

/-- The part of a replay request that this source reads. -/
structure ReplayQuery where
  markets : List MarketId
  fromMs : I64
  toMs : I64

/-- A source over a store, for the tokens of one market.  The parser of raw
frames is that of the venue's client library. -/
structure PolymarketHistoricalData (D : Type) where
  text : StoreText
  table : EnvelopeTable
  scope : OwnerScope
  market : MarketId
  parseMarketFrame : List UInt8 → Except DataSourceError (MarketEvent D)

structure Replayed (D : Type) where
  sent : List (SourceSignal D)
  result : Except DataSourceError Unit

def Replayed.ofLoop {D : Type} :
    Except (Replayed D) (List (SourceSignal D)) → Replayed D
  | .error returned => returned
  | .ok sent => ⟨sent ++ [.eof], .ok ()⟩

namespace PolymarketHistoricalData

variable {D : Type} (source : PolymarketHistoricalData D)

def dataSignal (envelope : PmEnvelope) (event : MarketEvent D) :
    SourceEnvelope D :=
  .pmMarket
    { metadata :=
        { schemaVersion := envelope.schemaVersion
          sourceId := envelope.sourceId
          sourceTimeMs := envelope.sourceTimestampMs
          canonicalSourceRank := envelope.canonicalSourceRank
          receiptTimeMs := envelope.receiptTimestampMs
          connectionId := envelope.connectionId
          connectionEpoch := envelope.connectionEpoch
          frameSequence := envelope.frameSequence
          ingestSequence := UInt64.ofNat envelope.ingestSequence.1.toNat }
      rawFrame := envelope.rawFrame
      fact := event }

/-- What the loop does with an item: it goes on with the signals sent so far,
or it returns. -/
def replayItem (query : ReplayQuery) (sent : List (SourceSignal D)) :
    ReplayItem → Except (Replayed D) (List (SourceSignal D))
  | .envelope envelope =>
      if envelope.sourceTimestampMs < query.fromMs then
        .ok sent
      else if query.toMs ≤ envelope.sourceTimestampMs then
        .error ⟨sent ++ [.eof], .ok ()⟩
      else
        match source.parseMarketFrame envelope.rawFrame with
        | .error error => .error ⟨sent, .error error⟩
        | .ok event =>
            if envelope.ingestSequence.1 < 0 then
              .error ⟨sent, .error
                (.replayGap "ingest sequence exceeds replay range")⟩
            else
              .ok (sent ++ [.data (dataSignal envelope event)])
  | .gap gap =>
      .error ⟨sent, .error (.replayGap
        ("replay gap at source_time=" ++ toString gap.sourceTimestampMs.1 ++
          " ingest_sequence=" ++ toString gap.ingestSequence.1))⟩

def storeErrorText : TapeStoreError → String
  | .storage message => "storage failed: " ++ message
  | .duplicateSourceIdentity => "source identity already exists"
  | .scopeMismatch => "replay cursor belongs to another owner scope"
  | .limitTooLarge => "requested page size exceeds SQLite's signed limit"

/-- `replay` while the merge takes its signals. -/
def replay (query : ReplayQuery) : Replayed D :=
  if source.market ∈ query.markets then
    .ofLoop (source.table.forAll source.text source.scope 256
      (fun sent error => ⟨sent, .error (.replayGap (storeErrorText error))⟩)
      (source.replayItem query) [])
  else
    ⟨[.eof], .ok ()⟩

/-- What the merge sees of the source: its signals and its return. -/
def inputs (query : ReplayQuery) : List (MergeInput D) :=
  (source.replay query).sent.map (.signal "pm") ++
    [.joined "pm" (source.replay query).result]

def backtestFeed (query : ReplayQuery) (format : EventFormat D)
    (sink : Nat → Bool) : MergedFeed D where
  mode := .backtest
  replayEndMs := some query.toMs
  format := format
  sink := sink

def storedFacts (query : ReplayQuery) : List (QueuedFact D) :=
  (source.table.scopeRows source.scope).filterMap fun row =>
    match decodeRow source.text row with
    | .gap _ => none
    | .envelope envelope =>
        if query.fromMs ≤ envelope.sourceTimestampMs ∧
            envelope.sourceTimestampMs < query.toMs then
          (source.parseMarketFrame envelope.rawFrame).toOption.map fun event =>
            .ofEnvelope "pm" (dataSignal envelope event)
        else
          none

/-- The merge succeeds and releases the stored facts of the window, each once
and in order. -/
def Backtested (query : ReplayQuery) (feed : MergedFeed D)
    (events : List (MergeEvent D)) : Prop :=
  (feed.forward ["pm"] events).result = some (.ok ()) ∧
    (feed.forward ["pm"] events).released.Perm (source.storedFacts query) ∧
    (feed.forward ["pm"] events).released.Pairwise fun left right =>
      (QueuedFact.cmp feed.format left right).isLE

def SendsNo (watermark : I64) :
    Except (Replayed D) (List (SourceSignal D)) → Prop
  | .ok next => .watermark watermark ∉ next
  | .error returned => .watermark watermark ∉ returned.sent

/-- An item adds facts and the end of the stream, never a watermark. -/
theorem replayItem_sendsNo
    {query : ReplayQuery} {sent : List (SourceSignal D)} {watermark : I64}
    (before : .watermark watermark ∉ sent) (item : ReplayItem) :
    SendsNo watermark (source.replayItem query sent item) := by
  cases item with
  | gap gap =>
      exact before
  | envelope envelope =>
      simp only [replayItem]
      split
      · exact before
      · split
        · simpa [SendsNo] using before
        · split
          · exact before
          · split
            · exact before
            · simpa [SendsNo] using before

theorem replayItems_sendsNo
    {query : ReplayQuery} {sent : List (SourceSignal D)} {watermark : I64}
    (before : .watermark watermark ∉ sent) (items : List ReplayItem) :
    SendsNo watermark (items.foldlM (source.replayItem query) sent) := by
  induction items generalizing sent with
  | nil =>
      exact before
  | cons item rest ih =>
      have handled := @replayItem_sendsNo D source query sent watermark
        before item
      rw [List.foldlM_cons]
      cases found : source.replayItem query sent item with
      | error returned =>
          rw [found] at handled
          exact handled
      | ok next =>
          rw [found] at handled
          exact ih handled

theorem replay_watermark (query : ReplayQuery) (watermark : I64) :
    .watermark watermark ∉ (source.replay query).sent := by
  unfold replay
  split
  · rw [EnvelopeTable.forAll_eq (by decide)]
    have handled := @replayItems_sendsNo D source query [] watermark
      List.not_mem_nil ((source.table.scopeRows source.scope).map
        (decodeRow source.text))
    cases looped : ((source.table.scopeRows source.scope).map
        (decodeRow source.text)).foldlM (source.replayItem query) [] with
    | error returned =>
        rw [looped] at handled
        exact handled
    | ok sent =>
        rw [looped] at handled
        simpa [SendsNo, Replayed.ofLoop] using handled
  · simp

end PolymarketHistoricalData

/-! ## A merge without watermarks -/

section Merge

variable {D : Type}

/-- One source has promised nothing, so nothing was released, and the merge did
not succeed. -/
structure Unwarmed (name : String) (state : MergeState D) : Prop where
  released : state.released = []
  result : state.result ≠ some (.ok ())
  waiting : state.result = none → ∃ sourceState,
    state.states.lookup name = some sourceState ∧
      sourceState.watermark = none

namespace Unwarmed

variable {name : String} {state : MergeState D}

variable {states : KeyedMap String SourceState}

/-- Without its promise there is no frontier. -/
theorem frontier_eq_none {sourceState : SourceState}
    (known : states.lookup name = some sourceState)
    (unmarked : sourceState.watermark = none) : mergeFrontier states = none := by
  cases found : mergeFrontier states with
  | none => rfl
  | some frontier =>
      obtain ⟨watermark, marked, _⟩ := mergeFrontier_le found known
      rw [unmarked] at marked
      cases marked

/-- The states stay without its promise when a source learns nothing but a
fact or its end. -/
theorem lookup_insert {source : String} {before after : SourceState}
    (changed : states.lookup source = some before)
    (same : after.watermark = before.watermark)
    (waiting : ∃ sourceState, states.lookup name = some sourceState ∧
      sourceState.watermark = none) :
    ∃ sourceState, (states.insert source after).lookup name =
        some sourceState ∧ sourceState.watermark = none := by
  obtain ⟨sourceState, known, unmarked⟩ := waiting
  by_cases own : name = source
  · subst own
    rw [changed] at known
    cases known
    exact ⟨after, by rw [KeyedMap.lookup_insert_eq, if_pos rfl],
      same.trans unmarked⟩
  · exact ⟨sourceState, by rw [KeyedMap.lookup_insert_eq, if_neg own, known],
      unmarked⟩

/-- A branch that is not a watermark of the source keeps it waiting. -/
theorem progress {feed : MergedFeed D} {input : MergeInput D}
    {middle : MergeState D} (unwarmed : Unwarmed name state)
    (running : state.result = none)
    (silent : ∀ source watermark, input ≠ .signal source (.watermark watermark))
    (progress : MergedFeed.Progress feed state input middle) :
    Unwarmed name middle ∧ middle.result = none := by
  have waiting := unwarmed.waiting running
  cases progress with
  | data source envelope sourceState known timely =>
      exact ⟨⟨unwarmed.released, unwarmed.result, fun _ =>
        lookup_insert known rfl waiting⟩, running⟩
  | watermark source watermark sourceState known forward =>
      exact absurd rfl (silent source watermark)
  | eof source sourceState known =>
      exact ⟨⟨unwarmed.released, unwarmed.result, fun _ =>
        lookup_insert known rfl waiting⟩, running⟩
  | completed source sourceState known eofSeen covers =>
      exact ⟨⟨unwarmed.released, unwarmed.result, fun _ => waiting⟩, running⟩

/-- An error ends the merge. -/
theorem failed (unwarmed : Unwarmed name state)
    (states : KeyedMap String SourceState) (error : DataSourceError) :
    Unwarmed name
      { state with states := states, result := some (.error error) } where
  released := unwarmed.released
  result := by simp
  waiting := by simp

/-- Whenever the loop ends, it ends with an error. -/
theorem settle (unwarmed : Unwarmed name state) :
    Unwarmed name (MergedFeed.settle state) := by
  unfold MergedFeed.settle
  split
  · exact unwarmed
  · rename_i stops
    have running : state.result = none := by
      simpa using fun isSome => stops (Or.inl isSome)
    split
    · exact unwarmed.failed _ _
    · split
      · exact unwarmed.failed _ _
      · rename_i warm
        obtain ⟨sourceState, known, unmarked⟩ := unwarmed.waiting running
        have mem : sourceState ∈ state.states.values :=
          KeyedMap.mem_values.mpr ⟨name, known⟩
        exact absurd (List.any_eq_true.mpr
          ⟨sourceState, mem, by rw [unmarked]; rfl⟩) warm

/-- A round of the loop. -/
theorem step {feed : MergedFeed D} (unwarmed : Unwarmed name state)
    {event : MergeEvent D}
    (silent : ∀ source watermark,
      event.input ≠ .signal source (.watermark watermark)) :
    Unwarmed name (feed.step state event) := by
  unfold MergedFeed.step
  cases running : state.result with
  | some result => exact unwarmed
  | none =>
      apply settle
      rcases MergedFeed.select_cases feed event.order state event.input with
        ⟨states, error, failed⟩ | ⟨middle, progress, released⟩
      · rw [failed]
        exact unwarmed.failed states error
      · rw [released]
        obtain ⟨kept, goesOn⟩ := unwarmed.progress running silent progress
        obtain ⟨sourceState, known, unmarked⟩ := kept.waiting goesOn
        rcases MergedFeed.releaseSafe_cases feed event.order middle with
          ⟨_, same⟩ | ⟨frontier, sent, found, _⟩
        · rw [same]
          exact kept
        · rw [frontier_eq_none known unmarked] at found
          cases found

/-- A merge of one source starts without its promise. -/
theorem start (name : String) :
    Unwarmed name (MergedFeed.start [name] : MergeState D) := by
  apply settle
  refine ⟨rfl, by simp, fun _ => ⟨.default, ?_, rfl⟩⟩
  show ((∅ : KeyedMap String SourceState).insert name .default).lookup name = _
  rw [KeyedMap.lookup_insert_eq, if_pos rfl]

/-- A run in which nothing is promised. -/
theorem run {feed : MergedFeed D} {events : List (MergeEvent D)}
    (unwarmed : Unwarmed name state)
    (silent : ∀ event ∈ events, ∀ source watermark,
      event.input ≠ .signal source (.watermark watermark)) :
    Unwarmed name (Trace.run feed.step state events) := by
  induction events generalizing state with
  | nil =>
      exact unwarmed
  | cons event rest ih =>
      exact ih
        (unwarmed.step (silent event List.mem_cons_self))
        (fun other mem => silent other (List.mem_cons_of_mem _ mem))

end Unwarmed

end Merge

namespace PolymarketHistoricalData

variable {D : Type}

/-- However the merge selects the inputs of the source, it does not finish. -/
theorem not_backtested
    (source : PolymarketHistoricalData D) (query : ReplayQuery)
    (format : EventFormat D) (sink : Nat → Bool)
    (events : List (MergeEvent D))
    (selected : ∀ event ∈ events, event.input ∈ source.inputs query) :
    ¬ source.Backtested query (backtestFeed query format sink) events := by
  rintro ⟨finished, _⟩
  refine (Unwarmed.run (Unwarmed.start "pm") ?_).result finished
  intro event member name watermark same
  have input := selected event member
  rw [same, inputs, List.mem_append] at input
  rcases input with signal | joined
  · obtain ⟨sent, inside, equal⟩ := List.mem_map.mp signal
    cases equal
    exact source.replay_watermark query watermark inside
  · rw [List.mem_singleton] at joined
    cases joined

end PolymarketHistoricalData

namespace HistoricalSample

open JsonValue

def market : MarketId := ⟨"sol-5m", by decide⟩

def normalized : JsonValue :=
  .object [("kind", .string "book_update")]

def frame : String :=
  "\x7b\"asset_id\":\"1\",\"market\":\"0x" ++
    "0000000000000000000000000000000000000000000000000000000000000001" ++
    "\",\"timestamp\":\"42\",\"bids\":[\x7b\"price\":\"0.49\"," ++
    "\"size\":\"2\"\x7d],\"asks\":[\x7b\"price\":\"0.51\"," ++
    "\"size\":\"3\"\x7d]\x7d"

def text : StoreText where
  sha256Hex := fun bytes =>
    if bytes = frame.toUTF8.toList then
      "3592621050182ee746e076edeff280d706a360d9c9aee55949083724e13ca30b"
    else
      "81053ae70db2c8434682f044b3a722c2b2ec28f905aa4488abf918302f52d02f"
  writeJson := compact toString sortFields
  parseJson := fun written =>
    if written = compact toString sortFields normalized then
      some normalized
    else
      none
  toLowercase := String.toLower
  toLowercase_display := toLower_display

def scope : OwnerScope where
  portfolioId := ⟨"alice", by decide⟩
  runId := ⟨"historical", by decide⟩

def envelope : PmEnvelope where
  schemaVersion := pmEnvelopeVersion
  scope := scope
  venueId := "polymarket"
  configHash := "fixture"
  sourceId := "polymarket-market"
  connectionId := "connection-1"
  sourceTimestampMs := 1735689600000
  canonicalSourceRank := 0
  connectionEpoch := 0
  frameSequence := 1
  receiptTimestampMs := 1735689600001
  ingestSequence := 1
  rawFrame := frame.toUTF8.toList
  normalized := normalized

def event : MarketEvent Decimal :=
  .bookUpdate market .up [(49 / 100, 2)] [(51 / 100, 3)] 42

def source : PolymarketHistoricalData Decimal where
  text := text
  table :=
    { rows := [.ofEnvelope text envelope]
      separated := List.pairwise_singleton _ _ }
  scope := scope
  market := market
  parseMarketFrame := fun raw =>
    if raw = frame.toUTF8.toList then
      .ok event
    else
      .error (.unavailable "frame is not a market event")

/-- The year 2025. -/
def query : ReplayQuery where
  markets := [market]
  fromMs := 1735689600000
  toMs := 1767225600000

def format : EventFormat Decimal where
  value := id
  text := toString
  debug := id

def events : List (MergeEvent Decimal) :=
  [.signal "pm" (.data (PolymarketHistoricalData.dataSignal envelope event)),
    .signal "pm" .eof, .joined "pm" (.ok ())].map fun input =>
      { input := input, order := .stored _ }

theorem decoded :
    decodeRow text (.ofEnvelope text envelope) = .envelope envelope := by
  have readBack : text.parseJson (text.writeJson envelope.normalized) =
      some envelope.normalized := by
    simp only [text, envelope, if_true]
  exact EnvelopeTable.decodeRow_ofEnvelope rfl readBack rfl

theorem inputs_eq :
    source.inputs query = events.map MergeEvent.input := by
  have rows : source.table.scopeRows source.scope =
      [.ofEnvelope text envelope] :=
    rfl
  have parsed : source.parseMarketFrame envelope.rawFrame = .ok event := by
    simp only [source, envelope, if_true]
  have handled : source.replayItem query [] (.envelope envelope) =
      .ok [.data (PolymarketHistoricalData.dataSignal envelope event)] := by
    simp only [PolymarketHistoricalData.replayItem, parsed]
    rw [if_neg (by decide), if_neg (by decide), if_neg (by decide),
      List.nil_append]
  have replayed : source.replay query =
      ⟨[.data (PolymarketHistoricalData.dataSignal envelope event), .eof],
        .ok ()⟩ := by
    rw [PolymarketHistoricalData.replay, if_pos (by decide),
      EnvelopeTable.forAll_eq (by decide), rows, List.map_cons, List.map_nil]
    show Replayed.ofLoop ([decodeRow text (.ofEnvelope text envelope)].foldlM
      (source.replayItem query) []) = _
    rw [decoded, List.foldlM_cons, handled]
    rfl
  rw [PolymarketHistoricalData.inputs, replayed]
  rfl

end HistoricalSample

open HistoricalSample

theorem not_backtested_oneBook :
    ¬ source.Backtested query
      (PolymarketHistoricalData.backtestFeed query format fun _ => true)
      events :=
  source.not_backtested query format (fun _ => true) events (by
    intro event member
    rw [inputs_eq]
    exact List.mem_map_of_mem member)

/-- One stored book of the window: the merge ends with a replay gap and has
released nothing. -/
theorem oneBook_fails :
    let feed := PolymarketHistoricalData.backtestFeed query format fun _ => true
    events.map MergeEvent.input = source.inputs query ∧
      (feed.forward ["pm"] events).result = some (.error
        (.replayGap "historical coverage ends before replay end")) ∧
      (feed.forward ["pm"] events).released = [] ∧
      ¬ source.Backtested query feed events := by
  have ended : ((PolymarketHistoricalData.backtestFeed query format fun _ =>
      true).forward ["pm"] events).result = some (.error
        (.replayGap "historical coverage ends before replay end")) := by
    rfl
  refine ⟨inputs_eq.symm, ended, rfl, ?_⟩
  rintro ⟨finished, _⟩
  rw [ended] at finished
  cases finished

end Pmkit
