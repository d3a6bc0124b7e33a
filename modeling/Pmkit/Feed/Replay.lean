import Pmkit.Feed.Safety
import Pmkit.Store.Envelopes
import Pmkit.Tape.EventJson

/-!
# Storing what the merge releases

A run stores each Polymarket fact it takes from the merge.  A replay reads the
rows back by replay key, in which the market of a fact comes before its stream;
the merge orders by the stream alone.
-/

namespace Pmkit

open MachineInt

variable {D : Type}

section Storing

variable (text : StoreText) (format : EventFormat D) (scope : OwnerScope)

/-- What `store_signal` takes from an envelope.  The ingest sequence is in the
range of the column when the envelope is stored. -/
def storedEnvelope (metadata : StreamMetadata) (rawFrame : List UInt8)
    (normalized : JsonValue) : PmEnvelope where
  schemaVersion := pmEnvelopeVersion
  scope := scope
  venueId := "polymarket"
  configHash := "runtime"
  sourceId := metadata.sourceId
  connectionId := metadata.connectionId
  sourceTimestampMs := metadata.sourceTimeMs
  canonicalSourceRank := metadata.canonicalSourceRank
  connectionEpoch := metadata.connectionEpoch
  frameSequence := metadata.frameSequence
  receiptTimestampMs := metadata.receiptTimeMs
  ingestSequence := I64.clamp metadata.ingestSequence.toNat
  rawFrame := rawFrame
  normalized := normalized

def SourceEnvelope.toStore : SourceEnvelope D → Option PmEnvelope
  | .pmMarket envelope =>
      some (storedEnvelope scope envelope.metadata envelope.rawFrame
        (marketEnvelopeJson format envelope))
  | .pmAccount envelope =>
      some (storedEnvelope scope envelope.metadata envelope.rawFrame
        (accountEnvelopeJson format envelope))
  | .cexReference _ => none

/-- `store_signal` of a run with a store. -/
def storeSignal (table : EnvelopeTable) :
    SourceSignal D → Except TapeStoreError EnvelopeTable
  | .data envelope =>
      match envelope.toStore format scope with
      | none => .ok table
      | some stored =>
          if I64.maxValue.1 < envelope.metadata.ingestSequence.toNat then
            .error (.storage "PM ingest sequence exceeds storage range")
          else
            table.storeEnvelope text stored
  | .watermark _ => .ok table
  | .eof => .ok table

def storeReleased (table : EnvelopeTable) :
    List (QueuedFact D) → Except TapeStoreError EnvelopeTable
  | [] => .ok table
  | fact :: rest =>
      match storeSignal text format scope table (.data fact.fact.source) with
      | .ok stored => storeReleased stored rest
      | .error error => .error error

def SourceEnvelope.row (envelope : SourceEnvelope D) : Option EnvelopeRow :=
  (envelope.toStore format scope).map (EnvelopeRow.ofEnvelope text)

variable {text format scope}

theorem storeSignal_rows
    {table stored : EnvelopeTable} {envelope : SourceEnvelope D}
    (stores : storeSignal text format scope table (.data envelope) =
      .ok stored) :
    stored.rows = table.rows ++ (envelope.row text format scope).toList := by
  simp only [storeSignal] at stores
  unfold SourceEnvelope.row
  cases found : envelope.toStore format scope with
  | none =>
      rw [found] at stores
      cases stores
      simp
  | some toStore =>
      rw [found] at stores
      simp only at stores
      split at stores
      · cases stores
      · exact EnvelopeTable.storeEnvelope_eq_ok stores

/-- The rows of the facts are added in the order the facts are taken. -/
theorem storeReleased_rows
    {table stored : EnvelopeTable} {facts : List (QueuedFact D)}
    (stores : storeReleased text format scope table facts = .ok stored) :
    stored.rows = table.rows ++ facts.filterMap fun fact =>
      fact.fact.source.row text format scope := by
  induction facts generalizing table with
  | nil =>
      cases stores
      simp
  | cons fact rest ih =>
      rw [storeReleased] at stores
      split at stores
      · rename_i middle storesFirst
        rw [ih stores, storeSignal_rows storesFirst, List.append_assoc]
        congr 1
        cases first : fact.fact.source.row text format scope with
        | none => simp [first]
        | some row => simp [first]
      · cases stores

end Storing

/-! ## The two keys of a stored fact -/

@[simp]
theorem QueuedFact.ofEnvelope_source
    (source : String) (envelope : SourceEnvelope D) :
    (QueuedFact.ofEnvelope source envelope).fact.source = envelope := rfl

namespace SourceEnvelope

def marketKey : SourceEnvelope D → String
  | .pmMarket envelope => envelope.fact.marketKey
  | .pmAccount envelope =>
      match envelope.fact.marketOutcome with
      | some (market, _) => market.value
      | none => ""
  | .cexReference _ => ""

def streamId : SourceEnvelope D → String
  | .pmMarket envelope => marketStreamId envelope
  | .pmAccount envelope => "account:" ++ envelope.portfolio.value
  | .cexReference _ => ""

variable {text : StoreText} {format : EventFormat D} {scope : OwnerScope}

theorem canonicalMarketId_market (envelope : PmMarketEnvelope D) :
    (storedEnvelope scope envelope.metadata envelope.rawFrame
      (marketEnvelopeJson format envelope)).canonicalMarketId =
        envelope.fact.marketKey := by
  cases fact : envelope.fact <;>
    simp only [PmEnvelope.canonicalMarketId, storedEnvelope,
      marketEnvelopeJson, fact] <;>
    rfl

theorem canonicalMarketId_account (envelope : PmAccountEnvelope D) :
    (storedEnvelope scope envelope.metadata envelope.rawFrame
      (accountEnvelopeJson format envelope)).canonicalMarketId =
        (SourceEnvelope.pmAccount envelope).marketKey := by
  cases fact : envelope.fact <;>
    simp only [PmEnvelope.canonicalMarketId, storedEnvelope,
      accountEnvelopeJson, marketKey, fact] <;>
    rfl

theorem canonicalStreamId_account (envelope : PmAccountEnvelope D) :
    (storedEnvelope scope envelope.metadata envelope.rawFrame
      (accountEnvelopeJson format envelope)).canonicalStreamId text =
        "account:" ++ envelope.portfolio.value :=
  rfl

theorem canonicalStreamId_market (envelope : PmMarketEnvelope D) :
    (storedEnvelope scope envelope.metadata envelope.rawFrame
      (marketEnvelopeJson format envelope)).canonicalStreamId text =
        marketStreamId envelope := by
  have market : (storedEnvelope scope envelope.metadata envelope.rawFrame
      (marketEnvelopeJson format envelope)).canonicalMarketId =
        envelope.fact.marketKey := canonicalMarketId_market envelope
  have shape : (storedEnvelope scope envelope.metadata envelope.rawFrame
      (marketEnvelopeJson format envelope)).canonicalStreamId text =
        if envelope.fact.marketKey = "" then
          "market-source:" ++ envelope.metadata.sourceId
        else
          "market:" ++ envelope.fact.marketKey ++ ":" ++
            ((((eventJson format envelope.fact).pointer ["outcome"]).bind
              JsonValue.asStr).map text.toLowercase).getD "unknown" := by
    rw [← market]
    rfl
  rw [shape, JsonValue.pointer_singleton, eventJson_outcome]
  unfold marketStreamId MarketEvent.marketKey
  cases about : envelope.fact.marketOutcome with
  | none => simp
  | some pair =>
      simp [JsonValue.asStr, Id.value_ne_empty, text.toLowercase_display]

theorem row_key {envelope : SourceEnvelope D} {row : EnvelopeRow}
    (stored : envelope.row text format scope = some row) :
    row.scope = scope ∧
      row.key =
        { sourceTimestampMs := envelope.metadata.sourceTimeMs
          canonicalSourceRank := envelope.metadata.canonicalSourceRank
          canonicalMarketId := envelope.marketKey
          streamId := envelope.streamId
          connectionEpoch := envelope.metadata.connectionEpoch
          frameSequence := envelope.metadata.frameSequence } := by
  cases envelope with
  | pmMarket envelope =>
      cases stored
      refine ⟨rfl, ?_⟩
      simp only [EnvelopeRow.ofEnvelope, canonicalMarketId_market,
        canonicalStreamId_market]
      rfl
  | pmAccount envelope =>
      cases stored
      refine ⟨rfl, ?_⟩
      simp only [EnvelopeRow.ofEnvelope, canonicalMarketId_account,
        canonicalStreamId_account]
      rfl
  | cexReference envelope =>
      cases stored

theorem cmp_of_row
    {first second : SourceEnvelope D} {firstRow secondRow : EnvelopeRow}
    (firstStored : first.row text format scope = some firstRow)
    (secondStored : second.row text format scope = some secondRow)
    (firstSource secondSource : String) :
    QueuedFact.cmp format (.ofEnvelope firstSource first)
        (.ofEnvelope secondSource second) =
      ((((compare first.metadata.sourceTimeMs second.metadata.sourceTimeMs).then
        (compare first.metadata.canonicalSourceRank
          second.metadata.canonicalSourceRank)).then
        (CanonicalSourceKey.comparePm
          (first.streamId, first.metadata.connectionEpoch,
            first.metadata.frameSequence)
          (second.streamId, second.metadata.connectionEpoch,
            second.metadata.frameSequence))).then
        (comparePmEnvelopes format first second)) := by
  cases first with
  | cexReference envelope => cases firstStored
  | pmMarket firstEnvelope =>
      cases second with
      | cexReference envelope => cases secondStored
      | pmMarket secondEnvelope => rfl
      | pmAccount secondEnvelope => rfl
  | pmAccount firstEnvelope =>
      cases second with
      | cexReference envelope => cases secondStored
      | pmMarket secondEnvelope => rfl
      | pmAccount secondEnvelope => rfl

end SourceEnvelope

/-- Every fact in the merge is the fact of an envelope that a source
delivered. -/
def Delivered (state : MergeState D) : Prop :=
  ∀ fact, fact ∈ state.released ∨ fact ∈ state.queued →
    ∃ source envelope, fact = .ofEnvelope source envelope

namespace MergedFeed

variable {feed : MergedFeed D}

variable {state : MergeState D}

theorem Progress.delivered {middle : MergeState D} {input : MergeInput D}
    (delivered : Delivered state)
    (progress : Progress feed state input middle) : Delivered middle := by
  cases progress with
  | data source envelope sourceState known timely =>
      rintro fact (out | waiting)
      · exact delivered fact (Or.inl out)
      · rcases List.mem_append.mp waiting with older | new
        · exact delivered fact (Or.inr older)
        · exact ⟨source, envelope, List.mem_singleton.mp new⟩
  | watermark source watermark sourceState known forward => exact delivered
  | eof source sourceState known => exact delivered
  | completed source sourceState known eofSeen covers => exact delivered

theorem releaseSafe_delivered (delivered : Delivered state)
    (order : IterationOrder (QueuedFact D)) :
    Delivered (feed.releaseSafe order state) := by
  rcases releaseSafe_cases feed order state with
    ⟨_, same⟩ | ⟨frontier, sent, _, releases⟩
  · rw [same]
    exact delivered
  · have released : (feed.releaseSafe order state).released =
        state.released ++ sent := by
      rw [releases.frame]
    rintro fact (out | waiting)
    · rw [released] at out
      rcases List.mem_append.mp out with older | new
      · exact delivered fact (Or.inl older)
      · exact delivered fact (Or.inr (releases.mem_before (Or.inl new)))
    · exact delivered fact (Or.inr (releases.mem_before (Or.inr waiting)))

theorem settle_delivered (delivered : Delivered state) :
    Delivered (settle state) := by
  rcases settle_cases state with
    ⟨same, _⟩ | ⟨_, states, error, failed⟩ | ⟨_, _, done⟩
  · rw [same]
    exact delivered
  · rw [failed]
    exact delivered
  · rw [done]
    exact delivered

theorem step_delivered (delivered : Delivered state)
    (event : MergeEvent D) : Delivered (feed.step state event) := by
  unfold MergedFeed.step
  cases state.result with
  | some result => exact delivered
  | none =>
      apply settle_delivered
      rcases select_cases feed event.order state event.input with
        ⟨states, error, failed⟩ | ⟨middle, progress, selected⟩
      · rw [failed]
        exact delivered
      · rw [selected]
        exact releaseSafe_delivered (progress.delivered delivered) event.order

theorem start_delivered (names : List String) :
    Delivered (start names : MergeState D) := by
  unfold start
  split
  · simp [Delivered]
  · apply settle_delivered
    simp [Delivered]

theorem forward_delivered (feed : MergedFeed D) (names : List String)
    (events : List (MergeEvent D)) :
    Delivered (feed.forward names events) := by
  have preserved : ∀ (state : MergeState D) event,
      Delivered state → Delivered (feed.step state event) :=
    fun _ event delivered => step_delivered delivered event
  exact Trace.run_invariant preserved events (start_delivered names)

end MergedFeed

/-! ## Replay order -/

/-- A comparison put in front of another one decides before it. -/
theorem then_eq_lt_iff_of_inserted {first inserted rest last : Ordering}
    (ordered : ((first.then rest).then last).isLE)
    (separated : (first.then inserted).then rest ≠ .eq) :
    (first.then inserted).then rest = .lt ↔
      (first = .eq → inserted.isLE) := by
  cases first with
  | lt => simp
  | gt => simp at ordered
  | eq =>
      cases inserted with
      | lt => simp
      | gt => simp
      | eq =>
          cases rest with
          | lt => simp
          | gt => simp at ordered
          | eq => simp at separated

def MarketsInOrder (first second : SourceEnvelope D) : Prop :=
  first.metadata.sourceTimeMs = second.metadata.sourceTimeMs →
    first.metadata.canonicalSourceRank = second.metadata.canonicalSourceRank →
      first.marketKey ≤ second.marketKey

/-- Of the facts that a run took from the merge and stored, two are replayed in
the order they were released just when their markets are in that order. -/
theorem replaysAsReleased_iff
    (feed : MergedFeed D) (names : List String) (events : List (MergeEvent D))
    (text : StoreText) (scope : OwnerScope) {table stored : EnvelopeTable}
    {taken : List (QueuedFact D)}
    (released : taken <+: (feed.forward names events).released)
    (stores : storeReleased text feed.format scope table taken = .ok stored)
    {first second : QueuedFact D} (before : [first, second].Sublist taken)
    {firstRow secondRow : EnvelopeRow}
    (firstStored :
      first.fact.source.row text feed.format scope = some firstRow)
    (secondStored :
      second.fact.source.row text feed.format scope = some secondRow)
    {after : Option ReplayKey} {limit : ℕ+}
    (firstRead : firstRow ∈ stored.readRows scope after limit)
    (secondRead : secondRow ∈ stored.readRows scope after limit) :
    [firstRow, secondRow].Sublist (stored.readRows scope after limit) ↔
      MarketsInOrder first.fact.source second.fact.source := by
  have rows : [firstRow, secondRow].Sublist stored.rows := by
    rw [storeReleased_rows stores]
    refine List.Sublist.trans ?_ (List.sublist_append_right _ _)
    have mapped := before.filterMap fun fact : QueuedFact D =>
      fact.fact.source.row text feed.format scope
    simpa [firstStored, secondStored] using mapped
  have inReleased : [first, second].Sublist
      (feed.forward names events).released :=
    before.trans released.sublist
  have ordered : (QueuedFact.cmp feed.format first second).isLE := by
    have pair := List.Pairwise.sublist inReleased
      (MergedFeed.forward_safe feed names events).sorted
    simpa using pair
  have delivered := MergedFeed.forward_delivered feed names events
  obtain ⟨firstSource, firstEnvelope, rfl⟩ := delivered first
    (Or.inl (inReleased.subset (by simp)))
  obtain ⟨secondSource, secondEnvelope, rfl⟩ := delivered second
    (Or.inl (inReleased.subset (by simp)))
  simp only [QueuedFact.ofEnvelope_source] at firstStored secondStored ⊢
  obtain ⟨firstScope, firstKey⟩ := SourceEnvelope.row_key firstStored
  obtain ⟨secondScope, secondKey⟩ := SourceEnvelope.row_key secondStored
  have sameScope : firstRow.scope = secondRow.scope :=
    firstScope.trans secondScope.symm
  have separated := EnvelopeTable.cmp_ne_eq rows sameScope
  rw [SourceEnvelope.cmp_of_row firstStored secondStored] at ordered
  rw [EnvelopeTable.pair_sublist_readRows_iff rows sameScope firstRead
    secondRead]
  rw [firstKey, secondKey] at separated ⊢
  refine (then_eq_lt_iff_of_inserted ordered separated).trans ?_
  simp only [Ordering.then_eq_eq, compareOn, compare_eq_iff_eq,
    Ordering.isLE_iff_ne_gt, compare_gt_iff_gt, not_lt, MarketsInOrder,
    and_imp]

namespace ReplaySample

mutual

/-- The compact text of a value with nothing to escape, keys sorted. -/
def compact : JsonValue → String
  | .null => "null"
  | .bool value => toString value
  | .number value => toString value
  | .real bits => toString bits
  | .string value => "\"" ++ value ++ "\""
  | .array items => "[" ++ ",".intercalate (compactItems items) ++ "]"
  | .object fields =>
      "\x7b" ++ ",".intercalate ((Table.orderBy (compareOn Prod.fst)
        (compactFields fields)).map Prod.snd) ++ "\x7d"

def compactItems : List JsonValue → List String
  | [] => []
  | item :: rest => compact item :: compactItems rest

def compactFields : List (String × JsonValue) → List (String × String)
  | [] => []
  | (key, value) :: rest =>
      (key, "\"" ++ key ++ "\":" ++ compact value) :: compactFields rest

end

def scope : OwnerScope where
  portfolioId := ⟨"desk", by decide⟩
  runId := ⟨"tape", by decide⟩

def marketA : MarketId := ⟨"a", by decide⟩

def marketAX : MarketId := ⟨"a-x", by decide⟩

def marketB : MarketId := ⟨"b", by decide⟩

def feed : MergedFeed Decimal where
  mode := .live
  replayEndMs := none
  format := { value := id, text := toString, debug := id }
  sink := fun _ => true

/-- The empty book of a market, always with the same frame coordinates. -/
def book (market : MarketId) : PmMarketEnvelope Decimal where
  metadata :=
    { schemaVersion := 6
      sourceId := "polymarket"
      sourceTimeMs := 5
      canonicalSourceRank := 0
      receiptTimeMs := 5
      connectionId := "connection"
      connectionEpoch := 1
      frameSequence := 1
      ingestSequence := 1 }
  rawFrame := []
  fact := .bookUpdate market .up [] [] 5

def json (market : MarketId) : JsonValue :=
  marketEnvelopeJson feed.format (book market)

/-- The digests of the empty frame and of the three texts. -/
def text : StoreText where
  sha256Hex := fun bytes =>
    if bytes = [] then
      "e3b0c44298fc1c149afbf4c8996fb92427ae41e4649b934ca495991b7852b855"
    else if bytes = (compact (json marketA)).toUTF8.toList then
      "337a042a7a644dac92be9510aa6d12935c324bd883a11e0152033d98812a5825"
    else if bytes = (compact (json marketAX)).toUTF8.toList then
      "9b2071f00700b64b7be31d41f79cbf228dec3b89460094f03fed722f8073fa6b"
    else
      "a28abb82a60f596caf60d4e90efc6f5bd389849449f3f52af03924afd663ec9d"
  writeJson := compact
  parseJson := fun written =>
    [json marketA, json marketAX, json marketB].find? fun value =>
      compact value = written
  toLowercase := String.toLower
  toLowercase_display := toLower_display

def fact (market : MarketId) : QueuedFact Decimal :=
  .ofEnvelope "pm" (.pmMarket (book market))

def row (market : MarketId) : EnvelopeRow :=
  .ofEnvelope text (storedEnvelope scope (book market).metadata [] (json market))

/-- Two books of one moment, and the watermark that releases them. -/
def arrivals (first second : MarketId) : List (MergeEvent Decimal) :=
  [.signal "pm" (.data (.pmMarket (book first))),
    .signal "pm" (.data (.pmMarket (book second))),
    .signal "pm" (.watermark 5)].map fun input =>
      { input := input, order := .stored _ }

def released (first second : MarketId) : List (QueuedFact Decimal) :=
  (feed.forward ["pm"] (arrivals first second)).released

end ReplaySample

open ReplaySample

/-- Markets "a" and "b" are replayed as they were released. -/
theorem separateMarkets_replayed :
    ∃ stored, storeReleased text feed.format scope .empty
        (released marketA marketB) = .ok stored ∧
      [row marketA, row marketB].Sublist (stored.readRows scope none 256) := by
  have order : released marketA marketB = [fact marketA, fact marketB] := by
    decide +kernel
  have stores : (storeReleased text feed.format scope .empty
      (released marketA marketB)).isOk = true := by
    decide +kernel
  cases ran : storeReleased text feed.format scope .empty
      (released marketA marketB) with
  | error error =>
      rw [ran] at stores
      cases stores
  | ok stored =>
      have rows : stored.rows = [row marketA, row marketB] := by
        rw [storeReleased_rows ran, order]
        rfl
      have read : ∀ market, row market ∈ stored.rows →
          row market ∈ stored.readRows scope none 256 := by
        intro market member
        exact EnvelopeTable.mem_readRows member (by rw [rows]; decide)
      have both : [fact marketA, fact marketB].Sublist
          (released marketA marketB) := by
        rw [order]
      refine ⟨stored, rfl, (replaysAsReleased_iff feed ["pm"]
        (arrivals marketA marketB) text scope (List.prefix_refl _) ran
        both rfl rfl (read marketA (by simp [rows]))
        (read marketB (by simp [rows]))).mpr ?_⟩
      intro _ _
      decide +kernel

/-- The stream of market "a-x" comes before that of market "a", but market "a"
comes first. -/
theorem extendedMarket_reordered :
    released marketA marketAX = [fact marketAX, fact marketA] ∧
      (storeReleased text feed.format scope .empty
        (released marketA marketAX)).toOption.map (fun stored =>
          (stored.readRows scope none 256).map fun row =>
            row.key.canonicalMarketId) = some ["a", "a-x"] := by
  decide +kernel

end Pmkit
