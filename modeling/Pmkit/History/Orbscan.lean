import Pmkit.History.BinanceHistory
import Pmkit.Library.SortedMap

/-!
# Order-book history of single tokens

A replay reads the last snapshot of every token and the price changes behind
it page by page, keeps one book for each, and merges the books through a heap.
A watermark stands before each time that the heap goes on to.
-/

namespace Pmkit

open MachineInt

inductive OrbscanError where
  | missingApiKey
  | clientBuild
  | requestFailed
  | httpStatus (status : UInt16)
  | rateLimited
  | malformedResponse
  | repeatedCursor
  | emptyPage
  | invalidMapping (message : String)
  | malformedMarket (message : String)
  | malformedEvent (message : String)
  | missingSnapshot
  deriving DecidableEq

namespace OrbscanError

def display : OrbscanError → String
  | missingApiKey => "ORBSCAN_API_KEY is missing or blank"
  | clientBuild => "Orbscan HTTP client could not be built"
  | requestFailed => "Orbscan request failed"
  | httpStatus status => "Orbscan returned HTTP status " ++ toString status
  | rateLimited => "Orbscan rate limit exceeded (HTTP 429)"
  | malformedResponse => "Orbscan response is malformed"
  | repeatedCursor => "Orbscan pagination repeated a cursor"
  | emptyPage =>
      "Orbscan pagination returned an empty page with a continuation cursor"
  | invalidMapping message =>
      "Orbscan market mapping is invalid: " ++ message
  | malformedMarket message =>
      "Orbscan market record is malformed: " ++ message
  | malformedEvent message =>
      "Orbscan order-book event is malformed: " ++ message
  | missingSnapshot =>
      "Orbscan has no order-book snapshot at or before the replay start"

/-- `to_data_error`. -/
def toDataError (error : OrbscanError) : DataSourceError :=
  match error with
  | missingSnapshot => .notAvailable
  | requestFailed | clientBuild | httpStatus _ | rateLimited =>
      .unavailable error.display
  | missingApiKey | malformedResponse | repeatedCursor | emptyPage |
      invalidMapping _ | malformedMarket _ | malformedEvent _ =>
      .replayGap error.display

end OrbscanError

structure OrbscanEvent where
  cursor : String
  marketId : String
  conditionId : String
  tokenId : String
  outcome : Option String
  eventType : String
  timestamp : I64
  indexedTimestamp : I64
  side : Option String
  price : Option String
  sizeAfter : Option String
  bids : Option (List (String × String))
  asks : Option (List (String × String))
  sourceHash : Option String
  deriving DecidableEq

structure EventPage where
  items : List OrbscanEvent
  nextCursor : Option String

structure EventRequest where
  tokenId : String
  eventType : String
  toMs : I64
  order : String
  limit : String
  cursor : Option String
  deriving DecidableEq

/-- The provider, which answers each request, with the library's reader of
decimals and its writer of events. -/
structure OrbscanClient where
  eventPage : EventRequest → Except OrbscanError EventPage
  fromStrExact : String → Option Decimal
  toVec : OrbscanEvent → Option (List UInt8)

structure MappedOutcome where
  name : String
  tokenId : String

structure OrbscanMarketMapping where
  market : MarketId
  orbscanMarketId : String
  conditionId : String
  up : MappedOutcome
  down : MappedOutcome

/-- The condition of an event, compared with `eq_ignore_ascii_case`. -/
def OrbscanEvent.hasCondition (event : OrbscanEvent) (conditionId : String) :
    Bool :=
  event.conditionId.toList.map Char.toLower =
    conditionId.toList.map Char.toLower

/-- `validate_event_identity_view`. -/
def validateEventIdentity (event : OrbscanEvent)
    (marketId conditionId : String) (token : MappedOutcome)
    (eventType : String) : Except OrbscanError Unit :=
  if event.marketId ≠ marketId ∨
      event.hasCondition conditionId = false ∨
      event.tokenId ≠ token.tokenId ∨ event.eventType ≠ eventType ∨
      event.outcome.any (· ≠ token.name) = true then
    .error (.malformedEvent "provider identity does not match mapping")
  else
    .ok ()

/-- Prices with their sizes, from the lowest price on. -/
abbrev PriceLevels : Type :=
  SortedMap Decimal Decimal compare

structure BookLevels where
  bids : PriceLevels
  asks : PriceLevels

/-- A field that a record has to have. -/
def present {A : Type} (value : Option A) (message : String) :
    Except OrbscanError A :=
  match value with
  | some value => .ok value
  | none => .error (.malformedEvent message)

section Client

variable (client : OrbscanClient)

/-- `parse_decimal`. -/
def parseDecimal (value : String) : Except OrbscanError Decimal :=
  present (client.fromStrExact value) "invalid decimal"

/-- What the loop of `parse_levels` does with one level. -/
def parseLevel (parsed : PriceLevels) (level : String × String) :
    Except OrbscanError PriceLevels := do
  let price ← parseDecimal client level.1
  let size ← parseDecimal client level.2
  if price < 0 ∨ 1 < price ∨ size ≤ 0 ∨ price ∈ parsed.keys then
    .error (.malformedEvent "invalid or duplicate book level")
  else
    .ok (parsed.change price size fun _ => size)

/-- `parse_levels`. -/
def parseLevels (levels : List (String × String)) :
    Except OrbscanError PriceLevels :=
  levels.foldlM (parseLevel client) .empty

/-- `validate_delta`. -/
def validateDelta (event : OrbscanEvent) : Except OrbscanError Unit := do
  if event.cursor = "" then
    .error (.malformedEvent "price change lacks cursor")
  else
    let side ← present event.side "price change lacks side"
    if side ≠ "BUY" ∧ side ≠ "SELL" then
      .error (.malformedEvent "unknown price-change side")
    else
      let rawPrice ← present event.price "price change lacks price"
      let price ← parseDecimal client rawPrice
      let rawSize ← present event.sizeAfter "price change lacks sizeAfter"
      let levelSize ← parseDecimal client rawSize
      if price < 0 ∨ 1 < price ∨ levelSize < 0 then
        .error (.malformedEvent "price or size is out of range")
      else
        .ok ()

namespace BookLevels

/-- `from_snapshot`. -/
def fromSnapshot (event : OrbscanEvent) : Except OrbscanError BookLevels := do
  let rawBids ← present event.bids "book snapshot lacks bids"
  let bids ← parseLevels client rawBids
  let rawAsks ← present event.asks "book snapshot lacks asks"
  let asks ← parseLevels client rawAsks
  .ok ⟨bids, asks⟩

end BookLevels

def PriceLevels.put (levels : PriceLevels) (price size : Decimal) :
    PriceLevels :=
  if size = 0 then
    levels.erase price
  else
    levels.change price size fun _ => size

namespace BookLevels

/-- `apply`. -/
def apply (book : BookLevels) (event : OrbscanEvent) :
    Except OrbscanError BookLevels := do
  validateDelta client event
  let rawPrice ← present event.price "price change lacks price"
  let price ← parseDecimal client rawPrice
  let rawSize ← present event.sizeAfter "price change lacks sizeAfter"
  let size ← parseDecimal client rawSize
  match event.side with
  | some "BUY" => .ok { book with bids := book.bids.put price size }
  | some "SELL" => .ok { book with asks := book.asks.put price size }
  | _ => .error (.malformedEvent "unknown price-change side")

end BookLevels

end Client

/-! ## One token -/

/-- `checked_add`, also of a negative amount. -/
def I64.checkedAdd (value : I64) (amount : Int) : Option I64 :=
  if -9223372036854775808 ≤ value.1 + amount ∧
      value.1 + amount ≤ 9223372036854775807 then
    some (I64.clamp (value.1 + amount))
  else
    none

/-- The replay of one token: its book, the page that is being read and the
cursors seen so far. -/
structure TokenReplay where
  market : MarketId
  orbscanMarketId : String
  conditionId : String
  token : MappedOutcome
  outcome : Outcome
  fromMs : I64
  toMs : I64
  snapshotTimestampMs : I64
  book : BookLevels
  nextCursor : Option String
  pages : List OrbscanEvent
  seenPageCursors : List String
  lastEventCursor : Option String
  lastTimestampMs : I64
  exhausted : Bool
  baselineEmitted : Bool
  pendingEvent : Option OrbscanEvent
  frameSequence : I64

/-- The variables of the loop over the items of a page. -/
structure PageChecks where
  lastTimestampMs : I64
  lastEventCursor : Option String
  pageCursors : List String

def OrbscanMarketMapping.tokenOf (mapping : OrbscanMarketMapping) :
    Outcome → MappedOutcome
  | .up => mapping.up
  | .down => mapping.down

namespace TokenReplay

def snapshotRequest (token : MappedOutcome) (fromMs : I64) : EventRequest where
  tokenId := token.tokenId
  eventType := "book"
  toMs := fromMs
  order := "desc"
  limit := "1"
  cursor := none

def changesRequest (token : MappedOutcome) (toMs : I64)
    (cursor : Option String) : EventRequest where
  tokenId := token.tokenId
  eventType := "price_change"
  toMs := I64.clamp (toMs.1 - 1)
  order := "asc"
  limit := "1000"
  cursor := cursor

variable (client : OrbscanClient)

/-- `new`. -/
def new (mapping : OrbscanMarketMapping) (outcome : Outcome)
    (fromMs toMs : I64) : Except OrbscanError TokenReplay := do
  let token := mapping.tokenOf outcome
  let page ← client.eventPage (snapshotRequest token fromMs)
  match page.items with
  | [] => .error .missingSnapshot
  | [snapshot] => do
      validateEventIdentity snapshot mapping.orbscanMarketId
        mapping.conditionId token "book"
      if fromMs < snapshot.timestamp ∨ snapshot.cursor = "" ∨
          snapshot.side.isSome ∨ snapshot.price.isSome ∨
          snapshot.sizeAfter.isSome then
        .error (.malformedEvent "invalid book snapshot")
      else
        let book ← BookLevels.fromSnapshot client snapshot
        .ok
          { market := mapping.market
            orbscanMarketId := mapping.orbscanMarketId
            conditionId := mapping.conditionId
            token := token
            outcome := outcome
            fromMs := fromMs
            toMs := toMs
            snapshotTimestampMs := snapshot.timestamp
            book := book
            nextCursor := some snapshot.cursor
            pages := []
            seenPageCursors := [snapshot.cursor]
            lastEventCursor := some snapshot.cursor
            lastTimestampMs := snapshot.timestamp
            exhausted := false
            baselineEmitted := false
            pendingEvent := none
            frameSequence := 0 }
  | _ => .error (.malformedEvent "snapshot query returned multiple rows")

def checkItem (replay : TokenReplay) (checks : PageChecks)
    (event : OrbscanEvent) : Except OrbscanError PageChecks := do
  validateEventIdentity event replay.orbscanMarketId replay.conditionId
    replay.token "price_change"
  if event.timestamp < replay.snapshotTimestampMs ∨
      event.timestamp < checks.lastTimestampMs ∨
      replay.toMs ≤ event.timestamp ∨ event.cursor = "" ∨
      checks.lastEventCursor = some event.cursor ∨
      event.cursor ∈ checks.pageCursors then
    .error (.malformedEvent
      "price-change identity, cursor, or timestamp regressed")
  else do
    validateDelta client event
    .ok
      { lastTimestampMs := event.timestamp
        lastEventCursor := some event.cursor
        pageCursors := event.cursor :: checks.pageCursors }

/-- The part of `next_delta` that reads a page. -/
def fetchPage (replay : TokenReplay) : Except OrbscanError TokenReplay := do
  let page ← client.eventPage
    (changesRequest replay.token replay.toMs replay.nextCursor)
  if page.items = [] ∧ page.nextCursor.isSome then
    .error .emptyPage
  else do
    let checks ← page.items.foldlM (replay.checkItem client)
      ⟨replay.lastTimestampMs, replay.lastEventCursor, []⟩
    let read :=
      { replay with
        lastTimestampMs := checks.lastTimestampMs
        lastEventCursor := checks.lastEventCursor
        nextCursor := page.nextCursor
        pages := page.items }
    match page.nextCursor with
    | none => .ok { read with exhausted := true }
    | some next =>
        if next = "" ∨ next ∈ replay.seenPageCursors then
          .error .repeatedCursor
        else
          .ok { read with seenPageCursors := next :: replay.seenPageCursors }

/-- `next_delta`.  A page without items is the last one. -/
def nextDelta (replay : TokenReplay) :
    Except OrbscanError (Option OrbscanEvent × TokenReplay) :=
  match replay.pages with
  | event :: rest => .ok (some event, { replay with pages := rest })
  | [] =>
      if replay.exhausted then
        .ok (none, replay)
      else do
        let fetched ← replay.fetchPage client
        match fetched.pages with
        | event :: rest => .ok (some event, { fetched with pages := rest })
        | [] => .ok (none, fetched)

/-- `make_envelope`. -/
def makeEnvelope (replay : TokenReplay) (timestampMs : I64)
    (rawFrame : List UInt8) :
    Except OrbscanError (SourceEnvelope Decimal × TokenReplay) :=
  match I64.checkedAdd replay.frameSequence 1 with
  | none => .error (.malformedEvent "frame sequence overflow")
  | some next =>
      if replay.frameSequence.1 < 0 then
        .error (.malformedEvent "negative frame sequence")
      else
        .ok (.pmMarket
          { metadata :=
              { schemaVersion := 1
                sourceId := "orbscan-orderbook"
                sourceTimeMs := timestampMs
                canonicalSourceRank := 0
                receiptTimeMs := timestampMs
                connectionId := "token:" ++ replay.token.tokenId
                connectionEpoch := 0
                frameSequence := replay.frameSequence
                ingestSequence := UInt64.ofNat replay.frameSequence.1.toNat }
            rawFrame := rawFrame
            fact := .bookUpdate replay.market replay.outcome
              replay.book.bids.entries.reverse replay.book.asks.entries
              timestampMs }, { replay with frameSequence := next })

/-- The loop of `next_book_update` before the first update: the changes before
the start go into the book. -/
def absorb : Nat → TokenReplay → Except (Option OrbscanError) TokenReplay
  | 0, _ => .error none
  | fuel + 1, replay =>
      match replay.nextDelta client with
      | .error error => .error (some error)
      | .ok (none, after) => .ok { after with baselineEmitted := true }
      | .ok (some event, after) =>
          if event.timestamp < after.fromMs then
            match after.book.apply client event with
            | .error error => .error (some error)
            | .ok book => absorb fuel { after with book := book }
          else
            .ok
              { after with
                pendingEvent := some event
                baselineEmitted := true }

def nextEvent (replay : TokenReplay) :
    Except OrbscanError (Option OrbscanEvent × TokenReplay) :=
  match replay.pendingEvent with
  | some event => .ok (some event, { replay with pendingEvent := none })
  | none => replay.nextDelta client

/-- The part of `next_book_update` behind the first update. -/
def nextChange (replay : TokenReplay) :
    Except OrbscanError (Option (SourceEnvelope Decimal) × TokenReplay) := do
  match ← replay.nextEvent client with
  | (none, after) => .ok (none, after)
  | (some event, after) => do
      let book ← after.book.apply client event
      match client.toVec event with
      | none => .error .malformedResponse
      | some rawFrame => do
          let (envelope, made) ←
            { after with book := book }.makeEnvelope event.timestamp rawFrame
          .ok (some envelope, made)

/-- `next_book_update`; an error without a value means that the fuel is used
up. -/
def nextBookUpdate (fuel : Nat) (replay : TokenReplay) :
    Except (Option OrbscanError)
      (Option (SourceEnvelope Decimal) × TokenReplay) :=
  if replay.baselineEmitted then
    (replay.nextChange client).mapError some
  else do
    let ready ← replay.absorb client fuel
    let (envelope, made) ←
      (ready.makeEnvelope ready.fromMs []).mapError some
    .ok (some envelope, made)

end TokenReplay

/-! ## The merge -/

structure ResearchQuery extends ReplayWindow where
  markets : List MarketId
  evidence : EvidenceRequirement

structure OrbscanHistoricalDataSource where
  client : OrbscanClient
  mappings : List OrbscanMarketMapping

/-- The order of pending events: by key, then by stream. -/
def PendingEvent.cmp {n : Nat} :
    Fin n × SourceEnvelope Decimal → Fin n × SourceEnvelope Decimal → Ordering :=
  compareLex (compareOn fun event => event.2.canonicalKey)
    (compareOn fun event => event.1)

namespace OrbscanHistoricalDataSource

variable (source : OrbscanHistoricalDataSource)

/-- What the loop over the markets does with one, having opened the streams of
others. -/
def openMarket (fromMs toMs : I64) (opened : List MarketId × List TokenReplay)
    (market : MarketId) :
    Except DataSourceError (List MarketId × List TokenReplay) :=
  if opened.1.contains market then
    .ok opened
  else
    match source.mappings.find? (·.market = market) with
    | none => .error .notAvailable
    | some mapping => do
        let up ← (TokenReplay.new source.client mapping .up fromMs
          toMs).mapError OrbscanError.toDataError
        let down ← (TokenReplay.new source.client mapping .down fromMs
          toMs).mapError OrbscanError.toDataError
        .ok (market :: opened.1, opened.2 ++ [up, down])

section Streams

variable {n : Nat}

def primeStream (fuel : Nat)
    (state : List (Fin n × SourceEnvelope Decimal) × (Fin n → TokenReplay))
    (stream : Fin n) :
    Except (Option OrbscanError)
      (List (Fin n × SourceEnvelope Decimal) × (Fin n → TokenReplay)) := do
  let (found, after) ← (state.2 stream).nextBookUpdate source.client fuel
  .ok (state.1 ++ found.toList.map (Prod.mk stream),
    Function.update state.2 stream after)

/-- The watermark behind which the rest of the merge lies. -/
def watermarkBefore (order : IterationOrder (Fin n × SourceEnvelope Decimal))
    (toMs : I64) (pending : List (Fin n × SourceEnvelope Decimal)) :
    Option I64 :=
  match PriorityQueue.pop PendingEvent.cmp order pending with
  | none => some toMs
  | some (next, _) => I64.checkedAdd next.2.canonicalKey.timestampMs (-1)

/-- The loop of `replay_inner` over the pending events; there is no result
when the fuel is used up. -/
def merge (order : IterationOrder (Fin n × SourceEnvelope Decimal))
    (toMs : I64) :
    Nat → List (Fin n × SourceEnvelope Decimal) → (Fin n → TokenReplay) →
      List (SourceSignal Decimal) → Option I64 → Option (Replayed Decimal)
  | 0, _, _, _, _ => none
  | fuel + 1, pending, streams, sent, lastWatermark =>
      match PriorityQueue.pop PendingEvent.cmp order pending with
      | none =>
          if lastWatermark.all (· < toMs) then
            some ⟨sent ++ [.watermark toMs], .ok ()⟩
          else
            some ⟨sent, .ok ()⟩
      | some ((stream, envelope), rest) =>
          let sent := sent ++ [.data envelope]
          match (streams stream).nextBookUpdate source.client fuel with
          | .error none => none
          | .error (some error) => some ⟨sent, .error error.toDataError⟩
          | .ok (found, after) =>
              let pending := found.toList.map (Prod.mk stream) ++ rest
              let streams := Function.update streams stream after
              match watermarkBefore order toMs pending with
              | none =>
                  some ⟨sent, .error (.replayGap "watermark underflow")⟩
              | some watermark =>
                  if lastWatermark.any (watermark < ·) then
                    some ⟨sent, .error
                      (.replayGap "Orbscan replay watermark regressed")⟩
                  else if lastWatermark = some watermark then
                    merge order toMs fuel pending streams sent lastWatermark
                  else
                    merge order toMs fuel pending streams
                      (sent ++ [.watermark watermark]) (some watermark)

end Streams

/-- `replay_inner` while the merge takes its signals. -/
def replayInner (order : ∀ n, IterationOrder (Fin n × SourceEnvelope Decimal))
    (fuel : Nat) (query : ResearchQuery) : Option (Replayed Decimal) :=
  if query.evidence = .corroboratedOnly then
    some ⟨[], .error (.replayGap
      ("Orbscan is uncorroborated research data; opt into " ++
        "AllowSingleSource"))⟩
  else
    let fromMs := query.fromTime.timestampMillis
    let toMs := query.toTime.timestampMillis
    if toMs ≤ fromMs then
      some ⟨[.watermark toMs], .ok ()⟩
    else
      match query.markets.foldlM (source.openMarket fromMs toMs) ([], []) with
      | .error error => some ⟨[], .error error⟩
      | .ok (_, streams) =>
          match (List.finRange streams.length).foldlM
              (source.primeStream fuel) ([], streams.get) with
          | .error none => none
          | .error (some error) => some ⟨[], .error error.toDataError⟩
          | .ok (pending, primed) =>
              source.merge (order streams.length) toMs fuel pending primed []
                none

/-- `replay`. -/
def replay (order : ∀ n, IterationOrder (Fin n × SourceEnvelope Decimal))
    (fuel : Nat) (query : ResearchQuery) : Option (Replayed Decimal) :=
  (source.replayInner order fuel query).map fun inner =>
    match inner.result with
    | .ok () => ⟨inner.sent ++ [.eof], .ok ()⟩
    | .error _ => inner

end OrbscanHistoricalDataSource

end Pmkit
