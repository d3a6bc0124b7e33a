import Pmkit.Chain.Wallet

/-!
# Reorganisations

The logs of the chain are a list.  A replacement keeps the logs at or below its
ancestor and puts its own behind them, and the stored rows are always those of
such a list: so a wallet read from the store is the wallet rebuilt from the
list, however the list came about.
-/

namespace Pmkit

variable {text : ChainText} {tables stored : ChainTables}
  {registry : ContractRegistry} {segment : CanonicalLogSegment}

def Address.IsNormalized (address : Address) : Prop :=
  Address.new address.value = some address

instance (address : Address) : Decidable address.IsNormalized :=
  inferInstanceAs (Decidable (_ = _))

/-- What the source says of a registry: its chain is Polygon mainnet, and its
addresses are normalized. -/
structure ContractRegistry.IsMainnet (registry : ContractRegistry) : Prop where
  chain : registry.chainId = .polygon
  collateral : registry.collateral.IsNormalized
  conditionalTokens : registry.conditionalTokens.IsNormalized
  ctfExchange : registry.ctfExchange.IsNormalized
  negRiskExchange : registry.negRiskExchange.IsNormalized
  legacy : ∀ contracts, registry.legacyV1 = some contracts →
    contracts.ctfExchange.IsNormalized ∧ contracts.negRiskExchange.IsNormalized

theorem ContractRegistry.isMainnet_polygon : IsMainnet .polygon where
  chain := rfl
  collateral := by decide +kernel
  conditionalTokens := by decide +kernel
  ctfExchange := by decide +kernel
  negRiskExchange := by decide +kernel
  legacy := by
    intro contracts found
    cases found

theorem ContractRegistry.IsMainnet.normalized
    (mainnet : registry.IsMainnet) {log : CanonicalChainLog}
    (accepted : registry.accepts log = true) :
    log.contractAddress.IsNormalized := by
  have exchange : registry.isCurrentExchange log.contractAddress ||
      registry.isLegacyExchange log.contractAddress →
        log.contractAddress.IsNormalized := by
    simp only [isCurrentExchange, isLegacyExchange, Bool.or_eq_true,
      decide_eq_true_eq, Option.any_eq_true]
    rintro ((same | same) | ⟨contracts, found, same | same⟩)
    · exact same ▸ mainnet.ctfExchange
    · exact same ▸ mainnet.negRiskExchange
    · exact same ▸ (mainnet.legacy contracts found).1
    · exact same ▸ (mainnet.legacy contracts found).2
  have tokens : registry.isConditionalTokens log.contractAddress →
      log.contractAddress.IsNormalized := by
    simp only [isConditionalTokens, decide_eq_true_eq]
    rintro same
    exact same ▸ mainnet.conditionalTokens
  rw [accepts, if_neg (by
    simpa using ContractRegistry.chainId_of_accepts accepted)] at accepted
  split at accepted
  · simp only [decide_eq_true_eq] at accepted
    exact accepted ▸ mainnet.collateral
  · exact tokens accepted
  · exact tokens accepted
  · exact tokens accepted
  · exact tokens accepted
  · exact tokens accepted
  · exact exchange accepted
  · exact exchange accepted
  · exact exchange accepted

structure CanonicalChainLog.IsStorable (text : ChainText)
    (log : CanonicalChainLog) : Prop where
  chain : log.identity.chainId = .polygon
  address : log.contractAddress.IsNormalized
  event : text.ReadsBack log.event
  above : 0 < log.identity.blockNumber
  fits : log.identity.fits = true

namespace CanonicalChainLog.IsStorable

variable {log : CanonicalChainLog}

theorem decode (storable : log.IsStorable text) :
    (CanonicalLogRow.ofLog text.event log).decode text = .ok log := by
  have address := storable.address
  have chain := storable.chain
  unfold Address.IsNormalized at address
  simp only [CanonicalLogRow.decode, CanonicalLogRow.ofLog, address,
    storable.event.readEvent, ← chain]

end CanonicalChainLog.IsStorable

variable {logs : List CanonicalChainLog}

theorem decodeRows_map (storable : ∀ log ∈ logs, log.IsStorable text) :
    decodeRows text (logs.map (.ofLog text.event)) = .ok logs := by
  induction logs with
  | nil =>
      rfl
  | cons log rest ih =>
      have later := ih fun other mem =>
        storable other (List.mem_cons_of_mem log mem)
      rw [List.map_cons, decodeRows, (storable log List.mem_cons_self).decode,
        later]
      rfl

/-! ## The list behind the tables -/

/-- The logs of Polygon that a store gives back, in their order. -/
def ChainTables.canonicalLogs (text : ChainText) (tables : ChainTables) :
    List CanonicalChainLog :=
  (tables.readCanonicalLogs ChainId.polygon.get none none).filterMap fun row =>
    (row.decode text).toOption

def CanonicalLogSegment.splice (segment : CanonicalLogSegment)
    (logs : List CanonicalChainLog) : List CanonicalChainLog :=
  (logs.filter fun log =>
    log.identity.blockNumber ≤ segment.commonAncestor.blockNumber) ++
      segment.logs

structure ChainTables.Represents (text : ChainText) (tables : ChainTables)
    (logs : List CanonicalChainLog) : Prop where
  rows : tables.chainRows ChainId.polygon.get = logs.map (.ofLog text.event)
  ordered : logs.Pairwise fun previous next =>
    previous.identity.Before next.identity
  storable : ∀ log ∈ logs, log.IsStorable text

namespace ChainTables.Represents

variable {logs : List CanonicalChainLog}

theorem empty : Represents text .empty [] where
  rows := rfl
  ordered := List.Pairwise.nil
  storable := by simp

/-- A range of blocks is read in the order of the list. -/
theorem readCanonicalLogs (represents : tables.Represents text logs)
    (fromBlock toBlock : Option Nat) :
    tables.readCanonicalLogs ChainId.polygon.get fromBlock toBlock =
      (logs.filter fun log => WalletQuery.inBounds fromBlock toBlock
        log.identity.blockNumber).map (.ofLog text.event) := by
  have rows : (tables.chainRows ChainId.polygon.get).filter (fun row =>
      WalletQuery.inBounds fromBlock toBlock row.blockNumber) =
        (logs.filter fun log => WalletQuery.inBounds fromBlock toBlock
          log.identity.blockNumber).map (.ofLog text.event) := by
    rw [represents.rows, List.filter_map]
    rfl
  rw [ChainTables.readCanonicalLogs, rows]
  apply List.Pairwise.insertionSort_eq
  apply List.pairwise_map.mpr
  refine (represents.ordered.sublist List.filter_sublist).imp ?_
  intro prev next before
  simp [before.1]

theorem readCanonicalLogs_unbounded (represents : tables.Represents text logs) :
    tables.readCanonicalLogs ChainId.polygon.get none none =
      logs.map (.ofLog text.event) := by
  have all : logs.filter (fun log => WalletQuery.inBounds none none
      log.identity.blockNumber) = logs :=
    List.filter_eq_self.mpr fun _ _ => rfl
  rw [represents.readCanonicalLogs, all]

theorem canonicalLogs_eq (represents : tables.Represents text logs) :
    tables.canonicalLogs text = logs := by
  rw [canonicalLogs, represents.readCanonicalLogs_unbounded, List.filterMap_map]
  have each : ∀ log ∈ logs,
      ((fun row => (CanonicalLogRow.decode text row).toOption) ∘
        CanonicalLogRow.ofLog text.event) log = some log := by
    intro log mem
    rw [Function.comp_apply, (represents.storable log mem).decode]
    rfl
  rw [List.filterMap_congr each, List.filterMap_some]

/-- A wallet read from the store is the one rebuilt from the list. -/
theorem walletSnapshot_eq (represents : tables.Represents text logs)
    {query : WalletQuery} (fits : query.fits = true) :
    tables.walletSnapshot text query = .ok (rebuildWallet query logs) := by
  have inside : ∀ log ∈ logs.filter query.inRange, log.IsStorable text :=
    fun log mem => represents.storable log (List.mem_of_mem_filter mem)
  have rows : tables.readCanonicalLogs ContractRegistry.polygon.chainId.get
      query.fromBlock query.toBlock =
        (logs.filter query.inRange).map (.ofLog text.event) :=
    represents.readCanonicalLogs query.fromBlock query.toBlock
  rw [walletSnapshot, if_neg (by simp [fits]), rows, decodeRows_map inside]
  simp only [rebuildWallet_filter]

theorem of_write (represents : tables.Represents text logs)
    (mainnet : registry.IsMainnet) (valid : segment.Valid registry)
    (storable : ∀ log ∈ segment.logs, log.IsStorable text)
    (written : SegmentStored text.event tables registry segment stored) :
    stored.Represents text (segment.splice logs) where
  rows := by
    rw [← mainnet.chain, chainRows_of_write valid written,
      chainRows_deleteAfter, mainnet.chain, represents.rows, List.filter_map,
      CanonicalLogSegment.splice, List.map_append]
    rfl
  ordered := by
    refine List.pairwise_append.mpr
      ⟨represents.ordered.sublist List.filter_sublist, valid.ordered, ?_⟩
    intro prev kept next added
    have below : prev.identity.blockNumber ≤
        segment.commonAncestor.blockNumber := by
      simpa using (List.mem_filter.mp kept).2
    have above := valid.above next added
    have lower : prev.identity.position.blockNumber <
        next.identity.position.blockNumber := lt_of_le_of_lt below above
    refine ⟨LogPosition.cmp_of_blockNumber_lt lower, ?_⟩
    intro level
    exact absurd level (Nat.ne_of_lt lower)
  storable := by
    intro log mem
    rcases List.mem_append.mp mem with kept | added
    · exact represents.storable log (List.mem_of_mem_filter kept)
    · exact storable log added

end ChainTables.Represents

/-! ## Calls -/

theorem accepts_of_validateSegment
    (validated : validateSegment registry segment = .ok ()) :
    ∀ log ∈ segment.logs, registry.accepts log = true := by
  intro log mem
  unfold validateSegment at validated
  split at validated
  · cases validated
  · rename_i passed
    simp only [not_or, List.any_eq_true, decide_eq_true_eq, not_exists,
      not_and, Bool.not_eq_false] at passed
    exact (passed.2.2 log mem).2

theorem storable_of_written (mainnet : registry.IsMainnet)
    (validated : validateSegment registry segment = .ok ())
    (reads : ∀ log ∈ segment.logs, text.ReadsBack log.event)
    (written : ChainTables.SegmentStored text.event tables registry segment
      stored) :
    ∀ log ∈ segment.logs, log.IsStorable text := by
  have valid := CanonicalLogSegment.valid_of_validateSegment validated
  intro log mem
  exact ⟨(valid.chain log mem).trans mainnet.chain,
    mainnet.normalized (accepts_of_validateSegment validated log mem),
    reads log mem, Nat.zero_lt_of_lt (valid.above log mem),
    written.fits log mem⟩

namespace ChainTables

variable {eventText : ChainEvent → String}

theorem validated_of_replace
    (replaced : tables.replaceCanonicalSegment eventText registry segment =
      .ok stored) :
    validateSegment registry segment = .ok () := by
  unfold replaceCanonicalSegment at replaced
  split at replaced
  · cases replaced
  · exact ‹validateSegment registry segment = _›

theorem validated_of_ingestSegment
    {persisted : Option ChainCheckpoint} {finalized : ChainCheckpoint}
    (ingested : tables.ingestSegment eventText registry persisted segment
      finalized = .ok stored) :
    validateSegment registry segment = .ok () := by
  unfold ingestSegment at ingested
  split at ingested
  · cases ingested
  · exact ‹validateSegment registry segment = _›

theorem segment_of_ingest
    {batch : QuorumVerifiedFinalizedLogBatch} {ancestor : ChainCheckpoint}
    (ingested : tables.ingestFinalizedBatch eventText registry batch ancestor =
      .ok stored) :
    stored = tables ∨
      ∃ finalized logs,
        decodeRawLogs registry (batch.asRawBatch.logs.filter
          (isIngested ancestor finalized)) = .ok logs ∧
        validateSegment registry ⟨ancestor, logs⟩ = .ok () ∧
        SegmentStored eventText tables registry ⟨ancestor, logs⟩ stored := by
  unfold ingestFinalizedBatch at ingested
  split at ingested
  · cases ingested
  · split at ingested
    · cases ingested
    · cases ingested
      exact .inl rfl
    · split at ingested
      · cases ingested
      · have written := (ingestSegment_eq_ok ingested).2.2
        exact .inr ⟨_, _, ‹_›, validated_of_ingestSegment ingested,
          written.toSegmentStored⟩

end ChainTables

namespace ChainCall

def contracts : ChainCall → ContractRegistry
  | replace registry _ => registry
  | ingest registry _ _ => registry

def BringsEvent (call : ChainCall) (event : ChainEvent) : Prop :=
  match call with
  | replace _ segment => ∃ log ∈ segment.logs, log.event = event
  | ingest registry batch _ =>
      ∃ raw ∈ batch.asRawBatch.logs, ∃ log,
        decodeRawLog registry raw = .ok log ∧ log.event = event

/-- A call leaves the tables, or writes a segment with the events it brings. -/
theorem apply_cases (eventText : ChainEvent → String) (tables : ChainTables)
    (call : ChainCall) :
    call.apply eventText tables = tables ∨
      ∃ segment, validateSegment call.contracts segment = .ok () ∧
        (∀ log ∈ segment.logs, call.BringsEvent log.event) ∧
        ChainTables.SegmentStored eventText tables call.contracts segment
          (call.apply eventText tables) := by
  cases result : call.result eventText tables with
  | error error =>
      rw [apply, result]
      exact .inl rfl
  | ok stored =>
      rw [apply_of_result result]
      cases call with
      | replace registry segment =>
          have written :=
            (ChainTables.replaceCanonicalSegment_eq_ok result).2.2
          exact .inr ⟨segment, ChainTables.validated_of_replace result,
            fun log mem => ⟨log, mem, rfl⟩, written.toSegmentStored⟩
      | ingest registry batch ancestor =>
          rcases ChainTables.segment_of_ingest result with
            unchanged | ⟨finalized, logs, decoded, validated, written⟩
          · exact .inl unchanged
          · refine Or.inr ⟨⟨ancestor, logs⟩, validated, ?_, written⟩
            intro log mem
            obtain ⟨raw, inside, source⟩ :=
              decodeRawLogs_source decoded log mem
            exact ⟨raw, List.mem_of_mem_filter inside, log, source, rfl⟩

end ChainCall

/-- Over a run the tables represent some list of logs, each accepted by the
registry of a call unless it was there before. -/
theorem represents_run {calls : List ChainCall}
    (mainnet : ∀ call ∈ calls, call.contracts.IsMainnet)
    (reads : ∀ call ∈ calls, ∀ event, call.BringsEvent event →
      text.ReadsBack event)
    {logs : List CanonicalChainLog} (represents : tables.Represents text logs) :
    ∃ later, (Trace.run (ChainCall.apply text.event) tables
        calls).Represents text later ∧
      ∀ log ∈ later, log ∈ logs ∨
        ∃ call ∈ calls, call.contracts.accepts log = true := by
  induction calls generalizing tables logs with
  | nil =>
      exact ⟨logs, represents, fun _ mem => .inl mem⟩
  | cons call rest ih =>
      have onward := @ih
        (call.apply text.event tables)
        (fun other mem => mainnet other (List.mem_cons_of_mem call mem))
        (fun other mem => reads other (List.mem_cons_of_mem call mem))
      rw [Trace.run_cons]
      rcases ChainCall.apply_cases text.event tables call with
        unchanged | ⟨segment, validated, brought, written⟩
      · obtain ⟨later, stands, sources⟩ := onward (unchanged ▸ represents)
        refine ⟨later, stands, fun log mem => ?_⟩
        exact (sources log mem).imp_right fun ⟨other, inside, accepts⟩ =>
          ⟨other, List.mem_cons_of_mem call inside, accepts⟩
      · have here := mainnet call List.mem_cons_self
        have storable := storable_of_written here validated
          (fun log mem => reads call List.mem_cons_self log.event
            (brought log mem)) written
        obtain ⟨later, stands, sources⟩ := onward (represents.of_write here
          (CanonicalLogSegment.valid_of_validateSegment validated) storable
          written)
        refine ⟨later, stands, fun log mem => ?_⟩
        rcases sources log mem with spliced | ⟨other, inside, accepts⟩
        · rcases List.mem_append.mp spliced with kept | added
          · exact .inl (List.mem_of_mem_filter kept)
          · exact .inr ⟨call, List.mem_cons_self,
              accepts_of_validateSegment validated log added⟩
        · exact .inr ⟨other, List.mem_cons_of_mem call inside, accepts⟩

theorem CanonicalLogSegment.inOrder_of_pairwise
    (ordered : logs.Pairwise fun prev next =>
      prev.identity.Before next.identity) :
    inOrder logs = true := by
  induction logs with
  | nil =>
      rfl
  | cons prev rest ih =>
      cases rest with
      | nil =>
          rfl
      | cons next rest =>
          have step := List.rel_of_pairwise_cons ordered List.mem_cons_self
          have follows : follows prev next = true := by
            rw [CanonicalLogSegment.follows, decide_eq_true_eq]
            exact ⟨step.1, Classical.or_iff_not_imp_left.mpr fun level =>
              step.2 (not_not.mp level)⟩
          rw [inOrder, follows, Bool.true_and]
          exact ih ordered.of_cons

theorem ChainTables.insertLogs_isOk
    {eventText : ChainEvent → String} {logs : List CanonicalChainLog}
    (fits : ∀ log ∈ logs, log.identity.fits = true) (tables : ChainTables) :
    ∃ written, insertLogs eventText tables logs = .ok written := by
  induction logs generalizing tables with
  | nil =>
      exact ⟨tables, rfl⟩
  | cons log rest ih =>
      rw [insertLogs, if_pos (fits log List.mem_cons_self)]
      exact ih
        (fun other mem => fits other (List.mem_cons_of_mem log mem)) _

def CanonicalLogSegment.whole (hash : String) (logs : List CanonicalChainLog) :
    CanonicalLogSegment where
  commonAncestor := ⟨.polygon, 0, hash⟩
  logs := logs

section Whole

variable {logs : List CanonicalChainLog} (mainnet : registry.IsMainnet)
  (ordered : logs.Pairwise fun previous next =>
    previous.identity.Before next.identity)
  (storable : ∀ log ∈ logs, log.IsStorable text)
  (accepted : ∀ log ∈ logs, registry.accepts log = true) (hash : String)

include mainnet ordered storable accepted

theorem validateSegment_whole :
    validateSegment registry (.whole hash logs) = .ok () := by
  rw [validateSegment, if_neg]
  rintro (chain | order | bad)
  · exact chain mainnet.chain.symm
  · rw [CanonicalLogSegment.whole,
      CanonicalLogSegment.inOrder_of_pairwise ordered] at order
    cases order
  · obtain ⟨log, mem, refused⟩ := List.any_eq_true.mp bad
    have above := (storable log mem).above
    simp only [CanonicalLogSegment.whole, decide_eq_true_eq,
      accepted log mem] at refused
    rcases refused with low | other
    · omega
    · cases other

/-- An empty store accepts the logs of a list at once. -/
theorem replace_whole :
    ∃ fresh, ChainTables.empty.replaceCanonicalSegment text.event registry
        (.whole hash logs) = .ok fresh ∧ fresh.Represents text logs := by
  have validated := validateSegment_whole mainnet ordered storable accepted hash
  have valid := CanonicalLogSegment.valid_of_validateSegment validated
  have tipFits : fitsColumn (CanonicalLogSegment.tip
      (.whole hash logs)).blockNumber = true := by
    unfold CanonicalLogSegment.tip
    split
    · rfl
    · rename_i last found
      have fits := (storable last (List.mem_of_getLast? found)).fits
      simp only [CanonicalLogIdentity.fits, decide_eq_true_eq] at fits
      exact fits.2.1
  have chainFits : fitsColumn ChainId.polygon.get = true := rfl
  have known : ChainTables.empty.validateStoredChain ChainId.polygon.get
      (CanonicalLogSegment.whole hash logs).commonAncestor = .ok () := rfl
  obtain ⟨inserted, insertion⟩ := @ChainTables.insertLogs_isOk text.event logs
    (fun log mem => (storable log mem).fits)
    (ChainTables.empty.deleteAfter ChainId.polygon.get 0)
  have replaced : ∃ fresh, ChainTables.empty.replaceCanonicalSegment text.event
      registry (.whole hash logs) = .ok fresh := by
    refine ⟨inserted.upsertCanonicalCheckpoint ChainId.polygon.get
      ⟨(CanonicalLogSegment.tip (.whole hash logs)).blockNumber,
        (CanonicalLogSegment.tip (.whole hash logs)).blockHash⟩, ?_⟩
    rw [ChainTables.replaceCanonicalSegment, validated]
    simp only [mainnet.chain, chainFits, known,
      ChainTables.writeCanonicalSegment, valid.tip_chainId, tipFits]
    simp only [CanonicalLogSegment.whole, insertion]
    rfl
  obtain ⟨fresh, replaced⟩ := replaced
  refine ⟨fresh, replaced, ?_⟩
  have written := (ChainTables.replaceCanonicalSegment_eq_ok replaced).2.2
  exact ChainTables.Represents.empty.of_write mainnet valid storable
    written.toSegmentStored

end Whole

/-! ## Exact reorganisations -/

/-- A replacement keeps the logs at or below its ancestor and puts those of the
segment behind them, in strict order and with one block for a height. -/
structure ReplacesSuffix (text : ChainText) (tables : ChainTables)
    (segment : CanonicalLogSegment) (stored : ChainTables) : Prop where
  logs : stored.canonicalLogs text =
    ((tables.canonicalLogs text).filter fun log =>
      log.identity.blockNumber ≤ segment.commonAncestor.blockNumber) ++
        segment.logs
  rows : stored.readCanonicalLogs ChainId.polygon.get none none =
    (stored.canonicalLogs text).map (.ofLog text.event)
  ordered : (stored.canonicalLogs text).Pairwise fun previous next =>
    LogPosition.cmp previous.identity.position next.identity.position = .lt
  oneBlock : ∀ left ∈ stored.canonicalLogs text,
    ∀ right ∈ stored.canonicalLogs text,
      left.identity.blockNumber = right.identity.blockNumber →
      left.identity.blockHash = right.identity.blockHash

/-- What holds of a store whatever was replaced in it: the next replacement is
exact, and wallets are those of the surviving logs, as in a fresh store that is
given only these under a registry that covers the registries of the calls. -/
structure ReorgsExactly (text : ChainText) (calls : List ChainCall)
    (tables : ChainTables) : Prop where
  replaces : ∀ registry : ContractRegistry, registry.IsMainnet →
    ∀ segment : CanonicalLogSegment,
      (∀ log ∈ segment.logs, text.ReadsBack log.event) →
      ∀ stored, tables.replaceCanonicalSegment text.event registry segment =
        .ok stored → ReplacesSuffix text tables segment stored
  snapshot : ∀ query : WalletQuery, query.fits = true →
    tables.walletSnapshot text query =
      .ok (rebuildWallet query (tables.canonicalLogs text))
  fresh : ∀ registry : ContractRegistry, registry.IsMainnet →
    (∀ call ∈ calls, ∀ log, call.contracts.accepts log = true →
      registry.accepts log = true) →
    ∀ hash, ∃ fresh,
      ChainTables.empty.replaceCanonicalSegment text.event registry
        (.whole hash (tables.canonicalLogs text)) = .ok fresh ∧
      ∀ query, fresh.walletSnapshot text query =
        tables.walletSnapshot text query

theorem blockHash_eq_of_pairwise
    (ordered : logs.Pairwise fun prev next =>
      prev.identity.Before next.identity)
    {left right : CanonicalChainLog} (leftMem : left ∈ logs)
    (rightMem : right ∈ logs)
    (level : left.identity.blockNumber = right.identity.blockNumber) :
    left.identity.blockHash = right.identity.blockHash := by
  by_cases same : left = right
  · rw [same]
  · rcases List.pair_sublist_or leftMem rightMem same with
      inside | inside
    · have pair := List.Pairwise.sublist inside ordered
      have before : left.identity.Before right.identity := by
        simpa using pair
      exact before.2 level
    · have pair := List.Pairwise.sublist inside ordered
      have before : right.identity.Before left.identity := by
        simpa using pair
      exact (before.2 level.symm).symm

namespace ChainTables.Represents

variable {logs : List CanonicalChainLog}

theorem replacesSuffix (represents : tables.Represents text logs)
    (mainnet : registry.IsMainnet)
    (reads : ∀ log ∈ segment.logs, text.ReadsBack log.event)
    (replaced : tables.replaceCanonicalSegment text.event registry segment =
      .ok stored) :
    ReplacesSuffix text tables segment stored := by
  obtain ⟨valid, _, written⟩ := replaceCanonicalSegment_eq_ok replaced
  have storable := storable_of_written mainnet (validated_of_replace replaced)
    reads written.toSegmentStored
  have later := represents.of_write mainnet valid storable
    written.toSegmentStored
  refine ⟨?_, ?_, ?_, ?_⟩
  · rw [later.canonicalLogs_eq, represents.canonicalLogs_eq]
    rfl
  · rw [later.readCanonicalLogs_unbounded, later.canonicalLogs_eq]
  · rw [later.canonicalLogs_eq]
    exact later.ordered.imp fun before => before.1
  · rw [later.canonicalLogs_eq]
    intro left leftMem right rightMem level
    exact blockHash_eq_of_pairwise later.ordered leftMem rightMem level

/-- Two stores of one list give the same wallets. -/
theorem walletSnapshot_congr {other : ChainTables}
    (represents : tables.Represents text logs)
    (same : other.Represents text logs) (query : WalletQuery) :
    tables.walletSnapshot text query = other.walletSnapshot text query := by
  by_cases fits : query.fits = true
  · rw [represents.walletSnapshot_eq fits, same.walletSnapshot_eq fits]
  · have wide : query.fits = false := by simpa using fits
    rw [walletSnapshot, walletSnapshot, if_pos wide, if_pos wide]

end ChainTables.Represents

/-- After any calls a replacement splices its segment into the stored logs, and
a wallet is the one rebuilt from them. -/
theorem reorgsExactly
    (text : ChainText) (calls : List ChainCall)
    (mainnet : ∀ call ∈ calls, call.contracts.IsMainnet)
    (reads : ∀ call ∈ calls, ∀ event, call.BringsEvent event →
      text.ReadsBack event) :
    ReorgsExactly text calls
      (Trace.run (ChainCall.apply text.event) .empty calls) := by
  obtain ⟨logs, represents, sources⟩ := represents_run mainnet reads
    ChainTables.Represents.empty
  refine ⟨?_, ?_, ?_⟩
  · intro registry here segment readsSegment stored replaced
    exact represents.replacesSuffix here readsSegment replaced
  · intro query fits
    rw [represents.canonicalLogs_eq]
    exact represents.walletSnapshot_eq fits
  · intro registry here covers hash
    rw [represents.canonicalLogs_eq]
    have accepted : ∀ log ∈ logs, registry.accepts log = true := by
      intro log member
      rcases sources log member with old | ⟨call, inside, accepts⟩
      · cases old
      · exact covers call inside log accepts
    obtain ⟨fresh, replaced, same⟩ := replace_whole here represents.ordered
      represents.storable accepted hash
    exact ⟨fresh, replaced, same.walletSnapshot_congr represents⟩

section Example

def transferLine : String := sampleEventText (sampleLog 1 "0xa").event

def transferJson : JsonValue :=
  .object
    [("kind", .string "collateral_transfer"),
      ("from", .string "0x0000000000000000000000000000000000000001"),
      ("to", .string "0x0000000000000000000000000000000000000002"),
      ("amount", .string "5")]

def transferText : ChainText where
  writeJson := fun _ => transferLine
  readJson := fun written =>
    if written = transferLine then some transferJson else none
  decimal := fun _ => "5"
  readDecimal := fun value =>
    if value = .string "5" then some 5 else none
  eventError := fun _ => "expected value at line 1 column 1"

theorem transferText_readsBack :
    transferText.ReadsBack (sampleLog 1 "0xa").event where
  json := by decide +kernel
  amounts := by
    intro amount mem
    rw [List.mem_singleton.mp mem]
    decide +kernel

/-- Blocks 1 and 2, and then another block 2. -/
def reorgCalls : List ChainCall :=
  [.replace .polygon ⟨⟨.polygon, 0, "0xg"⟩,
      [sampleLog 1 "0xa", sampleLog 2 "0xb"]⟩,
    .replace .polygon ⟨⟨.polygon, 1, "0xa"⟩, [sampleLog 2 "0xc"]⟩]

theorem reorgsExactly_reorgCalls :
    ReorgsExactly transferText reorgCalls
      (Trace.run (ChainCall.apply transferText.event) .empty reorgCalls) := by
  apply reorgsExactly
  · intro call member
    rcases List.mem_cons.mp member with rfl | later
    · exact ContractRegistry.isMainnet_polygon
    · rw [List.mem_singleton.mp later]
      exact ContractRegistry.isMainnet_polygon
  · intro call member event brought
    have same : event = (sampleLog 1 "0xa").event := by
      rcases List.mem_cons.mp member with rfl | later
      · obtain ⟨log, inside, rfl⟩ := brought
        rcases List.mem_cons.mp inside with rfl | other
        · rfl
        · rw [List.mem_singleton.mp other]
          rfl
      · rw [List.mem_singleton.mp later] at brought
        obtain ⟨log, inside, rfl⟩ := brought
        rw [List.mem_singleton.mp inside]
        rfl
    rw [same]
    exact transferText_readsBack

def receiverQuery (toBlock : Option Nat) : WalletQuery where
  wallet := ⟨"0x0000000000000000000000000000000000000002"⟩
  fromBlock := none
  toBlock := toBlock

/-- A registry whose collateral was read from JSON, where no text is checked. -/
def uncheckedRegistry : ContractRegistry :=
  { ContractRegistry.polygon with collateral := ⟨"pUSD"⟩ }

def foreignRegistry : ContractRegistry :=
  { ContractRegistry.polygon with chainId := ⟨1⟩ }

def uncheckedLog : CanonicalChainLog :=
  { sampleLog 1 "0xa" with contractAddress := ⟨"pUSD"⟩ }

def foreignLog : CanonicalChainLog :=
  { sampleLog 1 "0xa" with
    identity := { (sampleLog 1 "0xa").identity with chainId := ⟨1⟩ } }

def snapshotAfter (registry : ContractRegistry) (log : CanonicalChainLog)
    (query : WalletQuery) : Except ChainStoreError
      (Except WalletError WalletSnapshot) :=
  (ChainTables.empty.replaceCanonicalSegment transferText.event registry
    ⟨⟨registry.chainId, 0, "0xg"⟩, [log]⟩).map fun tables =>
      tables.walletSnapshot transferText query

/-- A bound of 2^63 is refused, a contract that is no address is not read back,
and the logs of another chain are not looked at. -/
theorem snapshotAfter_ne_rebuild :
    (snapshotAfter .polygon (sampleLog 1 "0xa")
        (receiverQuery (some 9223372036854775808)) =
          .ok (.error .limitTooLarge)) ∧
    (snapshotAfter uncheckedRegistry uncheckedLog (receiverQuery none) =
      .ok (.error (.canonicalLogDecode
        ("invalid stored contract address pUSD: " ++
          "address must be a 0x-prefixed 20-byte hex value")))) ∧
    (snapshotAfter foreignRegistry foreignLog (receiverQuery none) =
        .ok (.ok (rebuildWallet (receiverQuery none) [])) ∧
      rebuildWallet (receiverQuery none) [] ≠
        rebuildWallet (receiverQuery none) [foreignLog]) := by
  refine ⟨by decide +kernel, by decide +kernel, by decide +kernel,
    by decide +kernel⟩

end Example

end Pmkit
