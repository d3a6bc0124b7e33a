import Pmkit.Live.Recovery

/-!
# The risk state of a restart

A live run stores an account fact and applies it; a restart reads the stored
JSON and applies what it reads.  The writer of the JSON and its reader do not
spell the outcomes alike, so a stored fill or settlement is one that no restart
can read.
-/

namespace Pmkit

open MachineInt JsonValue Fallible

/-! ## Reading a stored account fact -/

/-- A fact that the reader of the restart takes: it moves no position, and its
schema version is a known one. -/
def PmAccountEnvelope.Readable (envelope : PmAccountEnvelope Decimal) : Prop :=
  (1 ≤ envelope.metadata.schemaVersion.toNat ∧
    envelope.metadata.schemaVersion.toNat ≤ 4) ∧
    match envelope.fact with
    | .fill _ _ => False
    | .settlement _ _ _ _ _ _ => False
    | .orderAck _ _ _ => True
    | .orderCancelled _ _ _ => True
    | .orderRejected _ _ _ _ => True
    | .orderStatus _ _ _ _ => True

def SourceEnvelope.Readable : SourceEnvelope Decimal → Prop
  | .pmAccount envelope => envelope.Readable
  | .pmMarket _ => True
  | .cexReference _ => True

section Reading

variable {parseDecimal : String → Except String Decimal}
  {format : EventFormat Decimal} {scope : OwnerScope}

variable {payload : JsonValue} {outcome : Outcome}
  {envelope : PmAccountEnvelope Decimal}

/-- The outcomes are written in capitals and read in small letters. -/
theorem outcomeField_display
    (written : payload.get "outcome" = some (string outcome.display)) :
    (outcomeField payload).isOk = false := by
  unfold outcomeField stringField
  rw [written]
  cases outcome with
  | up => rfl
  | down => rfl

theorem durableAccountFill_fails {record : PmEnvelope} {version : Nat}
    {timestampMs : I64}
    (written : payload.get "outcome" = some (string outcome.display)) :
    (durableAccountFill parseDecimal record payload version
      timestampMs).isOk = false := by
  have outcomeFails := outcomeField_display written
  unfold durableAccountFill
  iterate 5
    apply isOk_bind_of_fails
    intro value
  cases read : outcomeField payload with
  | error error => rfl
  | ok value =>
      rw [read] at outcomeFails
      cases outcomeFails

theorem durableAccountSettlement_fails {record : PmEnvelope} {version : Nat}
    {timestampMs : I64}
    (written : payload.get "outcome" = some (string outcome.display)) :
    (durableAccountSettlement parseDecimal record payload version
      timestampMs).isOk = false := by
  have outcomeFails := outcomeField_display written
  unfold durableAccountSettlement
  iterate 2
    apply isOk_bind_of_fails
    intro value
  cases read : outcomeField payload with
  | error error => rfl
  | ok value =>
      rw [read] at outcomeFails
      cases outcomeFails

theorem asUnsigned_uint16
    {value : JsonValue} {field : String} {version : UInt16}
    (found : value.get field = some (number version.toNat)) :
    (value.get field).bind (asUnsigned 64) = some version.toNat := by
  have small : version.toNat < 2 ^ 64 := by
    have bound := version.toNat_lt
    omega
  rw [found, Option.bind_some, asUnsigned_number small]

/-- A record of an account, up to the kind of its event. -/
structure IsAccountRecord (portfolio : PortfolioId) (record : PmEnvelope)
    (version : Nat) (payload : JsonValue) (timestampMs : I64) : Prop where
  owner : record.normalized.get "portfolio" = some (string portfolio.value)
  supported : (record.normalized.get "schema_version").bind (asUnsigned 64) =
    some version
  body : record.normalized.get "payload" = some payload
  ts : payload.get "ts" = some (I64.json timestampMs)

theorem IsAccountRecord.ofStored
    (envelope : PmAccountEnvelope Decimal) (timestampMs : I64)
    (time : (accountEventJson format envelope.fact).get "ts" =
      some (I64.json timestampMs)) :
    IsAccountRecord envelope.portfolio
      (storedEnvelope scope envelope.metadata envelope.rawFrame
        (accountEnvelopeJson format envelope))
      envelope.metadata.schemaVersion.toNat
      (accountEventJson format envelope.fact) timestampMs where
  owner := rfl
  supported := asUnsigned_uint16 rfl
  body := rfl
  ts := time

variable {portfolio : PortfolioId} {record : PmEnvelope} {version : Nat}
  {payload : JsonValue} {timestampMs : I64}

theorem IsAccountRecord.unknownVersion
    (known : IsAccountRecord portfolio record version payload timestampMs)
    (unknown : version = 0 ∨ 4 < version) :
    (durableAccountEvent parseDecimal portfolio record).isOk = false := by
  unfold durableAccountEvent
  simp only [known.owner, asStr, ne_eq, not_true_eq_false, if_false,
    known.supported]
  rw [if_pos unknown]
  rfl

theorem IsAccountRecord.time
    (known : IsAccountRecord portfolio record version payload timestampMs) :
    signedField payload "ts" "event timestamp" = .ok timestampMs := by
  have read : (payload.get "ts").bind asI64 = some timestampMs.1 := by
    rw [known.ts]
    exact asI64_val timestampMs
  unfold signedField
  simp only [read, I64.clamp_val]

/-- A fill or a settlement of a record is read by its own reader. -/
theorem IsAccountRecord.fill
    (known : IsAccountRecord portfolio record version payload timestampMs)
    (supported : ¬ (version = 0 ∨ 4 < version))
    (kind : stringField payload "kind" = .ok "fill") :
    durableAccountEvent parseDecimal portfolio record =
      some <$> durableAccountFill parseDecimal record payload version
        timestampMs := by
  unfold durableAccountEvent
  simp only [known.owner, asStr, ne_eq, not_true_eq_false, if_false,
    known.supported, known.body]
  rw [if_neg supported, known.time, kind]
  rfl

theorem IsAccountRecord.settlement
    (known : IsAccountRecord portfolio record version payload timestampMs)
    (supported : ¬ (version = 0 ∨ 4 < version))
    (kind : stringField payload "kind" = .ok "settlement") :
    durableAccountEvent parseDecimal portfolio record =
      some <$> durableAccountSettlement parseDecimal record payload version
        timestampMs := by
  unfold durableAccountEvent
  simp only [known.owner, asStr, ne_eq, not_true_eq_false, if_false,
    known.supported, known.body]
  rw [if_neg supported, known.time, kind]
  rfl

theorem IsAccountRecord.order
    (known : IsAccountRecord portfolio record version payload timestampMs)
    (supported : ¬ (version = 0 ∨ 4 < version)) {kind : String}
    (field : stringField payload "kind" = .ok kind)
    (isOrder : kind = "order_ack" ∨ kind = "order_cancelled" ∨
      kind = "order_rejected" ∨ kind = "order_status") :
    durableAccountEvent parseDecimal portfolio record = .ok none := by
  unfold durableAccountEvent
  simp only [known.owner, asStr, ne_eq, not_true_eq_false, if_false,
    known.supported, known.body]
  rw [if_neg supported, known.time, field]
  rcases isOrder with rfl | rfl | rfl | rfl
  · rfl
  · rfl
  · rfl
  · rfl

/-- A fact that moves a position is an error to the reader, and so is an
unknown schema version. -/
theorem durableAccountEvent_fails (unreadable : ¬ envelope.Readable) :
    (durableAccountEvent parseDecimal envelope.portfolio
      (storedEnvelope scope envelope.metadata envelope.rawFrame
        (accountEnvelopeJson format envelope))).isOk = false := by
  obtain ⟨portfolio, metadata, rawFrame, fact⟩ := envelope
  by_cases unknown : metadata.schemaVersion.toNat = 0 ∨
      4 < metadata.schemaVersion.toNat
  · cases fact with
    | fill identity fill =>
        exact (IsAccountRecord.ofStored _ fill.timestampMs
          rfl).unknownVersion unknown
    | settlement identity market outcome settledSize proceeds timestampMs =>
        exact (IsAccountRecord.ofStored _ timestampMs
          rfl).unknownVersion unknown
    | orderAck strategy orderId timestampMs =>
        exact (IsAccountRecord.ofStored _ timestampMs
          rfl).unknownVersion unknown
    | orderCancelled strategy orderId timestampMs =>
        exact (IsAccountRecord.ofStored _ timestampMs
          rfl).unknownVersion unknown
    | orderRejected strategy orderId reason timestampMs =>
        exact (IsAccountRecord.ofStored _ timestampMs
          rfl).unknownVersion unknown
    | orderStatus strategy orderId status timestampMs =>
        exact (IsAccountRecord.ofStored _ timestampMs
          rfl).unknownVersion unknown
  · have bounds : 1 ≤ metadata.schemaVersion.toNat ∧
        metadata.schemaVersion.toNat ≤ 4 := by
      omega
    cases fact with
    | fill identity fill =>
        rw [(IsAccountRecord.ofStored _ fill.timestampMs rfl).fill unknown rfl]
        exact isOk_map_some (durableAccountFill_fails rfl)
    | settlement identity market outcome settledSize proceeds timestampMs =>
        rw [(IsAccountRecord.ofStored _ timestampMs rfl).settlement unknown rfl]
        exact isOk_map_some (durableAccountSettlement_fails rfl)
    | orderAck strategy orderId timestampMs =>
        exact absurd ⟨bounds, trivial⟩ unreadable
    | orderCancelled strategy orderId timestampMs =>
        exact absurd ⟨bounds, trivial⟩ unreadable
    | orderRejected strategy orderId reason timestampMs =>
        exact absurd ⟨bounds, trivial⟩ unreadable
    | orderStatus strategy orderId status timestampMs =>
        exact absurd ⟨bounds, trivial⟩ unreadable

/-- Every other fact is nothing to the reader. -/
theorem durableAccountEvent_none (readable : envelope.Readable) :
    durableAccountEvent parseDecimal envelope.portfolio
      (storedEnvelope scope envelope.metadata envelope.rawFrame
        (accountEnvelopeJson format envelope)) = .ok none := by
  obtain ⟨portfolio, metadata, rawFrame, fact⟩ := envelope
  obtain ⟨bounds, order⟩ := readable
  have supported : ¬ (metadata.schemaVersion.toNat = 0 ∨
      4 < metadata.schemaVersion.toNat) := by
    simp only at bounds
    omega
  cases fact with
  | fill identity fill => exact order.elim
  | settlement identity market outcome settledSize proceeds timestampMs =>
      exact order.elim
  | orderAck strategy orderId timestampMs =>
      exact (IsAccountRecord.ofStored _ timestampMs rfl).order supported rfl
        (by simp)
  | orderCancelled strategy orderId timestampMs =>
      exact (IsAccountRecord.ofStored _ timestampMs rfl).order supported rfl
        (by simp)
  | orderRejected strategy orderId reason timestampMs =>
      exact (IsAccountRecord.ofStored _ timestampMs rfl).order supported rfl
        (by simp)
  | orderStatus strategy orderId status timestampMs =>
      exact (IsAccountRecord.ofStored _ timestampMs rfl).order supported rfl
        (by simp)

end Reading

theorem LiveState.riskAfter_agrees
    {S V : Type} {run : LiveRun S V} (account : run.accountData = true)
    (risk : LiveRiskState) {envelope : SourceEnvelope Decimal}
    (readable : envelope.Readable) :
    risk.Agrees (riskAfter run risk envelope) := by
  have authority : run.fillAuthority = .account := by
    rw [LiveRun.fillAuthority, if_pos account]
  cases envelope with
  | cexReference reference => exact .refl risk
  | pmMarket market =>
      simp only [riskAfter, authority]
      split
      · exact LiveRiskState.updateBook_agrees _ _ _ _ _ _
      · rename_i no
        cases no
      · exact .refl risk
  | pmAccount account =>
      obtain ⟨portfolio, metadata, rawFrame, fact⟩ := account
      cases fact with
      | fill identity fill => exact readable.2.elim
      | settlement identity market outcome settledSize proceeds timestampMs =>
          exact readable.2.elim
      | orderAck strategy orderId timestampMs => exact .refl risk
      | orderCancelled strategy orderId timestampMs => exact .refl risk
      | orderRejected strategy orderId reason timestampMs => exact .refl risk
      | orderStatus strategy orderId status timestampMs => exact .refl risk

/-! ## Reading the rows again -/

section Rows

variable {S V : Type} (run : LiveRun S V)

def LiveRun.readRow (state : LiveRiskState) (row : EnvelopeRow) :
    Except StoreError LiveRiskState :=
  state.applyItem run.parseDecimal run.markets run.risk run.scope.portfolioId
    .account (decodeRow run.text row)

theorem reconstructRiskState_eq (table : EnvelopeTable) :
    reconstructRiskState run.parseDecimal run.markets run.risk run.text table
        run.scope .account =
      (table.scopeRows run.scope).foldlM run.readRow .default := by
  rw [reconstructRiskState, EnvelopeTable.forAll_eq (by decide),
    List.foldlM_map]
  rfl

variable {run} {before after : EnvelopeTable} {added : List EnvelopeRow}

theorem conflicts_self (row : EnvelopeRow) : row.conflicts row = true := by
  simp [EnvelopeRow.conflicts]

theorem reconstructRiskState_skips (rows : after.rows = before.rows ++ added)
    (skips : ∀ row ∈ added, ∀ state, run.readRow state row = .ok state) :
    reconstructRiskState run.parseDecimal run.markets run.risk run.text after
        run.scope .account =
      reconstructRiskState run.parseDecimal run.markets run.risk run.text
        before run.scope .account := by
  have fresh : ∀ row ∈ added, row ∉ before.rows := by
    intro row mem stored
    have apart := after.separated
    rw [rows] at apart
    have clash := (List.pairwise_append.mp apart).2.2 row stored row mem
    rw [conflicts_self] at clash
    cases clash
  have kept : (after.rows.filter fun row => row.scope = run.scope).filter
      (fun row => decide (row ∈ before.rows)) =
        before.rows.filter fun row => row.scope = run.scope := by
    rw [List.filter_filter, rows, List.filter_append]
    have none : (added.filter fun row => decide (row ∈ before.rows) &&
        decide (row.scope = run.scope)) = [] := by
      rw [List.filter_eq_nil_iff]
      intro row mem
      simp [fresh row mem]
    rw [none, List.append_nil]
    apply List.filter_congr
    intro row mem
    simp [mem]
  have sorted := Table.orderBy_filter
    (@EnvelopeTable.scopeRows_pairwise after run.scope)
    (fun row => decide (row ∈ before.rows))
  rw [kept] at sorted
  rw [reconstructRiskState_eq, reconstructRiskState_eq,
    foldlM_filter (fun row => decide (row ∈ before.rows)) _]
  · exact congrArg (fun rows => List.foldlM run.readRow .default rows)
      sorted.symm
  · intro row mem absent state
    have inside : row ∈ before.rows ++ added := by
      rw [← rows]
      exact List.mem_of_mem_filter (Table.mem_orderBy.mp mem)
    have isNew := (List.mem_append.mp inside).resolve_left
      (by simpa using absent)
    exact skips row isNew state

theorem reconstructRiskState_fails
    {row : EnvelopeRow} (mem : row ∈ after.rows)
    (own : row.scope = run.scope)
    (fails : ∀ state, (run.readRow state row).isOk = false) :
    (reconstructRiskState run.parseDecimal run.markets run.risk run.text after
      run.scope .account).isOk = false := by
  rw [reconstructRiskState_eq]
  have read : row ∈ after.scopeRows run.scope :=
    Table.mem_orderBy.mpr (List.mem_filter.mpr ⟨mem, by simpa using own⟩)
  exact foldlM_fails read fails .default

variable {envelope : SourceEnvelope Decimal} {stored : PmEnvelope}

theorem readRow_envelope
    (toStore : envelope.toStore run.format run.scope = some stored)
    (readBack : run.text.parseJson (run.text.writeJson stored.normalized) =
      some stored.normalized)
    (state : LiveRiskState) :
    run.readRow state (.ofEnvelope run.text stored) =
      (state.applyDurableAccountRecord run.parseDecimal run.markets run.risk
        run.portfolio stored).mapError riskStorageError := by
  have shape : stored.schemaVersion = pmEnvelopeVersion ∧
      stored.normalized.isObject = true := by
    cases envelope with
    | pmMarket market =>
        cases toStore
        exact ⟨rfl, rfl⟩
    | pmAccount account =>
        cases toStore
        exact ⟨rfl, rfl⟩
    | cexReference reference => cases toStore
  rw [LiveRun.readRow, EnvelopeTable.decodeRow_ofEnvelope shape.1 readBack
    shape.2]
  rfl

theorem readRow_skips
    (toStore : envelope.toStore run.format run.scope = some stored)
    (readBack : run.text.parseJson (run.text.writeJson stored.normalized) =
      some stored.normalized)
    (owned : LiveState.ownerError run envelope = none)
    (readable : envelope.Readable) (state : LiveRiskState) :
    run.readRow state (.ofEnvelope run.text stored) = .ok state := by
  rw [readRow_envelope toStore readBack]
  cases envelope with
  | cexReference reference => cases toStore
  | pmMarket market =>
      cases toStore
      rfl
  | pmAccount account =>
      have owner : account.portfolio = run.portfolio := by
        by_contra foreign
        rw [LiveState.ownerError, if_neg foreign] at owned
        cases owned
      cases toStore
      rw [LiveRiskState.applyDurableAccountRecord, ← owner,
        durableAccountEvent_none readable]
      rfl

theorem readRow_fails {account : PmAccountEnvelope Decimal}
    (toStore : (SourceEnvelope.pmAccount account).toStore run.format
      run.scope = some stored)
    (readBack : run.text.parseJson (run.text.writeJson stored.normalized) =
      some stored.normalized)
    (owned : LiveState.ownerError run (.pmAccount account) = none)
    (unreadable : ¬ account.Readable) (state : LiveRiskState) :
    (run.readRow state (.ofEnvelope run.text stored)).isOk = false := by
  rw [readRow_envelope toStore readBack]
  have owner : account.portfolio = run.portfolio := by
    by_contra foreign
    rw [LiveState.ownerError, if_neg foreign] at owned
    cases owned
  cases toStore
  have fails : (durableAccountEvent run.parseDecimal account.portfolio
      (storedEnvelope run.scope account.metadata account.rawFrame
        (accountEnvelopeJson run.format account))).isOk = false :=
    durableAccountEvent_fails unreadable
  rw [LiveRiskState.applyDurableAccountRecord, ← owner]
  cases read : durableAccountEvent run.parseDecimal account.portfolio
      (storedEnvelope run.scope account.metadata account.rawFrame
        (accountEnvelopeJson run.format account)) with
  | error error => rfl
  | ok event =>
      rw [read] at fails
      cases fails

end Rows

theorem SmallRun.buy_readBack :
    text.parseJson (text.writeJson (accountEnvelopeJson format buy)) =
      some (accountEnvelopeJson format buy) := by
  simp [text]

namespace LiveState

variable {S V : Type} {run : LiveRun S V}

theorem applyReservationFill_store
    (fill : FillEvent Decimal) (state : LiveState S V) :
    (state.applyReservationFill fill).store = state.store :=
  (applyReservationFill_sameRisk fill state).2.1

/-- What a fact does after it is stored leaves the envelopes. -/
theorem processEvent_envelopes
    (run : LiveRun S V) (envelope : SourceEnvelope Decimal)
    (state : LiveState S V) :
    (state.processEvent run envelope).store.map LiveStore.envelopes =
      state.store.map LiveStore.envelopes := by
  cases envelope with
  | cexReference reference => exact (dispatch_sameFacts run _ _ _).envelopes
  | pmAccount account =>
      simp only [processEvent, accountEvent]
      split
      · rfl
      · split
        · split
          · rw [applyReservationFill_store]
          · rfl
        · rfl
        · rfl
        · rfl
        · rfl
        · rfl
  | pmMarket market =>
      simp only [processEvent, marketEvent]
      split
      · rw [bookUpdate, (dispatch_sameFacts run _ _ _).envelopes]
        unfold recordBreach
        split
        · rfl
        · rename_i store found
          split
          · have before : state.store = some store := found
            rw [before]
            rfl
          · rfl
      · split
        · rfl
        · split
          · rw [applyReservationFill_store]
          · rfl
      · rfl
      · rfl
      · rfl
      · rfl

variable {state : LiveState S V} {envelope : SourceEnvelope Decimal}
  {facts : List (SourceEnvelope Decimal)} {store : LiveStore}

theorem takes_of_running (running : (state.step run envelope).result = none) :
    state.Takes run envelope := by
  unfold step at running
  split at running
  · rename_i stopped
    rw [running] at stopped
    cases stopped
  · rename_i going
    split at running
    · cases running
    · rename_i owned
      simp only at running
      split at running
      · rename_i stopped
        rw [running] at stopped
        cases stopped
      · rename_i stored
        exact ⟨by simpa using going, owned, by simpa using stored⟩

theorem step_stopped (stopped : state.result.isSome = true)
    (envelope : SourceEnvelope Decimal) :
    state.step run envelope = state := by
  unfold step
  rw [if_pos stopped]

theorem running_of_run
    (running : (Trace.run (step run) state facts).result = none) :
    state.result = none := by
  by_contra stopped
  have stays : (Trace.run (step run) state facts).result.isSome = true :=
    @Trace.run_invariant _ _ _
      (fun state : LiveState S V => state.result.isSome = true)
      (fun state envelope stopped => by
        rw [step_stopped stopped]
        exact stopped) _ facts
      (Option.isSome_iff_ne_none.mpr stopped)
  rw [running] at stays
  cases stays

/-- A fact that is taken adds its row. -/
theorem step_rows (takes : state.Takes run envelope)
    (found : state.store = some store) :
    ∃ next, (state.step run envelope).store = some next ∧
      next.envelopes.rows = store.envelopes.rows ++
        (envelope.row run.text run.format run.scope).toList := by
  have kept := processEvent_envelopes run envelope
    (state.storeFact run envelope)
  rw [step_of_takes takes]
  rcases storeFact_eq takes.2.2 with
    ⟨none, _⟩ | ⟨before, envelopes, same, stores, written⟩
  · rw [found] at none
    cases none
  · rw [found] at same
    cases same
    rw [written] at kept ⊢
    obtain ⟨next, present, sameEnvelopes⟩ := Option.map_eq_some_iff.mp kept
    refine ⟨next, present, ?_⟩
    rw [sameEnvelopes]
    exact storeSignal_rows stores

theorem run_rows (found : state.store = some store)
    (running : (Trace.run (step run) state facts).result = none) :
    ∃ last, (Trace.run (step run) state facts).store = some last ∧
      last.envelopes.rows = store.envelopes.rows ++ facts.filterMap
        (SourceEnvelope.row run.text run.format run.scope) ∧
      (Trace.run (step run) state facts).risk =
        facts.foldl (riskAfter run) state.risk ∧
      ∀ envelope ∈ facts, ownerError run envelope = none := by
  induction facts generalizing state store with
  | nil =>
      refine ⟨store, found, ?_, rfl, ?_⟩
      · simp
      · intro envelope mem
        cases mem
  | cons envelope rest ih =>
      have takes := takes_of_running (running_of_run running)
      obtain ⟨next, present, rows⟩ := step_rows takes found
      obtain ⟨last, final, allRows, risk, owned⟩ :=
        ih present running
      refine ⟨last, final, ?_, ?_, ?_⟩
      · rw [allRows, rows, List.append_assoc, List.filterMap_cons]
        cases SourceEnvelope.row run.text run.format run.scope envelope with
        | none => rfl
        | some row => rfl
      · rw [Trace.run_cons, risk, step_risk takes, List.foldl_cons]
      · intro other mem
        rcases List.mem_cons.mp mem with rfl | later
        · exact takes.2.1
        · exact owned other later

/-- The parts of a state that a restart reads. -/
structure SameRisk (before after : LiveState S V) : Prop where
  risk : after.risk = before.risk
  envelopes : after.store.map LiveStore.envelopes =
    before.store.map LiveStore.envelopes

theorem SameRisk.trans
    {before middle after : LiveState S V} (first : SameRisk before middle)
    (second : SameRisk middle after) : SameRisk before after where
  risk := second.risk.trans first.risk
  envelopes := second.envelopes.trans first.envelopes

theorem recoverIntents_sameRisk (run : LiveRun S V) (intents : List OrderIntent)
    (found : state.store = some store) :
    SameRisk state (recoverIntents run store intents state) := by
  induction intents generalizing store state with
  | nil =>
      exact ⟨rfl, rfl⟩
  | cons intent rest ih =>
      rw [recoverIntents]
      split
      · exact ⟨rfl, rfl⟩
      · exact ⟨rfl, rfl⟩
      · rename_i intents _
        have written : SameRisk state
            (state.write { store with intents := intents }) :=
          ⟨rfl, by rw [found]; rfl⟩
        exact written.trans (ih rfl)

theorem recover_risk (found : state.store = some store)
    (recovered : (state.recover run).result = none) :
    ∃ last, (state.recover run).store = some last ∧
      last.envelopes = store.envelopes ∧
      reconstructRiskState run.parseDecimal run.markets run.risk run.text
        store.envelopes run.scope run.fillAuthority =
          .ok (state.recover run).risk := by
  unfold recover at recovered ⊢
  rw [found] at recovered ⊢
  simp only at recovered ⊢
  obtain ⟨settled, sameOrders⟩ := andThen_running recovered
  obtain ⟨counted, sameIntents⟩ := andThen_running settled
  obtain ⟨read, sameRates⟩ := andThen_running counted
  have risk : reconstructRiskState run.parseDecimal run.markets run.risk
      run.text store.envelopes run.scope run.fillAuthority =
        .ok (state.recoverRisk run store).risk ∧
      (state.recoverRisk run store).store = some store := by
    unfold recoverRisk at read ⊢
    cases reconstructed : reconstructRiskState run.parseDecimal run.markets
        run.risk run.text store.envelopes run.scope run.fillAuthority with
    | error source =>
        rw [reconstructed] at read
        cases read
    | ok risk => exact ⟨rfl, found⟩
  have rates : SameRisk (state.recoverRisk run store)
      ((state.recoverRisk run store).recoverRates run store) ∧
      ((state.recoverRisk run store).recoverRates run store).store =
        some store := by
    unfold recoverRates
    split
    · exact ⟨⟨rfl, rfl⟩, risk.2⟩
    · exact ⟨⟨rfl, rfl⟩, risk.2⟩
  have orders : ∀ next : LiveState S V,
      SameRisk next (next.recoverOrders run) := by
    intro next
    unfold recoverOrders
    split
    · exact ⟨rfl, rfl⟩
    · split
      · exact ⟨rfl, rfl⟩
      · split
        · exact ⟨rfl, rfl⟩
        · exact ⟨rfl, rfl⟩
  rw [sameOrders, sameIntents, sameRates]
  have last := (rates.1.trans (recoverIntents_sameRisk run
    (store.intents.readByState run.scope .pending ++
      store.intents.readByState run.scope .unknown) rates.2)).trans (orders _)
  have stored := last.envelopes
  rw [risk.2] at stored
  obtain ⟨next, present, same⟩ := Option.map_eq_some_iff.mp stored
  exact ⟨next, present, same, by rw [last.risk]; exact risk.1⟩

theorem start_risk {venue : V}
    (started : (start run (some store) venue).result = none) :
    ∃ last, (start run (some store) venue).store = some last ∧
      last.envelopes = store.envelopes ∧
      reconstructRiskState run.parseDecimal run.markets run.risk run.text
        store.envelopes run.scope run.fillAuthority =
          .ok (start run (some store) venue).risk := by
  unfold start at started ⊢
  obtain ⟨opened, same⟩ := andThen_running started
  obtain ⟨checked, sameOpened⟩ := andThen_running opened
  obtain ⟨created, sameChecked⟩ := andThen_running checked
  rw [same] at started ⊢
  apply recover_risk _ started
  rw [sameOpened, sameChecked]
  have made : ((unstarted (some store) venue).instantiate run).store =
      some store := by
    unfold instantiate
    split
    · rfl
    · rfl
  have alive : (((unstarted (some store) venue).instantiate
      run).checkKillState run).store = some store := by
    unfold checkKillState
    split
    · exact made
    · exact made
  unfold initialOpenOrders reconcileOpenOrders
  simp only
  split
  · exact alive
  · split
    · exact alive
    · exact alive

/-! ## Restarts -/

theorem foldl_riskAfter_agrees (account : run.accountData = true)
    (readable : ∀ envelope ∈ facts, envelope.Readable)
    (risk : LiveRiskState) :
    risk.Agrees (facts.foldl (riskAfter run) risk) := by
  induction facts generalizing risk with
  | nil =>
      exact .refl risk
  | cons envelope rest ih =>
      rw [List.foldl_cons]
      exact (riskAfter_agrees account risk
        (readable envelope List.mem_cons_self)).trans
          (ih (fun other mem =>
            readable other (List.mem_cons_of_mem envelope mem)) _)

theorem reconstructRiskState_unreadable {last : LiveStore}
    (found : state.store = some store)
    (running : (Trace.run (step run) state facts).result = none)
    (final : (Trace.run (step run) state facts).store = some last)
    {account : PmAccountEnvelope Decimal} (mem : .pmAccount account ∈ facts)
    (readBack : run.text.parseJson (run.text.writeJson
      (accountEnvelopeJson run.format account)) =
        some (accountEnvelopeJson run.format account))
    (unreadable : ¬ account.Readable) :
    (reconstructRiskState run.parseDecimal run.markets run.risk run.text
      last.envelopes run.scope .account).isOk = false := by
  obtain ⟨same, present, rows, _, owned⟩ := run_rows found running
  rw [final] at present
  cases present
  have row : EnvelopeRow.ofEnvelope run.text (storedEnvelope run.scope
      account.metadata account.rawFrame
      (accountEnvelopeJson run.format account)) ∈ last.envelopes.rows := by
    rw [rows]
    exact List.mem_append_right _
      (List.mem_filterMap.mpr ⟨.pmAccount account, mem, rfl⟩)
  exact reconstructRiskState_fails row rfl
    (readRow_fails rfl readBack (owned _ mem) unreadable)

/-- A restart after any running run of an account knows what the run knew
just when the run took no fact that moves a position. -/
theorem reconstructRiskState_iff
    (run : LiveRun S V) (account : run.accountData = true) (store : LiveStore)
    (venue : V) (started : (start run (some store) venue).result = none)
    (facts : List (SourceEnvelope Decimal))
    (running : (Trace.run (step run) (start run (some store) venue)
      facts).result = none)
    (readBack : ∀ envelope ∈ facts, ∀ stored,
      envelope.toStore run.format run.scope = some stored →
      run.text.parseJson (run.text.writeJson stored.normalized) =
        some stored.normalized) :
    (∃ last risk,
      (Trace.run (step run) (start run (some store) venue) facts).store =
          some last ∧
        reconstructRiskState run.parseDecimal run.markets run.risk run.text
          last.envelopes run.scope .account = .ok risk ∧
        risk.Agrees (Trace.run (step run) (start run (some store) venue)
          facts).risk) ↔
      ∀ envelope ∈ facts, envelope.Readable := by
  obtain ⟨first, found, sameEnvelopes, recovered⟩ := start_risk started
  obtain ⟨last, final, rows, risk, owned⟩ := run_rows found running
  have authority : run.fillAuthority = .account := by
    rw [LiveRun.fillAuthority, if_pos account]
  rw [authority] at recovered
  rw [sameEnvelopes] at rows
  constructor
  · rintro ⟨same, rebuilt, present, reads, _⟩ envelope member
    rw [final] at present
    cases present
    by_contra unreadable
    cases envelope with
    | pmMarket market => exact unreadable trivial
    | cexReference reference => exact unreadable trivial
    | pmAccount account =>
        have fails := reconstructRiskState_unreadable found running final
          member (readBack _ member _ rfl) unreadable
        rw [reads] at fails
        cases fails
  · intro readable
    refine ⟨last, (start run (some store) venue).risk, final, ?_, ?_⟩
    · rw [← recovered]
      apply reconstructRiskState_skips rows
      intro row member
      obtain ⟨envelope, inside, stored⟩ := List.mem_filterMap.mp member
      obtain ⟨toStore, kept, rfl⟩ := Option.map_eq_some_iff.mp stored
      exact readRow_skips kept (readBack envelope inside toStore kept)
        (owned envelope inside) (readable envelope inside)
    · rw [risk]
      exact foldl_riskAfter_agrees account readable _

theorem reconstructRiskState_smallRun :
    (∃ last risk,
      (Trace.run (step SmallRun.accountRun)
        (start SmallRun.accountRun (some SmallRun.store) ())
        [.pmAccount SmallRun.buy]).store = some last ∧
        reconstructRiskState SmallRun.accountRun.parseDecimal
          SmallRun.accountRun.markets SmallRun.accountRun.risk
          SmallRun.accountRun.text last.envelopes SmallRun.accountRun.scope
          .account = .ok risk ∧
        risk.Agrees (Trace.run (step SmallRun.accountRun)
          (start SmallRun.accountRun (some SmallRun.store) ())
          [.pmAccount SmallRun.buy]).risk) ↔
      ∀ envelope ∈ [SourceEnvelope.pmAccount SmallRun.buy],
        envelope.Readable := by
  have running : (Trace.run (step SmallRun.accountRun)
      (start SmallRun.accountRun (some SmallRun.store) ())
      [.pmAccount SmallRun.buy]).result.isNone = true := by
    decide +kernel
  refine reconstructRiskState_iff SmallRun.accountRun rfl SmallRun.store ()
    SmallRun.accountRun_starts _ (Option.isNone_iff_eq_none.mp running) ?_
  intro envelope member stored kept
  rw [List.mem_singleton.mp member] at kept
  cases kept
  exact SmallRun.buy_readBack

/-- A fill that the run has stored and applied ends every restart. -/
theorem buy_not_reconstructed :
    (Trace.run (step SmallRun.accountRun)
      (start SmallRun.accountRun (some SmallRun.store) ())
      [.pmAccount SmallRun.buy]).result = none ∧
      ¬ ∃ last risk,
        (Trace.run (step SmallRun.accountRun)
          (start SmallRun.accountRun (some SmallRun.store) ())
          [.pmAccount SmallRun.buy]).store = some last ∧
          reconstructRiskState SmallRun.accountRun.parseDecimal
            SmallRun.accountRun.markets SmallRun.accountRun.risk
            SmallRun.accountRun.text last.envelopes SmallRun.accountRun.scope
            .account = .ok risk ∧
          risk.Agrees (Trace.run (step SmallRun.accountRun)
            (start SmallRun.accountRun (some SmallRun.store) ())
            [.pmAccount SmallRun.buy]).risk := by
  have running : (Trace.run (step SmallRun.accountRun)
      (start SmallRun.accountRun (some SmallRun.store) ())
      [.pmAccount SmallRun.buy]).result = none :=
    Option.isNone_iff_eq_none.mp (by decide +kernel)
  refine ⟨running, ?_⟩
  rintro ⟨last, risk, final, reads, _⟩
  obtain ⟨first, found, _⟩ := start_risk SmallRun.accountRun_starts
  have fails := reconstructRiskState_unreadable found running final
    List.mem_cons_self SmallRun.buy_readBack fun readable => readable.2
  rw [reads] at fails
  cases fails

end LiveState

end Pmkit
