import Pmkit.Live.Recovery

/-!
# The submissions of earlier starts

A submission that passed the rate limits is written as an intent before the
venue is called, and again as a verdict of its decision after all actions of
the decision.  A start counts the verdicts, and those intents whose correlation
id is not that of a counted verdict.
-/

namespace Pmkit

open MachineInt JsonValue Fallible

def CausalIdentity.intent (decision : CausalIdentity) (actionIndex : UInt32) :
    CausalIdentity :=
  { decision with
    correlationId := intentCorrelationId decision.correlationId actionIndex }

def CausalDecision.acceptedActions (decision : CausalDecision JsonValue) :
    List UInt32 :=
  match decisionSubmissions decision.payload with
  | .ok submissions => submissions.map Prod.fst
  | .error _ => []

def LiveStore.decidedIntents (store : LiveStore) (scope : OwnerScope) :
    List CausalIdentity :=
  (readDecisions store.decisions scope).flatMap fun decision =>
    decision.acceptedActions.map decision.identity.intent

def LiveStore.intentIdentities (store : LiveStore) (scope : OwnerScope) :
    List CausalIdentity :=
  store.intents.keys.filter fun identity => identity.scope = scope

def LiveStore.decidedIds (store : LiveStore) (scope : OwnerScope) :
    List String :=
  (store.decidedIntents scope).map CausalIdentity.correlationId

/-- No intent has the correlation id of a decided one without being decided
itself. -/
def LiveStore.Unambiguous (store : LiveStore) (scope : OwnerScope) : Prop :=
  ∀ identity ∈ store.intentIdentities scope,
    identity.correlationId ∈ store.decidedIds scope →
    identity ∈ store.decidedIntents scope

def submittedMsOf (payload : JsonValue) : Option I64 :=
  ((payload.get "submitted_ms").bind asI64).map I64.clamp

def IntentTable.submittedMs (table : IntentTable)
    (identity : CausalIdentity) : Option I64 :=
  (table.lookup identity).bind fun row => submittedMsOf row.payload

def LiveStore.submission {S : Type} (store : LiveStore)
    (registrations : List (StrategyRegistration S))
    (identity : CausalIdentity) : Option StrategyId × Option I64 :=
  (correlationStrategy identity.correlationId registrations,
    store.intents.submittedMs identity)

/-- A submission as the rate windows take it. -/
def LiveStore.counted {S : Type} (store : LiveStore)
    (registrations : List (StrategyRegistration S))
    (identity : CausalIdentity) : Option StrategyId × I64 :=
  ((store.submission registrations identity).1,
    ((store.submission registrations identity).2).getD 0)

def LiveStore.Fresh (store : LiveStore) (scope : OwnerScope) : Prop :=
  (∀ decision ∈ store.decisions, decision.identity.scope ≠ scope) ∧
    ∀ identity ∈ store.intents.keys, identity.scope ≠ scope

/-- What a run can leave: it starts on what is left, takes facts, and stops
after any of its durable writes.  The admissions of all its starts add up. -/
inductive CrashPoint.Left {S V : Type} (run : LiveRun S V) :
    CrashPoint → Prop where
  | fresh {store : LiveStore} (fresh : store.Fresh run.scope) :
      Left run { store := store, admitted := [] }
  | crash {before after : CrashPoint} {venue : V}
      {facts : List (SourceEnvelope Decimal)} (left : Left run before)
      (written : after ∈ (Trace.run (LiveState.step run)
        (LiveState.start run (some before.store) venue) facts).trace.left) :
      Left run
        { store := after.store
          admitted := after.admitted ++ before.admitted }

/-! ## Counting -/

theorem CausalIdentity.intent_inj
    {left right : CausalIdentity} {leftIndex rightIndex : UInt32} :
    left.intent leftIndex = right.intent rightIndex ↔
      left = right ∧ leftIndex = rightIndex := by
  constructor
  · intro same
    rw [CausalIdentity.intent, CausalIdentity.intent, CausalIdentity.mk.injEq]
      at same
    obtain ⟨scope, correlation, timestamp, sequence⟩ := same
    obtain ⟨decision, index⟩ := intentCorrelationId_inj.mp correlation
    refine ⟨?_, index⟩
    cases left
    cases right
    rw [CausalIdentity.mk.injEq]
    exact ⟨scope, decision, timestamp, sequence⟩
  · rintro ⟨rfl, rfl⟩
    rfl

theorem allIntents_perm (store : LiveStore) (scope : OwnerScope) :
    (LiveState.allIntents store scope).Perm
      ((store.intents.entries.filter fun entry =>
        entry.1.scope = scope).map fun entry =>
          { identity := entry.1, payload := entry.2.payload }) := by
  have read : ∀ state, (store.intents.readByState scope state).Perm
      ((store.intents.entries.filter fun entry =>
        entry.1.scope = scope ∧ entry.2.state = state).map fun entry =>
          { identity := entry.1, payload := entry.2.payload }) :=
    fun state => Table.orderBy_perm _ _
  refine ((((read .pending).append (read .unknown)).append
    (read .accepted)).append (read .rejected)).trans ?_
  rw [← List.map_append, ← List.map_append, ← List.map_append]
  apply List.Perm.map
  induction store.intents.entries with
  | nil =>
      simp
  | cons entry rest ih =>
      by_cases own : entry.1.scope = scope
      · cases state : entry.2.state with
        | pending =>
            simpa [own, state] using ih
        | unknown =>
            simp only [own, state, List.filter_cons, decide_true, if_true,
              true_and, reduceCtorEq, decide_false, Bool.false_eq_true,
              if_false, List.append_assoc, List.cons_append]
            refine List.perm_middle.trans (List.Perm.cons entry ?_)
            simpa [List.append_assoc] using ih
        | accepted =>
            simp only [own, state, List.filter_cons, decide_true, if_true,
              true_and, reduceCtorEq, decide_false, Bool.false_eq_true,
              if_false]
            rw [List.append_assoc]
            refine List.perm_middle.trans (List.Perm.cons entry ?_)
            simpa [List.append_assoc] using ih
        | rejected =>
            simp only [own, state, List.filter_cons, decide_true, if_true,
              true_and, reduceCtorEq, decide_false, Bool.false_eq_true,
              if_false]
            exact List.perm_middle.trans
              (List.Perm.cons entry ih)
      · simpa [own] using ih

/-- A decision whose accepted actions are stored as intents of its time. -/
structure LiveStore.Accounts {S V : Type} (run : LiveRun S V)
    (store : LiveStore) (decision : CausalDecision JsonValue)
    (timestampMs : I64) (kind : DecisionKind) : Prop where
  payload : decision.payload = decisionPayload timestampMs kind
  once : kind.acceptedActions.Nodup
  strategy : ∃ registration ∈ run.strategies,
    startsWith decision.identity.correlationId
      (strategyPrefix registration.id) = true
  stored : ∀ actionIndex ∈ kind.acceptedActions,
    store.intents.submittedMs (decision.identity.intent actionIndex) =
      some timestampMs

/-- The causal tables of a run and the submissions it admitted. -/
structure LiveStore.Coherent {S V : Type} (run : LiveRun S V)
    (store : LiveStore) (admitted : List (StrategyId × I64)) : Prop where
  identities : ((store.decisions.filter fun decision =>
    decision.identity.scope = run.scope).map
      CausalDecision.identity).Nodup
  decisions : ∀ decision ∈ store.decisions,
    decision.identity.scope = run.scope →
      ∃ timestampMs kind, store.Accounts run decision timestampMs kind
  admitted : (admitted.map fun submission =>
    (some submission.1, some submission.2)).Perm
      ((store.intentIdentities run.scope).map
        (store.submission run.strategies))

section Counting

variable {S V : Type} {run : LiveRun S V} {store : LiveStore}
  {admitted : List (StrategyId × I64)}

variable {decision : CausalDecision JsonValue} {identity : CausalIdentity}

theorem mem_readDecisions
    {rows : List (CausalDecision JsonValue)} {scope : OwnerScope}
    :
    decision ∈ readDecisions rows scope ↔
      decision ∈ rows ∧ decision.identity.scope = scope := by
  rw [readDecisions, (Table.orderBy_perm _ _).mem_iff, List.mem_filter]
  simp

theorem LiveStore.Accounts.acceptedActions {timestampMs : I64}
    {kind : DecisionKind}
    (accounts : store.Accounts run decision timestampMs kind) :
    decision.acceptedActions = kind.acceptedActions := by
  rw [CausalDecision.acceptedActions, accounts.payload,
    decisionSubmissions_payload]
  simp [Function.comp_def]

theorem LiveStore.Accounts.intentStrategy {timestampMs : I64}
    {kind : DecisionKind}
    (accounts : store.Accounts run decision timestampMs kind)
    (actionIndex : UInt32) :
    correlationStrategy (decision.identity.intent actionIndex).correlationId
        run.strategies =
      correlationStrategy decision.identity.correlationId run.strategies := by
  obtain ⟨registration, registered, starts⟩ := accounts.strategy
  rw [correlationStrategy_eq registered starts]
  apply correlationStrategy_eq registered
  rw [CausalIdentity.intent, intentCorrelationId]
  exact startsWith_append (startsWith_append starts _) _

theorem LiveStore.Coherent.decisionHistory
    (coherent : store.Coherent run admitted)
    (read : decision ∈ readDecisions store.decisions run.scope) :
    decisionHistory run.strategies decision =
      .ok ((decision.acceptedActions.map decision.identity.intent).map
        fun identity => (identity.correlationId,
          store.counted run.strategies identity)) := by
  obtain ⟨mem, own⟩ := mem_readDecisions.mp read
  obtain ⟨timestampMs, kind, accounts⟩ :=
    coherent.decisions decision mem own
  rw [Pmkit.decisionHistory, accounts.payload, decisionSubmissions_payload]
  simp only [Except.map, accounts.acceptedActions, List.map_map]
  congr 1
  apply List.map_congr_left
  intro actionIndex accepted
  simp only [Function.comp_apply, LiveStore.counted, LiveStore.submission,
    accounts.stored actionIndex accepted, accounts.intentStrategy,
    Option.getD_some]
  rfl

theorem LiveStore.Coherent.counted_admitted
    (coherent : store.Coherent run admitted) :
    ((store.intentIdentities run.scope).map (store.counted run.strategies)).Perm
        (admitted.map fun submission => (some submission.1, submission.2)) := by
  have mapped := (coherent.admitted.map fun submission =>
    (submission.1, submission.2.getD 0)).symm
  simp only [List.map_map, Function.comp_def, Option.getD_some] at mapped
  exact mapped

theorem LiveStore.Coherent.submittedMs_isSome
    (coherent : store.Coherent run admitted)
    (stored : identity ∈ store.intentIdentities run.scope) :
    (store.intents.submittedMs identity).isSome = true := by
  have mem := coherent.admitted.symm.subset
    (List.mem_map_of_mem (f := store.submission run.strategies) stored)
  obtain ⟨submission, _, same⟩ := List.mem_map.mp mem
  have time := congrArg Prod.snd same
  simp only [LiveStore.submission] at time
  rw [← time]
  rfl

theorem LiveStore.Coherent.intentHistory
    (coherent : store.Coherent run admitted) {intent : OrderIntent}
    (read : intent ∈ LiveState.allIntents store run.scope) :
    intentHistory run.strategies intent =
      .ok (store.counted run.strategies intent.identity) := by
  rw [(allIntents_perm store run.scope).mem_iff] at read
  obtain ⟨entry, inside, rfl⟩ := List.mem_map.mp read
  obtain ⟨mem, own⟩ := List.mem_filter.mp inside
  have found : store.intents.lookup entry.1 = some entry.2 :=
    KeyedMap.lookup_iff_mem_entries.mpr mem
  have stored : entry.1 ∈ store.intentIdentities run.scope :=
    List.mem_filter.mpr ⟨KeyedMap.mem_keys_of_lookup found, own⟩
  have some := coherent.submittedMs_isSome stored
  simp only [IntentTable.submittedMs, found, Option.bind_some] at some
  unfold Pmkit.intentHistory LiveStore.counted LiveStore.submission
    IntentTable.submittedMs
  simp only [found, Option.bind_some]
  unfold submittedMsOf at some ⊢
  cases time : (entry.2.payload.get "submitted_ms").bind asI64 with
  | none =>
      rw [time] at some
      cases some
  | some timestampMs => rfl

theorem intentIdentities_nodup (scope : OwnerScope) :
    (store.intentIdentities scope).Nodup :=
  store.intents.keys_nodup.filter _

theorem LiveStore.Coherent.decidedIntents_nodup
    (coherent : store.Coherent run admitted) :
    (store.decidedIntents run.scope).Nodup := by
  have ordered : ((readDecisions store.decisions run.scope).map
      CausalDecision.identity).Nodup :=
    ((Table.orderBy_perm _ _).map _).nodup_iff.mpr coherent.identities
  rw [LiveStore.decidedIntents, List.nodup_flatMap]
  refine ⟨?_, ?_⟩
  · intro decision read
    obtain ⟨mem, own⟩ := mem_readDecisions.mp read
    obtain ⟨timestampMs, kind, accounts⟩ :=
      coherent.decisions decision mem own
    rw [accounts.acceptedActions]
    exact accounts.once.map fun left right same =>
      (CausalIdentity.intent_inj.mp same).2
  · rw [List.nodup_iff_pairwise_ne, List.pairwise_map] at ordered
    refine ordered.imp ?_
    intro left right ne identity leftMem rightMem
    obtain ⟨leftIndex, _, rfl⟩ := List.mem_map.mp leftMem
    obtain ⟨rightIndex, _, same⟩ := List.mem_map.mp rightMem
    exact ne (CausalIdentity.intent_inj.mp same).1.symm

theorem LiveStore.Coherent.decidedIntents_stored
    (coherent : store.Coherent run admitted)
    (decided : identity ∈ store.decidedIntents run.scope) :
    identity ∈ store.intentIdentities run.scope := by
  obtain ⟨decision, read, inside⟩ := List.mem_flatMap.mp decided
  obtain ⟨actionIndex, accepted, rfl⟩ := List.mem_map.mp inside
  obtain ⟨mem, own⟩ := mem_readDecisions.mp read
  obtain ⟨timestampMs, kind, accounts⟩ :=
    coherent.decisions decision mem own
  rw [accounts.acceptedActions] at accepted
  have time := accounts.stored actionIndex accepted
  unfold IntentTable.submittedMs at time
  obtain ⟨row, found, _⟩ := Option.bind_eq_some_iff.mp time
  exact List.mem_filter.mpr
    ⟨KeyedMap.mem_keys_of_lookup found, decide_eq_true own⟩

/-- What is counted where every row can be read. -/
theorem acceptedSubmissions_eq {registrations : List (StrategyRegistration S)}
    {decisions : List (CausalDecision JsonValue)} {intents : List OrderIntent}
    {decided : CausalDecision JsonValue →
      List (String × Option StrategyId × I64)}
    {undecided : OrderIntent → Option StrategyId × I64}
    (decisionsRead : ∀ decision ∈ decisions,
      decisionHistory registrations decision = .ok (decided decision))
    (intentsRead : ∀ intent ∈ intents,
      intentHistory registrations intent = .ok (undecided intent)) :
    acceptedSubmissions registrations decisions intents =
      .ok ((decisions.flatMap decided).map Prod.snd ++
        (intents.filter fun intent => intent.identity.correlationId ∉
          (decisions.flatMap decided).map Prod.fst).map undecided) := by
  unfold acceptedSubmissions
  rw [mapM_eq_ok decisionsRead]
  simp only [bind, Except.bind, pure, Except.pure, ← List.flatMap_def]
  rw [mapM_eq_ok fun intent mem =>
    intentsRead intent (List.mem_of_mem_filter mem)]

theorem flatMap_decided :
    ((readDecisions store.decisions run.scope).flatMap fun decision =>
      (decision.acceptedActions.map decision.identity.intent).map
        fun identity => (identity.correlationId,
          store.counted run.strategies identity)) =
      (store.decidedIntents run.scope).map fun identity =>
        (identity.correlationId, store.counted run.strategies identity) := by
  rw [LiveStore.decidedIntents, List.map_flatMap]

theorem allIntents_identities (store : LiveStore) (scope : OwnerScope) :
    ((LiveState.allIntents store scope).map OrderIntent.identity).Perm
      (store.intentIdentities scope) := by
  have perm := (allIntents_perm store scope).map OrderIntent.identity
  rw [List.map_map] at perm
  refine perm.trans (List.Perm.of_eq ?_)
  rw [LiveStore.intentIdentities, AList.keys, List.keys, List.filter_map]
  rfl

theorem undecided_perm (store : LiveStore) (scope : OwnerScope)
    (registrations : List (StrategyRegistration S)) :
    (((LiveState.allIntents store scope).filter fun intent =>
      intent.identity.correlationId ∉ store.decidedIds scope).map
        fun intent => store.counted registrations intent.identity).Perm
      (((store.intentIdentities scope).filter fun identity =>
        !decide (identity.correlationId ∈ store.decidedIds scope)).map
          (store.counted registrations)) := by
  have filtered := ((allIntents_identities store scope).filter
    fun identity => !decide (identity.correlationId ∈
      store.decidedIds scope)).map (store.counted registrations)
  rw [List.filter_map, List.map_map] at filtered
  refine (List.Perm.of_eq ?_).trans filtered
  simp only [Function.comp_def, decide_not]

/-- What a start counts, over coherent tables. -/
theorem LiveStore.Coherent.acceptedSubmissions
    (coherent : store.Coherent run admitted) :
    ∃ submissions, acceptedSubmissions run.strategies
        (readDecisions store.decisions run.scope)
        (LiveState.allIntents store run.scope) = .ok submissions ∧
      (submissions.Perm
          (admitted.map fun submission => (some submission.1, submission.2)) ↔
        store.Unambiguous run.scope) := by
  refine ⟨_, acceptedSubmissions_eq
    (fun decision read => coherent.decisionHistory read)
    (fun intent read => coherent.intentHistory read), ?_⟩
  have undecided := (undecided_perm store run.scope run.strategies).append_left
      ((store.decidedIntents run.scope).map (store.counted run.strategies))
  have once : ((store.decidedIntents run.scope).map
      (store.counted run.strategies) ++
        ((store.intentIdentities run.scope).filter fun identity =>
          !decide (identity.correlationId ∈
            store.decidedIds run.scope)).map
              (store.counted run.strategies)).Perm
      ((store.intentIdentities run.scope).map
        (store.counted run.strategies)) ↔ store.Unambiguous run.scope := by
    refine (@Table.perm_once_iff _ _ _ _ _ (store.counted run.strategies)
      (fun identity => decide (identity.correlationId ∈
        store.decidedIds run.scope)) (intentIdentities_nodup run.scope)
      coherent.decidedIntents_nodup
      (fun identity decided => coherent.decidedIntents_stored decided)
      (fun identity decided =>
        decide_eq_true (List.mem_map_of_mem decided))).trans ?_
    simp only [LiveStore.Unambiguous, decide_eq_true_eq]
  rw [flatMap_decided, List.map_map, List.map_map, ← once]
  constructor
  · intro same
    exact undecided.symm.trans
      (same.trans coherent.counted_admitted.symm)
  · intro same
    exact undecided.trans (same.trans coherent.counted_admitted)

end Counting

/-! ## What the statements keep -/

namespace IntentTable

/-- A statement that adds no intent and moves none in time. -/
structure SameSubmissions (table next : IntentTable) : Prop where
  keys : next.keys.Perm table.keys
  submittedMs : ∀ identity,
    next.submittedMs identity = table.submittedMs identity

theorem SameSubmissions.refl (table : IntentTable) :
    table.SameSubmissions table :=
  ⟨List.Perm.refl _, fun _ => rfl⟩

/-- The update of an intent leaves its time. -/
theorem transitioned_submittedMs (row : IntentRow) (outcome : IntentOutcome)
    (venueOrderId : Option String) :
    submittedMsOf (transitioned row outcome venueOrderId).payload =
      submittedMsOf row.payload := by
  cases venueOrderId with
  | none => rfl
  | some orderId =>
      have ne : "submitted_ms" ≠ "venue_order_id" := by decide
      unfold submittedMsOf transitioned
      simp only
      rw [get_set_ne ne]

theorem transitionIntentWithOrder_sameSubmissions
    {table next : IntentTable} {identity : CausalIdentity}
    {outcome : IntentOutcome} {venueOrderId : Option String}
    (written : table.transitionIntentWithOrder identity outcome venueOrderId =
      .ok next) :
    table.SameSubmissions next := by
  obtain ⟨row, found, _, rfl⟩ :=
    transitionIntentWithOrder_eq_ok_iff.mp written
  refine ⟨?_, ?_⟩
  · rw [AList.keys_insert]
    exact (List.perm_cons_erase (KeyedMap.mem_keys_of_lookup found)).symm
  · intro other
    unfold submittedMs
    rw [KeyedMap.lookup_insert_eq]
    by_cases same : other = identity
    · rw [if_pos same, same, found, Option.bind_some, Option.bind_some,
        transitioned_submittedMs]
    · rw [if_neg same]

theorem recordAnswer_sameSubmissions
    (table : IntentTable) (intent : OrderIntent)
    (answer : Except VenueError String) (fault : Option String) :
    table.SameSubmissions
      (CausalRecorder.recordAnswer table intent answer fault).1 := by
  have rejection : ∀ source, table.SameSubmissions
      (CausalRecorder.recordRejection table intent source fault).1 := by
    intro source
    unfold CausalRecorder.recordRejection
    cases written : CausalRecorder.execute fault
        (table.transitionIntent intent.identity .rejected) with
    | error error => exact .refl table
    | ok next =>
        exact transitionIntentWithOrder_sameSubmissions
          (CausalRecorder.execute_eq_ok_iff.mp written).2
  cases answer with
  | ok orderId =>
      simp only [CausalRecorder.recordAnswer]
      cases written : CausalRecorder.execute fault
          (table.transitionIntentWithOrder intent.identity .accepted
            (some orderId)) with
      | error error => exact .refl table
      | ok next =>
          exact transitionIntentWithOrder_sameSubmissions
            (CausalRecorder.execute_eq_ok_iff.mp written).2
  | error source =>
      cases source with
      | rejected reason => exact rejection _
      | notFound orderId => exact rejection _
      | transport message => exact .refl table

theorem recoverIntents_sameSubmissions
    {queryStatus : String → Except VenueError OrderStatus}
    {intent : OrderIntent} {table next : IntentTable}
    (recovered : CausalRecorder.recoverIntents queryStatus [intent] table =
      (next, .ok ())) :
    table.SameSubmissions next := by
  rw [CausalRecorder.recoverIntents] at recovered
  split at recovered
  · cases recovered
  · unfold CausalRecorder.reconcile at recovered
    rename_i outcome _
    cases written : CausalRecorder.execute none
        (table.transitionIntent intent.identity outcome) with
    | error error =>
        rw [written] at recovered
        cases recovered
    | ok transitioned =>
        rw [written] at recovered
        cases recovered
        exact transitionIntentWithOrder_sameSubmissions
          (CausalRecorder.execute_eq_ok_iff.mp written).2

theorem storeIntentPending_submittedMs
    {table next : IntentTable} {decimalText : Decimal → String}
    {request : IntentRequest}
    (stored : table.storeIntentPending (request.intent decimalText).identity
      (request.intent decimalText).payload = .ok next)
    (identity : CausalIdentity) :
    next.submittedMs identity =
      if identity = (request.intent decimalText).identity then
        some request.submittedMs
      else
        table.submittedMs identity := by
  obtain ⟨_, rfl⟩ := storeIntentPending_eq_ok_iff.mp stored
  unfold submittedMs
  rw [KeyedMap.lookup_insert_eq]
  by_cases same : identity = (request.intent decimalText).identity
  · have time : ((request.intent decimalText).payload.get
        "submitted_ms").bind asI64 = some request.submittedMs.1 :=
      asI64_val request.submittedMs
    rw [if_pos same, if_pos same, Option.bind_some]
    unfold submittedMsOf
    rw [time, Option.map_some, I64.clamp_val]
  · rw [if_neg same, if_neg same]

end IntentTable

section Statements

variable {S V : Type} {run : LiveRun S V} {store next : LiveStore}
  {admitted : List (StrategyId × I64)}

variable {decision : CausalDecision JsonValue}

theorem LiveStore.Accounts.mono {timestampMs : I64} {kind : DecisionKind}
    (accounts : store.Accounts run decision timestampMs kind)
    (kept : ∀ identity time, store.intents.submittedMs identity = some time →
      next.intents.submittedMs identity = some time) :
    next.Accounts run decision timestampMs kind where
  payload := accounts.payload
  once := accounts.once
  strategy := accounts.strategy
  stored := fun actionIndex accepted =>
    kept _ _ (accounts.stored actionIndex accepted)

/-- A statement that leaves the submissions keeps the tables coherent. -/
theorem LiveStore.Coherent.sameSubmissions
    (coherent : store.Coherent run admitted)
    (decisions : next.decisions = store.decisions)
    (intents : store.intents.SameSubmissions next.intents) :
    next.Coherent run admitted where
  identities := by
    rw [decisions]
    exact coherent.identities
  decisions := by
    intro decision mem own
    rw [decisions] at mem
    obtain ⟨timestampMs, kind, accounts⟩ :=
      coherent.decisions decision mem own
    refine ⟨timestampMs, kind, accounts.mono ?_⟩
    intro identity time found
    rw [intents.submittedMs, found]
  admitted := by
    have same : next.submission run.strategies =
        store.submission run.strategies := by
      funext identity
      rw [LiveStore.submission, LiveStore.submission, intents.submittedMs]
    rw [same]
    exact coherent.admitted.trans
      ((intents.keys.symm.filter _).map (store.submission run.strategies))

theorem LiveStore.Coherent.storeIntent
    (coherent : store.Coherent run admitted) {pending : IntentTable}
    {decimalText : Decimal → String} {request : IntentRequest}
    {registration : StrategyRegistration S}
    (registered : registration ∈ run.strategies)
    (scope : request.decision.scope = run.scope)
    (starts : startsWith request.decision.correlationId
      (strategyPrefix registration.id) = true)
    (stored : store.intents.storeIntentPending
      (request.intent decimalText).identity
      (request.intent decimalText).payload = .ok pending) :
    LiveStore.Coherent run { store with intents := pending }
      ((registration.id, request.submittedMs) :: admitted) := by
  have times := IntentTable.storeIntentPending_submittedMs stored
  obtain ⟨free, inserted⟩ :=
    IntentTable.storeIntentPending_eq_ok_iff.mp stored
  have absent : (request.intent decimalText).identity ∉
      store.intents.keys := by
    rw [← AList.mem_keys, ← AList.lookup_eq_none]
    exact free
  have keys : pending.keys =
      (request.intent decimalText).identity :: store.intents.keys := by
    rw [inserted, AList.keys_insert, List.erase_of_not_mem absent]
  have strategy : correlationStrategy
      (request.intent decimalText).identity.correlationId run.strategies =
        some registration.id :=
    correlationStrategy_eq registered
      (startsWith_append (startsWith_append starts _) _)
  refine ⟨coherent.identities, ?_, ?_⟩
  · intro decision mem own
    obtain ⟨timestampMs, kind, accounts⟩ :=
      coherent.decisions decision mem own
    refine ⟨timestampMs, kind, accounts.mono ?_⟩
    intro identity time found
    have ne : identity ≠ (request.intent decimalText).identity := by
      rintro rfl
      rw [IntentTable.submittedMs, free] at found
      cases found
    rw [times, if_neg ne, found]
  · have intents : LiveStore.intentIdentities
        { store with intents := pending } run.scope =
          (request.intent decimalText).identity ::
            store.intentIdentities run.scope := by
      have own : (request.intent decimalText).identity.scope = run.scope :=
        scope
      rw [LiveStore.intentIdentities, keys,
        List.filter_cons_of_pos (by simpa using own)]
      rfl
    rw [intents, List.map_cons, List.map_cons]
    have first : LiveStore.submission { store with intents := pending }
        run.strategies (request.intent decimalText).identity =
          (some registration.id, some request.submittedMs) := by
      rw [LiveStore.submission, strategy, times, if_pos rfl]
    rw [first]
    apply List.Perm.cons
    refine coherent.admitted.trans (List.Perm.of_eq ?_)
    apply List.map_congr_left
    intro identity mem
    have ne : identity ≠ (request.intent decimalText).identity := by
      rintro rfl
      exact absent (List.mem_of_mem_filter mem)
    rw [LiveStore.submission, LiveStore.submission, times, if_neg ne]

/-- A new decision whose accepted actions are stored. -/
theorem LiveStore.Coherent.storeDecision
    (coherent : store.Coherent run admitted)
    {timestampMs : I64}
    {kind : DecisionKind} {decisions : List (CausalDecision JsonValue)}
    (accounts : store.Accounts run decision timestampMs kind)
    (written : CausalDecision.store store.decisions decision = .ok decisions) :
    LiveStore.Coherent run { store with decisions := decisions }
      admitted := by
  unfold CausalDecision.store at written
  split at written
  · cases written
  · rename_i fresh
    cases written
    refine ⟨?_, ?_, coherent.admitted⟩
    · rw [List.filter_append, List.map_append, List.nodup_append]
      refine ⟨coherent.identities, ?_, ?_⟩
      · rw [List.filter_cons, List.filter_nil]
        split
        · exact List.nodup_singleton _
        · exact List.nodup_nil
      · rintro identity old other new rfl
        obtain ⟨row, inside, rfl⟩ := List.mem_map.mp old
        obtain ⟨same, isDecision, identities⟩ := List.mem_map.mp new
        rw [List.mem_singleton.mp (List.mem_of_mem_filter isDecision)]
          at identities
        apply fresh
        rw [List.any_eq_true]
        exact ⟨row, List.mem_of_mem_filter inside,
          decide_eq_true identities.symm⟩
    · intro row mem own
      rcases List.mem_append.mp mem with old | new
      · obtain ⟨time, of, rowAccounts⟩ := coherent.decisions row old own
        exact ⟨time, of, rowAccounts.mono fun _ _ found => found⟩
      · rw [List.mem_singleton.mp new]
        exact ⟨timestampMs, kind, accounts.mono fun _ _ found => found⟩

end Statements

/-! ## What a run keeps -/

/-- An evaluation is named after a registered strategy of the run. -/
structure LiveState.Evaluation.Names {S V : Type} (run : LiveRun S V)
    (evaluation : LiveState.Evaluation) : Prop where
  scope : evaluation.identity.scope = run.scope
  strategy : ∃ registration ∈ run.strategies,
    registration.id = evaluation.strategy ∧
      startsWith evaluation.identity.correlationId
        (strategyPrefix registration.id) = true

namespace LiveState

variable {S V : Type} {run : LiveRun S V} {earlier : List (StrategyId × I64)}

/-- The store, and each store that a crash can leave, hold the admissions of
earlier starts and those so far. -/
structure Recorded (run : LiveRun S V) (earlier : List (StrategyId × I64))
    (state : LiveState S V) : Prop where
  strategies : ∀ strategy ∈ state.strategies,
    ∃ registration ∈ run.strategies, registration.id = strategy.id
  left : ∀ point ∈ state.trace.left,
    point.store.Coherent run (point.admitted ++ earlier)
  store : ∀ store, state.store = some store →
    store.Coherent run (state.trace.admitted ++ earlier)

/-- A change that writes nothing. -/
structure SameRecords (before after : LiveState S V) : Prop where
  strategies : after.strategies = before.strategies
  left : after.trace.left = before.trace.left
  admitted : after.trace.admitted = before.trace.admitted
  store : after.store = before.store

theorem SameRecords.refl (state : LiveState S V) : SameRecords state state :=
  ⟨rfl, rfl, rfl, rfl⟩

theorem SameRecords.trans
    {before middle after : LiveState S V} (first : SameRecords before middle)
    (second : SameRecords middle after) : SameRecords before after where
  strategies := second.strategies.trans first.strategies
  left := second.left.trans first.left
  admitted := second.admitted.trans first.admitted
  store := second.store.trans first.store

theorem Recorded.same
    {before after : LiveState S V} (recorded : before.Recorded run earlier)
    (same : SameRecords before after) : after.Recorded run earlier where
  strategies := by
    rw [same.strategies]
    exact recorded.strategies
  left := by
    rw [same.left]
    exact recorded.left
  store := by
    rw [same.store, same.admitted]
    exact recorded.store

variable {state : LiveState S V} {store : LiveStore} {evaluation : Evaluation}
  {actionIndexes : List UInt32} {verdicts : List ActionRiskVerdict}

theorem Recorded.write (recorded : state.Recorded run earlier)
    (coherent : store.Coherent run (state.trace.admitted ++ earlier)) :
    (state.write store).Recorded run earlier where
  strategies := recorded.strategies
  left := by
    intro point mem
    rcases List.mem_cons.mp mem with rfl | before
    · exact coherent
    · exact recorded.left point before
  store := by
    intro written found
    cases found
    exact coherent

/-- A write beside the causal tables. -/
theorem Recorded.writeOther {next : LiveStore}
    (recorded : state.Recorded run earlier) (found : state.store = some store)
    (decisions : next.decisions = store.decisions)
    (intents : next.intents = store.intents) :
    (state.write next).Recorded run earlier := by
  apply recorded.write
  apply (recorded.store store found).sameSubmissions decisions
  rw [intents]
  exact .refl _

theorem reconcileOpenOrders_sameRecords
    (run : LiveRun S V) (state : LiveState S V) :
    SameRecords state (state.reconcileOpenOrders run) := by
  unfold reconcileOpenOrders
  simp only
  split
  · exact ⟨rfl, rfl, rfl, rfl⟩
  · exact ⟨rfl, rfl, rfl, rfl⟩

theorem refreshCapacity_sameRecords
    (run : LiveRun S V) (state : LiveState S V) :
    SameRecords state (state.refreshCapacity run) := by
  unfold refreshCapacity
  split
  · exact reconcileOpenOrders_sameRecords run state
  · exact .refl state

def Stored (evaluation : Evaluation) (actionIndexes : List UInt32)
    (state : LiveState S V) : Prop :=
  ∀ store, state.store = some store →
    actionIndexes.Nodup ∧
      ∀ actionIndex ∈ actionIndexes,
        store.intents.submittedMs (evaluation.identity.intent actionIndex) =
          some evaluation.timestampMs

theorem Stored.same {before after : LiveState S V}
    (stored : before.Stored evaluation actionIndexes)
    (same : SameRecords before after) :
    after.Stored evaluation actionIndexes := by
  unfold Stored
  rw [same.store]
  exact stored

theorem Recorded.admission {strategy : StrategyId}
    {timestampMs : I64} (recorded : state.Recorded run earlier)
    (coherent : store.Coherent run
      ((strategy, timestampMs) :: (state.trace.admitted ++ earlier))) :
    (LiveState.write { state with
        trace :=
          { state.trace with
            admitted := (strategy, timestampMs) :: state.trace.admitted } }
      store).Recorded run earlier where
  strategies := recorded.strategies
  left := by
    intro point mem
    rcases List.mem_cons.mp mem with rfl | before
    · exact coherent
    · exact recorded.left point before
  store := by
    intro written found
    cases found
    exact coherent

def Evaluation.request (evaluation : Evaluation) (actionIndex : UInt32)
    (order : PlaceOrder) : IntentRequest where
  decision := evaluation.identity
  actionIndex := actionIndex
  submittedMs := evaluation.timestampMs
  order := order

theorem Stored.storeIntent {actionIndex : UInt32} {order : PlaceOrder}
    {decimalText : Decimal → String} {pending intents : IntentTable}
    (stored : state.Stored evaluation actionIndexes)
    (found : state.store = some store)
    (inserted : store.intents.storeIntentPending
      ((evaluation.request actionIndex order).intent decimalText).identity
      ((evaluation.request actionIndex order).intent decimalText).payload =
        .ok pending)
    (answered : pending.SameSubmissions intents) :
    (actionIndexes ++ [actionIndex]).Nodup ∧
      ∀ index ∈ actionIndexes ++ [actionIndex],
        intents.submittedMs (evaluation.identity.intent index) =
          some evaluation.timestampMs := by
  have times := IntentTable.storeIntentPending_submittedMs inserted
  obtain ⟨free, _⟩ := IntentTable.storeIntentPending_eq_ok_iff.mp inserted
  obtain ⟨once, before⟩ := stored store found
  have identity : evaluation.identity.intent actionIndex =
      ((evaluation.request actionIndex order).intent decimalText).identity :=
    rfl
  have absent : actionIndex ∉ actionIndexes := by
    intro mem
    have time := before actionIndex mem
    rw [IntentTable.submittedMs, identity, free] at time
    cases time
  refine ⟨?_, ?_⟩
  · rw [List.nodup_append]
    refine ⟨once, List.nodup_singleton _, ?_⟩
    rintro left inside right single rfl
    rw [List.mem_singleton.mp single] at inside
    exact absent inside
  · intro index mem
    rw [answered.submittedMs, times]
    rcases List.mem_append.mp mem with old | new
    · split
      · rfl
      · exact before index old
    · rw [List.mem_singleton.mp new]
      exact if_pos rfl

theorem placeOrder_recorded (names : evaluation.Names run)
    (recorded : state.Recorded run earlier)
    (stored : state.Stored evaluation actionIndexes) (actionIndex : UInt32)
    (order : PlaceOrder) {next : LiveState S V}
    {answer : Except PlaceFailure (Option String)}
    (placed : state.placeOrder run evaluation.strategy
      (evaluation.request actionIndex order) = (next, answer)) :
    next.Recorded run earlier ∧
      (answer.isOk = true →
        next.Stored evaluation (actionIndexes ++ [actionIndex])) := by
  unfold placeOrder at placed
  cases found : state.store with
  | none =>
      rw [found] at placed
      cases placed
      refine ⟨recorded.same ⟨rfl, rfl, rfl, rfl⟩, ?_⟩
      intro _ store some
      have none : state.store = Option.some store := some
      rw [found] at none
      cases none
  | some store =>
      rw [found] at placed
      simp only at placed
      split at placed
      · cases placed
        exact ⟨recorded, fun ok => by cases ok⟩
      · rename_i pending inserted
        obtain ⟨registration, registered, id, starts⟩ := names.strategy
        have coherent := (recorded.store store found).storeIntent registered
          names.scope starts inserted
        rw [id] at coherent
        have answered := IntentTable.recordAnswer_sameSubmissions pending
          ((evaluation.request actionIndex order).intent run.format.text)
          (run.executor.submit state.venue order evaluation.timestampMs).2
          none
        have admitted := recorded.admission coherent
        cases placed
        refine ⟨?_, ?_⟩
        · apply Recorded.write
          · exact admitted.same ⟨rfl, rfl, rfl, rfl⟩
          · exact coherent.sameSubmissions rfl answered
        · intro _ written some
          cases some
          exact stored.storeIntent found inserted answered

theorem placeAccepted_recorded (names : evaluation.Names run)
    (recorded : state.Recorded run earlier)
    (stored : state.Stored evaluation actionIndexes) (actionIndex : UInt32)
    (order : PlaceOrder) :
    (placeAccepted run evaluation actionIndex order state).Recorded run
        earlier ∧
      ((placeAccepted run evaluation actionIndex order state).result = none →
        (placeAccepted run evaluation actionIndex order state).Stored
          evaluation (actionIndexes ++ [actionIndex])) := by
  unfold placeAccepted
  cases placed : state.placeOrder run evaluation.strategy
      (evaluation.request actionIndex order) with
  | mk next answer =>
      have expected := placeOrder_recorded names recorded stored actionIndex
        order placed
      unfold Evaluation.request at placed
      rw [placed]
      cases answer with
      | ok receipt =>
          cases receipt with
          | none => exact ⟨expected.1, fun _ => expected.2 rfl⟩
          | some orderId =>
              have same : SameRecords next (next.reserve orderId
                  evaluation.strategy evaluation.market order) :=
                ⟨rfl, rfl, rfl, rfl⟩
              exact ⟨expected.1.same same, fun _ => (expected.2 rfl).same same⟩
      | error failure =>
          have reconciled := expected.1.same
            (reconcileOpenOrders_sameRecords run next)
          simp only
          split
          · rename_i stopped
            refine ⟨reconciled, ?_⟩
            intro running
            rw [running] at stopped
            cases stopped
          · refine ⟨reconciled.same ⟨rfl, rfl, rfl, rfl⟩, ?_⟩
            intro running
            cases running

def acceptedOf (verdicts : List ActionRiskVerdict) : List UInt32 :=
  (DecisionKind.actions verdicts).acceptedActions

theorem acceptedOf_append (left right : List ActionRiskVerdict) :
    acceptedOf (left ++ right) = acceptedOf left ++ acceptedOf right := by
  simp [acceptedOf, DecisionKind.acceptedActions, DecisionKind.verdicts]

theorem placeAction_cases
    (run : LiveRun S V) (evaluation : Evaluation) (actionIndex : UInt32)
    (order : PlaceOrder) (state : LiveState S V) :
    (SameRecords state (state.placeAction run evaluation actionIndex order).1 ∧
      (state.placeAction run evaluation actionIndex order).2 ≠ some .accepted) ∨
      ∃ middle, SameRecords state middle ∧
        state.placeAction run evaluation actionIndex order =
          (placeAccepted run evaluation actionIndex order middle,
            some .accepted) := by
  have refreshed := refreshCapacity_sameRecords run state
  unfold placeAction
  simp only
  split
  · exact .inl ⟨refreshed, by simp⟩
  · split
    · exact .inl ⟨refreshed, by simp⟩
    · split
      · exact .inl ⟨refreshed, by simp⟩
      · split
        · exact .inl ⟨refreshed.trans ⟨rfl, rfl, rfl, rfl⟩, by simp⟩
        · rename_i rates _
          exact .inr ⟨{ state.refreshCapacity run with rates := rates },
            refreshed.trans ⟨rfl, rfl, rfl, rfl⟩, rfl⟩

theorem placeAction_recorded (names : evaluation.Names run)
    (recorded : state.Recorded run earlier)
    (stored : state.Stored evaluation (acceptedOf verdicts))
    (actionIndex : UInt32) (order : PlaceOrder) {next : LiveState S V}
    {verdict : Option RiskVerdict}
    (placed : state.placeAction run evaluation actionIndex order =
      (next, verdict)) :
    next.Recorded run earlier ∧
      (next.result = none → next.Stored evaluation (acceptedOf (verdicts ++
          verdict.toList.map fun verdict =>
            { actionIndex := actionIndex, verdict := verdict }))) := by
  rcases placeAction_cases run evaluation actionIndex order state with
    ⟨same, refused⟩ | ⟨middle, same, accepted⟩
  · rw [placed] at same refused
    refine ⟨recorded.same same, fun _ => ?_⟩
    have nothing : acceptedOf (verdict.toList.map fun verdict =>
        { actionIndex := actionIndex, verdict := verdict }) = [] := by
      cases verdict with
      | none => rfl
      | some verdict =>
          cases verdict with
          | accepted => exact absurd rfl refused
          | rejected reason => rfl
    rw [acceptedOf_append, nothing, List.append_nil]
    exact stored.same same
  · rw [placed, Prod.mk.injEq] at accepted
    obtain ⟨rfl, rfl⟩ := accepted
    rw [acceptedOf_append]
    exact placeAccepted_recorded names (recorded.same same)
      (stored.same same) actionIndex order

/-- The loop over the actions: an evaluation that does not stop the run has
the intents of its accepted actions stored. -/
theorem runActions_recorded (names : evaluation.Names run) (index : Nat)
    (actions : List Action)
    (recorded : state.Recorded run earlier)
    (stored : state.Stored evaluation (acceptedOf verdicts)) :
    (state.runActions run evaluation index actions verdicts).1.Recorded run
        earlier ∧
      ((state.runActions run evaluation index actions verdicts).1.result =
          none →
        (state.runActions run evaluation index actions verdicts).1.Stored
          evaluation (acceptedOf
            (state.runActions run evaluation index actions verdicts).2)) := by
  induction actions generalizing index state verdicts with
  | nil =>
      exact ⟨recorded, fun _ => stored⟩
  | cons action rest ih =>
      cases action with
      | place order =>
          cases placed : state.placeAction run evaluation
              (actionIndexOf index) order with
          | mk next verdict =>
              obtain ⟨nextRecorded, nextStored⟩ := placeAction_recorded names
                recorded stored (actionIndexOf index) order placed
              simp only [runActions, placed]
              split
              · exact ⟨nextRecorded, nextStored⟩
              · rename_i running
                exact ih (index + 1) nextRecorded
                  (nextStored (by simpa using running))
      | cancel orderId =>
          exact ih (index + 1) recorded stored
      | replaceQuotes cancel place =>
          exact ih (index + 1) recorded stored
      | cancelAll => exact ih (index + 1) recorded stored

theorem recordDecision_recorded (names : evaluation.Names run)
    (recorded : state.Recorded run earlier)
    {kind : DecisionKind}
    (stored : state.Stored evaluation kind.acceptedActions) :
    (state.recordDecision evaluation kind).Recorded run earlier := by
  unfold recordDecision
  split
  · exact recorded
  · rename_i store found
    split
    · exact recorded.same ⟨rfl, rfl, rfl, rfl⟩
    · rename_i decisions written
      obtain ⟨once, intents⟩ := stored store found
      obtain ⟨registration, registered, _, starts⟩ := names.strategy
      apply recorded.write
      exact (recorded.store store found).storeDecision
        ⟨rfl, once, ⟨registration, registered, starts⟩, intents⟩ written

theorem stored_none (evaluation : Evaluation) (state : LiveState S V) :
    state.Stored evaluation [] := by
  intro store _
  refine ⟨List.nodup_nil, ?_⟩
  intro actionIndex mem
  cases mem

theorem evaluate_recorded (input : PipelineInput) (dailyPnl : Option Decimal)
    {strategy : StrategyInstance S}
    (registered : ∃ registration ∈ run.strategies,
      registration.id = strategy.id)
    (recorded : state.Recorded run earlier) :
    (state.evaluate run input dailyPnl strategy).2.Recorded run earlier := by
  have names : (evaluationOf run input dailyPnl strategy.id
      strategy.market).Names run := by
    obtain ⟨registration, mem, same⟩ := registered
    refine ⟨rfl, registration, mem, same, ?_⟩
    rw [same]
    exact startsWith_event _ _ _ _ _ _ _
  unfold evaluate
  simp only
  split
  · exact recordDecision_recorded names recorded (stored_none _ _)
  · rename_i actions _
    have nothing : state.Stored (evaluationOf run input dailyPnl strategy.id
        strategy.market) (acceptedOf []) := stored_none _ _
    obtain ⟨actedRecorded, actedStored⟩ := runActions_recorded names 0 actions
      recorded nothing
    split
    · exact actedRecorded
    · rename_i running
      apply recordDecision_recorded names actedRecorded
      have intents := actedStored (by simpa using running)
      split
      · rename_i nothing
        exact stored_none _ _
      · exact intents

theorem evaluate_id
    (run : LiveRun S V) (input : PipelineInput) (dailyPnl : Option Decimal)
    (strategy : StrategyInstance S) (state : LiveState S V) :
    (state.evaluate run input dailyPnl strategy).1.id = strategy.id := by
  unfold evaluate
  simp only
  split
  · rfl
  · split
    · rfl
    · rfl

theorem dispatchInstances_recorded
    (input : PipelineInput) (dailyPnl : Option Decimal)
    {strategies : List (StrategyInstance S)}
    (registered : ∀ strategy ∈ strategies,
      ∃ registration ∈ run.strategies, registration.id = strategy.id)
    (recorded : state.Recorded run earlier) :
    (dispatchInstances run input dailyPnl strategies state).2.Recorded run
        earlier ∧
      ∀ strategy ∈ (dispatchInstances run input dailyPnl strategies state).1,
        ∃ registration ∈ run.strategies, registration.id = strategy.id := by
  induction strategies generalizing state with
  | nil =>
      exact ⟨recorded, registered⟩
  | cons strategy rest ih =>
      have first := registered strategy List.mem_cons_self
      have others : ∀ other ∈ rest, ∃ registration ∈ run.strategies,
          registration.id = other.id :=
        fun other mem => registered other (List.mem_cons_of_mem _ mem)
      have evaluated := evaluate_recorded input dailyPnl first recorded
      rw [← evaluate_id run input dailyPnl strategy state] at first
      simp only [dispatchInstances]
      split
      · obtain ⟨after, restRegistered⟩ := ih others recorded
        refine ⟨after, ?_⟩
        rintro other (_ | ⟨_, mem⟩)
        · exact registered strategy List.mem_cons_self
        · exact restRegistered other mem
      · split
        · refine ⟨evaluated, ?_⟩
          rintro other (_ | ⟨_, mem⟩)
          · exact first
          · exact others other mem
        · obtain ⟨after, restRegistered⟩ :=
            ih others evaluated
          refine ⟨after, ?_⟩
          rintro other (_ | ⟨_, mem⟩)
          · exact first
          · exact restRegistered other mem

theorem dispatch_recorded (input : PipelineInput) (dailyPnl : Option Decimal)
    (recorded : state.Recorded run earlier) :
    (state.dispatch run input dailyPnl).Recorded run earlier := by
  obtain ⟨after, registered⟩ := dispatchInstances_recorded input dailyPnl
    recorded.strategies recorded
  exact ⟨registered, after.left, after.store⟩

/-! ## Steps and starts -/

theorem storeFact_recorded (recorded : state.Recorded run earlier)
    (envelope : SourceEnvelope Decimal) :
    (state.storeFact run envelope).Recorded run earlier := by
  unfold storeFact
  split
  · exact recorded
  · rename_i store found
    split
    · exact recorded.same ⟨rfl, rfl, rfl, rfl⟩
    · exact recorded.writeOther found rfl rfl

theorem applyReservationFill_sameRecords
    (fill : FillEvent Decimal) (state : LiveState S V) :
    SameRecords state (state.applyReservationFill fill) := by
  unfold applyReservationFill
  simp only
  split
  · exact ⟨rfl, rfl, rfl, rfl⟩
  · split
    · exact ⟨rfl, rfl, rfl, rfl⟩
    · split
      · exact ⟨rfl, rfl, rfl, rfl⟩
      · exact ⟨rfl, rfl, rfl, rfl⟩

theorem accountEvent_sameRecords
    (run : LiveRun S V) (fact : PmAccountEvent Decimal)
    (state : LiveState S V) :
    SameRecords state (state.accountEvent run fact) := by
  unfold accountEvent
  split
  · exact ⟨rfl, rfl, rfl, rfl⟩
  · rename_i risk isNew _
    have applied : SameRecords state { state with risk := risk } :=
      ⟨rfl, rfl, rfl, rfl⟩
    simp only
    split
    · split
      · exact applied.trans (applyReservationFill_sameRecords _ _)
      · exact applied
    · exact applied.trans ⟨rfl, rfl, rfl, rfl⟩
    · exact applied.trans ⟨rfl, rfl, rfl, rfl⟩
    · exact applied
    · exact applied
    · exact applied

theorem recordBreach_recorded (recorded : state.Recorded run earlier) :
    (state.recordBreach run).Recorded run earlier := by
  unfold recordBreach
  split
  · exact recorded
  · rename_i store found
    split
    · exact recorded.writeOther found rfl rfl
    · exact recorded

theorem marketEvent_recorded (recorded : state.Recorded run earlier)
    (metadata : StreamMetadata) (fact : MarketEvent Decimal) :
    (state.marketEvent run metadata fact).Recorded run earlier := by
  unfold marketEvent
  split
  · exact dispatch_recorded _ _
      (recordBreach_recorded (recorded.same ⟨rfl, rfl, rfl, rfl⟩))
  · split
    · exact recorded
    · have applied : ∀ risk, ({ state with risk := risk } :
          LiveState S V).Recorded run earlier :=
        fun risk => recorded.same ⟨rfl, rfl, rfl, rfl⟩
      simp only
      split
      · exact (applied _).same (applyReservationFill_sameRecords _ _)
      · exact applied _
  · exact recorded
  · exact recorded
  · exact recorded
  · exact recorded

theorem step_recorded (recorded : state.Recorded run earlier)
    (envelope : SourceEnvelope Decimal) :
    (state.step run envelope).Recorded run earlier := by
  have stored := storeFact_recorded recorded envelope
  unfold step
  split
  · exact recorded
  · split
    · exact recorded.same ⟨rfl, rfl, rfl, rfl⟩
    · simp only
      split
      · exact stored
      · cases envelope with
        | cexReference reference => exact dispatch_recorded _ _ stored
        | pmAccount account =>
            exact stored.same (accountEvent_sameRecords run _ _)
        | pmMarket market => exact marketEvent_recorded stored _ _

theorem andThen_recorded {next : LiveState S V → LiveState S V}
    (recorded : state.Recorded run earlier)
    (kept : (next state).Recorded run earlier) :
    (state.andThen next).Recorded run earlier := by
  unfold andThen
  split
  · exact recorded
  · exact kept

/-- The strategies of a run are those of its registrations. -/
theorem instantiate_recorded (recorded : state.Recorded run earlier) :
    (state.instantiate run).Recorded run earlier := by
  have made : ∀ (registrations : List (StrategyRegistration S)) strategies,
      (registrations.mapM fun registration =>
        registration.create.map fun strategy =>
          ({ id := registration.id
             market := registration.market
             state := strategy } : StrategyInstance S)) = .ok strategies →
      ∀ strategy ∈ strategies, ∃ registration ∈ registrations,
        registration.id = strategy.id := by
    intro registrations
    induction registrations with
    | nil =>
        rintro strategies ⟨⟩ strategy mem
        cases mem
    | cons registration rest ih =>
        intro strategies all
        rw [List.mapM_cons] at all
        cases created : registration.create with
        | error message =>
            rw [created] at all
            cases all
        | ok first =>
            rw [created] at all
            cases others : rest.mapM fun registration =>
                registration.create.map fun strategy =>
                  ({ id := registration.id
                     market := registration.market
                     state := strategy } : StrategyInstance S) with
            | error message =>
                rw [others] at all
                cases all
            | ok instances =>
                rw [others] at all
                cases all
                rintro strategy (_ | ⟨_, mem⟩)
                · exact ⟨registration, List.mem_cons_self, rfl⟩
                · obtain ⟨other, registered, same⟩ :=
                    ih instances others strategy mem
                  exact ⟨other, List.mem_cons_of_mem _ registered, same⟩
  unfold instantiate
  split
  · exact recorded.same ⟨rfl, rfl, rfl, rfl⟩
  · rename_i strategies all
    exact ⟨made run.strategies strategies all, recorded.left, recorded.store⟩

/-- Recovery settles intents; it submits nothing. -/
theorem recoverIntents_recorded (intents : List OrderIntent)
    (recorded : state.Recorded run earlier)
    (found : state.store = some store) :
    (recoverIntents run store intents state).Recorded run earlier := by
  induction intents generalizing store state with
  | nil =>
      exact recorded
  | cons intent rest ih =>
      rw [recoverIntents]
      split
      · exact recorded.same ⟨rfl, rfl, rfl, rfl⟩
      · exact recorded.same ⟨rfl, rfl, rfl, rfl⟩
      · rename_i settled recovered
        apply ih
        · apply recorded.write
          exact (recorded.store store found).sameSubmissions rfl
            (IntentTable.recoverIntents_sameSubmissions recovered)
        · rfl

theorem recover_recorded (recorded : state.Recorded run earlier) :
    (state.recover run).Recorded run earlier := by
  unfold recover
  split
  · exact recorded
  · rename_i store found
    have risk : SameRecords state (state.recoverRisk run store) := by
      unfold recoverRisk
      split
      · exact ⟨rfl, rfl, rfl, rfl⟩
      · exact ⟨rfl, rfl, rfl, rfl⟩
    have rates : ∀ next : LiveState S V,
        SameRecords next (next.recoverRates run store) := by
      intro next
      unfold recoverRates
      split
      · exact ⟨rfl, rfl, rfl, rfl⟩
      · exact ⟨rfl, rfl, rfl, rfl⟩
    have orders : ∀ next : LiveState S V,
        SameRecords next (next.recoverOrders run) := by
      intro next
      unfold recoverOrders
      split
      · exact .refl next
      · split
        · exact ⟨rfl, rfl, rfl, rfl⟩
        · split
          · exact ⟨rfl, rfl, rfl, rfl⟩
          · exact ⟨rfl, rfl, rfl, rfl⟩
    have restored : SameRecords state ((state.recoverRisk run store).andThen
        (recoverRates run store)) := by
      unfold andThen
      split
      · exact risk
      · exact risk.trans (rates _)
    have settled := recorded.same restored
    refine andThen_recorded ?_ (Recorded.same ?_ (orders _))
    all_goals
      refine andThen_recorded settled (recoverIntents_recorded _ settled ?_)
      rw [restored.store, found]

theorem start_recorded {venue : V} (coherent : store.Coherent run earlier) :
    (start run (some store) venue).Recorded run earlier := by
  have unstarted : (unstarted (some store) venue : LiveState S V).Recorded run
      earlier := by
    refine ⟨?_, ?_, ?_⟩
    · intro strategy mem
      cases mem
    · intro point mem
      cases mem
    · rintro same ⟨⟩
      exact coherent
  have checked : ∀ state : LiveState S V,
      SameRecords state (state.checkKillState run) := by
    intro state
    unfold checkKillState
    split
    · exact ⟨rfl, rfl, rfl, rfl⟩
    · exact .refl state
  have opened : ∀ state : LiveState S V,
      SameRecords state (state.initialOpenOrders run) := by
    intro state
    have called : ∀ venue, SameRecords state { state with venue := venue } :=
      fun venue => ⟨rfl, rfl, rfl, rfl⟩
    unfold initialOpenOrders
    simp only
    split
    · exact ⟨rfl, rfl, rfl, rfl⟩
    · exact (called _).trans (reconcileOpenOrders_sameRecords run _)
  have created := instantiate_recorded unstarted
  have alive := andThen_recorded created (created.same (checked _))
  have answered := andThen_recorded alive (alive.same (opened _))
  exact andThen_recorded answered (recover_recorded answered)

end LiveState

/-! ## The submissions that a start counts -/

theorem LiveStore.Fresh.coherent
    {S V : Type} {run : LiveRun S V} {store : LiveStore}
    (fresh : store.Fresh run.scope) : store.Coherent run [] where
  identities := by
    have none : (store.decisions.filter fun decision =>
        decision.identity.scope = run.scope) = [] := by
      rw [List.filter_eq_nil_iff]
      intro decision mem own
      exact fresh.1 decision mem (by simpa using own)
    rw [none]
    exact List.nodup_nil
  decisions := by
    intro decision mem own
    exact absurd own (fresh.1 decision mem)
  admitted := by
    have none : store.intentIdentities run.scope = [] := by
      rw [LiveStore.intentIdentities, List.filter_eq_nil_iff]
      intro identity mem own
      exact fresh.2 identity mem (by simpa using own)
    rw [none]
    exact List.Perm.refl _

theorem CrashPoint.Left.coherent
    {S V : Type} {run : LiveRun S V} {point : CrashPoint}
    (left : CrashPoint.Left run point) :
    point.store.Coherent run point.admitted := by
  induction left with
  | fresh fresh => exact fresh.coherent
  | @crash before after venue facts left written ih =>
      have recorded : (Trace.run (LiveState.step run)
          (LiveState.start run (some before.store) venue) facts).Recorded run
            before.admitted :=
        @Trace.run_invariant _ _ _ (LiveState.Recorded run before.admitted)
          (fun _ envelope recorded =>
            LiveState.step_recorded recorded envelope) _ facts
          (LiveState.start_recorded ih)
      exact recorded.left after written

/-- What a crash leaves of a run over the two books of a market at one time,
by the number of durable writes after it. -/
def SmallRun.crashPoint (later : Fin 8) : CrashPoint :=
  let points := (Trace.run (LiveState.step buyerRun)
    (LiveState.start buyerRun (some store) 1)
    [.pmMarket upBook, .pmMarket downBook]).trace.left
  { store := (points.getD later { store := store, admitted := [] }).store
    admitted :=
      (points.getD later { store := store, admitted := [] }).admitted ++ [] }

theorem SmallRun.crashPoint_left (later : Fin 8) :
    CrashPoint.Left buyerRun (crashPoint later) := by
  have fresh : store.Fresh buyerRun.scope := by
    refine ⟨?_, ?_⟩
    · intro decision mem
      cases mem
    · intro identity mem
      cases mem
  refine @CrashPoint.Left.crash _ _ _ _ _ 1
    [.pmMarket upBook, .pmMarket downBook] (.fresh fresh) ?_
  have written : (later : Nat) < (Trace.run (LiveState.step buyerRun)
      (LiveState.start buyerRun (some store) 1)
      [.pmMarket upBook, .pmMarket downBook]).trace.left.length := by
    have writes : (Trace.run (LiveState.step buyerRun)
        (LiveState.start buyerRun (some store) 1)
        [.pmMarket upBook, .pmMarket downBook]).trace.left.length = 8 := by
      decide +kernel
    rw [writes]
    exact later.isLt
  rw [List.getD_eq_getElem?_getD, List.getElem?_eq_getElem written]
  exact List.getElem_mem written

/-- A start reads the admissions of all earlier starts just when no undecided
intent has the correlation id of a decided one. -/
theorem CrashPoint.Left.acceptedSubmissions_iff
    {S V : Type} {run : LiveRun S V} {point : CrashPoint}
    (left : CrashPoint.Left run point) :
    (∃ submissions, acceptedSubmissions run.strategies
        (readDecisions point.store.decisions run.scope)
        (LiveState.allIntents point.store run.scope) = .ok submissions ∧
      submissions.Perm (point.admitted.map fun submission =>
        (some submission.1, submission.2))) ↔
      point.store.Unambiguous run.scope := by
  obtain ⟨submissions, read, exact⟩ := left.coherent.acceptedSubmissions
  constructor
  · rintro ⟨others, same, counted⟩
    rw [read] at same
    cases same
    exact exact.mp counted
  · intro unambiguous
    exact ⟨submissions, read, exact.mpr unambiguous⟩

theorem CrashPoint.acceptedSubmissions_smallRun :
    (∃ submissions, acceptedSubmissions SmallRun.buyerRun.strategies
        (readDecisions (SmallRun.crashPoint 0).store.decisions
          SmallRun.buyerRun.scope)
        (LiveState.allIntents (SmallRun.crashPoint 0).store
          SmallRun.buyerRun.scope) = .ok submissions ∧
      submissions.Perm ((SmallRun.crashPoint 0).admitted.map
        fun submission => (some submission.1, submission.2))) ↔
      (SmallRun.crashPoint 0).store.Unambiguous SmallRun.buyerRun.scope :=
  CrashPoint.Left.acceptedSubmissions_iff (SmallRun.crashPoint_left 0)

/-- The order of the second book of a market at one time is lost when the run
crashes before it has written its decision. -/
theorem CrashPoint.downBook_not_counted :
    CrashPoint.Left SmallRun.buyerRun (SmallRun.crashPoint 2) ∧
      ¬ ∃ submissions, acceptedSubmissions SmallRun.buyerRun.strategies
          (readDecisions (SmallRun.crashPoint 2).store.decisions
            SmallRun.buyerRun.scope)
          (LiveState.allIntents (SmallRun.crashPoint 2).store
            SmallRun.buyerRun.scope) = .ok submissions ∧
        submissions.Perm ((SmallRun.crashPoint 2).admitted.map
          fun submission => (some submission.1, submission.2)) := by
  refine ⟨SmallRun.crashPoint_left 2, ?_⟩
  rintro ⟨submissions, read, same⟩
  have counted : (acceptedSubmissions SmallRun.buyerRun.strategies
      (readDecisions (SmallRun.crashPoint 2).store.decisions
        SmallRun.buyerRun.scope)
      (LiveState.allIntents (SmallRun.crashPoint 2).store
        SmallRun.buyerRun.scope)).toOption.map List.length = some 1 := by
    decide +kernel
  have admitted : (SmallRun.crashPoint 2).admitted.length = 2 := by
    decide +kernel
  rw [read] at counted
  have one : submissions.length = 1 := Option.some.inj counted
  have lengths := same.length_eq
  rw [one, List.length_map, admitted] at lengths
  cases lengths

end Pmkit
