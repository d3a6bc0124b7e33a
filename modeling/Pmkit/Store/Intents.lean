import Pmkit.Library.Json
import Pmkit.Library.KeyedMap
import Pmkit.Store.Causal

/-!
# Durable order intents

A row is inserted as pending and leaves that state by a guarded update: the
update finds a pending or unknown row, or it writes nothing.
-/

namespace Pmkit

inductive IntentOutcome where
  | accepted
  | rejected
  | unknown
  deriving DecidableEq

/-- The `state` column. -/
inductive IntentState where
  | pending
  | accepted
  | rejected
  | unknown
  deriving DecidableEq

/-- `as_sql`. -/
def IntentOutcome.asSql : IntentOutcome → IntentState
  | .accepted => .accepted
  | .rejected => .rejected
  | .unknown => .unknown

/-- The guard of the update, `state IN ('pending', 'unknown')`. -/
def IntentState.isOpen : IntentState → Bool
  | .pending => true
  | .unknown => true
  | .accepted => false
  | .rejected => false

/-- The columns of an intent beside its identity. -/
structure IntentRow where
  state : IntentState
  payload : JsonValue

/-- The table of intents.  The identity is its primary key. -/
abbrev IntentTable := KeyedMap CausalIdentity IntentRow

def venueOrderIdOf (payload : JsonValue) : Option String :=
  (payload.get "venue_order_id").bind JsonValue.asStr

namespace IntentTable

/-- `store_intent_pending`: the insert does nothing when the identity is
taken. -/
def storeIntentPending (table : IntentTable) (identity : CausalIdentity)
    (payload : JsonValue) : Except CausalStoreError IntentTable :=
  match table.lookup identity with
  | some _ => .error .duplicateCausalIdentity
  | none => .ok (table.insert identity { state := .pending, payload := payload })

def transitioned (row : IntentRow) (outcome : IntentOutcome)
    (venueOrderId : Option String) : IntentRow where
  state := outcome.asSql
  payload :=
    match venueOrderId with
    | none => row.payload
    | some orderId => row.payload.set "venue_order_id" (.string orderId)

/-- `transition_intent_with_order`. -/
def transitionIntentWithOrder (table : IntentTable) (identity : CausalIdentity)
    (outcome : IntentOutcome) (venueOrderId : Option String) :
    Except CausalStoreError IntentTable :=
  match table.lookup identity with
  | none => .error .pendingIntentNotFound
  | some row =>
      if row.state.isOpen then
        .ok (table.insert identity (transitioned row outcome venueOrderId))
      else
        .error .pendingIntentNotFound

/-- `transition_intent`. -/
def transitionIntent (table : IntentTable) (identity : CausalIdentity)
    (outcome : IntentOutcome) : Except CausalStoreError IntentTable :=
  table.transitionIntentWithOrder identity outcome none

variable {identity : CausalIdentity} {outcome : IntentOutcome}
  {venueOrderId : Option String}

theorem storeIntentPending_eq_ok_iff {table next : IntentTable}
    {payload : JsonValue} :
    table.storeIntentPending identity payload = .ok next ↔
      table.lookup identity = none ∧
        next = table.insert identity
          { state := .pending, payload := payload } := by
  unfold storeIntentPending
  cases table.lookup identity with
  | none => simp [eq_comm]
  | some row => simp

theorem transitionIntentWithOrder_eq_ok_iff {table next : IntentTable}
    :
    table.transitionIntentWithOrder identity outcome venueOrderId = .ok next ↔
      ∃ row, table.lookup identity = some row ∧ row.state.isOpen ∧
        next = table.insert identity
          (transitioned row outcome venueOrderId) := by
  unfold transitionIntentWithOrder
  cases table.lookup identity with
  | none => simp
  | some row =>
      by_cases isOpen : row.state.isOpen
      · constructor
        · intro written
          simp only [isOpen, if_true, Except.ok.injEq] at written
          exact ⟨row, rfl, isOpen, written.symm⟩
        · rintro ⟨found, same, _, rfl⟩
          cases same
          simp [isOpen]
      · simp [isOpen]

def Final (table : IntentTable) (identity : CausalIdentity) (row : IntentRow) :
    Prop :=
  table.lookup identity = some row ∧ row.state.isOpen = false

/-- What every statement keeps: the stored identities, and every row that is
accepted or rejected. -/
structure Extends (table next : IntentTable) : Prop where
  stored : ∀ identity, (table.lookup identity).isSome →
    (next.lookup identity).isSome
  final : ∀ identity row, table.Final identity row → next.Final identity row

theorem Extends.refl (table : IntentTable) : table.Extends table :=
  ⟨fun _ => id, fun _ _ => id⟩

theorem Extends.insert {table : IntentTable} {row : IntentRow}
    (changeable : ∀ old, table.lookup identity = some old →
      old.state.isOpen = true) :
    table.Extends (table.insert identity row) where
  stored := by
    intro other found
    rw [KeyedMap.lookup_insert_eq]
    by_cases same : other = identity
    · simp [same]
    · rw [if_neg same]
      exact found
  final := by
    rintro other old ⟨found, closed⟩
    have ne : other ≠ identity := by
      rintro rfl
      rw [changeable old found] at closed
      cases closed
    exact ⟨by rw [KeyedMap.lookup_insert_eq, if_neg ne]; exact found,
      closed⟩

theorem storeIntentPending_extends {table next : IntentTable}
    {payload : JsonValue}
    (stored : table.storeIntentPending identity payload = .ok next) :
    table.Extends next := by
  obtain ⟨free, rfl⟩ := storeIntentPending_eq_ok_iff.mp stored
  apply Extends.insert
  intro old found
  rw [free] at found
  cases found

theorem transitionIntentWithOrder_extends {table next : IntentTable}
    (stored : table.transitionIntentWithOrder identity outcome venueOrderId =
      .ok next) :
    table.Extends next := by
  obtain ⟨row, found, isOpen, rfl⟩ :=
    transitionIntentWithOrder_eq_ok_iff.mp stored
  apply Extends.insert
  intro old oldFound
  rw [found] at oldFound
  cases oldFound
  exact isOpen

end IntentTable

end Pmkit
