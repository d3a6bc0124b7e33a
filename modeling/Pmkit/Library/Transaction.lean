import Pmkit.Library.Fallible

/-!
# Transactions

A connection has committed state and, while a transaction is open, a working
copy of it.  The statements of a transaction change the copy; a commit makes
the copy the committed state, and an early return drops the transaction and the
copy with it.
-/

universe u v

namespace Transaction

variable {S : Type u} {E : Type v}

/-- A statement returns the state after it, or fails. -/
abbrev Statement (S : Type u) (E : Type v) := S → Except E S

structure Connection (S : Type u) where
  committed : S
  working : Option S

namespace Connection

/-- No transaction is open. -/
def idle (committed : S) : Connection S :=
  ⟨committed, none⟩

def start (connection : Connection S) : Connection S :=
  { connection with working := some connection.committed }

def commit (connection : Connection S) : Connection S :=
  idle (connection.working.getD connection.committed)

def rollback (connection : Connection S) : Connection S :=
  idle connection.committed

/-- The state that a statement reads. -/
def view (connection : Connection S) : S :=
  connection.working.getD connection.committed

/-- Execute the statements in the open transaction and commit; the first
failure drops the transaction. -/
def executeAll (connection : Connection S) :
    List (Statement S E) → Except E Unit × Connection S
  | [] => (.ok (), connection.commit)
  | statement :: rest =>
      match statement connection.view with
      | .error error => (.error error, connection.rollback)
      | .ok next => executeAll { connection with working := some next } rest

def transaction (connection : Connection S)
    (statements : List (Statement S E)) : Except E Unit × Connection S :=
  connection.start.executeAll statements

end Connection

/-- The statements as one: the state after the last, or the first failure. -/
def chain : List (Statement S E) → Statement S E
  | [], state => .ok state
  | statement :: rest, state =>
      match statement state with
      | .error error => .error error
      | .ok next => chain rest next

@[simp]
theorem chain_nil (state : S) :
    chain ([] : List (Statement S E)) state = .ok state := rfl

variable {statement : Statement S E}

theorem chain_cons_of_error {state : S} {error : E}
    (failed : statement state = .error error)
    (rest : List (Statement S E)) :
    chain (statement :: rest) state = .error error := by
  rw [chain, failed]

theorem chain_cons_of_ok {state next : S}
    (executed : statement state = .ok next) (rest : List (Statement S E)) :
    chain (statement :: rest) state = chain rest next := by
  rw [chain, executed]

theorem chain_append (first second : List (Statement S E)) (state : S) :
    chain (first ++ second) state =
      match chain first state with
      | .error error => .error error
      | .ok next => chain second next := by
  induction first generalizing state with
  | nil =>
      rfl
  | cons statement rest ih =>
      simp only [List.cons_append, chain]
      cases statement state with
      | error error => rfl
      | ok next => exact ih next

namespace Connection

/-- What a call returns and leaves, given what it computes: an error leaves
the committed state. -/
def settle (committed : S) (outcome : Except E S) :
    Except E Unit × Connection S :=
  match outcome with
  | .error error => (.error error, idle committed)
  | .ok next => (.ok (), idle next)

theorem executeAll_eq
    (statements : List (Statement S E)) (connection : Connection S) :
    connection.executeAll statements =
      settle connection.committed (chain statements connection.view) := by
  induction statements generalizing connection with
  | nil =>
      rfl
  | cons statement rest ih =>
      simp only [executeAll, chain]
      cases statement connection.view with
      | error error => rfl
      | ok next => exact ih { connection with working := next }

/-- A transaction has the effect of all its statements, or none. -/
theorem transaction_eq (statements : List (Statement S E)) (committed : S) :
    (idle committed).transaction statements =
      settle committed (chain statements committed) :=
  executeAll_eq statements (idle committed).start

end Connection

end Transaction
