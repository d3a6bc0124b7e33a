import Pmkit.Paper.Executor
import Pmkit.Paper.Wire
import Pmkit.Store.Causal

/-!
# The durable paper run

After every operation the driver writes the pending ledger entries, one
decision at a time, and a new process restores the executor from the
decisions it reads back.  A crash keeps the rows and loses the executor.
-/

namespace Pmkit

open MachineInt

/-- The store errors of a paper run.  A corrupt ledger keeps the error whose
text the source reports. -/
inductive PaperStoreError where
  | store (error : CausalStoreError)
  | corruptPaperLedger (message : String)
  | ledger (error : PaperLedgerError)
  deriving DecidableEq

namespace PaperLedger

/-- `pending_entry`: the oldest entry that storage has not acknowledged. -/
def pendingEntry (ledger : PaperLedger) : Option PaperLedgerEntry :=
  ledger.pending.head?

/-- `acknowledge_pending`. -/
def acknowledgePending (ledger : PaperLedger) (eventId : String) :
    PaperLedger × Bool :=
  match ledger.pending with
  | [] => (ledger, false)
  | entry :: rest =>
      if entry.eventId = eventId then
        ({ ledger with pending := rest }, true)
      else
        (ledger, false)

end PaperLedger

/-- `i64::try_from` of a sequence number. -/
def ingestSequenceOf (sequence : Nat) : Option I64 :=
  if fits : (sequence : ℤ) ≤ 2 ^ 63 - 1 then
    some ⟨sequence, by omega, fits⟩
  else
    none

/-- The fixed parts of a paper run: who owns its rows and how its executor is
set up. -/
structure PaperSetup where
  scope : OwnerScope
  idPrefix : String
  config : SimulationConfig
  initialCash : Money

/-- A running paper executor and the decision rows of its store. -/
structure DurableState (Value : Type) where
  executor : ExecutorState
  rows : List (CausalDecision Value)

namespace PaperSetup

variable {Value : Type}

def decisionOf (setup : PaperSetup) (json : JsonLibrary Value)
    (entry : PaperLedgerEntry) :
    Except PaperStoreError (CausalDecision Value) :=
  match ingestSequenceOf entry.sequence with
  | none =>
      .error (.corruptPaperLedger "paper ledger sequence exceeds storage range")
  | some ingestSequence =>
      match entry.toValue json with
      | .error error => .error (.ledger error)
      | .ok payload =>
          .ok
            { identity :=
                { scope := setup.scope
                  correlationId := entry.eventId
                  sourceTimestampMs := entry.timestampMs
                  ingestSequence := ingestSequence }
              payload := payload }

/-- The loop of `persist_paper_ledger`, cut after a number of writes. -/
def persistWrites (setup : PaperSetup) (json : JsonLibrary Value) :
    Nat → DurableState Value → DurableState Value × Except PaperStoreError Unit
  | 0, state => (state, .ok ())
  | writes + 1, state =>
      match state.executor.ledger.pendingEntry with
      | none => (state, .ok ())
      | some entry =>
          match setup.decisionOf json entry with
          | .error error => (state, .error error)
          | .ok decision =>
              match CausalDecision.store state.rows decision with
              | .error error => (state, .error (.store error))
              | .ok rows =>
                  match state.executor.ledger.acknowledgePending
                      entry.eventId with
                  | (_, false) =>
                      ({ state with rows := rows }, .error (.store (.storage
                          "paper ledger pending entry changed before acknowledgement")))
                  | (ledger, true) =>
                      setup.persistWrites json writes
                        { executor := { state.executor with ledger := ledger }
                          rows := rows }

/-- `persist_paper_ledger`. -/
def persistPaperLedger (setup : PaperSetup) (json : JsonLibrary Value)
    (state : DurableState Value) :
    DurableState Value × Except PaperStoreError Unit :=
  setup.persistWrites json state.executor.ledger.pending.length state

/-- The loop of `restore_paper_executor_from_decisions`. -/
def restoreEntries (json : JsonLibrary Value) :
    List (CausalDecision Value) →
      Except PaperStoreError (List PaperLedgerEntry)
  | [] => .ok []
  | decision :: rest =>
      match PaperLedgerEntry.fromValue json decision.payload with
      | .error error => .error (.ledger error)
      | .ok none => restoreEntries json rest
      | .ok (some entry) =>
          if decision.identity.ingestSequence.1 < 0 then
            .error (.corruptPaperLedger
              "paper ledger ingest sequence is negative")
          else if decision.identity.correlationId ≠ entry.eventId ∨
              decision.identity.sourceTimestampMs ≠ entry.timestampMs ∨
              decision.identity.ingestSequence.1.toNat ≠ entry.sequence then
            .error (.corruptPaperLedger
              "paper ledger payload does not match its durable identity")
          else
            (restoreEntries json rest).map (entry :: ·)

/-- `restore_paper_executor_from_decisions`: no paper entries, no executor. -/
def restorePaperExecutorFromDecisions (setup : PaperSetup)
    (json : JsonLibrary Value) (order : IterationOrder String)
    (decisions : List (CausalDecision Value)) :
    Except PaperStoreError (Option ExecutorState) :=
  match restoreEntries json decisions with
  | .error error => .error error
  | .ok [] => .ok none
  | .ok (entry :: rest) =>
      match ExecutorState.reconstructWithFeeConfig order setup.idPrefix
          setup.config (entry :: rest) with
      | .error error => .error (.ledger error)
      | .ok executor => .ok (some executor)

def newExecutor (setup : PaperSetup) : ExecutorState :=
  .withAccountFeeConfig setup.idPrefix setup.config setup.initialCash

/-- The executor a process starts with: the restored one, or a new account. -/
def startExecutor (setup : PaperSetup) (json : JsonLibrary Value)
    (order : IterationOrder String) (decisions : List (CausalDecision Value)) :
    Except PaperStoreError ExecutorState :=
  (setup.restorePaperExecutorFromDecisions json order decisions).map
    fun restored => restored.getD setup.newExecutor

end PaperSetup

/-- What the driver does between two flushes: an executor operation, nothing
(the first flush), another decision of the run, or a new process that reads
the decisions back. -/
inductive DurableEvent (Value : Type) where
  | operate (call : ExecutorCall)
  | persist
  | record (decision : CausalDecision Value)
  | restart (order : IterationOrder String)
      (decisions : List (CausalDecision Value))

namespace DurableState

variable {Value : Type}

def begin (setup : PaperSetup) (json : JsonLibrary Value)
    (state : DurableState Value) : DurableEvent Value → DurableState Value
  | .operate call => { state with executor := state.executor.step call }
  | .persist => state
  | .record decision =>
      match CausalDecision.store state.rows decision with
      | .ok rows => { state with rows := rows }
      | .error _ => state
  | .restart order decisions =>
      match setup.startExecutor json order decisions with
      | .ok executor => { state with executor := executor }
      | .error _ => state

def durableStep (setup : PaperSetup) (json : JsonLibrary Value)
    (state : DurableState Value) (event : DurableEvent Value) :
    DurableState Value :=
  (setup.persistPaperLedger json (state.begin setup json event)).1

def crashedRows (setup : PaperSetup) (json : JsonLibrary Value)
    (state : DurableState Value) (event : DurableEvent Value) (writes : Nat) :
    List (CausalDecision Value) :=
  (setup.persistWrites json writes (state.begin setup json event)).1.rows

def start (setup : PaperSetup) : DurableState Value where
  executor := setup.newExecutor
  rows := []

end DurableState

end Pmkit
