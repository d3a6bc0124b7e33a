import Pmkit.Domain

/-!
# The causal tables of the store

Decisions and order intents are rows under a causal identity, which is the
primary key of both tables.  An insert that meets its key writes nothing, and
the caller reads the number of rows written.
-/

namespace Pmkit

open MachineInt

structure OwnerScope where
  portfolioId : PortfolioId
  runId : RunId
  deriving DecidableEq

structure CausalIdentity where
  scope : OwnerScope
  correlationId : String
  sourceTimestampMs : I64
  ingestSequence : I64
  deriving DecidableEq

structure CausalDecision (Value : Type) where
  identity : CausalIdentity
  payload : Value
  deriving DecidableEq

/-- The failures of the causal tables. -/
inductive CausalStoreError where
  | storage (message : String)
  | duplicateCausalIdentity
  | pendingIntentNotFound
  deriving DecidableEq

namespace CausalDecision

variable {Value : Type}

/-- `store_decision`: the insert does nothing when the identity is taken. -/
def store (rows : List (CausalDecision Value))
    (decision : CausalDecision Value) :
    Except CausalStoreError (List (CausalDecision Value)) :=
  if rows.any fun row => row.identity = decision.identity then
    .error .duplicateCausalIdentity
  else
    .ok (rows ++ [decision])

/-- The `ORDER BY` of `READ_DECISIONS`. -/
def Before (left right : CausalDecision Value) : Prop :=
  left.identity.sourceTimestampMs < right.identity.sourceTimestampMs ∨
    (left.identity.sourceTimestampMs = right.identity.sourceTimestampMs ∧
      left.identity.ingestSequence ≤ right.identity.ingestSequence)

instance (left right : CausalDecision Value) : Decidable (left.Before right) := by
  unfold Before
  infer_instance

/-- What `read_decisions` may return: the rows of the scope in the order of
the query, ties in any order. -/
structure ReadsAs (scope : OwnerScope) (rows decisions : List (CausalDecision Value)) :
    Prop where
  rows : decisions.Perm (rows.filter fun row => row.identity.scope = scope)
  ordered : decisions.Pairwise Before

end CausalDecision

end Pmkit
