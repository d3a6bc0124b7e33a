import Pmkit.Live.Gate

/-!
# A run and the orders it placed

The reservations of a run do not say what their orders were.  An audit keeps
the orders that the venue accepted beside the run, which reads none of them.
-/

namespace Pmkit

open MachineInt

/-- An order that the venue accepted, and the limits it was checked for. -/
structure VenueOrder where
  orderId : String
  order : PlaceOrder
  limits : RiskLimits

def Admission.placed {S V : Type} (admission : Admission S V) :
    Option VenueOrder :=
  admission.orderId.map fun orderId =>
    { orderId := orderId
      order := admission.order
      limits := admission.evaluation.limits }

def recordPlaced {S V : Type} (placed : List VenueOrder)
    (admission : Admission S V) : List VenueOrder :=
  admission.placed.toList ++ placed

def placedAs (placed : List VenueOrder) (orderId : String) :
    Option VenueOrder :=
  placed.find? fun one => one.orderId = orderId

/-- A run with the orders it placed, the last first. -/
structure LiveAudit (S V : Type) where
  state : LiveState S V
  placed : List VenueOrder

namespace LiveAudit

variable {S V : Type}

def start (run : LiveRun S V) (store : Option LiveStore) (venue : V) :
    LiveAudit S V where
  state := LiveState.start run store venue
  placed := []

def step (run : LiveRun S V) (audit : LiveAudit S V)
    (envelope : SourceEnvelope Decimal) : LiveAudit S V where
  state := audit.state.step run envelope
  placed := Trace.run recordPlaced audit.placed
    (audit.state.admissions run envelope)

end LiveAudit

theorem placedAs_cons (one : VenueOrder) (placed : List VenueOrder)
    (orderId : String) :
    placedAs (one :: placed) orderId =
      if one.orderId = orderId then some one else placedAs placed orderId := by
  rw [placedAs, List.find?_cons]
  by_cases same : one.orderId = orderId
  · rw [if_pos same, decide_eq_true same]
  · rw [if_neg same, decide_eq_false same, placedAs]

namespace LiveState

variable {S V : Type}

/-- The rule for the admissions of a fact and the orders placed: what each
admission keeps, of a reading that nothing else changes, all of them keep. -/
theorem chained_rule
    {C : Type} {read : LiveState S V → C} {keeps : C → List VenueOrder → Prop}
    {good : List VenueOrder → Admission S V → Prop} {first last : C}
    {placed : List VenueOrder} {admissions : List (Admission S V)}
    (admitting : ∀ placed, ∀ admission ∈ admissions,
      keeps (read admission.before) placed → good placed admission →
      keeps (read admission.after) (recordPlaced placed admission))
    (chained : Chained read last first admissions)
    (every : Trace.EveryStep recordPlaced good placed admissions)
    (holds : keeps first placed) :
    keeps last (Trace.run recordPlaced placed admissions) ∧
      Trace.EveryStep recordPlaced
        (fun placed admission => keeps (read admission.before) placed) placed
        admissions := by
  induction admissions generalizing first placed with
  | nil =>
      rw [Chained] at chained
      rw [← chained]
      exact ⟨holds, trivial⟩
  | cons admission rest ih =>
      obtain ⟨begins, follows⟩ := chained
      rw [← begins] at holds
      have next := ih
        (fun placed other mem =>
          admitting placed other (List.mem_cons_of_mem _ mem)) follows every.2
        (admitting placed admission List.mem_cons_self holds every.1)
      exact ⟨next.1, holds, next.2⟩

end LiveState

end Pmkit
