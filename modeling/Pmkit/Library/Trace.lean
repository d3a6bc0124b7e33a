import Mathlib.Data.List.Basic

/-!
# Runs of a state machine

A run applies a step function to a list of inputs.  `EveryStep` says that each
input meets a condition in the state it meets; `EveryState` says that a
property holds in each state of the run, the first and the last included.
-/

universe u v

namespace Trace

variable {S : Type u} {A : Type v}

def run (step : S → A → S) : S → List A → S
  | state, [] => state
  | state, input :: rest => run step (step state input) rest

def EveryStep (step : S → A → S) (good : S → A → Prop) :
    S → List A → Prop
  | _, [] => True
  | state, input :: rest =>
      good state input ∧ EveryStep step good (step state input) rest

def EveryState (step : S → A → S) (property : S → Prop) :
    S → List A → Prop
  | state, [] => property state
  | state, input :: rest =>
      property state ∧ EveryState step property (step state input) rest

variable {step : S → A → S}

@[simp]
theorem run_nil (state : S) : run step state [] = state := rfl

@[simp]
theorem run_cons (state : S) (input : A) (rest : List A) :
    run step state (input :: rest) = run step (step state input) rest := rfl

theorem run_append (state : S) (first second : List A) :
    run step state (first ++ second) =
      run step (run step state first) second := by
  induction first generalizing state with
  | nil =>
      rfl
  | cons input rest ih =>
      exact ih (step state input)

variable {property : S → Prop} {state : S} {inputs : List A}
  {good : S → A → Prop}

theorem EveryState.first
    (every : EveryState step property state inputs) : property state := by
  cases inputs with
  | nil => exact every
  | cons input rest => exact every.1

theorem EveryState.last (every : EveryState step property state inputs) :
    property (run step state inputs) := by
  induction inputs generalizing state with
  | nil => exact every
  | cons input rest ih => exact ih every.2

theorem EveryState.imp {weaker : S → Prop}
    (implies : ∀ state, property state → weaker state)
    (every : EveryState step property state inputs) :
    EveryState step weaker state inputs := by
  induction inputs generalizing state with
  | nil =>
      exact implies state every
  | cons input rest ih =>
      exact ⟨implies state every.1, ih every.2⟩

/-- A condition on the inputs alone is met when each input meets it. -/
theorem everyStep_of_forall {given : A → Prop}
    (all : ∀ input ∈ inputs, given input) :
    EveryStep step (fun _ input => given input) state inputs := by
  induction inputs generalizing state with
  | nil =>
      trivial
  | cons input rest ih =>
      exact ⟨all input List.mem_cons_self, ih
        fun other mem => all other (List.mem_cons_of_mem input mem)⟩

theorem EveryStep.imp {weaker : S → A → Prop}
    (implies : ∀ state input, good state input → weaker state input)
    (every : EveryStep step good state inputs) :
    EveryStep step weaker state inputs := by
  induction inputs generalizing state with
  | nil =>
      trivial
  | cons input rest ih =>
      exact ⟨implies state input every.1, ih every.2⟩

/-- Each input meets the condition in some state of the run. -/
theorem EveryStep.exists_of_mem {input : A}
    (every : EveryStep step good state inputs) (mem : input ∈ inputs) :
    ∃ met, good met input := by
  induction inputs generalizing state with
  | nil =>
      cases mem
  | cons first rest ih =>
      rcases List.mem_cons.mp mem with rfl | later
      · exact ⟨state, every.1⟩
      · exact ih every.2 later

/-- Two conditions on each step are one. -/
theorem EveryStep.and {first second : S → A → Prop}
    (left : EveryStep step first state inputs)
    (right : EveryStep step second state inputs) :
    EveryStep step (fun state input => first state input ∧ second state input)
      state inputs := by
  induction inputs generalizing state with
  | nil =>
      trivial
  | cons input rest ih =>
      exact ⟨⟨left.1, right.1⟩, ih left.2 right.2⟩

theorem everyStep_append {first second : List A} :
    EveryStep step good state (first ++ second) ↔
      EveryStep step good state first ∧
        EveryStep step good (run step state first) second := by
  induction first generalizing state with
  | nil =>
      simp [EveryStep]
  | cons input rest ih =>
      simp only [List.cons_append, EveryStep, run_cons, ih, and_assoc]

theorem everyStep_congr {given left right : S → A → Prop}
    (agree : ∀ state input, given state input →
      (left state input ↔ right state input))
    (every : EveryStep step given state inputs) :
    EveryStep step left state inputs ↔ EveryStep step right state inputs := by
  induction inputs generalizing state with
  | nil =>
      exact Iff.rfl
  | cons input rest ih =>
      exact and_congr (agree state input every.1) (ih every.2)

/-- The invariant rule: what a good step preserves holds after every run of
good steps. -/
theorem run_preserves {invariant : S → Prop} {good : S → A → Prop}
    (preserved : ∀ state input,
      invariant state → good state input → invariant (step state input))
    {state : S} {inputs : List A}
    (holds : invariant state) (every : EveryStep step good state inputs) :
    invariant (run step state inputs) := by
  induction inputs generalizing state with
  | nil =>
      exact holds
  | cons input rest ih =>
      exact ih (preserved state input holds every.1) every.2

/-- The invariant rule over every state of a run. -/
theorem everyState_of_everyStep {invariant : S → Prop} {good : S → A → Prop}
    (preserved : ∀ state input,
      invariant state → good state input → invariant (step state input))
    {state : S} {inputs : List A}
    (holds : invariant state) (every : EveryStep step good state inputs) :
    EveryState step invariant state inputs := by
  induction inputs generalizing state with
  | nil =>
      exact holds
  | cons input rest ih =>
      exact ⟨holds, ih (preserved state input holds every.1) every.2⟩

/-- The invariant rule for what good steps do: it is done by every step of a
run of good steps. -/
theorem everyStep_of_everyStep {invariant : S → Prop} {good done : S → A → Prop}
    (preserved : ∀ state input, invariant state → good state input →
      invariant (step state input) ∧ done state input)
    {state : S} {inputs : List A}
    (holds : invariant state) (every : EveryStep step good state inputs) :
    EveryStep step done state inputs := by
  induction inputs generalizing state with
  | nil =>
      trivial
  | cons input rest ih =>
      have now := preserved state input holds every.1
      exact ⟨now.2, ih now.1 every.2⟩

/-- A run of steps that each decrease a measure is no longer than the measure
of its first state. -/
theorem EveryStep.length_le {invariant : S → Prop} (measure : S → Nat)
    (decreases : ∀ state input, invariant state → good state input →
      invariant (step state input) ∧ measure (step state input) < measure state)
    (holds : invariant state) (every : EveryStep step good state inputs) :
    inputs.length ≤ measure state := by
  induction inputs generalizing state with
  | nil =>
      exact Nat.zero_le _
  | cons input rest ih =>
      have now := decreases state input holds every.1
      exact Nat.lt_of_le_of_lt (ih now.1 every.2) now.2

theorem run_latch {property : S → Prop} {sets : S → A → Prop}
    (latched : ∀ state input,
      property (step state input) ↔ property state ∨ sets state input)
    (state : S) (inputs : List A) :
    property (run step state inputs) ↔
      property state ∨ ∃ before input after,
        inputs = before ++ input :: after ∧
          sets (run step state before) input := by
  induction inputs generalizing state with
  | nil =>
      simp
  | cons first rest ih =>
      rw [run_cons, ih, latched, or_assoc]
      apply or_congr_right
      constructor
      · rintro (now | ⟨before, input, after, rfl, later⟩)
        · exact ⟨[], first, rest, rfl, now⟩
        · exact ⟨first :: before, input, after, rfl, later⟩
      · rintro ⟨before, input, after, split, isSet⟩
        cases before with
        | nil =>
            cases split
            exact .inl isSet
        | cons other before =>
            cases split
            exact .inr ⟨before, input, after, rfl, isSet⟩

section Invariant

variable {invariant : S → Prop}
  (preserved : ∀ state input, invariant state → invariant (step state input))

include preserved

theorem run_invariant {state : S} (inputs : List A) (holds : invariant state) :
    invariant (run step state inputs) := by
  induction inputs generalizing state with
  | nil =>
      exact holds
  | cons input rest ih =>
      exact ih (preserved state input holds)

theorem everyState_of_invariant
    {state : S} {inputs : List A} (holds : invariant state) :
    EveryState step invariant state inputs := by
  induction inputs generalizing state with
  | nil =>
      exact holds
  | cons input rest ih =>
      exact ⟨holds, ih (preserved state input holds)⟩

/-- Every step of a run is taken from a state of the invariant. -/
theorem everyStep_of_invariant {good : S → A → Prop}
    (implies : ∀ state input, invariant state → good state input)
    {state : S} {inputs : List A} (holds : invariant state) :
    EveryStep step good state inputs := by
  induction inputs generalizing state with
  | nil =>
      trivial
  | cons input rest ih =>
      exact ⟨implies state input holds, ih (preserved state input holds)⟩

end Invariant

/-- The exact rule: when a bad step breaks the property at once, the property
holds in every state just when every step is good. -/
theorem everyState_iff_everyStep_of
    {given : A → Prop} (invariant : S → Prop) {property : S → Prop}
    {good : S → A → Prop}
    (observed : ∀ state, invariant state → property state)
    (preserved : ∀ state input, given input →
      invariant state → good state input → invariant (step state input))
    (broken : ∀ state input, given input →
      invariant state → property (step state input) → good state input)
    {state : S} {inputs : List A} (all : ∀ input ∈ inputs, given input)
    (holds : invariant state) :
    EveryState step property state inputs ↔
      EveryStep step good state inputs := by
  induction inputs generalizing state with
  | nil =>
      exact ⟨fun _ => trivial, fun _ => observed state holds⟩
  | cons input rest ih =>
      have now := all input List.mem_cons_self
      have later : ∀ input ∈ rest, given input := fun input mem =>
        all input (List.mem_cons_of_mem _ mem)
      constructor
      · intro every
        have isGood := broken state input now holds every.2.first
        exact ⟨isGood, (ih later
          (preserved state input now holds isGood)).mp every.2⟩
      · intro every
        exact ⟨observed state holds, (ih later
          (preserved state input now holds every.1)).mpr every.2⟩

theorem everyState_iff_everyStep (invariant : S → Prop)
    (observed : ∀ state, invariant state → property state)
    (preserved : ∀ state input,
      invariant state → good state input → invariant (step state input))
    (broken : ∀ state input,
      invariant state → property (step state input) → good state input)
    (holds : invariant state) :
    EveryState step property state inputs ↔
      EveryStep step good state inputs :=
  @everyState_iff_everyStep_of _ _ _ (fun _ => True) invariant _ _ observed
    (fun state input _ => preserved state input)
    (fun state input _ => broken state input) _ _ (fun _ _ => trivial) holds

end Trace
