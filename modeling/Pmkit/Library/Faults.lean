import Mathlib.Data.List.Basic

/-!
# Programs whose calls may fail

A program runs over a state and makes calls to its environment.  A list of
faults says what happens to each call in turn: it may answer, or fail or be
cut off by a crash after some of its effects.  `Ensures` is the rule of
postconditions for such programs, over every list of allowed faults.
-/

universe u

namespace Faults

inductive Outcome (E A : Type u) where
  | returned (answer : Except E A)
  | crashed
  deriving DecidableEq

/-- What happens to one call. -/
inductive Fault (E : Type u) where
  | none
  | error (failure : E) (applied : Nat)
  | crash (applied : Nat)
  deriving DecidableEq

/-- The outcome of a program with the state and the faults it leaves. -/
structure Ending (S F E A : Type u) where
  outcome : Outcome E A
  state : S
  faults : List F

/-- A program over a state, run against a list of faults. -/
def Program (S F E A : Type u) : Type u :=
  S → List F → Ending S F E A

variable {S F E E' A B : Type u}

namespace Program

def answer (result : Except E A) : Program S F E A := fun state faults =>
  ⟨.returned result, state, faults⟩

def handle (program : Program S F E A)
    (next : Except E A → Program S F E' B) : Program S F E' B :=
  fun state faults =>
    let ending := program state faults
    match ending.outcome with
    | .returned result => next result ending.state ending.faults
    | .crashed => ⟨.crashed, ending.state, ending.faults⟩

def mapError (convert : E → E') (program : Program S F E A) :
    Program S F E' A :=
  handle program fun result => answer (result.mapError convert)

def attempt (program : Program S F E A) : Program S F E' (Except E A) :=
  handle program fun result => answer (.ok result)

def bind (program : Program S F E A) (next : A → Program S F E B) :
    Program S F E B :=
  handle program fun result =>
    match result with
    | .ok value => next value
    | .error failure => answer (.error failure)

instance : Monad (Program S F E) where
  pure value := answer (.ok value)
  bind := bind

/-- Runs the program again on an error that allows it, a bounded number of
times. -/
def retrying (again : E → Bool) (program : Program S F E A) :
    (further : Nat) → Program S F E A
  | 0 => program
  | further + 1 =>
      handle program fun result =>
        match result with
        | .ok value => answer (.ok value)
        | .error failure =>
            if again failure then retrying again program further
            else answer (.error failure)

end Program

/-- What a call does when it is let through: its effects in order, and its
answer. -/
structure Operation (S E A : Type u) where
  effects : List (S → S)
  answer : Except E A

def applied (count : Nat) (effects : List (S → S)) (state : S) : S :=
  (effects.take count).foldl (fun state effect => effect state) state

/-- A call takes the next fault; with none left it is let through. -/
def perform (operation : S → Operation S E A) : Program S (Fault E) E A :=
  fun state faults =>
    let called := operation state
    match faults with
    | .error failure count :: rest =>
        ⟨.returned (.error failure), applied count called.effects state, rest⟩
    | .crash count :: rest =>
        ⟨.crashed, applied count called.effects state, rest⟩
    | .none :: rest =>
        ⟨.returned called.answer,
          applied called.effects.length called.effects state, rest⟩
    | [] =>
        ⟨.returned called.answer,
          applied called.effects.length called.effects state, []⟩

@[simp]
theorem applied_nil (count : Nat) (state : S) :
    applied count [] state = state := by
  simp [applied]

@[simp]
theorem applied_zero (effects : List (S → S)) (state : S) :
    applied 0 effects state = state := rfl

@[simp]
theorem applied_succ_cons
    (count : Nat) (effect : S → S) (effects : List (S → S)) (state : S) :
    applied (count + 1) (effect :: effects) state =
      applied count effects (effect state) := rfl

theorem applied_singleton (count : Nat) (effect : S → S) (state : S) :
    applied count [effect] state = state ∨
      applied count [effect] state = effect state := by
  cases count with
  | zero => exact .inl rfl
  | succ count => exact .inr (applied_nil count (effect state))

variable {state : S} {operation : S → Operation S E A}
  {program : Program S F E A}

/-- What each effect keeps is kept by any first effects of a list. -/
theorem applied_preserves {invariant : S → Prop} {effects : List (S → S)}
    (each : ∀ effect ∈ effects, ∀ state,
      invariant state → invariant (effect state))
    (count : Nat) (holds : invariant state) :
    invariant (applied count effects state) := by
  induction effects generalizing count state with
  | nil =>
      rw [applied_nil]
      exact holds
  | cons effect rest ih =>
      cases count with
      | zero => exact holds
      | succ count =>
          exact ih
            (fun other mem => each other (List.mem_cons_of_mem effect mem))
            count (each effect List.mem_cons_self state holds)

/-! ## Postconditions -/

section Ensures

variable {allowed : F → Prop}

/-- Whatever allowed faults meet the program, its outcome and the state it
leaves are as the postcondition says. -/
def Ensures (allowed : F → Prop) (program : Program S F E A) (state : S)
    (post : Outcome E A → S → Prop) : Prop :=
  ∀ faults : List F, (∀ fault ∈ faults, allowed fault) →
    post (program state faults).outcome (program state faults).state ∧
      ∀ fault ∈ (program state faults).faults, allowed fault

variable {program : Program S F E A} {state : S} {post : Outcome E A → S → Prop}

/-- What is ensured against all faults holds of a given list. -/
theorem Ensures.at
    (ensures : Ensures (fun _ => True) program state post) (faults : List F) :
    post (program state faults).outcome (program state faults).state :=
  (ensures faults fun _ _ => trivial).1

theorem Ensures.weaken {weaker : Outcome E A → S → Prop}
    (ensures : Ensures allowed program state post)
    (implies : ∀ outcome state, post outcome state → weaker outcome state) :
    Ensures allowed program state weaker := by
  intro faults all
  obtain ⟨holds, rest⟩ := ensures faults all
  exact ⟨implies _ _ holds, rest⟩

theorem ensures_answer {result : Except E A}
    (holds : post (.returned result) state) :
    Ensures allowed (Program.answer result : Program S F E A) state post :=
  fun _ all => ⟨holds, all⟩

theorem ensures_handle {next : Except E A → Program S F E' B}
    {post : Outcome E' B → S → Prop}
    (ensures : Ensures allowed program state fun outcome middle =>
      match outcome with
      | .returned result => Ensures allowed (next result) middle post
      | .crashed => post .crashed middle) :
    Ensures allowed (program.handle next) state post := by
  intro faults all
  obtain ⟨holds, rest⟩ := ensures faults all
  unfold Program.handle
  cases ended : (program state faults).outcome with
  | returned result =>
      simp only [ended] at holds ⊢
      exact holds _ rest
  | crashed =>
      simp only [ended] at holds ⊢
      exact ⟨holds, rest⟩

/-- The rule for a sequence of two programs. -/
theorem ensures_bind {next : A → Program S F E B}
    {post : Outcome E B → S → Prop}
    (ensures : Ensures allowed program state fun outcome middle =>
      match outcome with
      | .returned (.ok value) => Ensures allowed (next value) middle post
      | .returned (.error failure) => post (.returned (.error failure)) middle
      | .crashed => post .crashed middle) :
    Ensures allowed (program >>= next) state post := by
  apply ensures_handle
  apply ensures.weaken
  intro outcome middle holds
  match outcome, holds with
  | .returned (.ok value), holds => exact holds
  | .returned (.error failure), holds => exact ensures_answer holds
  | .crashed, holds => exact holds

theorem ensures_mapError {convert : E → E'} {post : Outcome E' A → S → Prop}
    (ensures : Ensures allowed program state fun outcome middle =>
      match outcome with
      | .returned result => post (.returned (result.mapError convert)) middle
      | .crashed => post .crashed middle) :
    Ensures allowed (program.mapError convert) state post := by
  apply ensures_handle
  apply ensures.weaken
  intro outcome middle holds
  match outcome, holds with
  | .returned result, holds => exact ensures_answer holds
  | .crashed, holds => exact holds

/-- A loop of attempts keeps what each attempt keeps. -/
theorem ensures_retrying {again : E → Bool} (invariant : S → Prop)
    (each : ∀ state, invariant state →
      Ensures allowed program state fun outcome middle =>
        post outcome middle ∧
          ∀ failure, outcome = .returned (.error failure) → invariant middle)
    (further : Nat) (holds : invariant state) :
    Ensures allowed (program.retrying again further) state post := by
  induction further generalizing state with
  | zero =>
      exact (each state holds).weaken fun _ _ both => both.1
  | succ further ih =>
      apply ensures_handle
      apply (each state holds).weaken
      intro outcome middle both
      match outcome, both with
      | .returned (.ok value), both => exact ensures_answer both.1
      | .returned (.error failure), both =>
          dsimp only
          split
          · exact ih (both.2 failure rfl)
          · exact ensures_answer both.1
      | .crashed, both => exact both.1

end Ensures

/-- The rule for one call: an answer, an error or a crash, each with the
effects it leaves. -/
theorem ensures_perform {allowed : Fault E → Prop}
    {post : Outcome E A → S → Prop}
    (answers : post (.returned (operation state).answer)
      (applied (operation state).effects.length (operation state).effects
        state))
    (errors : ∀ failure count, allowed (.error failure count) →
      post (.returned (.error failure))
        (applied count (operation state).effects state))
    (crashes : ∀ count, allowed (.crash count) →
      post .crashed (applied count (operation state).effects state)) :
    Ensures allowed (perform operation) state post := by
  intro faults all
  cases faults with
  | nil => exact ⟨answers, all⟩
  | cons fault rest =>
      have first := all fault List.mem_cons_self
      have later : ∀ other ∈ rest, allowed other := fun other mem =>
        all other (List.mem_cons_of_mem fault mem)
      cases fault with
      | none => exact ⟨answers, later⟩
      | error failure count => exact ⟨errors failure count first, later⟩
      | crash count => exact ⟨crashes count first, later⟩

/-! ## Exact runs of retried calls

What becomes of a retried call that always answers is decided by the faults
alone. -/

def Outcome.isOk : Outcome E A → Bool
  | returned (.ok _) => true
  | _ => false

/-- The faults a program leaves, if it returns a value. -/
def Ending.passed (ending : Ending S F E A) : Option (List F) :=
  if ending.outcome.isOk then some ending.faults else none

def passes (again : E → Bool) :
    (further : Nat) → List (Fault E) → Option (List (Fault E))
  | _, [] => some []
  | _, .none :: rest => some rest
  | _, .crash _ :: _ => none
  | 0, .error _ _ :: _ => none
  | further + 1, .error failure _ :: rest =>
      if again failure then passes again further rest else none

def touches (again : E → Bool) : (further : Nat) → List (Fault E) → Bool
  | _, [] => true
  | _, .none :: _ => true
  | _, .crash count :: _ => 0 < count
  | 0, .error _ count :: _ => 0 < count
  | further + 1, .error failure count :: rest =>
      0 < count || (again failure && touches again further rest)

/-- The faults left once several retried calls have been let through. -/
def passesAll (again : E → Bool) (further : Nat) :
    (calls : Nat) → List (Fault E) → Option (List (Fault E))
  | 0, faults => some faults
  | calls + 1, faults =>
      (passes again further faults).bind (passesAll again further calls)

theorem Ending.passed_eq_some {ending : Ending S F E A} {rest : List F} :
    ending.passed = some rest ↔
      ∃ value after, ending = ⟨.returned (.ok value), after, rest⟩ := by
  obtain ⟨outcome, state, faults⟩ := ending
  unfold passed
  match outcome with
  | .returned (.ok value) => simp [Outcome.isOk]
  | .returned (.error failure) => simp [Outcome.isOk]
  | .crashed => simp [Outcome.isOk]

@[simp]
theorem passed_mapError
    (convert : E → E') (program : Program S F E A) (state : S)
    (faults : List F) :
    (program.mapError convert state faults).passed =
      (program state faults).passed := by
  rcases ran : program state faults with ⟨outcome, after, rest⟩
  simp only [Program.mapError, Program.handle, ran]
  match outcome with
  | .returned (.ok value) => rfl
  | .returned (.error failure) => rfl
  | .crashed => rfl

@[simp]
theorem state_mapError
    (convert : E → E') (program : Program S F E A) (state : S)
    (faults : List F) :
    (program.mapError convert state faults).state =
      (program state faults).state := by
  rcases ran : program state faults with ⟨outcome, after, rest⟩
  simp only [Program.mapError, Program.handle, ran]
  cases outcome <;> rfl

theorem bind_of_passed {after : S} {value : A} {faults rest : List F}
    (ran : program state faults = ⟨.returned (.ok value), after, rest⟩)
    (next : A → Program S F E B) :
    (program >>= next) state faults = next value after rest := by
  change Program.handle program _ state faults = _
  simp only [Program.handle, ran]

/-- A program that returned no value ends the sequence. -/
theorem bind_of_not_passed {faults : List F}
    (stopped : (program state faults).passed = none)
    (next : A → Program S F E B) :
    ((program >>= next) state faults).state = (program state faults).state ∧
      ((program >>= next) state faults).passed = none := by
  change (Program.handle program _ state faults).state = _ ∧
    (Program.handle program _ state faults).passed = none
  rcases ran : program state faults with ⟨outcome, after, rest⟩
  rw [ran] at stopped
  simp only [Program.handle, ran]
  match outcome with
  | .returned (.ok value) => simp [Ending.passed, Outcome.isOk] at stopped
  | .returned (.error failure) => exact ⟨rfl, rfl⟩
  | .crashed => exact ⟨rfl, rfl⟩

theorem passed_bind_pure (program : Program S F E A) (next : A → B) (state : S)
    (faults : List F) :
    ((program >>= fun value => pure (next value)) state faults).passed =
      (program state faults).passed := by
  change (Program.handle program _ state faults).passed = _
  rcases ran : program state faults with ⟨outcome, after, rest⟩
  simp only [Program.handle, ran]
  match outcome with
  | .returned (.ok value) => rfl
  | .returned (.error failure) => rfl
  | .crashed => rfl

theorem passed_retrying {again : E → Bool} (invariant : S → Prop)
    (answers : ∀ state, invariant state →
      ∃ value, (operation state).answer = .ok value)
    (keeps : ∀ state count, invariant state →
      invariant (applied count (operation state).effects state))
    (further : Nat) (faults : List (Fault E))
    (holds : invariant state) :
    ((perform operation).retrying again further state faults).passed =
      passes again further faults := by
  obtain ⟨value, answer⟩ := answers state holds
  induction further generalizing faults state value with
  | zero =>
      rcases faults with _ | ⟨_ | ⟨failure, count⟩ | count, rest⟩ <;>
        simp [Program.retrying, perform, answer, passes, Ending.passed,
          Outcome.isOk]
  | succ further ih =>
      match faults with
      | [] =>
          simp [Program.retrying, Program.handle, Program.answer, perform,
            answer, passes, Ending.passed, Outcome.isOk]
      | .none :: rest =>
          simp [Program.retrying, Program.handle, Program.answer, perform,
            answer, passes, Ending.passed, Outcome.isOk]
      | .crash count :: rest =>
          simp [Program.retrying, Program.handle, perform, passes,
            Ending.passed, Outcome.isOk]
      | .error failure count :: rest =>
          have kept := keeps state count holds
          obtain ⟨next, nextAnswer⟩ := answers _ kept
          have later := ih rest kept next nextAnswer
          simp only [Program.retrying, Program.handle, perform, passes]
          split
          · exact later
          · rfl

/-- An attempt with an effect brings about what no later attempt takes back;
without one the state is as it was and the call has failed. -/
theorem retrying_touches
    {again : E → Bool} {operation : S → Operation S E A} {state : S}
    {value : A} (answer : (operation state).answer = .ok value)
    (some : (operation state).effects ≠ []) (done : S → Prop)
    (effect : ∀ count, 0 < count →
      done (applied count (operation state).effects state))
    (stays : ∀ further count, 0 < count →
      Ensures (fun _ => True) ((perform operation).retrying again further)
        (applied count (operation state).effects state)
        fun _ after => done after)
    (further : Nat) (faults : List (Fault E)) :
    let ending := (perform operation).retrying again further state faults
    (touches again further faults = true → done ending.state) ∧
      (touches again further faults = false →
        ending.state = state ∧ ending.passed = none) := by
  have all := effect _ (List.length_pos_of_ne_nil some)
  -- An attempt that is not let through, when no other follows.
  have stopped : ∀ (outcome : Outcome E A) (count : Nat)
      (rest : List (Fault E)), outcome.isOk = false →
      let ending : Ending S (Fault E) E A :=
        ⟨outcome, applied count (operation state).effects state, rest⟩
      (decide (0 < count) = true → done ending.state) ∧
        (decide (0 < count) = false →
          ending.state = state ∧ ending.passed = none) := by
    intro outcome count rest notOk
    refine ⟨fun positive => effect count (of_decide_eq_true positive), ?_⟩
    intro zero
    have none : count = 0 := by simpa using zero
    simp [none, Ending.passed, notOk]
  induction further generalizing faults with
  | zero =>
      match faults with
      | [] => simpa [Program.retrying, perform, touches] using all
      | .none :: rest => simpa [Program.retrying, perform, touches] using all
      | .crash count :: rest => exact stopped .crashed count rest rfl
      | .error failure count :: rest =>
          exact stopped (.returned (.error failure)) count rest rfl
  | succ further ih =>
      match faults with
      | [] =>
          simpa [Program.retrying, Program.handle, perform, answer, touches,
            Program.answer] using all
      | .none :: rest =>
          simpa [Program.retrying, Program.handle, perform, answer, touches,
            Program.answer] using all
      | .crash count :: rest => exact stopped .crashed count rest rfl
      | .error failure count :: rest =>
          simp only [Program.retrying, Program.handle, perform, touches]
          by_cases retried : again failure = true
          · rw [if_pos retried]
            by_cases positive : 0 < count
            · simpa [positive] using (stays further count positive).at rest
            · simpa [Nat.eq_zero_of_not_pos positive, retried] using
                ih rest
          · rw [if_neg retried]
            have alone :=
              stopped (.returned (.error failure)) count rest rfl
            simpa [retried, Program.answer] using alone

end Faults
