import Mathlib.Data.List.Basic

/-!
# Computations that may fail

What a sequence of fallible steps says of its parts, and loops over fallible
steps.
-/

universe u

namespace Fallible

theorem bind_eq_ok
    {A B E : Type u} {first : Except E A} {next : A → Except E B} {result : B} :
    (first >>= next) = .ok result ↔
      ∃ value, first = .ok value ∧ next value = .ok result := by
  cases first with
  | error error =>
      constructor
      · intro failed
        cases failed
      · rintro ⟨value, no, _⟩
        cases no
  | ok value =>
      constructor
      · intro rest
        exact ⟨value, rfl, rest⟩
      · rintro ⟨_, same, rest⟩
        cases same
        exact rest

theorem map_eq_ok
    {A B E : Type u} {read : Except E A} {next : A → B} {result : B} :
    read.map next = .ok result ↔
      ∃ value, read = .ok value ∧ next value = result := by
  cases read <;> simp [Except.map]

theorem isOk_iff {A E : Type u} {read : Except E A} :
    read.isOk = true ↔ ∃ value, read = .ok value := by
  cases read <;> simp [Except.isOk, Except.toBool]

theorem isOk_bind_of_fails
    {A B E : Type} {first : Except E A} {next : A → Except E B}
    (fails : ∀ value, (next value).isOk = false) :
    (first >>= next).isOk = false := by
  cases first with
  | error error => rfl
  | ok value => exact fails value

/-- A sequence succeeds when both of its parts do, and the second part does so
whatever value the first one gives. -/
theorem isOk_bind_iff
    {A B E : Type u} {first : Except E A} {next : A → Except E B} {rest : Prop}
    (independent : ∀ value, (next value).isOk = true ↔ rest) :
    (first >>= next).isOk = true ↔ first.isOk = true ∧ rest := by
  cases first with
  | error error =>
      constructor
      · intro failed
        cases failed
      · rintro ⟨failed, _⟩
        cases failed
  | ok value =>
      exact (independent value).trans (by simp [Except.isOk, Except.toBool])

theorem isOk_map_some
    {A E : Type} {value : Except E A} (fails : value.isOk = false) :
    (some <$> value).isOk = false := by
  cases value with
  | error error => rfl
  | ok value => cases fails

/-! ## Loops -/

theorem mapM_eq_some_iff
    {A B : Type} {read : A → Option B} {items : List A} {values : List B} :
    items.mapM read = some values ↔ items.map read = values.map some := by
  induction items generalizing values with
  | nil => cases values <;> simp
  | cons item rest ih =>
      cases values with
      | nil => simp [Option.bind_eq_some_iff]
      | cons value values =>
          simp [Option.bind_eq_some_iff, ← ih]

theorem mapM_map_eq_some
    {A B C : Type} {write : A → B} {read : B → Option C} {value : A → C}
    {items : List A}
    (each : ∀ item ∈ items, read (write item) = some (value item)) :
    (items.map write).mapM read = some (items.map value) := by
  rw [mapM_eq_some_iff, List.map_map, List.map_map]
  exact List.map_congr_left each

theorem mapM_eq_ok
    {A B E : Type} {read : A → Except E B} {value : A → B} {items : List A}
    (each : ∀ item ∈ items, read item = .ok (value item)) :
    items.mapM read = .ok (items.map value) := by
  induction items with
  | nil =>
      rfl
  | cons item rest ih =>
      rw [List.mapM_cons, each item List.mem_cons_self, ih fun other mem =>
          each other (List.mem_cons_of_mem item mem)]
      rfl

theorem mapM_reads {A B E : Type} {read : A → Except E B} {items : List A}
    (each : ∀ item ∈ items, ∃ value, read item = .ok value) :
    ∃ values, items.mapM read = .ok values ∧
      (∀ item ∈ items, ∀ value, read item = .ok value → value ∈ values) ∧
      ∀ value ∈ values, ∃ item ∈ items, read item = .ok value := by
  induction items with
  | nil =>
      exact ⟨[], rfl, fun item mem => absurd mem List.not_mem_nil,
        fun value mem => absurd mem List.not_mem_nil⟩
  | cons item rest ih =>
      obtain ⟨value, found⟩ := each item List.mem_cons_self
      obtain ⟨values, loop, all, source⟩ := ih
        fun other mem => each other (List.mem_cons_of_mem item mem)
      refine ⟨value :: values, ?_, ?_, ?_⟩
      · rw [List.mapM_cons, found, loop]
        rfl
      · intro other mem result isResult
        rcases List.mem_cons.mp mem with rfl | later
        · rw [found] at isResult
          cases isResult
          exact List.mem_cons_self
        · exact List.mem_cons_of_mem value (all other later result isResult)
      · intro result mem
        rcases List.mem_cons.mp mem with rfl | later
        · exact ⟨item, List.mem_cons_self, found⟩
        · obtain ⟨other, inside, isResult⟩ := source result later
          exact ⟨other, List.mem_cons_of_mem item inside, isResult⟩

theorem mapM_fails
    {A B E : Type} {read : A → Except E B} {items : List A} {item : A}
    (mem : item ∈ items) (fails : ∀ value, read item ≠ .ok value)
    (values : List B) : items.mapM read ≠ .ok values := by
  induction items generalizing values with
  | nil =>
      cases mem
  | cons first rest ih =>
      rw [List.mapM_cons]
      intro loop
      obtain ⟨value, isFirst, others⟩ := bind_eq_ok.mp loop
      obtain ⟨more, isRest, _⟩ := bind_eq_ok.mp others
      rcases List.mem_cons.mp mem with rfl | later
      · exact fails value isFirst
      · exact ih later more isRest

theorem foldlM_fails
    {A E S : Type} {handle : S → A → Except E S} {items : List A} {item : A}
    (mem : item ∈ items)
    (fails : ∀ state, (handle state item).isOk = false) (state : S) :
    (items.foldlM handle state).isOk = false := by
  induction items generalizing state with
  | nil =>
      cases mem
  | cons first rest ih =>
      rw [List.foldlM_cons]
      cases handled : handle state first with
      | error error => rfl
      | ok next =>
          rcases List.mem_cons.mp mem with rfl | later
          · have failed := fails state
            rw [handled] at failed
            cases failed
          · exact ih later next

/-- A loop that puts what it reads from each item behind what it has. -/
theorem foldlM_collect
    {A B E : Type} (read : A → Except E B) (items : List A) (before : List B) :
    items.foldlM (fun collected item =>
        (read item).map fun value => collected ++ [value]) before =
      (items.mapM read).map fun values => before ++ values := by
  induction items generalizing before with
  | nil =>
      simp [pure, Except.pure, Except.map]
  | cons item rest ih =>
      rw [List.foldlM_cons, List.mapM_cons]
      cases read item with
      | error error => rfl
      | ok value =>
          have later := ih (before ++ [value])
          cases loop : rest.mapM read with
          | error error =>
              rw [loop] at later
              exact later
          | ok values =>
              rw [loop] at later
              simpa [Except.map, bind, Except.bind, pure, Except.pure] using
                later

theorem foldlM_flatMap
    {A B E S : Type} {items : B → List A} {handle : S → A → Except E S}
    (groups : List B) (state : S) :
    (groups.flatMap items).foldlM handle state =
      groups.foldlM (fun state group => (items group).foldlM handle state)
        state := by
  induction groups generalizing state with
  | nil =>
      rfl
  | cons group rest ih =>
      rw [List.flatMap_cons, List.foldlM_append, List.foldlM_cons]
      exact congrArg _ (funext ih)

theorem forall₂_of_mapM
    {A B E : Type} {read : A → Except E B} {items : List A} {values : List B}
    (loop : items.mapM read = .ok values) :
    List.Forall₂ (fun item value => read item = .ok value) items values := by
  induction items generalizing values with
  | nil =>
      cases loop
      exact .nil
  | cons item rest ih =>
      rw [List.mapM_cons] at loop
      obtain ⟨value, isFirst, others⟩ := bind_eq_ok.mp loop
      obtain ⟨more, isRest, joined⟩ := bind_eq_ok.mp others
      cases joined
      exact .cons isFirst (ih isRest)

/-- A loop of reads succeeds just when each read does. -/
theorem isOk_mapM_iff {A B E : Type} {read : A → Except E B} {items : List A} :
    (items.mapM read).isOk = true ↔
      ∀ item ∈ items, (read item).isOk = true := by
  induction items with
  | nil =>
      simp [pure, Except.pure, Except.isOk, Except.toBool]
  | cons item rest ih =>
      rw [List.mapM_cons, List.forall_mem_cons, ← ih]
      cases read item with
      | error error =>
          simp [bind, Except.bind, Except.isOk, Except.toBool]
      | ok value =>
          cases rest.mapM read with
          | error error =>
              simp [bind, Except.bind, Except.isOk, Except.toBool]
          | ok values =>
              simp [bind, Except.bind, pure, Except.pure, Except.isOk,
                Except.toBool]

theorem foldlM_keeps
    {A E S : Type} {handle : S → A → Except E S} {Kept : S → Prop}
    {items : List A}
    (step : ∀ state, Kept state → ∀ item ∈ items, ∀ next,
      handle state item = .ok next → Kept next)
    {state final : S} (start : Kept state)
    (loop : items.foldlM handle state = .ok final) : Kept final := by
  induction items generalizing state with
  | nil =>
      cases loop
      exact start
  | cons item rest ih =>
      rw [List.foldlM_cons] at loop
      obtain ⟨next, handled, others⟩ := bind_eq_ok.mp loop
      exact ih
        (fun state kept other mem =>
          step state kept other (List.mem_cons_of_mem item mem))
        (step state start item List.mem_cons_self next handled) others

/-- Items that change no state can be left out of the loop. -/
theorem foldlM_filter
    {A E S : Type} {handle : S → A → Except E S} (keep : A → Bool)
    {items : List A}
    (skips : ∀ item ∈ items, keep item = false →
      ∀ state, handle state item = .ok state) (state : S) :
    items.foldlM handle state = (items.filter keep).foldlM handle state := by
  induction items generalizing state with
  | nil =>
      rfl
  | cons first rest ih =>
      have others := fun state => ih
        (fun item mem => skips item (List.mem_cons_of_mem first mem))
        state
      rw [List.foldlM_cons]
      cases kept : keep first with
      | true =>
          rw [List.filter_cons_of_pos kept, List.foldlM_cons]
          cases handle state first with
          | error error => rfl
          | ok next => exact others next
      | false =>
          rw [List.filter_cons_of_neg (by simp [kept]),
            skips first List.mem_cons_self kept state]
          exact others state

end Fallible
