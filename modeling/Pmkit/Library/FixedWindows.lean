import Mathlib.Data.List.Basic
import Mathlib.Data.List.Count

/-!
# Windows that restart at need

Times come in order and are counted in windows of one duration.  A window
starts at its first time and takes what comes until it ends; the first time
after its end starts the next one.  No window takes more than a maximum, and
then no span of the duration meets more than two windows.
-/

namespace FixedWindows

def within (start finish : Int) (times : List Int) : Nat :=
  times.countP fun time => start ≤ time ∧ time ≤ finish

/-- Times that are cut into those of earlier windows and those of the current
one. -/
inductive Cut (duration : Int) (maximum : Nat) :
    List Int → List Int → Prop where
  | none : Cut duration maximum [] []
  | next {earlier current : List Int} {time : Int}
      (cut : Cut duration maximum earlier current)
      (ended : ∀ start, current.head? = some start → start + duration < time) :
      Cut duration maximum (earlier ++ current) [time]
  | take {earlier current : List Int} {start time : Int}
      (cut : Cut duration maximum earlier current)
      (started : current.head? = some start) (after : start ≤ time)
      (running : time ≤ start + duration) (room : current.length < maximum) :
      Cut duration maximum earlier (current ++ [time])

theorem within_append (start finish : Int) (left right : List Int) :
    within start finish (left ++ right) =
      within start finish left + within start finish right :=
  List.countP_append

theorem within_eq_zero {start finish : Int} {times : List Int}
    (outside : ∀ time ∈ times, time < start ∨ finish < time) :
    within start finish times = 0 := by
  rw [within, List.countP_eq_zero]
  intro time mem
  rw [decide_eq_true_eq]
  have apart := outside time mem
  omega

theorem within_le_length (start finish : Int) (times : List Int) :
    within start finish times ≤ times.length :=
  List.countP_le_length

theorem within_mono {start left : Int} (late : left ≤ start) (finish : Int)
    (times : List Int) :
    within start finish times ≤ within left finish times := by
  apply List.countP_mono_left
  intro time _
  simp only [decide_eq_true_eq]
  omega

section Cut

variable {duration : Int} {maximum : Nat} {earlier current : List Int}

theorem Cut.length_le
    (positive : 0 < maximum) (cut : Cut duration maximum earlier current) :
    current.length ≤ maximum := by
  cases cut with
  | none => exact Nat.zero_le maximum
  | next cut ended => exact positive
  | take cut started after running room =>
      rw [List.length_append]
      exact room

theorem Cut.earlier_eq_nil
    (cut : Cut duration maximum earlier current) (empty : current = []) :
    earlier = [] := by
  cases cut with
  | none => rfl
  | next cut ended => cases empty
  | take cut started after running room => simp at empty

variable {start : Int}

/-- The times of the current window are between its start and its end. -/
theorem Cut.current_bounds
    (nonneg : 0 ≤ duration) (cut : Cut duration maximum earlier current)
    (started : current.head? = some start) :
    ∀ time ∈ current, start ≤ time ∧ time ≤ start + duration := by
  induction cut generalizing start with
  | none =>
      cases started
  | next cut ended ih =>
      cases started
      intro time mem
      rw [List.mem_singleton.mp mem]
      omega
  | @take earlier current first last cut isFirst after running room
      ih =>
      have same : start = first := by
        rw [List.head?_append, isFirst] at started
        exact (Option.some.inj started).symm
      subst same
      intro time mem
      rcases List.mem_append.mp mem with old | new
      · exact ih isFirst time old
      · rw [List.mem_singleton.mp new]
        exact ⟨after, running⟩

theorem Cut.earlier_lt
    (nonneg : 0 ≤ duration) (cut : Cut duration maximum earlier current)
    (started : current.head? = some start) :
    ∀ time ∈ earlier, time < start := by
  induction cut generalizing start with
  | none =>
      cases started
  | @next earlier current time cut ended ih =>
      cases started
      intro other mem
      cases found : current.head? with
      | none =>
          have empty := List.head?_eq_none_iff.mp found
          rw [empty, cut.earlier_eq_nil empty] at mem
          cases mem
      | some first =>
          have apart := ended first found
          rcases List.mem_append.mp mem with old | recent
          · have before := ih found other old
            omega
          · have inside := cut.current_bounds nonneg found other recent
            omega
  | @take earlier current first last cut isFirst after running room
      ih =>
      have same : start = first := by
        rw [List.head?_append, isFirst] at started
        exact (Option.some.inj started).symm
      rw [same]
      exact ih isFirst

theorem Cut.window_le (nonneg : 0 ≤ duration) (positive : 0 < maximum)
    (cut : Cut duration maximum earlier current)
    (started : current.head? = some start) :
    within start (start + duration) (earlier ++ current) ≤ maximum := by
  have none : within start (start + duration) earlier = 0 := by
    apply within_eq_zero
    intro time mem
    exact .inl (cut.earlier_lt nonneg started time mem)
  rw [within_append, none, Nat.zero_add]
  exact Nat.le_trans (within_le_length _ _ _) (cut.length_le positive)

/-- What is not longer ago than a duration before the current window is in one
earlier window. -/
theorem Cut.recent_le (nonneg : 0 ≤ duration) (positive : 0 < maximum)
    (cut : Cut duration maximum earlier current)
    (started : current.head? = some start) (finish : Int) :
    within (start - duration) finish earlier ≤ maximum := by
  induction cut generalizing start with
  | none =>
      cases started
  | @next earlier current time cut ended ih =>
      cases started
      rw [within_append]
      cases found : current.head? with
      | none =>
          have empty := List.head?_eq_none_iff.mp found
          rw [empty, cut.earlier_eq_nil empty]
          exact Nat.zero_le maximum
      | some first =>
          have apart := ended first found
          have none : within (time - duration) finish earlier = 0 := by
            apply within_eq_zero
            intro other mem
            have before := cut.earlier_lt nonneg found other mem
            omega
          rw [none, Nat.zero_add]
          exact Nat.le_trans (within_le_length _ _ _) (cut.length_le positive)
  | @take earlier current first last cut isFirst after running room
      ih =>
      have same : start = first := by
        rw [List.head?_append, isFirst] at started
        exact (Option.some.inj started).symm
      rw [same]
      exact ih isFirst

/-- A span of the duration has no more times than two windows. -/
theorem Cut.span_le (nonneg : 0 ≤ duration) (positive : 0 < maximum)
    (cut : Cut duration maximum earlier current) (start : Int) :
    within start (start + duration) (earlier ++ current) ≤ 2 * maximum := by
  induction cut with
  | none =>
      exact Nat.zero_le _
  | @next earlier current time cut ended ih =>
      have whole : Cut duration maximum (earlier ++ current) [time] :=
        .next cut ended
      by_cases before : start + duration < time
      · have none : within start (start + duration) [time] = 0 := by
          apply within_eq_zero
          intro other mem
          rw [List.mem_singleton.mp mem]
          exact .inr before
        rw [within_append, none, Nat.add_zero]
        exact ih
      · have recent := whole.recent_le nonneg positive rfl (start + duration)
        have late : time - duration ≤ start := by omega
        have fewer := within_mono late (start + duration) (earlier ++ current)
        have one := within_le_length start (start + duration) [time]
        have length := whole.length_le positive
        rw [within_append]
        omega
  | @take earlier current first last cut isFirst after running room
      ih =>
      have whole : Cut duration maximum earlier (current ++ [last]) :=
        .take cut isFirst after running room
      have started : (current ++ [last]).head? = some first := by
        rw [List.head?_append, isFirst]
        rfl
      have bounds := whole.current_bounds nonneg started
      by_cases before : start + duration < first
      · have none : within start (start + duration) (current ++ [last]) = 0 := by
          apply within_eq_zero
          intro other mem
          have inside := bounds other mem
          exact .inr (by omega)
        have fewer := ih
        rw [within_append] at fewer
        rw [within_append, none]
        omega
      · have recent := whole.recent_le nonneg positive started
          (start + duration)
        have late : first - duration ≤ start := by omega
        have fewer := within_mono late (start + duration) earlier
        have some := within_le_length start (start + duration)
          (current ++ [last])
        have length := whole.length_le positive
        rw [within_append]
        omega

end Cut

end FixedWindows
