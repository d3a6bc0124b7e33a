import Pmkit.Library.Trace

/-!
# Repeated inputs

A list of inputs with copies put in, each after the input it is a copy of.  A
machine on which a copy of what it has taken does nothing ends where it would
have ended without the copies.
-/

universe u v w

/-- A list with further items put in, each a copy of one that was seen before
it; the items of the list are kept up to a relation. -/
inductive Repeats {A : Type v} (same copies : A → A → Prop) :
    List A → List A → List A → Prop where
  | nil (seen : List A) : Repeats same copies seen [] []
  | keep {seen items repeated : List A} {item kept : A}
      (isSame : same item kept)
      (later : Repeats same copies (item :: seen) items repeated) :
      Repeats same copies seen (item :: items) (kept :: repeated)
  | copy {seen items repeated : List A} {item copied : A}
      (isSeen : item ∈ seen) (isCopy : copies item copied)
      (later : Repeats same copies seen items repeated) :
      Repeats same copies seen items (copied :: repeated)

namespace Trace

variable {S : Type u} {T : Type w} {A : Type v}
  {step : S → A → S} {otherStep : T → A → T} {good : S → A → Prop}
  {agree : S → T → Prop} {taken : S → A → Prop}
  {same copies : A → A → Prop}

/-- Copies change nothing: two machines that agree after every input that both
take agree at the end, when the second does nothing on a copy of what was taken
and what was taken stays so. -/
theorem run_repeats
    (takes : ∀ state input, good state input → taken (step state input) input)
    (stays : ∀ state input other, taken state other →
      taken (step state input) other)
    (kept : ∀ state other input kept, good state input → same input kept →
      agree state other → agree (step state input) (otherStep other kept))
    (ignored : ∀ state other input copied, taken state input →
      copies input copied → agree state other →
        agree state (otherStep other copied))
    {seen inputs repeated : List A}
    (repeats : Repeats same copies seen inputs repeated)
    {state : S} {other : T} (agrees : agree state other)
    (wasTaken : ∀ input ∈ seen, taken state input)
    (every : EveryStep step good state inputs) :
    agree (run step state inputs) (run otherStep other repeated) := by
  induction repeats generalizing state other with
  | nil seen =>
      exact agrees
  | keep isSame later ih =>
      rw [run_cons, run_cons]
      apply ih (kept _ _ _ _ every.1 isSame agrees) _ every.2
      intro input mem
      rcases List.mem_cons.mp mem with rfl | before
      · exact takes _ _ every.1
      · exact stays _ _ _ (wasTaken input before)
  | copy isSeen isCopy later ih =>
      rw [run_cons]
      exact ih
        (ignored _ _ _ _ (wasTaken _ isSeen) isCopy agrees) wasTaken every

end Trace
