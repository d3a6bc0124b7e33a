import Pmkit.Library.MachineInt

/-!
# Instants

An instant of UTC is a count of seconds since the epoch and of nanoseconds
since the second.  A leap second has up to two billion of them.
-/

open MachineInt

/-- An instant of UTC, of the years that the library can hold. -/
structure DateTime where
  seconds : Int
  nanosecond : Nat
  year : -8334601228800 ≤ seconds ∧ seconds ≤ 8210266876799
  leap : nanosecond < 2000000000
  deriving DecidableEq

namespace DateTime

/-- A whole second is in the range of nanoseconds. -/
theorem whole : 0 < 2000000000 := by
  decide

/-- `timestamp_millis`. -/
def timestampMillis (instant : DateTime) : I64 :=
  ⟨instant.seconds * 1000 + (instant.nanosecond / 1000000 : Nat), by
    have year := instant.year
    have leap := instant.leap
    have millis : instant.nanosecond / 1000000 < 2000 := by omega
    constructor
    · have low : -9223372036854775808 ≤ instant.seconds * 1000 +
          ((instant.nanosecond / 1000000 : Nat) : Int) := by omega
      norm_num
      exact low
    · have high : instant.seconds * 1000 +
          ((instant.nanosecond / 1000000 : Nat) : Int) ≤
            9223372036854775807 := by omega
      norm_num
      exact high⟩

/-- `date_naive`: the day, as a count of days since the epoch. -/
def dateNaive (instant : DateTime) : Int :=
  instant.seconds / 86400

def isMidnight (instant : DateTime) : Bool :=
  instant.seconds % 86400 = 0 && instant.nanosecond = 0

/-- Instants are compared by their seconds and then by their nanoseconds. -/
def before (first second : DateTime) : Bool :=
  first.seconds < second.seconds ||
    (first.seconds = second.seconds && first.nanosecond < second.nanosecond)

def notAfter (instant : DateTime) (millis : I64) : Bool :=
  instant.seconds < millis.1 / 1000 ||
    (instant.seconds = millis.1 / 1000 &&
      (instant.nanosecond : Int) ≤ millis.1 % 1000 * 1000000)

theorem timestampMillis_val (instant : DateTime) :
    instant.timestampMillis.1 =
      instant.seconds * 1000 + (instant.nanosecond / 1000000 : Nat) := rfl

variable {instant : DateTime} {millis : I64}

theorem seconds_le_of_notAfter (reached : instant.notAfter millis = true) :
    instant.seconds ≤ millis.1 / 1000 := by
  simp only [notAfter, Bool.or_eq_true, Bool.and_eq_true,
    decide_eq_true_eq] at reached
  omega

theorem le_seconds_of_not_notAfter (ahead : instant.notAfter millis = false) :
    millis.1 / 1000 < instant.seconds ∨
      (millis.1 / 1000 = instant.seconds ∧
        millis.1 % 1000 * 1000000 < instant.nanosecond) := by
  simp only [notAfter, Bool.or_eq_false_iff, Bool.and_eq_false_iff,
    decide_eq_false_iff_not] at ahead
  omega

/-- What comes before an instant is not above its milliseconds. -/
theorem le_timestampMillis (ahead : instant.notAfter millis = false) :
    millis ≤ instant.timestampMillis := by
  change millis.1 ≤ instant.timestampMillis.1
  rw [timestampMillis_val]
  rcases le_seconds_of_not_notAfter ahead with earlier | ⟨same, smaller⟩
  · omega
  · omega

end DateTime
