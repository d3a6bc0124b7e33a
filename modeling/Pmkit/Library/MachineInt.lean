import Mathlib.Order.Interval.Set.ProjIcc
import Mathlib.Tactic.NormNum

/-!
# Signed 64-bit integers with saturating addition

The values are the integers of a closed interval, so order, minima and maxima
are those of the integers.  Saturating addition is the projection onto the
interval.
-/

namespace MachineInt

theorem int64_min_le_max : (-(2 ^ 63) : ℤ) ≤ 2 ^ 63 - 1 := by
  norm_num

/-- The integers a signed 64-bit word can hold.  Their order is that of the
integers, named so that no other one is found for it. -/
abbrev I64 : Type :=
  @Set.Icc ℤ Int.instLinearOrder.toPreorder (-(2 ^ 63)) (2 ^ 63 - 1)

instance (priority := high) : LinearOrder I64 :=
  @Subtype.instLinearOrder ℤ Int.instLinearOrder _

instance (priority := high) : DecidableLE I64 :=
  fun left right => inferInstanceAs (Decidable (left.1 ≤ right.1))

instance (priority := high) : DecidableLT I64 :=
  fun left right => inferInstanceAs (Decidable (left.1 < right.1))

namespace I64

/-- The least 64-bit integer. -/
def minValue : I64 :=
  ⟨-(2 ^ 63), le_refl _, int64_min_le_max⟩

/-- The greatest 64-bit integer. -/
def maxValue : I64 :=
  ⟨2 ^ 63 - 1, int64_min_le_max, le_refl _⟩

/-- The 64-bit integer nearest to an arbitrary one. -/
def clamp (value : ℤ) : I64 :=
  @Set.projIcc ℤ Int.instLinearOrder _ _ int64_min_le_max value

/-- Addition that stops at the bounds instead of wrapping. -/
def saturatingAdd (left right : I64) : I64 :=
  clamp (left.1 + right.1)

instance : OfNat I64 n where
  ofNat := clamp n

theorem minValue_le (value : I64) : minValue ≤ value :=
  value.2.1

theorem clamp_val (value : I64) : clamp value.1 = value :=
  Set.projIcc_of_mem int64_min_le_max value.2

theorem zero_val : ((0 : I64) : ℤ) = 0 := by
  decide +kernel

theorem minValue_lt_saturatingAdd
    {time latency : I64} (positive : (0 : I64) < latency) :
    minValue < saturatingAdd time latency := by
  have latencyPositive : (0 : ℤ) < latency.1 := by
    have zeroValue : ((0 : I64) : ℤ) = 0 := zero_val
    have strict : ((0 : I64) : ℤ) < latency.1 := positive
    omega
  have timeLower : (-(2 ^ 63) : ℤ) ≤ time.1 := time.2.1
  change (-(2 ^ 63) : ℤ) <
    max (-(2 ^ 63) : ℤ) (min (2 ^ 63 - 1) (time.1 + latency.1))
  omega

/-- Adding a latency that is not negative never goes back in time. -/
theorem le_saturatingAdd
    {time latency : I64} (nonnegative : (0 : ℤ) ≤ latency.1) :
    time ≤ saturatingAdd time latency := by
  have upper : time.1 ≤ 2 ^ 63 - 1 := time.2.2
  have lower : (-(2 ^ 63) : ℤ) ≤ time.1 := time.2.1
  change time.1 ≤ max (-(2 ^ 63) : ℤ) (min (2 ^ 63 - 1) (time.1 + latency.1))
  omega

/-- Adding a latency that is not positive never goes forward in time. -/
theorem saturatingAdd_le
    {time latency : I64} (nonpositive : latency.1 ≤ (0 : ℤ)) :
    saturatingAdd time latency ≤ time := by
  have upper : time.1 ≤ 2 ^ 63 - 1 := time.2.2
  have lower : (-(2 ^ 63) : ℤ) ≤ time.1 := time.2.1
  change max (-(2 ^ 63) : ℤ) (min (2 ^ 63 - 1) (time.1 + latency.1)) ≤ time.1
  omega

end I64

end MachineInt
