import Mathlib.Algebra.Group.Nat.Defs
import Mathlib.Tactic.Common

/-!
# The performance counter

`GetPerformanceCounter` reads the 32-bit counter of the general purpose timer
and widens it to 64 bits, and `GetTimeInNanoSecond` scales a number of ticks
in two steps, so that the product with `1,000,000,000` is formed of a
quotient and of a remainder only.

The scaling is exact up to the 64 bits of its result
(`toNat_getTimeInNanoSecond`), and so it is right for any number of ticks the
counter can go in one round. What it makes of the difference of two
readings is another matter: the difference is taken in 64 bits
(`nanoseconds_difference_iff`).
-/

namespace GptTimerLib

/-! ## The functions -/

/-- `GetPerformanceCounter`, on what `GPT_COUNT_VAL` shows. -/
def getPerformanceCounter (gptCountVal : UInt32) : UInt64 := gptCountVal.toUInt64

/-- What `GetPerformanceCounterProperties` returns and stores. -/
structure CounterProperties where
  frequency : UInt64
  startValue : UInt64
  endValue : UInt64

/-- `GetPerformanceCounterProperties`. -/
def getPerformanceCounterProperties : CounterProperties where
  frequency := 32765
  startValue := 0
  endValue := 0xFFFFFFFF

/-- `DivU64x32Remainder`. -/
def divU64x32Remainder (dividend : UInt64) (divisor : UInt32) : UInt64 × UInt32 :=
  (dividend / divisor.toUInt64, (dividend % divisor.toUInt64).toUInt32)

/-- `DivU64x32`. -/
def divU64x32 (dividend : UInt64) (divisor : UInt32) : UInt64 := dividend / divisor.toUInt64

/-- `MultU64x32`. -/
def multU64x32 (multiplicand : UInt64) (multiplier : UInt32) : UInt64 :=
  multiplicand * multiplier.toUInt64

/-- `GetTimeInNanoSecond`. -/
def getTimeInNanoSecond (ticks : UInt64) : UInt64 :=
  let frequency := getPerformanceCounterProperties.frequency.toUInt32
  let remainder := (divU64x32Remainder ticks frequency).2
  let nanoSeconds := multU64x32 (divU64x32Remainder ticks frequency).1 1000000000
  nanoSeconds + divU64x32 (multU64x32 remainder.toUInt64 1000000000) frequency

/-! ## The scaling -/

/-- The nanoseconds of a number of ticks at 32765 Hz. -/
def nanoseconds (ticks : ℕ) : ℕ := ticks * 1000000000 / 32765

/-- The scaling of the quotient and of the remainder. -/
theorem nanoseconds_eq (ticks : ℕ) :
    nanoseconds ticks
      = ticks / 32765 * 1000000000 + ticks % 32765 * 1000000000 / 32765 := by
  have hsplit : ticks * 1000000000
      = ticks % 32765 * 1000000000 + 32765 * (ticks / 32765 * 1000000000) := by omega
  unfold nanoseconds
  rw [hsplit, Nat.add_mul_div_left _ _ (by decide), Nat.add_comm]

/-- The nanoseconds of a number of ticks, as a bound on either side. -/
theorem nanoseconds_bounds (ticks : ℕ) :
    32765 * nanoseconds ticks ≤ 1000000000 * ticks
      ∧ 1000000000 * ticks < 32765 * nanoseconds ticks + 32765 := by
  unfold nanoseconds
  omega

/-- **The scaling is exact**, up to the width of its result. -/
theorem toNat_getTimeInNanoSecond (ticks : UInt64) :
    (getTimeInNanoSecond ticks).toNat = nanoseconds ticks.toNat % 2 ^ 64 := by
  have hfreq : getPerformanceCounterProperties.frequency.toUInt32.toUInt64 = 32765 := by decide
  have hbillion : (1000000000 : UInt32).toUInt64 = 1000000000 := by decide
  have hrem : ticks.toNat % 32765 < 32765 := Nat.mod_lt _ (by decide)
  -- neither the remainder nor its product is cut
  have hcut : ticks.toNat % 32765 % 2 ^ 32 = ticks.toNat % 32765 := by omega
  have hprod : ticks.toNat % 32765 * 1000000000 % 2 ^ 64
      = ticks.toNat % 32765 * 1000000000 := by omega
  unfold getTimeInNanoSecond divU64x32Remainder divU64x32 multU64x32
  simp only [hfreq, hbillion, UInt64.toNat_add, UInt64.toNat_mul, UInt64.toNat_div,
    UInt64.toNat_mod, UInt64.toNat_toUInt32, UInt32.toNat_toUInt64, UInt64.reduceToNat]
  rw [hcut, hprod, nanoseconds_eq, Nat.mod_add_mod]

/-- A whole round of the counter fits. -/
theorem nanoseconds_lt {ticks : ℕ} (h : ticks < 2 ^ 32) : nanoseconds ticks < 2 ^ 64 := by
  have hbounds := nanoseconds_bounds ticks
  omega

/-- A difference taken in 64 bits across a wrap is `2 ^ 64 - 2 ^ 32` ticks too
long, and the nanoseconds of these are no whole number of rounds of the
result: they lie between 30520 and 30521. -/
theorem nanoseconds_round_ne (ticks : ℕ) (h : ticks < 2 ^ 32) :
    nanoseconds (ticks + (2 ^ 64 - 2 ^ 32)) % 2 ^ 64 ≠ nanoseconds ticks := by
  have hlong := nanoseconds_bounds (ticks + (2 ^ 64 - 2 ^ 32))
  have hshort := nanoseconds_bounds ticks
  intro heq
  have hrounds := Nat.div_add_mod (nanoseconds (ticks + (2 ^ 64 - 2 ^ 32))) (2 ^ 64)
  rw [heq] at hrounds
  rcases Nat.lt_or_ge (nanoseconds (ticks + (2 ^ 64 - 2 ^ 32)) / 2 ^ 64) 30521 with hlt | hge
  · omega
  · omega

/-- **The difference of two readings**, taken in 64 bits: right as long as the
counter did not wrap, and never right when it did. -/
theorem nanoseconds_difference_iff (previous current : UInt32) :
    (getTimeInNanoSecond
        (getPerformanceCounter current - getPerformanceCounter previous)).toNat
      = nanoseconds (current - previous).toNat ↔ previous ≤ current := by
  have hp := previous.toNat_lt
  have hc := current.toNat_lt
  have hdiff : (getPerformanceCounter current - getPerformanceCounter previous).toNat
      = (2 ^ 64 - previous.toNat + current.toNat) % 2 ^ 64 := by
    unfold getPerformanceCounter
    rw [UInt64.toNat_sub, UInt32.toNat_toUInt64, UInt32.toNat_toUInt64]
  rw [toNat_getTimeInNanoSecond, hdiff, UInt32.toNat_sub, UInt32.le_iff_toNat_le]
  constructor
  · intro h
    by_contra hlt
    have hticks : (2 ^ 32 - previous.toNat + current.toNat) % 2 ^ 32
        = 2 ^ 32 - previous.toNat + current.toNat := by omega
    have hlong : (2 ^ 64 - previous.toNat + current.toNat) % 2 ^ 64
        = 2 ^ 32 - previous.toNat + current.toNat + (2 ^ 64 - 2 ^ 32) := by omega
    rw [hlong, hticks] at h
    exact nanoseconds_round_ne _ (by omega) h
  · intro hle
    have hticks : (2 ^ 32 - previous.toNat + current.toNat) % 2 ^ 32
        = current.toNat - previous.toNat := by omega
    have hlong : (2 ^ 64 - previous.toNat + current.toNat) % 2 ^ 64
        = current.toNat - previous.toNat := by omega
    rw [hlong, hticks]
    exact Nat.mod_eq_of_lt (nanoseconds_lt (by omega))

end GptTimerLib
