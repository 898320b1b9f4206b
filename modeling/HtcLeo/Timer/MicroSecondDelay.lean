import HtcLeo.Timer.GptTimerLib
import Mathlib.Order.Monotone.Basic
import Mathlib.Order.Nat

/-!
# The delay over the wrapping counter

`MicroSecondDelay` turns the microseconds into ticks of the general purpose
timer, adds them to the counter modulo `2 ^ 32` and polls the counter in two
loops. The first waits for the counter to wrap, where the target is below the
start; the second waits for the counter to be at the target or above it.

Both loops compare plain values. Where the target wraps they are right
whatever the reads are. Where it does not, the second loop is right only as
long as one read falls between the target and the wrap: a counter that is
read below the target and next time after the wrap is below the target again,
and the caller waits for a round more (`delaysInTime_iff`,
`not_delaysInTime_beforeWrap`).
-/

namespace GptTimerLib

/-! ## The function -/

/-- Where `MicroSecondDelay` stands after a read of `GPT_COUNT_VAL`: in the
loop that waits for the wrap, in the loop that waits for the target, or back at
its caller with the value it returns. -/
inductive DelayState where
  | wrapping
  | waiting
  | returned (microSeconds : UInt32)
  deriving DecidableEq

/-- The number of ticks to wait. -/
def ticks (microSeconds : UInt32) : UInt64 :=
  (microSeconds.toUInt64 * 33 + 1000 - 33) / 1000

/-- `Timeout`, from the first value of `Count`. -/
def timeout (microSeconds count : UInt32) : UInt64 :=
  (count.toUInt64 + ticks microSeconds) &&& 0xFFFFFFFF

/-- The condition of the second loop and what follows it. -/
def tillTicksReached (microSeconds initCount count : UInt32) : DelayState :=
  if timeout microSeconds initCount > count.toUInt64 then .waiting else .returned microSeconds

/-- The condition of the first loop and what follows it. -/
def tillWrapping (microSeconds initCount count : UInt32) : DelayState :=
  if timeout microSeconds initCount < count.toUInt64 ∧ initCount.toUInt64 ≤ count.toUInt64 then
    .wrapping
  else tillTicksReached microSeconds initCount count

/-- One more read of the counter. -/
def DelayState.read (microSeconds initCount : UInt32) : DelayState → UInt32 → DelayState
  | .wrapping, count => tillWrapping microSeconds initCount count
  | .waiting, count => tillTicksReached microSeconds initCount count
  | .returned r, _ => .returned r

/-- `MicroSecondDelay`, on what each read of `GPT_COUNT_VAL` gives: where it
stands after read `n`. Read `0` is the one that fixes `InitCount`. -/
def microSecondDelay (microSeconds : UInt32) (gptCountVal : ℕ → UInt32) : ℕ → DelayState
  | 0 => tillWrapping microSeconds (gptCountVal 0) (gptCountVal 0)
  | n + 1 => (microSecondDelay microSeconds gptCountVal n).read microSeconds (gptCountVal 0)
      (gptCountVal (n + 1))

/-! ## The counter -/

/-- A sequence of reads of the free running counter, which goes on for ever: where
it starts, how far it has advanced at each read, and a bound on the advance between
two reads. -/
structure CounterReads where
  start : UInt32
  gap : ℕ
  gap_le : gap ≤ 2 ^ 31
  advance : ℕ → ℕ
  advance_zero : advance 0 = 0
  advance_le (n : ℕ) : advance n ≤ advance (n + 1)
  advance_lt (n : ℕ) : advance (n + 1) < advance n + gap
  goes_on (k : ℕ) : ∃ n, k ≤ advance n

namespace CounterReads

variable (reads : CounterReads)

/-- What read `n` gives: the counter has 32 bits. -/
def count (n : ℕ) : UInt32 := UInt32.ofNat (reads.start.toNat + reads.advance n)

theorem toNat_count (n : ℕ) :
    (reads.count n).toNat = (reads.start.toNat + reads.advance n) % 2 ^ 32 := UInt32.toNat_ofNat

theorem count_zero : reads.count 0 = reads.start := by
  unfold count
  rw [reads.advance_zero, Nat.add_zero, UInt32.ofNat_toNat]

theorem advance_mono : Monotone reads.advance := monotone_nat_of_le_succ reads.advance_le

end CounterReads

/-! ## The target -/

/-- The ticks are a little less than the microseconds at 33 kHz, or the next
tick. -/
theorem ticks_bounds (microSeconds : UInt32) :
    33 * microSeconds.toNat ≤ 1000 * (ticks microSeconds).toNat + 32
      ∧ 1000 * (ticks microSeconds).toNat < 33 * microSeconds.toNat + 968 := by
  have hlt := microSeconds.toNat_lt
  have hticks : (ticks microSeconds).toNat = (microSeconds.toNat * 33 + 967) / 1000 := by
    unfold ticks
    rw [UInt64.toNat_div, UInt64.toNat_sub, UInt64.toNat_add, UInt64.toNat_mul,
      UInt32.toNat_toUInt64]
    simp only [UInt64.reduceToNat]
    omega
  omega

theorem ticks_lt (microSeconds : UInt32) : (ticks microSeconds).toNat < 2 ^ 28 := by
  have hlt := microSeconds.toNat_lt
  have hbounds := ticks_bounds microSeconds
  omega

theorem toNat_timeout (microSeconds count : UInt32) :
    (timeout microSeconds count).toNat
      = (count.toNat + (ticks microSeconds).toNat) % 2 ^ 32 := by
  have hlt := count.toNat_lt
  have hticks := ticks_lt microSeconds
  unfold timeout
  rw [UInt64.toNat_and, UInt64.toNat_add, UInt32.toNat_toUInt64,
    show (0xFFFFFFFF : UInt64).toNat = 2 ^ 32 - 1 from rfl, Nat.and_two_pow_sub_one_eq_mod]
  omega

/-! ## One read

What the two conditions say of a read, as sums that do not wrap. -/

section OneRead

variable (microSeconds : UInt32) (reads : CounterReads) (n : ℕ)

theorem tillTicksReached_count :
    tillTicksReached microSeconds reads.start (reads.count n)
      = if (reads.start.toNat + reads.advance n) % 2 ^ 32
            < (reads.start.toNat + (ticks microSeconds).toNat) % 2 ^ 32 then .waiting
        else .returned microSeconds := by
  unfold tillTicksReached
  simp only [gt_iff_lt, UInt64.lt_iff_toNat_lt, UInt32.toNat_toUInt64, toNat_timeout,
    reads.toNat_count]

theorem tillWrapping_count :
    tillWrapping microSeconds reads.start (reads.count n)
      = if (reads.start.toNat + (ticks microSeconds).toNat) % 2 ^ 32
              < (reads.start.toNat + reads.advance n) % 2 ^ 32
            ∧ reads.start.toNat ≤ (reads.start.toNat + reads.advance n) % 2 ^ 32 then .wrapping
        else tillTicksReached microSeconds reads.start (reads.count n) := by
  unfold tillWrapping
  simp only [UInt64.lt_iff_toNat_lt, UInt64.le_iff_toNat_le, UInt32.toNat_toUInt64, toNat_timeout,
    reads.toNat_count]

end OneRead

/-! ## Where the delay stands -/

section Standing

variable (microSeconds : UInt32) (reads : CounterReads)

/-- Where the delay stands after read `n` of the counter. -/
def standing (n : ℕ) : DelayState := microSecondDelay microSeconds reads.count n

theorem standing_zero :
    standing microSeconds reads 0 = tillWrapping microSeconds reads.start (reads.count 0) := by
  have hstart := reads.count_zero
  unfold standing microSecondDelay
  rw [hstart]

theorem standing_succ (n : ℕ) :
    standing microSeconds reads (n + 1)
      = (standing microSeconds reads n).read microSeconds reads.start (reads.count (n + 1)) := by
  have hstart := reads.count_zero
  unfold standing
  rw [microSecondDelay, hstart]

/-- Before the counter has advanced by the ticks, the delay waits: for the
wrap where the target lies behind it, else for the target. -/
theorem standing_of_lt {n : ℕ} (hn : reads.advance n < (ticks microSeconds).toNat) :
    standing microSeconds reads n
      = if 2 ^ 32 ≤ reads.start.toNat + (ticks microSeconds).toNat
            ∧ reads.start.toNat + reads.advance n < 2 ^ 32 then .wrapping
        else .waiting := by
  have hs := reads.start.toNat_lt
  have hticks := ticks_lt microSeconds
  induction n with
  | zero =>
    have hzero := reads.advance_zero
    rw [standing_zero, tillWrapping_count, tillTicksReached_count]
    split_ifs <;> first | rfl | omega
  | succ n ih =>
    have hstep := reads.advance_le n
    rw [standing_succ, ih (Nat.lt_of_le_of_lt hstep hn)]
    split_ifs with hbefore hafter hafter
    -- the counter has not wrapped yet, and then it has
    · show tillWrapping microSeconds reads.start (reads.count (n + 1)) = .wrapping
      rw [tillWrapping_count, if_pos (by omega)]
    · show tillWrapping microSeconds reads.start (reads.count (n + 1)) = .waiting
      rw [tillWrapping_count, if_neg (by omega), tillTicksReached_count, if_pos (by omega)]
    -- no way back to the first loop
    · omega
    · show tillTicksReached microSeconds reads.start (reads.count (n + 1)) = .waiting
      rw [tillTicksReached_count, if_pos (by omega)]

/-- The first read at which the counter has advanced by the ticks ends the
delay, unless the counter has wrapped past the target. -/
theorem standing_of_reached {n : ℕ} (hn : (ticks microSeconds).toNat ≤ reads.advance n)
    (hfirst : ∀ m < n, reads.advance m < (ticks microSeconds).toNat)
    (hcaught : 2 ^ 32 ≤ reads.start.toNat + (ticks microSeconds).toNat
      ∨ reads.start.toNat + reads.advance n < 2 ^ 32) :
    standing microSeconds reads n = .returned microSeconds := by
  have hs := reads.start.toNat_lt
  have hticks := ticks_lt microSeconds
  cases n with
  | zero =>
    have hzero := reads.advance_zero
    rw [standing_zero, tillWrapping_count, if_neg (by omega), tillTicksReached_count,
      if_neg (by omega)]
  | succ n =>
    have hbefore := hfirst n (Nat.lt_succ_self n)
    have hstep := reads.advance_lt n
    have hgap := reads.gap_le
    rw [standing_succ, standing_of_lt microSeconds reads hbefore]
    split_ifs
    · show tillWrapping microSeconds reads.start (reads.count (n + 1)) = .returned microSeconds
      rw [tillWrapping_count, if_neg (by omega), tillTicksReached_count, if_neg (by omega)]
    · show tillTicksReached microSeconds reads.start (reads.count (n + 1)) = .returned microSeconds
      rw [tillTicksReached_count, if_neg (by omega)]

/-- **A missed target.** Where no read falls between the target and the wrap,
the second loop goes on, for as long as the counter is not near the target of
the next round. -/
theorem standing_of_missed
    (htarget : reads.start.toNat + (ticks microSeconds).toNat < 2 ^ 32)
    (hmissed : ∀ n, (ticks microSeconds).toNat ≤ reads.advance n →
      2 ^ 32 ≤ reads.start.toNat + reads.advance n)
    {n : ℕ} (hn : reads.advance n < (ticks microSeconds).toNat + 2 ^ 31) :
    standing microSeconds reads n = .waiting := by
  have hticks := ticks_lt microSeconds
  have hcount := hmissed n
  induction n with
  | zero =>
    have hzero := reads.advance_zero
    rw [standing_zero, tillWrapping_count, if_neg (by omega), tillTicksReached_count,
      if_pos (by omega)]
  | succ n ih =>
    have hstep := reads.advance_le n
    rw [standing_succ, ih (Nat.lt_of_le_of_lt hstep hn) (hmissed n)]
    show tillTicksReached microSeconds reads.start (reads.count (n + 1)) = .waiting
    rw [tillTicksReached_count, if_pos (by omega)]

end Standing

/-! ## Not too early and not too late -/

/-- The delay returns at read `n`. -/
def ReturnsAt (microSeconds : UInt32) (reads : CounterReads) (n : ℕ) : Prop :=
  standing microSeconds reads n = .returned microSeconds
    ∧ ∀ m < n, standing microSeconds reads m ≠ .returned microSeconds

/-- **The delay is in time**: it returns, after the counter has advanced by the ticks, and
before it has advanced by the ticks and the largest advance of one read. -/
def DelaysInTime (microSeconds : UInt32) (reads : CounterReads) : Prop :=
  ∃ n, ReturnsAt microSeconds reads n ∧ (ticks microSeconds).toNat ≤ reads.advance n
    ∧ reads.advance n < (ticks microSeconds).toNat + reads.gap

section InTime

variable (microSeconds : UInt32) (reads : CounterReads)

/-- Whatever the reads are, the delay does not return early. -/
theorem after_ticks_of_returnsAt {n : ℕ} (hn : ReturnsAt microSeconds reads n) :
    (ticks microSeconds).toNat ≤ reads.advance n := by
  by_contra hlt
  have hstanding := standing_of_lt microSeconds reads (Nat.lt_of_not_le hlt)
  rw [hn.1] at hstanding
  split_ifs at hstanding

/-- The first read at which the counter has advanced by the ticks. -/
theorem exists_first :
    ∃ first, (ticks microSeconds).toNat ≤ reads.advance first
      ∧ reads.advance first < (ticks microSeconds).toNat + reads.gap
      ∧ ∀ m < first, reads.advance m < (ticks microSeconds).toNat := by
  classical
  have hreached := reads.goes_on (ticks microSeconds).toNat
  obtain ⟨first, hfirst, hleast⟩ : ∃ first, (ticks microSeconds).toNat ≤ reads.advance first
      ∧ ∀ m < first, reads.advance m < (ticks microSeconds).toNat :=
    ⟨Nat.find hreached, Nat.find_spec hreached,
      fun m hm => Nat.lt_of_not_le (Nat.find_min hreached hm)⟩
  refine ⟨first, hfirst, ?_, hleast⟩
  cases first with
  | zero =>
    have hzero := reads.advance_zero
    have hgap := reads.advance_lt 0
    have hmono := reads.advance_le 0
    omega
  | succ n =>
    have hbefore := hleast n (Nat.lt_succ_self n)
    have hgap := reads.advance_lt n
    omega

/-- A read that catches the target, or a target behind the wrap: the delay is
in time. -/
theorem delaysInTime_of_caught
    (hcaught : 2 ^ 32 ≤ reads.start.toNat + (ticks microSeconds).toNat
      ∨ ∃ n, (ticks microSeconds).toNat ≤ reads.advance n
          ∧ reads.start.toNat + reads.advance n < 2 ^ 32) :
    DelaysInTime microSeconds reads := by
  obtain ⟨first, hfirst, hnear, hleast⟩ := exists_first microSeconds reads
  have hreturned : standing microSeconds reads first = .returned microSeconds := by
    refine standing_of_reached microSeconds reads hfirst hleast (hcaught.imp id ?_)
    rintro ⟨n, hn, hwrap⟩
    have hle : first ≤ n := by
      by_contra hlt
      exact Nat.not_lt.2 hn (hleast n (Nat.lt_of_not_le hlt))
    exact Nat.lt_of_le_of_lt (Nat.add_le_add_left (reads.advance_mono hle) _) hwrap
  have hreturns : ReturnsAt microSeconds reads first := by
    refine ⟨hreturned, fun m hm hback => ?_⟩
    have hwaits := standing_of_lt microSeconds reads (hleast m hm)
    rw [hback] at hwaits
    split_ifs at hwaits
  exact ⟨first, hreturns, after_ticks_of_returnsAt microSeconds reads hreturns, hnear⟩

/-- **When the delay is in time**: just where the target lies behind the wrap, or
some read falls between the target and the wrap. -/
theorem delaysInTime_iff :
    DelaysInTime microSeconds reads
      ↔ 2 ^ 32 ≤ reads.start.toNat + (ticks microSeconds).toNat
        ∨ ∃ n, (ticks microSeconds).toNat ≤ reads.advance n
            ∧ reads.start.toNat + reads.advance n < 2 ^ 32 := by
  refine ⟨?_, delaysInTime_of_caught microSeconds reads⟩
  rintro ⟨n, hreturns, -, hnear⟩
  by_contra hbad
  obtain ⟨htarget, hmissed⟩ := not_or.1 hbad
  have hwaiting : standing microSeconds reads n = .waiting := by
    refine standing_of_missed microSeconds reads (Nat.lt_of_not_le htarget) (fun k hk => ?_)
      (Nat.lt_of_lt_of_le hnear (Nat.add_le_add_left reads.gap_le _))
    exact Nat.le_of_not_lt fun hlt => hmissed ⟨k, hk, hlt⟩
  rw [hreturns.1] at hwaiting
  cases hwaiting

end InTime

/-- A counter two ticks before its wrap, read every second tick. -/
def beforeWrap : CounterReads where
  start := 0xFFFFFFFE
  gap := 3
  gap_le := by decide
  advance n := 2 * n
  advance_zero := rfl
  advance_le n := by omega
  advance_lt n := by omega
  goes_on k := ⟨k, by omega⟩

/-- One microsecond, two ticks before the wrap: the one value of the counter
that ends the delay is never read. -/
theorem not_delaysInTime_beforeWrap : ¬DelaysInTime 1 beforeWrap := by
  have hticks : (ticks 1).toNat = 1 := by decide
  have hstart : beforeWrap.start.toNat = 2 ^ 32 - 2 := by decide
  have hadvance : ∀ n, beforeWrap.advance n = 2 * n := fun _ => rfl
  have hgap : beforeWrap.gap = 3 := rfl
  rintro ⟨n, hreturns, -, hnear⟩
  rw [hticks, hgap] at hnear
  have hwaits : standing 1 beforeWrap n = .waiting := by
    refine standing_of_missed 1 beforeWrap ?_ (fun k hk => ?_) ?_
    · rw [hticks, hstart]
      decide
    · rw [hticks, hadvance] at hk
      rw [hstart, hadvance]
      omega
    · rw [hticks]
      exact hnear.trans (by decide)
  exact absurd (hreturns.1.symm.trans hwaits) (by decide)

end GptTimerLib
