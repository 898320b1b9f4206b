import HtcLeo.Efi
import HtcLeo.Timer.GptTimerLib

/-!
# The virtual real time clock

`LibGetTime` makes a date and a time of day out of the performance counter.
It divides the counter by a frequency of its own, `PcdTimerFreqInHz`, and
splits the seconds into days, hours, minutes and seconds by division and
remainder.

The split loses nothing (`seconds_split`), at any frequency. But the day is
counted from 0 where a date counts from 1, and a counter of 32 bits never gets
to the next day, so no time that `LibGetTime` returns is a valid one
(`not_tellsTime`). And the frequency is the one of the debug timer, while
the performance counter runs at 32765 Hz: apart from the day, the two libraries
agree about the seconds for the first second only (`seconds_agree_iff`).
-/

namespace RealTimeClock

open GptTimerLib

/-! ## The function -/

/-- `EFI_TIME`. -/
structure EfiTime where
  year : UInt16
  month : UInt8
  day : UInt8
  hour : UInt8
  minute : UInt8
  second : UInt8
  nanosecond : UInt32
  timeZone : UInt16
  daylight : UInt8
  deriving DecidableEq

/-- `EFI_TIME_CAPABILITIES`. -/
structure EfiTimeCapabilities where
  resolution : UInt32
  accuracy : UInt32
  setsToZero : Bool
  deriving DecidableEq

/-- `BaseTime`: the year and the month, which are not counted. -/
structure BaseTime where
  year : UInt16
  month : UInt8

/-- `LibRtcInitialize`. -/
def libRtcInitialize : BaseTime := ⟨2019, 1⟩

/-- `PcdTimerFreqInHz`. -/
def pcdTimerFreqInHz : UInt32 := 4800000

/-- `SECONDS_PER_DAY`. -/
def secondsPerDay : UInt64 := 24 * 60 * 60
/-- `SECONDS_PER_HOUR`. -/
def secondsPerHour : UInt64 := 60 * 60
/-- `SECONDS_PER_MINUTE`. -/
def secondsPerMinute : UInt64 := 60

/-- What `LibGetTime` answers and what it stores through its two pointers. -/
structure Answer where
  status : EfiStatus
  time : Option EfiTime
  capabilities : Option EfiTimeCapabilities

/-- The time of a number of seconds, field by field. -/
def splitSeconds (baseTime : BaseTime) (elapsedSeconds : UInt64) : EfiTime where
  year := baseTime.year
  month := baseTime.month
  day := (elapsedSeconds / secondsPerDay).toUInt8
  hour := (elapsedSeconds % secondsPerDay / secondsPerHour).toUInt8
  minute := (elapsedSeconds % secondsPerDay % secondsPerHour / secondsPerMinute).toUInt8
  second := (elapsedSeconds % secondsPerDay % secondsPerHour % secondsPerMinute).toUInt8
  nanosecond := 0
  timeZone := 0
  daylight := 0

/-- `LibGetTime` at a frequency, with whether `Time` and `Capabilities` are
other than `NULL` and what the performance counter shows. The `ASSERT` of a
zero frequency only prints. -/
def libGetTimeAt (freq : UInt32) (baseTime : BaseTime) (time capabilities : Bool)
    (gptCountVal : UInt32) : Answer :=
  if !time then ⟨.efiInvalidParameter, none, none⟩
  else if freq = 0 then ⟨.efiDeviceError, none, none⟩
  else
    { status := .efiSuccess
      time := some (splitSeconds baseTime (getPerformanceCounter gptCountVal / freq.toUInt64))
      capabilities := if capabilities then some ⟨freq, 0, false⟩ else none }

/-- `LibGetTime`. -/
def libGetTime (baseTime : BaseTime) (time capabilities : Bool) (gptCountVal : UInt32) : Answer :=
  libGetTimeAt pcdTimerFreqInHz baseTime time capabilities gptCountVal

/-! ## The split -/

/-- The seconds of the time of day. -/
def EfiTime.secondOfDay (t : EfiTime) : ℕ :=
  t.hour.toNat * 3600 + t.minute.toNat * 60 + t.second.toNat

/-- The fields of the time of day are in range. -/
structure EfiTime.ValidTimeOfDay (t : EfiTime) : Prop where
  hour_lt : t.hour.toNat < 24
  minute_lt : t.minute.toNat < 60
  second_lt : t.second.toNat < 60

section Split

variable (baseTime : BaseTime) (elapsedSeconds : UInt64)

/-- The day is the one of the seconds, cut to 8 bits. -/
theorem day_splitSeconds :
    (splitSeconds baseTime elapsedSeconds).day.toNat = elapsedSeconds.toNat / 86400 % 256 := by
  unfold splitSeconds
  rw [UInt64.toNat_toUInt8, UInt64.toNat_div, show secondsPerDay.toNat = 86400 from rfl]

/-- The fields of the time of day, which fit. -/
theorem timeOfDay_splitSeconds :
    (splitSeconds baseTime elapsedSeconds).hour.toNat = elapsedSeconds.toNat % 86400 / 3600
      ∧ (splitSeconds baseTime elapsedSeconds).minute.toNat
        = elapsedSeconds.toNat % 86400 % 3600 / 60
      ∧ (splitSeconds baseTime elapsedSeconds).second.toNat
        = elapsedSeconds.toNat % 86400 % 3600 % 60 := by
  unfold splitSeconds
  simp only [UInt64.toNat_toUInt8, UInt64.toNat_div, UInt64.toNat_mod,
    show secondsPerDay.toNat = 86400 from rfl, show secondsPerHour.toNat = 3600 from rfl,
    show secondsPerMinute.toNat = 60 from rfl]
  omega

/-- The time of day is always a valid one. -/
theorem validTimeOfDay_splitSeconds :
    (splitSeconds baseTime elapsedSeconds).ValidTimeOfDay := by
  obtain ⟨hhour, hminute, hsecond⟩ := timeOfDay_splitSeconds baseTime elapsedSeconds
  constructor <;> omega

/-- **The split loses nothing**: up to the 8 bits of the day, the days and the
time of day add up to the seconds. -/
theorem seconds_split :
    (splitSeconds baseTime elapsedSeconds).day.toNat * 86400
        + (splitSeconds baseTime elapsedSeconds).secondOfDay
      = elapsedSeconds.toNat % (256 * 86400) := by
  obtain ⟨hhour, hminute, hsecond⟩ := timeOfDay_splitSeconds baseTime elapsedSeconds
  unfold EfiTime.secondOfDay
  rw [day_splitSeconds, hhour, hminute, hsecond]
  omega

end Split

/-! ## The clock and the timer library -/

/-- The whole seconds of a counter, as the timer library counts them. -/
def timerLibSeconds (gptCountVal : UInt32) : ℕ :=
  (getTimeInNanoSecond (getPerformanceCounter gptCountVal)).toNat / 1000000000

/-- They are the whole seconds at 32765 Hz. -/
theorem timerLibSeconds_eq (gptCountVal : UInt32) :
    timerLibSeconds gptCountVal = gptCountVal.toNat / 32765 := by
  have hlt := gptCountVal.toNat_lt
  unfold timerLibSeconds
  rw [toNat_getTimeInNanoSecond, getPerformanceCounter, UInt32.toNat_toUInt64,
    Nat.mod_eq_of_lt (nanoseconds_lt hlt)]
  unfold nanoseconds
  omega

/-- **A clock that tells the time**: the answer is a valid date, and from the
first day on it has as many seconds as the timer library counts. -/
structure TellsTime (answer : Answer) (gptCountVal : UInt32) : Prop where
  success : answer.status = .efiSuccess
  time : ∃ t, answer.time = some t ∧ 1 ≤ t.day.toNat ∧ t.ValidTimeOfDay
    ∧ (t.day.toNat - 1) * 86400 + t.secondOfDay = timerLibSeconds gptCountVal

section Clock

variable (baseTime : BaseTime) (capabilities : Bool) (gptCountVal : UInt32)

/-- The time that `LibGetTime` stores. -/
theorem time_libGetTime :
    (libGetTime baseTime true capabilities gptCountVal).time
      = some (splitSeconds baseTime (getPerformanceCounter gptCountVal / 4800000)) := rfl

/-- The seconds that `LibGetTime` splits are those at `PcdTimerFreqInHz`. -/
theorem toNat_elapsedSeconds :
    (getPerformanceCounter gptCountVal / 4800000).toNat = gptCountVal.toNat / 4800000 := by
  unfold getPerformanceCounter
  rw [UInt64.toNat_div, UInt32.toNat_toUInt64]
  rfl

/-- The counter wraps on the day it started. -/
theorem day_libGetTime :
    (splitSeconds baseTime (getPerformanceCounter gptCountVal / 4800000)).day.toNat = 0 := by
  have hlt := gptCountVal.toNat_lt
  rw [day_splitSeconds, toNat_elapsedSeconds]
  omega

/-- **The clock never tells the time**: the day it stores is 0. -/
theorem not_tellsTime :
    ¬TellsTime (libGetTime baseTime true capabilities gptCountVal) gptCountVal := by
  rintro ⟨-, t, ht, hday, -⟩
  rw [time_libGetTime] at ht
  cases ht
  rw [day_libGetTime] at hday
  exact absurd hday (by decide)

/-- **The seconds of the two libraries**, with the days counted from 0: they
agree until the first second of the performance counter is over. -/
theorem seconds_agree_iff :
    (splitSeconds baseTime (getPerformanceCounter gptCountVal / 4800000)).secondOfDay
      = timerLibSeconds gptCountVal ↔ gptCountVal.toNat < 32765 := by
  have hlt := gptCountVal.toNat_lt
  have hsplit := seconds_split baseTime (getPerformanceCounter gptCountVal / 4800000)
  have hround : gptCountVal.toNat / 4800000 % (256 * 86400) = gptCountVal.toNat / 4800000 :=
    Nat.mod_eq_of_lt (by omega)
  rw [day_libGetTime, toNat_elapsedSeconds, hround, Nat.zero_mul, Nat.zero_add] at hsplit
  rw [hsplit, timerLibSeconds_eq]
  constructor
  · intro hagree
    have hslow := Nat.div_mul_le_self gptCountVal.toNat 4800000
    have hfast := Nat.lt_div_mul_add (show 0 < 32765 by decide) (a := gptCountVal.toNat)
    rw [hagree] at hslow
    omega
  · intro hfirst
    rw [Nat.div_eq_of_lt hfirst, Nat.div_eq_of_lt (Nat.lt_trans hfirst (by decide))]

end Clock

/-- Two seconds of the performance counter: `LibGetTime` says day 0, 00:00:00. -/
theorem not_tellsTime_twoSeconds :
    ¬∀ gptCountVal : UInt32,
      TellsTime (libGetTime libRtcInitialize true true gptCountVal) gptCountVal := by
  intro h
  obtain ⟨-, t, ht, hday, -⟩ := h 65530
  have hzero : (libGetTime libRtcInitialize true true 65530).time
      = some ⟨2019, 1, 0, 0, 0, 0, 0, 0, 0⟩ := by decide
  rw [hzero] at ht
  cases ht
  exact absurd hday (by decide)

end RealTimeClock
