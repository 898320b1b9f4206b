import HtcLeo.Interrupt.InterruptDxe

/-!
# The timer tick

`TimerDxe` drives the debug timer (DGT), which counts at `DGT_HZ` and raises
an interrupt each time the count meets the match value. The DXE core asks for
a period in units of 100 ns, and is told at every tick how much time has
passed.

`TimerDriverSetTimerPeriod` divides the period down to whole milliseconds and
writes the match value for these into a 32-bit register, but what it saves,
and what the core is told, is the period it was asked for. The two agree
exactly on the whole numbers of milliseconds whose match value fits the
register (`setsPeriod_iff`); below a millisecond the match value is `0`. The
function says that it rounds up, and it rounds down
(`interval_setTimerPeriod`).
-/

namespace TimerDxe

/-! ## The timer -/

/-- `DGT_HZ`. -/
def dgtHz : ℕ := 4800000

/-- The registers of the timer that the driver writes. -/
inductive DgtReg where
  | dgtMatchVal
  | dgtEnable
  | dgtClear
  deriving DecidableEq

/-- **The timer**: what was last written to each of its registers. -/
structure Dgt where
  matchVal : UInt32
  enable : UInt32
  clear : UInt32
  deriving DecidableEq

/-- `MmioWrite32` on the timer. -/
def Dgt.mmioWrite32 (t : Dgt) : DgtReg → UInt32 → Dgt
  | .dgtMatchVal, w => { t with matchVal := w }
  | .dgtEnable, w => { t with enable := w }
  | .dgtClear, w => { t with clear := w }

/-- `DGT_ENABLE_EN`. -/
def dgtEnableEn : UInt32 := 1
/-- `DGT_ENABLE_CLR_ON_MATCH_EN`: the count starts again at the match value. -/
def dgtEnableClrOnMatchEn : UInt32 := 2

/-- `gVector`, as `TimerInitialize` sets it: `INT_DEBUG_TIMER_EXP`. -/
def gVector : UInt32 := 8

/-! ## The driver -/

/-- What can be seen of a tick. -/
inductive Event (F : Type) where
  | raiseTpl (level : UInt32)
  | notify (notifyFunction : F) (period : UInt64)
  | endOfInterrupt (source : UInt32)
  | restoreTpl (level : UInt32)

/-- **The driver's state**: its globals, the timer, the interrupt driver with
its handlers of type `H`, and the current task priority. -/
structure State (F H : Type) where
  mTimerNotifyFunction : Option F
  mTimerPeriod : UInt64
  dgt : Dgt
  gInterrupt : InterruptDxe.State H
  tpl : UInt32

/-- What a call answers: its status, what it stores through `TimerPeriod`, and
what it does that others see. -/
structure Answer (F : Type) where
  status : EfiStatus
  timerPeriod : Option UInt64
  events : List (Event F)

/-- A call that answers with its status alone. -/
def Answer.ofStatus {F : Type} (status : EfiStatus) : Answer F := ⟨status, none, []⟩

/-- `TPL_HIGH_LEVEL`. -/
def tplHighLevel : UInt32 := 31

/-- The driver as it is loaded, before `TimerInitialize`. -/
def State.init {F H : Type} : State F H where
  mTimerNotifyFunction := none
  mTimerPeriod := 0
  dgt := ⟨0, 0, 0⟩
  gInterrupt := InterruptDxe.State.init
  tpl := 4

variable {F H : Type}

/-- `TimerInterruptHandler`: what it does and in which order. The priority is
the one it found when it has returned. -/
def timerInterruptHandler (source : UInt32) (d : State F H) : List (Event F) :=
  [.raiseTpl tplHighLevel]
    ++ (match d.mTimerNotifyFunction with
      | some f => [.notify f d.mTimerPeriod]
      | none => [])
    ++ [.endOfInterrupt source, .restoreTpl d.tpl]

/-- `TimerDriverRegisterHandler`, with `none` for the `NULL` function. -/
def timerDriverRegisterHandler (notifyFunction : Option F) (d : State F H) :
    EfiStatus × State F H :=
  if notifyFunction.isNone && d.mTimerNotifyFunction.isNone then (.efiInvalidParameter, d)
  else if notifyFunction.isSome && d.mTimerNotifyFunction.isSome then (.efiAlreadyStarted, d)
  else (.efiSuccess, { d with mTimerNotifyFunction := notifyFunction })

/-- `TimerCount * (DGT_HZ / 1000)`, in the 64 bits of the product. -/
def matchCount (timerPeriod : UInt64) : UInt64 := timerPeriod / 10000 * (4800000 / 1000)

/-- The writes that turn the timer off. -/
def Dgt.turnOff (t : Dgt) : Dgt := (t.mmioWrite32 .dgtEnable 0).mmioWrite32 .dgtClear 0

/-- The writes that start the timer. `MmioWrite32` takes the low 32 bits of
the match value. -/
def Dgt.start (t : Dgt) (timerPeriod : UInt64) : Dgt :=
  ((t.mmioWrite32 .dgtMatchVal (matchCount timerPeriod).toUInt32).mmioWrite32 .dgtClear
    0).mmioWrite32 .dgtEnable (dgtEnableEn ||| dgtEnableClrOnMatchEn)

/-- `TimerDriverSetTimerPeriod`. The status of the disabling is lost where the
timer is started. -/
def timerDriverSetTimerPeriod (timerPeriod : UInt64) (d : State F H) :
    EfiStatus × State F H :=
  let disabled := InterruptDxe.disableInterruptSource gVector d.gInterrupt
  if timerPeriod = 0 then
    (disabled.1, { d with
      dgt := d.dgt.turnOff, gInterrupt := disabled.2, mTimerPeriod := timerPeriod })
  else
    let enabled := InterruptDxe.enableInterruptSource gVector disabled.2
    (enabled.1, { d with
      dgt := d.dgt.start timerPeriod, gInterrupt := enabled.2, mTimerPeriod := timerPeriod })

/-- `TimerDriverGetTimerPeriod`, with whether `TimerPeriod` is other than
`NULL`. -/
def timerDriverGetTimerPeriod (timerPeriod : Bool) (d : State F H) : EfiStatus × Option UInt64 :=
  if timerPeriod then (.efiSuccess, some d.mTimerPeriod) else (.efiInvalidParameter, none)

/-- `TimerDriverGenerateSoftInterrupt`. -/
def timerDriverGenerateSoftInterrupt : EfiStatus := .efiUnsupported

/-- What happens to the driver: a call of its protocol, a tick, a call some
other driver makes of the interrupt driver, a change of the task priority. -/
inductive Call (F H : Type) where
  | registerHandler (notifyFunction : Option F)
  | setTimerPeriod (timerPeriod : UInt64)
  | getTimerPeriod (timerPeriod : Bool)
  | generateSoftInterrupt
  | interrupt (source : UInt32)
  | interruptDxe (call : InterruptDxe.Call H)
  | setTpl (level : UInt32)

/-- What a call answers and the state it leaves. -/
def State.answer (d : State F H) : Call F H → Answer F × State F H
  | .registerHandler f =>
    let r := timerDriverRegisterHandler f d
    (.ofStatus r.1, r.2)
  | .setTimerPeriod p =>
    let r := timerDriverSetTimerPeriod p d
    (.ofStatus r.1, r.2)
  | .getTimerPeriod dest =>
    let r := timerDriverGetTimerPeriod dest d
    (⟨r.1, r.2, []⟩, d)
  | .generateSoftInterrupt => (.ofStatus timerDriverGenerateSoftInterrupt, d)
  | .interrupt source => (⟨.efiSuccess, none, timerInterruptHandler source d⟩, d)
  | .interruptDxe call =>
    let r := d.gInterrupt.answer call
    (.ofStatus r.1, { d with gInterrupt := r.2 })
  | .setTpl level => (.ofStatus .efiSuccess, { d with tpl := level })

/-- A call of `TimerDriverSetTimerPeriod`. -/
def Call.SetsPeriod : Call F H → Prop
  | .setTimerPeriod _ => True
  | _ => False

/-- The answer names a period: to the caller of `TimerDriverGetTimerPeriod`, or
to the function notified of a tick. -/
def Answer.Reports (a : Answer F) (period : UInt64) : Prop :=
  a.timerPeriod = some period ∨ ∃ f, Event.notify f period ∈ a.events

/-! ## The interval of a match value

A period of `p` units of 100 ns and a match value of `m` ticks are compared
over a common denominator: `p` units are `p * DGT_HZ / 10,000,000` ticks. -/

/-- The interval of the match value is not shorter than the period. -/
def Covers (matchVal : UInt32) (period : UInt64) : Prop :=
  period.toNat * dgtHz ≤ matchVal.toNat * 10000000

/-- The interval of the match value is the period. -/
def Lasts (matchVal : UInt32) (period : UInt64) : Prop :=
  matchVal.toNat * 10000000 = period.toNat * dgtHz

/-- No step of the conversion leaves 64 bits. -/
theorem toNat_matchCount (period : UInt64) :
    (matchCount period).toNat = period.toNat / 10000 * 4800 := by
  have hlt := period.toNat_lt
  unfold matchCount
  rw [UInt64.toNat_mul, UInt64.toNat_div, show (4800000 / 1000 : UInt64).toNat = 4800 from rfl,
    show (10000 : UInt64).toNat = 10000 from rfl]
  omega

theorem toNat_toUInt32_matchCount (period : UInt64) :
    (matchCount period).toUInt32.toNat = period.toNat / 10000 * 4800 % 2 ^ 32 := by
  rw [UInt64.toNat_toUInt32, toNat_matchCount]

/-! ## What a call can do -/

/-- The timer is started with the period asked for, and the driver says so:
`INT_DEBUG_TIMER_EXP` is a source the interrupt driver takes. -/
theorem timerDriverSetTimerPeriod_of_pos {period : UInt64} (hpos : 0 < period) (d : State F H) :
    (timerDriverSetTimerPeriod period d).1 = .efiSuccess
      ∧ (timerDriverSetTimerPeriod period d).2.dgt = d.dgt.start period
      ∧ (timerDriverSetTimerPeriod period d).2.mTimerPeriod = period := by
  have hne : period ≠ 0 := fun h => absurd (h ▸ hpos) (by decide)
  have hvector : gVector ≤ InterruptDxe.nrIrqs := by decide
  have henabled := InterruptDxe.enableInterruptSource_of_le hvector
    (InterruptDxe.disableInterruptSource gVector d.gInterrupt).2
  unfold timerDriverSetTimerPeriod
  rw [if_neg hne]
  exact ⟨congrArg Prod.fst henabled, rfl, rfl⟩

/-- Only `TimerDriverSetTimerPeriod` writes to the timer or changes the
period. -/
theorem answer_frame (d : State F H) {c : Call F H} (hc : ¬c.SetsPeriod) :
    (d.answer c).2.dgt = d.dgt ∧ (d.answer c).2.mTimerPeriod = d.mTimerPeriod := by
  cases c with
  | setTimerPeriod p => exact absurd trivial hc
  | registerHandler f =>
    show (timerDriverRegisterHandler f d).2.dgt = d.dgt
      ∧ (timerDriverRegisterHandler f d).2.mTimerPeriod = d.mTimerPeriod
    unfold timerDriverRegisterHandler
    split_ifs <;> exact ⟨rfl, rfl⟩
  | getTimerPeriod | generateSoftInterrupt | interrupt | interruptDxe | setTpl => exact ⟨rfl, rfl⟩

/-- The period a call names is the one the driver saved. -/
theorem eq_of_reports {d : State F H} {c : Call F H} {period : UInt64}
    (h : (d.answer c).1.Reports period) : period = d.mTimerPeriod := by
  cases c with
  | getTimerPeriod dest =>
    rcases h with hget | ⟨f, hf⟩
    · cases dest with
      | true => exact (Option.some.inj hget).symm
      | false => cases hget
    · cases hf
  | interrupt source =>
    rcases h with hget | ⟨f, hf⟩
    · cases hget
    · change Event.notify f period ∈ timerInterruptHandler source d at hf
      unfold timerInterruptHandler at hf
      cases hd : d.mTimerNotifyFunction with
      | none => simp [hd] at hf
      | some g =>
        simp only [hd, List.cons_append, List.nil_append, List.mem_cons, Event.notify.injEq,
          List.not_mem_nil, or_false, reduceCtorEq, false_or] at hf
        exact hf.2
  | registerHandler | setTimerPeriod | generateSoftInterrupt | interruptDxe | setTpl =>
    rcases h with hget | ⟨f, hf⟩
    · cases hget
    · cases hf

/-- **What is reported in between.** Until the period is set again, every
answer that names a period names the saved one. -/
theorem eq_of_reports_outputs {d : State F H} {calls : List (Call F H)}
    (hcalls : ∀ c ∈ calls, ¬c.SetsPeriod) {a : Answer F}
    (ha : a ∈ Run.outputs State.answer d calls) {period : UInt64} (h : a.Reports period) :
    period = d.mTimerPeriod := by
  induction calls generalizing d with
  | nil => cases ha
  | cons c calls ih =>
    rcases List.mem_cons.1 ha with rfl | hlater
    · exact eq_of_reports h
    · have hframe := answer_frame d (hcalls c List.mem_cons_self)
      rw [← hframe.2]
      exact ih (fun c hc => hcalls c (List.mem_cons_of_mem _ hc)) hlater

/-! ## The period in force -/

/-- **The match value of a period**: not zero, not cut to 32 bits, and the
smallest one whose interval is not shorter than the period. -/
structure Programs (t : Dgt) (period : UInt64) : Prop where
  nonzero : t.matchVal ≠ 0
  not_cut : t.matchVal.toNat = (matchCount period).toNat
  covers : Covers t.matchVal period
  smallest (m : UInt32) (hm : Covers m period) : t.matchVal ≤ m

/-- **What setting a period owes.** Either an error and the previous period
still in force, or a timer programmed for the period; and whatever happens
until the period is set again, every period that is named is the interval
that was programmed. -/
structure SetsPeriod (d : State F H) (period : UInt64) : Prop where
  programs :
    ((timerDriverSetTimerPeriod period d).1 ≠ .efiSuccess
        ∧ (timerDriverSetTimerPeriod period d).2.dgt = d.dgt
        ∧ (timerDriverSetTimerPeriod period d).2.mTimerPeriod = d.mTimerPeriod)
      ∨ ((timerDriverSetTimerPeriod period d).1 = .efiSuccess
        ∧ Programs (timerDriverSetTimerPeriod period d).2.dgt period)
  reports (calls : List (Call F H)) (hcalls : ∀ c ∈ calls, ¬c.SetsPeriod)
    (a : Answer F)
    (ha : a ∈ Run.outputs State.answer (timerDriverSetTimerPeriod period d).2 calls)
    (p : UInt64) (hp : a.Reports p) :
    Lasts (timerDriverSetTimerPeriod period d).2.dgt.matchVal p

/-- **The code rounds down.** Where the match value fits, its interval is
at most the period, and less than a millisecond shorter. -/
theorem interval_setTimerPeriod (t : Dgt) {period : UInt64}
    (hfits : period.toNat / 10000 * 4800 < 2 ^ 32) :
    (t.start period).matchVal.toNat * 10000000 ≤ period.toNat * dgtHz
      ∧ period.toNat * dgtHz < ((t.start period).matchVal.toNat + 4800) * 10000000 := by
  have hmatch : (t.start period).matchVal.toNat = period.toNat / 10000 * 4800 % 2 ^ 32 :=
    toNat_toUInt32_matchCount period
  unfold dgtHz
  omega

/-- A whole number of milliseconds that fits the register is programmed
exactly. -/
theorem programs_start (t : Dgt) {period : UInt64} (hpos : 0 < period)
    (hmilli : 10000 ∣ period.toNat) (hfits : period.toNat / 10000 * 4800 < 2 ^ 32) :
    Programs (t.start period) period ∧ Lasts (t.start period).matchVal period := by
  have hpos' : 0 < period.toNat := UInt64.lt_iff_toNat_lt.1 hpos
  have hmatch : (t.start period).matchVal.toNat = period.toNat / 10000 * 4800 := by
    rw [show (t.start period).matchVal.toNat = _ from toNat_toUInt32_matchCount period]
    exact Nat.mod_eq_of_lt hfits
  have hlasts : Lasts (t.start period).matchVal period := by
    unfold Lasts dgtHz
    omega
  refine ⟨⟨fun hzero => ?_, ?_, Nat.le_of_eq hlasts.symm, fun m hm => ?_⟩, hlasts⟩
  · rw [hzero, UInt32.toNat_zero] at hmatch
    omega
  · rw [hmatch, toNat_matchCount]
  · rw [UInt32.le_iff_toNat_le]
    unfold Covers at hm
    unfold Lasts at hlasts
    omega

/-- **When the period in force is the one asked for**: where it is a whole
number of milliseconds and its match value fits 32 bits. -/
theorem setsPeriod_iff (d : State F H) (period : UInt64) (hpos : 0 < period) :
    SetsPeriod d period
      ↔ 10000 ∣ period.toNat ∧ period.toNat / 10000 * 4800 < 2 ^ 32 := by
  obtain ⟨hstatus, hdgt, hperiod⟩ := timerDriverSetTimerPeriod_of_pos hpos d
  constructor
  · intro hsets
    rcases hsets.programs with ⟨herror, -⟩ | ⟨-, hprograms⟩
    · exact absurd hstatus herror
    rw [hdgt] at hprograms
    have hmatch : (d.dgt.start period).matchVal.toNat = period.toNat / 10000 * 4800 % 2 ^ 32 :=
      toNat_toUInt32_matchCount period
    have hcut := hprograms.not_cut
    rw [hmatch, toNat_matchCount] at hcut
    have hfits : period.toNat / 10000 * 4800 < 2 ^ 32 := by
      rw [← hcut]
      exact Nat.mod_lt _ (by decide)
    have hcovers := hprograms.covers
    unfold Covers dgtHz at hcovers
    rw [hmatch, hcut] at hcovers
    exact ⟨by omega, hfits⟩
  · rintro ⟨hmilli, hfits⟩
    obtain ⟨hprograms, hlasts⟩ := programs_start d.dgt hpos hmilli hfits
    refine ⟨Or.inr ⟨hstatus, hdgt ▸ hprograms⟩, fun calls hcalls a ha p hp => ?_⟩
    rw [eq_of_reports_outputs hcalls ha hp, hperiod, hdgt]
    exact hlasts

/-- The default period, `PcdTimerPeriod`: one millisecond. -/
theorem setsPeriod_pcdTimerPeriod : SetsPeriod (State.init : State Unit Unit) 10000 :=
  (setsPeriod_iff State.init 10000 (by decide)).2 (by decide)

/-- Half a millisecond: the match value is `0`, and the core is told of 500 µs
at every tick. -/
theorem not_setsPeriod_halfMillisecond :
    ¬∀ (d : State Unit Unit) (period : UInt64), 0 < period → SetsPeriod d period := by
  intro h
  have hsets := h State.init 5000 (by decide)
  rcases hsets.programs with ⟨herror, -⟩ | ⟨-, hprograms⟩
  · exact herror (by decide)
  · exact hprograms.nonzero (by decide)

/-! ## A period of zero -/

/-- The driver names a period of zero exactly while the timer is off. -/
def ZeroIffOff (d : State F H) : Prop := d.mTimerPeriod = 0 ↔ d.dgt.enable = 0

/-- Setting any period leaves the two in step. -/
theorem zeroIffOff_setTimerPeriod (period : UInt64) (d : State F H) :
    ZeroIffOff (timerDriverSetTimerPeriod period d).2 := by
  unfold ZeroIffOff timerDriverSetTimerPeriod
  split_ifs with hzero
  · exact ⟨fun _ => rfl, fun _ => hzero⟩
  · refine ⟨fun h => absurd h hzero, fun h => absurd h ?_⟩
    show dgtEnableEn ||| dgtEnableClrOnMatchEn ≠ 0
    decide

theorem zeroIffOff_step (d : State F H) (c : Call F H) (hd : ZeroIffOff d) :
    ZeroIffOff (Run.next State.answer d c) := by
  by_cases hc : c.SetsPeriod
  · cases c with
    | setTimerPeriod p => exact zeroIffOff_setTimerPeriod p d
    | registerHandler | getTimerPeriod | generateSoftInterrupt | interrupt | interruptDxe
    | setTpl => exact absurd hc id
  · obtain ⟨hdgt, hperiod⟩ := answer_frame d hc
    unfold ZeroIffOff Run.next
    rw [hdgt, hperiod]
    exact hd

/-- **A period of zero means that the timer is off**, in every state reached
after `TimerInitialize` has turned it off. -/
theorem zeroIffOff_run (d : State F H) (calls : List (Call F H)) :
    ZeroIffOff (Run.run (Run.next State.answer) (timerDriverSetTimerPeriod 0 d).2 calls) :=
  Run.inv_run zeroIffOff_step calls (zeroIffOff_setTimerPeriod 0 d)

end TimerDxe
