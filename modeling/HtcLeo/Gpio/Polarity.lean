import HtcLeo.Gpio.MsmGpio
import HtcLeo.Lib.Run

/-!
# The polarity of a gpio

A gpio that is to interrupt on both edges is armed for one of them at a time:
its bit of `int_pos` says which, and `msm_gpio_update_both_edge_detect` sets it
by the level it samples, until the level has stopped changing. The register
has the bits of a whole bank, and the routine sets in it, at every turn, the
bits of *all* the inputs it sampled low. It clears none, and is called on every
acknowledgement, whatever the gpio is configured for.

`polarity_kept_iff` says which calls nevertheless leave the other gpios alone
and arm their own as they should: those whose samples have no new bit to set,
and whose last sample agrees with what the earlier ones left behind.
-/

namespace MsmGpio

/-! ## The turns of the loop -/

/-- The loop reaches the turn `k`: the turns before it do not leave it. -/
def Bank.Runs (loopLimit : ℕ) (r : Bank) (k : ℕ) : Prop :=
  k ≤ loopLimit ∧ ∀ m < k, r.stable m = false

theorem Bank.runs_zero (loopLimit : ℕ) (r : Bank) : r.Runs loopLimit 0 :=
  ⟨Nat.zero_le _, fun m hm => absurd hm (Nat.not_lt_zero m)⟩

/-- The turns after the first are those of the bank it leaves. -/
theorem Bank.runs_succ (loopLimit : ℕ) (r : Bank) (k : ℕ) :
    r.Runs (loopLimit + 1) (k + 1)
      ↔ r.stable 0 = false ∧ r.updateTurn.Runs loopLimit k := by
  constructor
  · rintro ⟨hk, hstable⟩
    exact ⟨hstable 0 (Nat.succ_pos k), Nat.le_of_succ_le_succ hk,
      fun m hm => hstable (m + 1) (Nat.succ_lt_succ hm)⟩
  · rintro ⟨hzero, hk, hstable⟩
    refine ⟨Nat.succ_le_succ hk, fun m hm => ?_⟩
    cases m with
    | zero => exact hzero
    | succ m => exact hstable m (Nat.lt_of_succ_lt_succ hm)

/-- A stable first turn is the only one. -/
theorem Bank.runs_of_stable {loopLimit : ℕ} {r : Bank} (h : r.stable 0 = true) (k : ℕ) :
    r.Runs loopLimit k ↔ k = 0 := by
  constructor
  · rintro ⟨-, hstable⟩
    by_contra hk
    exact absurd (hstable 0 (by omega)) (by simp [h])
  · rintro rfl
    exact r.runs_zero loopLimit

/-- With no turn left, the first is the only one. -/
theorem Bank.runs_limit_zero (r : Bank) (k : ℕ) : r.Runs 0 k ↔ k = 0 := by
  constructor
  · exact fun h => Nat.le_zero.mp h.1
  · rintro rfl
    exact r.runs_zero 0

/-- Some turn is the first, or one of those after it. -/
theorem Bank.exists_runs_succ {loopLimit : ℕ} {r : Bank} (h : r.stable 0 = false)
    (P : ℕ → Prop) :
    (∃ k, r.Runs (loopLimit + 1) k ∧ P k)
      ↔ P 0 ∨ ∃ k, r.updateTurn.Runs loopLimit k ∧ P (k + 1) := by
  constructor
  · rintro ⟨k, hk, hP⟩
    cases k with
    | zero => exact .inl hP
    | succ k => exact .inr ⟨k, ((r.runs_succ loopLimit k).mp hk).2, hP⟩
  · rintro (hP | ⟨k, hk, hP⟩)
    · exact ⟨0, r.runs_zero _, hP⟩
    · exact ⟨k + 1, (r.runs_succ loopLimit k).mpr ⟨h, hk⟩, hP⟩

theorem Bank.updateLoop_of_stable {r : Bank} (h : r.stable 0 = true) (loopLimit : ℕ) :
    r.updateLoop loopLimit = (some (r.gpioIn 1), r.updateTurn) := by
  unfold Bank.updateLoop
  rw [if_pos h]

theorem Bank.updateLoop_zero {r : Bank} (h : r.stable 0 = false) :
    r.updateLoop 0 = (none, r.updateTurn) := by
  unfold Bank.updateLoop
  rw [if_neg (by simp [h])]

theorem Bank.updateLoop_succ {r : Bank} (h : r.stable 0 = false) (loopLimit : ℕ) :
    r.updateLoop (loopLimit + 1) = r.updateTurn.updateLoop loopLimit := by
  conv_lhs => unfold Bank.updateLoop
  rw [if_neg (by simp [h])]

/-- A turn sets the bits of the inputs it samples low. -/
theorem Bank.bit_updateTurn (r : Bank) {j : ℕ} (hj : j < 32) :
    Word.bit r.updateTurn.intPos j = true
      ↔ Word.bit r.intPos j = true ∨ Word.bit (r.gpioIn 0) j = false := by
  have hnot : Word.bit (~~~r.gpioIn 0) j = !Word.bit (r.gpioIn 0) j := by
    simp [Word.bit, hj]
  unfold Bank.updateTurn
  rw [Word.bit_or, hnot]
  simp

/-- **What the loop leaves in `int_pos`**: the bits it found, and those of the
inputs that one of its turns sampled low. -/
theorem Bank.bit_updateLoop (loopLimit : ℕ) (r : Bank) {j : ℕ} (hj : j < 32) :
    Word.bit (r.updateLoop loopLimit).2.intPos j = true
      ↔ Word.bit r.intPos j = true
        ∨ ∃ k, r.Runs loopLimit k ∧ Word.bit (r.gpioIn (2 * k)) j = false := by
  induction loopLimit generalizing r with
  | zero =>
    have hone : (r.updateLoop 0).2 = r.updateTurn := by
      cases h : r.stable 0 with
      | true => rw [Bank.updateLoop_of_stable h]
      | false => rw [Bank.updateLoop_zero h]
    simp only [hone, r.bit_updateTurn hj, r.runs_limit_zero, exists_eq_left, Nat.mul_zero]
  | succ loopLimit ih =>
    cases h : r.stable 0 with
    | true =>
      simp only [Bank.updateLoop_of_stable h, r.bit_updateTurn hj, Bank.runs_of_stable h,
        exists_eq_left, Nat.mul_zero]
    | false =>
      rw [Bank.updateLoop_succ h, ih r.updateTurn, r.bit_updateTurn hj,
        Bank.exists_runs_succ h, or_assoc]
      exact Iff.rfl

/-- **What the loop settles on**: the second sample of the turn that leaves it
by the `return`. -/
theorem Bank.updateLoop_settles (loopLimit : ℕ) (r : Bank) (val2 : UInt32) :
    (r.updateLoop loopLimit).1 = some val2
      ↔ ∃ k, r.Runs loopLimit k ∧ r.stable k = true ∧ r.gpioIn (2 * k + 1) = val2 := by
  induction loopLimit generalizing r with
  | zero =>
    simp only [r.runs_limit_zero, exists_eq_left, Nat.mul_zero, Nat.zero_add]
    cases h : r.stable 0 with
    | true => simp [Bank.updateLoop_of_stable h]
    | false => simp [Bank.updateLoop_zero h]
  | succ loopLimit ih =>
    cases h : r.stable 0 with
    | true => simp [Bank.updateLoop_of_stable h, Bank.runs_of_stable h, h]
    | false =>
      rw [Bank.updateLoop_succ h, ih r.updateTurn, Bank.exists_runs_succ h]
      simp only [h, Bool.false_eq_true, false_and, false_or]
      exact Iff.rfl

/-! ## The calls -/

/-- A call that acknowledges or configures a gpio. -/
inductive PolarityCall where
  | msmGpioIrqAck (gpio : ℕ)
  | msmSetGpioIrqTrigger (gpio : ℕ) (flags : UInt32)

/-- The gpio of a call. -/
def PolarityCall.gpio : PolarityCall → ℕ
  | .msmGpioIrqAck gpio => gpio
  | .msmSetGpioIrqTrigger gpio _ => gpio

/-- The registers, and which gpios were last configured for both edges. -/
structure PolarityState where
  gpio : Gpio
  bothEdge : ℕ → Bool

/-- Whether the gpio of a call is configured for both edges after it. -/
def PolarityState.bothEdgeAfter (s : PolarityState) : PolarityCall → Bool
  | .msmGpioIrqAck gpio => s.bothEdge gpio
  | .msmSetGpioIrqTrigger _ flags => bothEdges flags

/-- The state a call leaves. -/
def polarityStep (s : PolarityState) (call : PolarityCall) : PolarityState where
  gpio := match call with
    | .msmGpioIrqAck gpio => msmGpioIrqAck gpio s.gpio
    | .msmSetGpioIrqTrigger gpio flags => msmSetGpioIrqTrigger gpio flags s.gpio
  bothEdge := Function.update s.bothEdge call.gpio (s.bothEdgeAfter call)

/-- The call runs `msm_gpio_update_both_edge_detect`. -/
def PolarityCall.updates : PolarityCall → Bool
  | .msmGpioIrqAck _ => true
  | .msmSetGpioIrqTrigger _ flags => bothEdges flags

/-- **The polarity of a gpio**: its bit of `int_pos`. -/
def Gpio.intPosBit (s : Gpio) (gpio : ℕ) : Bool :=
  match findGpio gpio with
  | none => false
  | some (r, b) => Word.flag (s.banks r).intPos b

/-- The level of the gpio that the update of a call settles on, where there is
one. -/
def PolarityState.settledLevel (s : PolarityState) (call : PolarityCall) : Option Bool :=
  match findGpio call.gpio with
  | none => none
  | some (r, b) =>
    if call.updates then ((s.gpio.banks r).updateLoop 100).1.map (Word.flag · b) else none

/-- **What a call owes to the polarities**: those of the other gpios stay, that
of its own stays on an acknowledgement unless it is configured for both edges,
and if it is, then it is armed for the edge away from the level the update
settles on. -/
structure PolarityKept (s : PolarityState) (call : PolarityCall) : Prop where
  others : ∀ gpio ≠ call.gpio,
    (polarityStep s call).gpio.intPosBit gpio = s.gpio.intPosBit gpio
  own : ∀ gpio, call = .msmGpioIrqAck gpio → s.bothEdge gpio = false →
    (polarityStep s call).gpio.intPosBit gpio = s.gpio.intPosBit gpio
  armed : ∀ level, s.settledLevel call = some level →
    (polarityStep s call).bothEdge call.gpio = true →
    (polarityStep s call).gpio.intPosBit call.gpio = !level

/-- The bit `j` is set, or every turn of the update samples it high. -/
def Bank.Stays (r : Bank) (j : ℕ) : Prop :=
  Word.bit r.intPos j = true ∨ ∀ k, r.Runs 100 k → Word.bit (r.gpioIn (2 * k)) j = true

/-- Where the update settles, the last sample of the bit `j` is low exactly when
the bit was set or a turn sampled it low. -/
def Bank.Arms (r : Bank) (j : ℕ) : Prop :=
  ∀ k, r.Runs 100 k → r.stable k = true →
    (Word.bit (r.gpioIn (2 * k + 1)) j = false
      ↔ Word.bit r.intPos j = true ∨ ∃ m ≤ k, Word.bit (r.gpioIn (2 * m)) j = false)

/-- **The samples suit the polarities**: if the call runs the update, then it has
no new bit to set for the other gpios of the bank, nor for its own unless that
is configured for both edges, and if it is, then the last sample agrees with
the earlier ones and the polarity before. -/
def SamplesSuit (s : PolarityState) (call : PolarityCall) : Prop :=
  call.updates = true → ∀ i j, At call.gpio i j →
    (∀ gpio j', At gpio i j' → gpio ≠ call.gpio → (s.gpio.banks i).Stays j')
      ∧ (s.bothEdgeAfter call = false → (s.gpio.banks i).Stays j)
      ∧ (s.bothEdgeAfter call = true → (s.gpio.banks i).Arms j)

/-! ## What the update changes -/

theorem At.intPosBit {gpio j : ℕ} {i : Fin 8} (h : At gpio i j) (s : Gpio) :
    s.intPosBit gpio = Word.bit (s.banks i).intPos j := by
  unfold Gpio.intPosBit
  rw [h.findGpio]
  exact flag_one_ofNat _ h.lt

/-- An unknown gpio has no polarity. -/
theorem intPosBit_of_none {gpio : ℕ} (h : findGpio gpio = none) (s : Gpio) :
    s.intPosBit gpio = false := by
  unfold Gpio.intPosBit
  rw [h]

/-- The registers of one bank have gone through an update. -/
structure Updated (s s' : Gpio) (i : Fin 8) : Prop where
  frame : ∀ k ≠ i, (s'.banks k).intPos = (s.banks k).intPos
  bits : ∀ j < 32, Word.bit (s'.banks i).intPos j = true
    ↔ Word.bit (s.banks i).intPos j = true
      ∨ ∃ k, (s.banks i).Runs 100 k ∧ Word.bit ((s.banks i).gpioIn (2 * k)) j = false

theorem updated_update {gpio j : ℕ} {i : Fin 8} (h : At gpio i j) (s : Gpio) :
    Updated s (msmGpioUpdateBothEdgeDetect gpio s) i := by
  have heq : msmGpioUpdateBothEdgeDetect gpio s
      = s.updateBank i fun bank => (bank.updateLoop 100).2 := by
    unfold msmGpioUpdateBothEdgeDetect
    rw [h.findGpio]
  rw [heq]
  unfold Gpio.updateBank
  refine ⟨fun k hk => ?_, fun j hj => ?_⟩
  · show (Function.update s.banks i _ k).intPos = _
    rw [Function.update_of_ne hk]
  · show Word.bit (Function.update s.banks i _ i).intPos j = true ↔ _
    rw [Function.update_self]
    exact Bank.bit_updateLoop 100 (s.banks i) hj

/-- What an update does does not depend on `int_edge`. -/
theorem Updated.of_intEdge {s t s' : Gpio} {i : Fin 8} (h : Updated t s' i)
    (hsame : ∀ k, ∃ e, t.banks k = { s.banks k with intEdge := e }) : Updated s s' i := by
  refine ⟨fun k hk => ?_, fun j hj => ?_⟩
  · obtain ⟨e, he⟩ := hsame k
    rw [h.frame k hk, he]
  · obtain ⟨e, he⟩ := hsame i
    have hbits := h.bits j hj
    rw [he] at hbits
    exact hbits

theorem banks_msmGpioIrqClear (gpio : ℕ) (s : Gpio) : (msmGpioIrqClear gpio s).banks = s.banks := by
  unfold msmGpioIrqClear
  split <;> rfl

/-- A change of `int_edge` in one bank. -/
theorem updateBank_intEdge (s : Gpio) (i : Fin 8) (f : Bank → Bank)
    (hf : ∀ r, ∃ e, f r = { r with intEdge := e }) (k : Fin 8) :
    ∃ e, (s.updateBank i f).banks k = { s.banks k with intEdge := e } := by
  show ∃ e, Function.update s.banks i (f (s.banks i)) k = _
  by_cases hk : k = i
  · subst hk
    rw [Function.update_self]
    exact hf (s.banks k)
  · rw [Function.update_of_ne hk]
    exact ⟨(s.banks k).intEdge, rfl⟩

/-- **A call that runs the update** puts the bank of its gpio through it. -/
theorem updated_of_updates {s : PolarityState} {call : PolarityCall} {i : Fin 8} {j : ℕ}
    (hupdates : call.updates = true) (h : At call.gpio i j) :
    Updated s.gpio (polarityStep s call).gpio i := by
  cases call with
  | msmGpioIrqAck gpio =>
    refine (updated_update h (msmGpioIrqClear gpio s.gpio)).of_intEdge fun k => ?_
    rw [banks_msmGpioIrqClear]
    exact ⟨(s.gpio.banks k).intEdge, rfl⟩
  | msmSetGpioIrqTrigger gpio flags =>
    have hfind : findGpio gpio = some (i, Word.one (UInt32.ofNat j)) := At.findGpio h
    have hboth : bothEdges flags = true := hupdates
    show Updated s.gpio (msmSetGpioIrqTrigger gpio flags s.gpio) i
    unfold msmSetGpioIrqTrigger
    rw [hfind]
    simp only [hboth, if_true]
    refine (updated_update h _).of_intEdge (updateBank_intEdge s.gpio i _ fun r => ?_)
    split
    · exact ⟨_, rfl⟩
    · exact ⟨_, rfl⟩

/-- Configuring a gpio for at most one edge sets or clears its own bit. -/
theorem intPos_setTrigger {g j : ℕ} {i : Fin 8} (hg : At g i j) {flags : UInt32}
    (hboth : bothEdges flags = false) (s : Gpio) :
    ∃ rising : Bool, ∀ k, ((msmSetGpioIrqTrigger g flags s).banks k).intPos
      = if k = i then
          (if rising then (s.banks i).intPos ||| Word.one (UInt32.ofNat j)
          else (s.banks i).intPos &&& ~~~Word.one (UInt32.ofNat j))
        else (s.banks k).intPos := by
  refine ⟨Word.flag flags gpioIrqfRising, fun k => ?_⟩
  unfold msmSetGpioIrqTrigger
  rw [hg.findGpio]
  simp only [hboth, Bool.false_eq_true, if_false, Gpio.updateBank]
  by_cases hk : k = i
  · subst hk
    rw [if_pos rfl, Function.update_self, Function.update_self]
    split <;> split <;> rfl
  · rw [if_neg hk, Function.update_of_ne hk, Function.update_of_ne hk]

/-- Setting or clearing the bit of a gpio leaves the other bits. -/
theorem bit_setTrigger_of_ne {j j' : ℕ} (hj : j < 32) (hne : j' ≠ j) (w : UInt32) (rising : Bool) :
    Word.bit (if rising then w ||| Word.one (UInt32.ofNat j)
      else w &&& ~~~Word.one (UInt32.ofNat j)) j' = Word.bit w j' := by
  have hmod : j' ≠ (UInt32.ofNat j).toNat % 32 := by
    rw [UInt32.toNat_ofNat']
    omega
  cases rising with
  | true => rw [if_pos rfl, Word.bit_set, decide_eq_false hmod, Bool.or_false]
  | false =>
    rw [if_neg Bool.false_ne_true, Word.bit_clear, decide_eq_false hmod, Bool.not_false,
      Bool.and_true]

/-- **A call that does not run the update** changes no polarity but its own
gpio's. -/
theorem others_of_not_updates {s : PolarityState} {call : PolarityCall}
    (hupdates : call.updates = false) {gpio : ℕ} (hne : gpio ≠ call.gpio) :
    (polarityStep s call).gpio.intPosBit gpio = s.gpio.intPosBit gpio := by
  cases call with
  | msmGpioIrqAck g => exact absurd hupdates (by simp [PolarityCall.updates])
  | msmSetGpioIrqTrigger g flags =>
    have hboth : bothEdges flags = false := hupdates
    show (msmSetGpioIrqTrigger g flags s.gpio).intPosBit gpio = _
    obtain ⟨i, j, hg⟩ | hg := at_or_findGpio_eq_none g
    · obtain ⟨i', j', hgpio⟩ | hgpio := at_or_findGpio_eq_none gpio
      · obtain ⟨rising, hintPos⟩ := intPos_setTrigger hg hboth s.gpio
        rw [hgpio.intPosBit, hgpio.intPosBit, hintPos]
        by_cases hi : i' = i
        · subst hi
          have hj : j' ≠ j := by
            rintro rfl
            exact hne (hgpio.1.trans hg.1.symm)
          rw [if_pos rfl]
          exact bit_setTrigger_of_ne hg.lt hj _ rising
        · rw [if_neg hi]
      · rw [intPosBit_of_none hgpio, intPosBit_of_none hgpio]
    · unfold msmSetGpioIrqTrigger
      rw [hg]

/-! ## Exactly when a call keeps the polarities -/

/-- After an update a bit is as before exactly when it stays. -/
theorem Updated.bit_eq_iff {s s' : Gpio} {i : Fin 8} (h : Updated s s' i) {j : ℕ} (hj : j < 32) :
    Word.bit (s'.banks i).intPos j = Word.bit (s.banks i).intPos j ↔ (s.banks i).Stays j := by
  have hbits := h.bits j hj
  unfold Bank.Stays
  rw [Bool.eq_iff_iff, hbits]
  constructor
  · intro hsame
    by_cases hold : Word.bit (s.banks i).intPos j = true
    · exact .inl hold
    · refine .inr fun k hk => ?_
      by_contra hlow
      exact hold (hsame.mp (.inr ⟨k, hk, by simpa using hlow⟩))
  · rintro (hold | hhigh)
    · exact ⟨fun _ => hold, .inl⟩
    · refine ⟨?_, .inl⟩
      rintro (hold | ⟨k, hk, hlow⟩)
      · exact hold
      · exact absurd (hhigh k hk) (by simp [hlow])

/-- After an update that settles, a bit is away from the last sample exactly when
the sample agrees with the earlier ones. -/
theorem Updated.bit_eq_not_iff {s s' : Gpio} {i : Fin 8} (h : Updated s s' i) {j : ℕ}
    (hj : j < 32) {k : ℕ} (hk : (s.banks i).Runs 100 k) (hstable : (s.banks i).stable k = true) :
    Word.bit (s'.banks i).intPos j = !Word.bit ((s.banks i).gpioIn (2 * k + 1)) j
      ↔ (Word.bit ((s.banks i).gpioIn (2 * k + 1)) j = false
        ↔ Word.bit (s.banks i).intPos j = true
          ∨ ∃ m ≤ k, Word.bit ((s.banks i).gpioIn (2 * m)) j = false) := by
  have hturns : ∀ m, (s.banks i).Runs 100 m ↔ m ≤ k := by
    intro m
    constructor
    · intro hm
      by_contra hlt
      exact absurd (hm.2 k (by omega)) (by simp [hstable])
    · intro hm
      exact ⟨Nat.le_trans hm hk.1, fun l hl => hk.2 l (by omega)⟩
  have hbits := h.bits j hj
  simp only [hturns] at hbits
  rw [← hbits]
  cases Word.bit (s'.banks i).intPos j <;>
    cases Word.bit ((s.banks i).gpioIn (2 * k + 1)) j <;> decide

/-- The level a call settles on. -/
theorem settledLevel_iff {s : PolarityState} {call : PolarityCall} {i : Fin 8} {j : ℕ}
    (hupdates : call.updates = true) (h : At call.gpio i j) (level : Bool) :
    s.settledLevel call = some level
      ↔ ∃ k, (s.gpio.banks i).Runs 100 k ∧ (s.gpio.banks i).stable k = true
        ∧ Word.bit ((s.gpio.banks i).gpioIn (2 * k + 1)) j = level := by
  unfold PolarityState.settledLevel
  rw [h.findGpio]
  simp only [hupdates, if_true, Option.map_eq_some_iff, Bank.updateLoop_settles,
    flag_one_ofNat _ h.lt]
  constructor
  · rintro ⟨_, ⟨k, hk, hstable, rfl⟩, hlevel⟩
    exact ⟨k, hk, hstable, hlevel⟩
  · rintro ⟨k, hk, hstable, hlevel⟩
    exact ⟨_, ⟨k, hk, hstable, rfl⟩, hlevel⟩

theorem polarityStep_bothEdge (s : PolarityState) (call : PolarityCall) :
    (polarityStep s call).bothEdge call.gpio = s.bothEdgeAfter call :=
  Function.update_self _ _ _

/-- A call on an unknown gpio changes nothing. -/
theorem polarityStep_of_none {s : PolarityState} {call : PolarityCall}
    (h : findGpio call.gpio = none) : (polarityStep s call).gpio = s.gpio := by
  cases call with
  | msmGpioIrqAck gpio =>
    have hfind : findGpio gpio = none := h
    show msmGpioIrqAck gpio s.gpio = _
    simp [msmGpioIrqAck, msmGpioUpdateBothEdgeDetect, msmGpioIrqClear, hfind]
  | msmSetGpioIrqTrigger gpio flags =>
    have hfind : findGpio gpio = none := h
    show msmSetGpioIrqTrigger gpio flags s.gpio = _
    simp [msmSetGpioIrqTrigger, hfind]

/-- **What a call that runs the update owes**, bit by bit. -/
theorem polarityKept_iff_of_updates {s : PolarityState} {call : PolarityCall} {i : Fin 8} {j : ℕ}
    (hupdates : call.updates = true) (h : At call.gpio i j) :
    PolarityKept s call
      ↔ (∀ gpio j', At gpio i j' → gpio ≠ call.gpio → (s.gpio.banks i).Stays j')
        ∧ (s.bothEdgeAfter call = false → (s.gpio.banks i).Stays j)
        ∧ (s.bothEdgeAfter call = true → (s.gpio.banks i).Arms j) := by
  have hupdated := updated_of_updates (s := s) hupdates h
  have hstays : ∀ gpio j', At gpio i j' →
      ((polarityStep s call).gpio.intPosBit gpio = s.gpio.intPosBit gpio
        ↔ (s.gpio.banks i).Stays j') := by
    intro gpio j' hgpio
    rw [hgpio.intPosBit, hgpio.intPosBit]
    exact hupdated.bit_eq_iff hgpio.lt
  constructor
  · intro hkept
    refine ⟨fun gpio j' hgpio hne => (hstays gpio j' hgpio).mp (hkept.others gpio hne),
      fun hboth => ?_, fun hboth k hk hstable => ?_⟩
    · cases call with
      | msmGpioIrqAck gpio => exact (hstays gpio j h).mp (hkept.own gpio rfl hboth)
      | msmSetGpioIrqTrigger gpio flags => exact absurd (hboth.symm.trans hupdates) (by decide)
    · have harmed := hkept.armed _ ((settledLevel_iff hupdates h _).mpr ⟨k, hk, hstable, rfl⟩)
        ((polarityStep_bothEdge s call).trans hboth)
      rw [h.intPosBit] at harmed
      exact (hupdated.bit_eq_not_iff h.lt hk hstable).mp harmed
  · rintro ⟨hothers, hown, harms⟩
    refine ⟨fun gpio hne => ?_, fun gpio hack hboth => ?_, fun level hlevel hboth => ?_⟩
    · obtain ⟨i', j', hgpio⟩ | hgpio := at_or_findGpio_eq_none gpio
      · by_cases hi : i' = i
        · subst hi
          exact (hstays gpio j' hgpio).mpr (hothers gpio j' hgpio hne)
        · rw [hgpio.intPosBit, hgpio.intPosBit, hupdated.frame i' hi]
      · rw [intPosBit_of_none hgpio, intPosBit_of_none hgpio]
    · subst hack
      exact (hstays gpio j h).mpr (hown hboth)
    · obtain ⟨k, hk, hstable, rfl⟩ := (settledLevel_iff hupdates h level).mp hlevel
      rw [polarityStep_bothEdge] at hboth
      rw [h.intPosBit]
      exact (hupdated.bit_eq_not_iff h.lt hk hstable).mpr (harms hboth k hk hstable)

/-- **Exactly when a call keeps the polarities.** -/
theorem polarityKept_iff (s : PolarityState) (call : PolarityCall) :
    PolarityKept s call ↔ SamplesSuit s call := by
  unfold SamplesSuit
  obtain ⟨i, j, h⟩ | h := at_or_findGpio_eq_none call.gpio
  · cases hupdates : call.updates with
    | true =>
      rw [polarityKept_iff_of_updates hupdates h]
      constructor
      · intro hkept _ i' j' h'
        obtain ⟨rfl, rfl⟩ := h.bank_unique h'
        exact hkept
      · exact fun hsuit => hsuit rfl i j h
    | false =>
      refine ⟨fun _ hfalse => absurd hfalse (by decide), fun _ => ⟨?_, ?_, ?_⟩⟩
      · exact fun gpio hne => others_of_not_updates hupdates hne
      · rintro gpio rfl -
        exact Bool.noConfusion hupdates
      · intro level hlevel
        simp [PolarityState.settledLevel, h.findGpio, hupdates] at hlevel
  · have hframe := polarityStep_of_none (s := s) h
    refine ⟨fun _ _ i j hat => absurd (hat.findGpio.symm.trans h) (by simp), fun _ => ⟨?_, ?_, ?_⟩⟩
    · exact fun gpio _ => by rw [hframe]
    · exact fun gpio _ _ => by rw [hframe]
    · intro level hlevel
      simp [PolarityState.settledLevel, h] at hlevel

/-- **When a run keeps the polarities.** From any contents of the registers and
any configuration, over any calls, whatever the inputs and the status are sampled
as: every call of the run keeps the polarities exactly when the samples of every
call suit them. -/
theorem polarity_kept_iff (s : PolarityState) (calls : List PolarityCall) :
    Run.Along polarityStep PolarityKept s calls ↔ Run.Along polarityStep SamplesSuit s calls :=
  Run.along_congr_mem s calls fun s call _ => polarityKept_iff s call

/-- Acknowledging gpio 0, configured for no edge, turns the polarity of its
neighbour gpio 1, which is low and armed for the falling edge. -/
theorem polarity_of_neighbour_changes :
    let bank : Bank := ⟨0, 3, 0, fun _ => 0, fun _ => 0⟩
    let s : PolarityState := ⟨⟨fun _ => bank, []⟩, fun _ => false⟩
    (s.gpio.intPosBit 1 = false ∧ (polarityStep s (.msmGpioIrqAck 0)).gpio.intPosBit 1 = true)
      ∧ ¬ Run.Along polarityStep PolarityKept s [.msmGpioIrqAck 0] := by
  refine ⟨⟨by decide, by decide⟩, fun hkept => ?_⟩
  have hothers := hkept.1.others 1 (by decide)
  exact absurd hothers (by decide)

end MsmGpio
