import HtcLeo.Efi
import HtcLeo.Lib.Run
import HtcLeo.Lib.Word

/-!
# The interrupt source driver

`InterruptDxe` keeps one handler per interrupt source and switches sources on
and off in the vectored interrupt controller (VIC). The controller has two
32-bit enable masks, each behind a *set-bits* and a *clear-bits* register:
writing a word to `VIC_INT_ENSET0` turns on the sources whose bits it has,
writing it to `VIC_INT_ENCLEAR0` turns them off. The driver picks the bank by
`Source > 31` and the bit by `Source & 31`.

The two choices name each of the 64 direct vectors by a bit of its own
(`InterruptDxe.sameBit_iff`), but `NR_IRQS` counts far more sources, and two
sources above 31 that agree modulo 32 share a bit. `enabled_frame_iff` says
that this is the only way one source disturbs another.

Registration goes through the same enabling routine whether a handler is
installed or removed, so a source stays enabled after its handler has gone;
`register_discipline_iff` says that removing handlers is all that breaks the
discipline of the table and the masks.
-/

namespace InterruptDxe

/-! ## Interrupt numbers -/

/-- `NR_MSM_IRQS`: the direct vectors. -/
def nrMsmIrqs : UInt32 := 64
/-- `NR_SIRC_IRQS`: the secondary interrupt controller. -/
def nrSircIrqs : UInt32 := 23
/-- `NR_GPIO_IRQS`. -/
def nrGpioIrqs : UInt32 := 165
/-- `NR_BOARD_IRQS`. -/
def nrBoardIrqs : UInt32 := 64
/-- `NR_MICROP_IRQS`. -/
def nrMicropIrqs : UInt32 := 16

/-- `NR_IRQS`: the size of the handler table. -/
def nrIrqs : UInt32 :=
  nrMsmIrqs + nrSircIrqs + nrGpioIrqs + nrBoardIrqs + nrMicropIrqs

/-! ## The controller -/

/-- The VIC registers that switch sources on and off. -/
inductive VicReg where
  | vicIntEnset0
  | vicIntEnset1
  | vicIntEnclear0
  | vicIntEnclear1
  deriving DecidableEq

/-- **The interrupt controller**: its two enable masks. -/
structure Vic where
  en0 : UInt32
  en1 : UInt32
  deriving DecidableEq

/-- `MmioWrite32` on the controller: each register sets or clears, in its own
mask, the bits of the word written. -/
def Vic.mmioWrite32 (v : Vic) : VicReg → UInt32 → Vic
  | .vicIntEnset0, w => { v with en0 := v.en0 ||| w }
  | .vicIntEnset1, w => { v with en1 := v.en1 ||| w }
  | .vicIntEnclear0, w => { v with en0 := v.en0 &&& ~~~w }
  | .vicIntEnclear1, w => { v with en1 := v.en1 &&& ~~~w }

/-- Whether a source is enabled in the controller: its bit of its bank. -/
def Vic.enabled (v : Vic) (source : UInt32) : Bool :=
  Word.bit (if source > 31 then v.en1 else v.en0) (source.toNat % 32)

/-! ## The driver -/

/-- **The driver's state**: `gRegisteredInterruptHandlers` and the controller.
The entries from `NR_IRQS` on lie outside the array; `accessed` lists the
indices at which the driver has read or written the table. -/
structure State (H : Type) where
  handlers : ℕ → Option H
  accessed : List ℕ
  vic : Vic

/-- No handler registered and every source disabled. -/
def State.init {H : Type} : State H := ⟨fun _ => none, [], ⟨0, 0⟩⟩

variable {H : Type}

/-- The table was read or written at the entry of a source. -/
def State.touch (d : State H) (source : UInt32) : State H :=
  { d with accessed := source.toNat :: d.accessed }

/-- What is read at the entry of a source in order to be called. Past the table nothing is
known of it. -/
def State.handlerRead (d : State H) (source : UInt32) : Option (Option H) :=
  if source < nrIrqs then some (d.handlers source.toNat) else none

/-- `gRegisteredInterruptHandlers[Source] = Handler`, after the entry was
read. -/
def State.enter (d : State H) (source : UInt32) (handler : Option H) :
    State H :=
  { (d.touch source).touch source with
    handlers := Function.update d.handlers source.toNat handler }

/-- `EnableInterruptSource`. The `ASSERT` of a rejected source only prints:
the build's debug mask has neither the breakpoint nor the dead-loop bit. -/
def enableInterruptSource (source : UInt32) (d : State H) :
    EfiStatus × State H :=
  if source > nrIrqs then (.efiUnsupported, d)
  else
    let reg := if source > 31 then VicReg.vicIntEnset1 else VicReg.vicIntEnset0
    (.efiSuccess, { d with vic := d.vic.mmioWrite32 reg (Word.one source) })

/-- `DisableInterruptSource`. -/
def disableInterruptSource (source : UInt32) (d : State H) :
    EfiStatus × State H :=
  if source > nrIrqs then (.efiUnsupported, d)
  else
    let reg := if source > 31 then VicReg.vicIntEnclear1 else VicReg.vicIntEnclear0
    (.efiSuccess, { d with vic := d.vic.mmioWrite32 reg (Word.one source) })

/-- `RegisterInterruptSource`, with `none` for the `NULL` handler. Installing
and removing a handler both end in `This->EnableInterruptSource`. -/
def registerInterruptSource (source : UInt32) (handler : Option H)
    (d : State H) : EfiStatus × State H :=
  if source > nrIrqs then (.efiUnsupported, d)
  else if handler.isNone && (d.handlers source.toNat).isNone then
    (.efiInvalidParameter, d.touch source)
  else if handler.isSome && (d.handlers source.toNat).isSome then
    (.efiAlreadyStarted, d.touch source)
  else enableInterruptSource source (d.enter source handler)

/-- A call of the driver. -/
inductive Call (H : Type) where
  | registerInterruptSource (source : UInt32) (handler : Option H)
  | enableInterruptSource (source : UInt32)
  | disableInterruptSource (source : UInt32)

/-- The source a call names. -/
def Call.source : Call H → UInt32
  | .registerInterruptSource source _ => source
  | .enableInterruptSource source => source
  | .disableInterruptSource source => source

/-- What a call answers and the state it leaves. -/
def State.answer (d : State H) : Call H → EfiStatus × State H
  | .registerInterruptSource source handler =>
    InterruptDxe.registerInterruptSource source handler d
  | .enableInterruptSource source => InterruptDxe.enableInterruptSource source d
  | .disableInterruptSource source => InterruptDxe.disableInterruptSource source d

/-- The state a call leaves. -/
def step (d : State H) (c : Call H) : State H := (d.answer c).2

/-! ## Which sources share a bit -/

/-- Two sources the driver addresses by the same bit of the same bank. -/
def SameBit (s t : UInt32) : Prop :=
  (s > 31 ↔ t > 31) ∧ s.toNat % 32 = t.toNat % 32

instance (s t : UInt32) : Decidable (SameBit s t) :=
  inferInstanceAs (Decidable (_ ∧ _))

/-- **Distinct sources share a bit only above the first bank**, where the
driver reads every source modulo 32. -/
theorem sameBit_iff {s t : UInt32} (hne : s ≠ t) :
    SameBit s t ↔ 31 < s ∧ 31 < t ∧ s % 32 = t % 32 := by
  have hne' : s.toNat ≠ t.toNat := fun h => hne (UInt32.toNat_inj.mp h)
  simp only [SameBit, gt_iff_lt, UInt32.lt_iff_toNat_lt, ← UInt32.toNat_inj,
    UInt32.toNat_mod, UInt32.reduceToNat]
  omega

/-- Among the direct vectors every source has a bit of its own. -/
theorem not_sameBit_of_lt {s t : UInt32} (hs : s < 64) (ht : t < 64)
    (hne : s ≠ t) : ¬ SameBit s t := by
  rw [sameBit_iff hne]
  have hne' : s.toNat ≠ t.toNat := fun h => hne (UInt32.toNat_inj.mp h)
  simp only [UInt32.lt_iff_toNat_lt, ← UInt32.toNat_inj, UInt32.toNat_mod,
    UInt32.reduceToNat] at *
  omega

/-! ## What one call does to the masks and the table -/

/-- Enabling a source turns on the sources that share its bit. -/
theorem Vic.enabled_enset (v : Vic) (s t : UInt32) :
    (v.mmioWrite32 (if s > 31 then .vicIntEnset1 else .vicIntEnset0)
        (Word.one s)).enabled t
      = (v.enabled t || decide (SameBit s t)) := by
  unfold Vic.enabled SameBit
  by_cases hs : s > 31 <;> by_cases ht : t > 31 <;>
    simp [hs, ht, Vic.mmioWrite32, Word.bit_set, eq_comm]

/-- Disabling a source turns off the sources that share its bit. -/
theorem Vic.enabled_enclear (v : Vic) (s t : UInt32) :
    (v.mmioWrite32 (if s > 31 then .vicIntEnclear1 else .vicIntEnclear0)
        (Word.one s)).enabled t
      = (v.enabled t && !decide (SameBit s t)) := by
  unfold Vic.enabled SameBit
  by_cases hs : s > 31 <;> by_cases ht : t > 31 <;>
    simp [hs, ht, Vic.mmioWrite32, Word.bit_clear, eq_comm]

/-- A source in the range of the driver's own check is enabled. -/
theorem enableInterruptSource_of_le {s : UInt32} (hs : s ≤ nrIrqs)
    (d : State H) :
    enableInterruptSource s d = (.efiSuccess, { d with
      vic := d.vic.mmioWrite32
        (if s > 31 then .vicIntEnset1 else .vicIntEnset0) (Word.one s) }) := by
  unfold enableInterruptSource
  rw [if_neg (by simpa using hs)]

/-- Enabling touches the controller alone. -/
theorem enableInterruptSource_handlers (s : UInt32) (d : State H) :
    (enableInterruptSource s d).2.handlers = d.handlers := by
  unfold enableInterruptSource
  split <;> rfl

/-- **What registration can do**: reject the call and leave the table and the
controller as they are, or enter the handler and enable the source. -/
theorem registerInterruptSource_cases (s : UInt32) (h : Option H)
    (d : State H) :
    ((registerInterruptSource s h d).1 ≠ .efiSuccess
        ∧ (registerInterruptSource s h d).2.handlers = d.handlers
        ∧ (registerInterruptSource s h d).2.vic = d.vic)
      ∨ (s ≤ nrIrqs ∧ h.isSome = (d.handlers s.toNat).isNone
        ∧ registerInterruptSource s h d
          = enableInterruptSource s (d.enter s h)) := by
  unfold registerInterruptSource
  by_cases hs : s > nrIrqs
  · rw [if_pos hs]
    exact .inl ⟨by simp, rfl, rfl⟩
  rw [if_neg hs]
  have hle : s ≤ nrIrqs := by simpa using hs
  cases h <;> cases hd : d.handlers s.toNat <;> simp [hle, State.touch]

/-- **A call leaves alone every source that shares no bit with its own.** -/
theorem enabled_step_of_not_sameBit (d : State H) (c : Call H) {t : UInt32}
    (h : ¬ SameBit c.source t) :
    (step d c).vic.enabled t = d.vic.enabled t := by
  have henable : ∀ (s : UInt32) (d : State H), ¬ SameBit s t →
      (enableInterruptSource s d).2.vic.enabled t = d.vic.enabled t := by
    intro s d hs
    unfold enableInterruptSource
    split
    · rfl
    · exact (Vic.enabled_enset d.vic s t).trans (by simp [hs])
  cases c with
  | enableInterruptSource s => exact henable s d h
  | disableInterruptSource s =>
    show (disableInterruptSource s d).2.vic.enabled t = _
    unfold disableInterruptSource
    split
    · rfl
    · exact (Vic.enabled_enclear d.vic s t).trans
        (by simp [show ¬ SameBit s t from h])
  | registerInterruptSource s f =>
    show (registerInterruptSource s f d).2.vic.enabled t = _
    rcases registerInterruptSource_cases s f d with ⟨_, _, hv⟩ | ⟨_, _, heq⟩
    · rw [hv]
    · rw [heq]
      exact henable s (d.enter s f) h

/-- **When a source is left alone by another.** For two distinct sources in
the driver's range, no call on `s`, in whatever sequence of calls, ever
changes whether `t` is enabled, exactly when they do not both lie above the
first bank with the same number modulo 32. -/
theorem enabled_frame_iff (s t : UInt32) (hs : s < nrIrqs) (hne : s ≠ t) :
    (∀ (d : State H) (l : List (Call H)) (c : Call H), c.source = s →
        (Run.run step d (l ++ [c])).vic.enabled t
          = (Run.run step d l).vic.enabled t)
      ↔ ¬ (31 < s ∧ 31 < t ∧ s % 32 = t % 32) := by
  rw [← sameBit_iff hne]
  constructor
  · intro h hsb
    -- enabling `s` from the state with everything disabled turns `t` on
    have hrun := h (State.init : State H) [] (.enableInterruptSource s) rfl
    have hon : (enableInterruptSource s (State.init : State H)).2.vic.enabled t
        = true := by
      rw [enableInterruptSource_of_le (UInt32.le_of_lt hs)]
      exact (Vic.enabled_enset _ s t).trans (by simp [hsb])
    have hoff : (State.init : State H).vic.enabled t = false := by
      simp [State.init, Vic.enabled]
    exact absurd ((hon.symm.trans hrun).trans hoff) (by decide)
  · rintro hsb d l c rfl
    rw [Run.run_append]
    exact enabled_step_of_not_sameBit _ c hsb

/-- `INT_ARM11_PM` (32 + 9) is left alone by calls on `INT_UART1DM_IRQ`
(32 + 12). -/
theorem enabled_frame_direct :
    (44 : UInt32) < nrIrqs ∧ (44 : UInt32) ≠ 41
      ∧ ∀ (d : State Unit) (l : List (Call Unit)) (c : Call Unit), c.source = 44 →
        (Run.run step d (l ++ [c])).vic.enabled 41
          = (Run.run step d l).vic.enabled 41 :=
  ⟨by decide, by decide, (enabled_frame_iff 44 41 (by decide) (by decide)).mpr (by decide)⟩

/-- Enabling `INT_GPIO_GROUP1` (64 + 9), as `msm_gpio_init` does, turns on
`INT_ARM11_PM` (32 + 9), which nobody enabled. -/
theorem enable_gpio_group1_enables_arm11_pm :
    ¬ ∀ (s t : UInt32), s < nrIrqs → t < nrIrqs → s ≠ t →
      ∀ (d : State Unit) (l : List (Call Unit)) (c : Call Unit), c.source = s →
        (Run.run step d (l ++ [c])).vic.enabled t
          = (Run.run step d l).vic.enabled t := by
  intro h
  have h' := h 73 41 (by decide) (by decide) (by decide) State.init []
    (.enableInterruptSource 73) rfl
  exact absurd h' (by decide)

/-! ## The discipline of the table -/

/-- **What the driver owes on every call**: an error changes nothing, a
registration that succeeds enters exactly the given handler, and a source
whose handler has just been removed is disabled. -/
structure Disciplined (d : State H) (c : Call H) : Prop where
  error_frame : (d.answer c).1 ≠ .efiSuccess →
    (step d c).handlers = d.handlers ∧ (step d c).vic = d.vic
  enters : ∀ s h, c = .registerInterruptSource s h →
    (d.answer c).1 = .efiSuccess →
    (step d c).handlers = Function.update d.handlers s.toNat h
  unregister_disables : ∀ s, c = .registerInterruptSource s none →
    (d.answer c).1 = .efiSuccess → (step d c).vic.enabled s = false

/-- A call that removes the handler of a source. -/
def Unregisters (d : State H) : Call H → Prop
  | .registerInterruptSource s none => (d.handlers s.toNat).isSome
  | _ => False

/-- A call of `RegisterInterruptSource`. -/
def Call.IsRegister : Call H → Prop
  | .registerInterruptSource _ _ => True
  | _ => False

/-- A source of the driver's range is enabled once it has been enabled. -/
theorem enabled_enableInterruptSource {s : UInt32} (hs : s ≤ nrIrqs)
    (d : State H) : (enableInterruptSource s d).2.vic.enabled s = true := by
  rw [enableInterruptSource_of_le hs]
  exact (Vic.enabled_enset d.vic s s).trans (by simp [SameBit])

/-- Enabling never fails halfway: an error leaves the state as it was. -/
theorem enableInterruptSource_error (s : UInt32) (d : State H)
    (h : (enableInterruptSource s d).1 ≠ .efiSuccess) :
    (enableInterruptSource s d).2 = d := by
  unfold enableInterruptSource at *
  split
  · rfl
  · next hs => rw [if_neg hs] at h; exact absurd rfl h

/-- Removing a handler that is there goes through to the enabling. -/
theorem registerInterruptSource_removes {s : UInt32} (hs : s ≤ nrIrqs)
    {d : State H} (hd : (d.handlers s.toNat).isSome) :
    registerInterruptSource s none d
      = enableInterruptSource s (d.enter s none) := by
  rcases registerInterruptSource_cases s none d with ⟨herr, _, _⟩ | ⟨_, _, heq⟩
  · refine absurd ?_ herr
    unfold registerInterruptSource
    rw [if_neg (by simpa using hs),
      if_neg (by simp [Option.isSome_iff_ne_none.mp hd]), if_neg (by simp),
      enableInterruptSource_of_le hs]
  · exact heq

/-- The removal of a handler is not disciplined: the source it leaves without
a handler ends up enabled. -/
theorem not_disciplined_of_unregisters {d : State H} {s : UInt32}
    (hs : s ≤ nrIrqs) (hd : (d.handlers s.toNat).isSome) :
    ¬ Disciplined d (.registerInterruptSource s none) := by
  intro h
  have heq := registerInterruptSource_removes hs hd
  have hok : (d.answer (.registerInterruptSource s none)).1 = .efiSuccess :=
    (congrArg Prod.fst heq).trans (by rw [enableInterruptSource_of_le hs])
  have hoff := h.unregister_disables s rfl hok
  have hon : (step d (.registerInterruptSource s none)).vic.enabled s = true :=
    (congrArg (fun r => r.2.vic.enabled s) heq).trans
      (enabled_enableInterruptSource hs (d.enter s none))
  exact absurd (hon.symm.trans hoff) (by decide)

/-- A registration that removes no handler is disciplined. -/
theorem disciplined_register {d : State H} {s : UInt32} {f : Option H}
    (hu : ¬ Unregisters d (.registerInterruptSource s f)) :
    Disciplined d (.registerInterruptSource s f) := by
  rcases registerInterruptSource_cases s f d with
    ⟨herr, hh, hv⟩ | ⟨hle, hsome, heq⟩
  · exact ⟨fun _ => ⟨hh, hv⟩, fun _ _ _ hok => absurd hok herr,
      fun _ _ hok => absurd hok herr⟩
  · have hok : (d.answer (.registerInterruptSource s f)).1 = .efiSuccess :=
      (congrArg Prod.fst heq).trans (by rw [enableInterruptSource_of_le hle])
    refine ⟨fun h => absurd hok h, ?_, ?_⟩
    · rintro s' h' hcall -
      cases hcall
      exact (congrArg (fun r => r.2.handlers) heq).trans
        (enableInterruptSource_handlers s (d.enter s f))
    · rintro s' hcall -
      cases hcall
      -- the call went through without a handler to remove, so it entered one
      exact absurd (show (d.handlers s.toNat).isSome by simpa using hsome) hu

/-- **Every call is disciplined but the removal of a handler**, which ends in
enabling the source it leaves without a handler. -/
theorem disciplined_iff (d : State H) (c : Call H) (hc : c.source ≤ nrIrqs) :
    Disciplined d c ↔ ¬ Unregisters d c := by
  cases c with
  | enableInterruptSource s =>
    refine ⟨fun _ h => h, fun _ => ⟨fun h => ?_, nofun, nofun⟩⟩
    have he := enableInterruptSource_error s d h
    exact ⟨congrArg State.handlers he, congrArg State.vic he⟩
  | disableInterruptSource s =>
    refine ⟨fun _ h => h, fun _ => ⟨fun h => absurd ?_ h, nofun, nofun⟩⟩
    have hs : ¬ s > nrIrqs := by simpa using (show s ≤ nrIrqs from hc)
    show (disableInterruptSource s d).1 = .efiSuccess
    unfold disableInterruptSource
    rw [if_neg hs]
  | registerInterruptSource s f =>
    refine ⟨fun h hu => ?_, disciplined_register⟩
    cases f with
    | some f => exact hu
    | none => exact not_disciplined_of_unregisters hc hu h

/-- **The invariant of registrations that never remove a handler**: among the
direct vectors a source is enabled exactly when it has a handler. -/
def EnabledIffHandled (d : State H) : Prop :=
  ∀ t : UInt32, t < 64 → (d.vic.enabled t = (d.handlers t.toNat).isSome)

/-- A registration that removes no handler keeps the invariant. -/
theorem enabledIffHandled_step {d : State H} {c : Call H}
    (hc : c.source < 64) (hr : c.IsRegister) (hu : ¬ Unregisters d c)
    (hd : EnabledIffHandled d) : EnabledIffHandled (step d c) := by
  cases c with
  | enableInterruptSource s => exact absurd hr id
  | disableInterruptSource s => exact absurd hr id
  | registerInterruptSource s f =>
    rcases registerInterruptSource_cases s f d with
      ⟨_, hh, hv⟩ | ⟨hle, hsome, heq⟩
    · intro t ht
      have hst : (step d (.registerInterruptSource s f)).vic = d.vic := hv
      have hhd : (step d (.registerInterruptSource s f)).handlers
        = d.handlers := hh
      rw [hst, hhd]
      exact hd t ht
    · have hstep : step d (.registerInterruptSource s f)
          = (enableInterruptSource s (d.enter s f)).2 := congrArg Prod.snd heq
      have hf : f.isSome := by
        cases f with
        | some f => rfl
        | none =>
          exact absurd (show (d.handlers s.toNat).isSome by simpa using hsome) hu
      intro t ht
      rw [hstep, enableInterruptSource_handlers]
      show _ = (Function.update d.handlers s.toNat f t.toNat).isSome
      by_cases hts : t = s
      · subst hts
        rw [enabled_enableInterruptSource hle, Function.update_self, hf]
      · have hne : t.toNat ≠ s.toNat := fun h => hts (UInt32.toNat_inj.mp h)
        rw [Function.update_of_ne hne, ← hd t ht]
        exact enabled_step_of_not_sameBit (d.enter s f)
          (.enableInterruptSource s) (not_sameBit_of_lt hc ht (Ne.symm hts))

/-- **When a run keeps the discipline.** From no handlers and every source
disabled, over any calls on the direct vectors: every call of the run is
disciplined, and after registrations alone a source is enabled exactly when
it has a handler, precisely when no call of the run removes a handler. -/
theorem register_discipline_iff (l : List (Call H))
    (hl : ∀ c ∈ l, c.source < 64) :
    (Run.Along step Disciplined State.init l
        ∧ ((∀ c ∈ l, c.IsRegister) →
          EnabledIffHandled (Run.run step State.init l)))
      ↔ Run.Along step (fun d c => ¬ Unregisters d c) State.init l := by
  have hiff : Run.Along step Disciplined State.init l
      ↔ Run.Along step (fun (d : State H) c => ¬ Unregisters d c) State.init l :=
    Run.along_congr_mem State.init l fun d c hc => disciplined_iff d c
      (UInt32.le_of_lt (UInt32.lt_trans (hl c hc) (by decide)))
  refine ⟨fun h => hiff.mp h.1, fun h => ⟨hiff.mpr h, fun hreg => ?_⟩⟩
  refine Run.Along.inv_mem (I := EnabledIffHandled)
    (fun d c hcl hd hu => enabledIffHandled_step (hl c hcl) (hreg c hcl) hu hd)
    (fun t _ => ?_) h
  simp [State.init, Vic.enabled]

/-- Two handlers entered and a third source switched on and off: no handler is
removed, so the run is disciplined. -/
theorem register_discipline_two_handlers :
    let l : List (Call Unit) := [.registerInterruptSource 5 (some ()),
      .registerInterruptSource 41 (some ()), .enableInterruptSource 40,
      .disableInterruptSource 40]
    Run.Along step Disciplined State.init l
      ∧ ((∀ c ∈ l, c.IsRegister) →
        EnabledIffHandled (Run.run step State.init l)) := by
  refine (register_discipline_iff _ (by decide)).mpr ?_
  simp [Run.Along, Unregisters]

/-- Removing the handler of source 5 leaves source 5 enabled. -/
theorem unregister_leaves_enabled :
    ¬ ∀ l : List (Call Unit), (∀ c ∈ l, c.source < 64) →
      Run.Along step Disciplined State.init l
        ∧ ((∀ c ∈ l, c.IsRegister) →
          EnabledIffHandled (Run.run step State.init l)) := by
  intro h
  have hrun := (h [.registerInterruptSource 5 (some ()),
    .registerInterruptSource 5 none] (by decide)).1
  have hoff := hrun.2.1.unregister_disables 5 rfl (by decide)
  exact absurd hoff (by decide)

end InterruptDxe
