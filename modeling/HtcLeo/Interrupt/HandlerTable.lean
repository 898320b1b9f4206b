import HtcLeo.Interrupt.IrqHandler
import HtcLeo.Lib.Loop

/-!
# The bounds of the handler table

`gRegisteredInterruptHandlers` has `NR_IRQS` entries. Every entry point of
`InterruptDxe` that takes a source compares it with `NR_IRQS` before anything
else, and `IrqInterruptHandler` takes its index straight from
`VIC_IRQ_VEC_RD`.

The comparison is `Source > NR_IRQS`, so the number `NR_IRQS` itself passes it
and is one past the table; the interrupt makes no comparison at all.
`table_bounded_iff` says that these are all the ways out of the table, over
every run.

The driver is the one of `InterruptDxe`, watched: every access of a register is
recorded, also one that leaves the masks as they are. An interrupt is a step up
to the call of its handler, and the return of the handler is another, so that
what the handler calls and what interrupts it are steps in between.
-/

namespace InterruptDxe

/-! ## The registers -/

/-- The registers of the controller that the driver reads and writes. -/
inductive Register where
  | enable (reg : VicReg)
  | clear (reg : IntClear)
  | vicIntMasteren
  | vicIntEn0
  | vicIntEn1
  | vicIntSelect0
  | vicIntSelect1
  | vicIntType0
  | vicIntType1
  | vicConfig
  | vicIrqVecRd
  | vicIrqVecWr
  deriving DecidableEq

/-- An access of a register. -/
inductive Mmio where
  | read (reg : Register)
  | write (reg : Register) (value : UInt32)
  deriving DecidableEq

/-- What a write does to the enable masks: `VIC_INT_EN0` and `VIC_INT_EN1` are
the masks themselves. -/
def Vic.write (v : Vic) : Register → UInt32 → Vic
  | .enable reg, w => v.mmioWrite32 reg w
  | .vicIntEn0, w => { v with en0 := w }
  | .vicIntEn1, w => { v with en1 := w }
  | _, _ => v

/-! ## The driver, watched -/

/-- **The driver with what it does to the controller**: the accesses of its
registers, the last one first, and the number of handlers that were called and
have not returned. -/
structure Watched (H : Type) where
  dxe : State H
  mmio : List Mmio
  running : ℕ

variable {H : Type}

namespace Watched

/-- `MmioRead32`. -/
def mmioRead32 (d : Watched H) (reg : Register) : Watched H :=
  { d with mmio := .read reg :: d.mmio }

/-- `MmioWrite32`. -/
def mmioWrite32 (d : Watched H) (reg : Register) (value : UInt32) : Watched H :=
  { d with
    dxe := { d.dxe with vic := d.dxe.vic.write reg value }
    mmio := .write reg value :: d.mmio }

/-- One `MmioWrite32` after the other. -/
def mmioWrites (d : Watched H) (writes : List (Register × UInt32)) : Watched H :=
  writes.foldl (fun d w => d.mmioWrite32 w.1 w.2) d

/-- The table is read at the entry of a source. -/
def touch (d : Watched H) (source : UInt32) : Watched H :=
  { d with dxe := d.dxe.touch source }

/-- `EnableInterruptSource`. -/
def enableInterruptSource (source : UInt32) (d : Watched H) : EfiStatus × Watched H :=
  if source > nrIrqs then (.efiUnsupported, d)
  else
    let reg := if source > 31 then VicReg.vicIntEnset1 else VicReg.vicIntEnset0
    (.efiSuccess, d.mmioWrite32 (.enable reg) (Word.one source))

/-- `DisableInterruptSource`. -/
def disableInterruptSource (source : UInt32) (d : Watched H) : EfiStatus × Watched H :=
  if source > nrIrqs then (.efiUnsupported, d)
  else
    let reg := if source > 31 then VicReg.vicIntEnclear1 else VicReg.vicIntEnclear0
    (.efiSuccess, d.mmioWrite32 (.enable reg) (Word.one source))

/-- `RegisterInterruptSource`. Either comparison looks at the handler first, so that the
table is read in one of them only. -/
def registerInterruptSource (source : UInt32) (handler : Option H) (d : Watched H) :
    EfiStatus × Watched H :=
  if source > nrIrqs then (.efiUnsupported, d)
  else if handler.isNone && (d.dxe.handlers source.toNat).isNone then
    (.efiInvalidParameter, d.touch source)
  else if handler.isSome && (d.dxe.handlers source.toNat).isSome then
    (.efiAlreadyStarted, d.touch source)
  else enableInterruptSource source { d with dxe := d.dxe.enter source handler }

/-- `GetInterruptSourceState`, on what the register shows: the status with what
is stored in `*InterruptState`. -/
def getInterruptSourceState (source shown : UInt32) (d : Watched H) :
    (EfiStatus × Option Bool) × Watched H :=
  if source > nrIrqs then ((.efiUnsupported, none), d)
  else
    let reg := if source > 31 then VicReg.vicIntEnclear1 else VicReg.vicIntEnclear0
    let interruptState := if shown &&& Word.one source = Word.one source then false else true
    ((.efiSuccess, some interruptState), d.mmioRead32 (.enable reg))

/-- `EndOfInterrupt`. -/
def endOfInterrupt (source : UInt32) (d : Watched H) : EfiStatus × Watched H :=
  if source > nrIrqs then (.efiUnsupported, d)
  else (.efiSuccess, d.mmioWrite32 .vicIrqVecWr 0)

/-- `IrqInterruptHandler`, up to the call of the handler that was read for the
vector, or to its end where there is none. -/
def irqInterruptHandler (vector : UInt32) (d : Watched H) : Watched H :=
  let d := d.mmioRead32 .vicIrqVecRd
  let d := d.mmioWrite32 (.clear (if vector > 31 then .vicIntClear1 else .vicIntClear0))
    (Word.one vector)
  -- the vector is not compared with `NR_IRQS`
  let interruptHandler := d.dxe.handlerRead vector
  let d := d.touch vector
  match interruptHandler with
  | some (some _) => { d with running := d.running + 1 }
  | some none => d.mmioWrite32 .vicIrqVecWr 0
  -- the call of what is read past the table does not come back
  | none => d

/-- The rest of `IrqInterruptHandler`, when the handler that was called last
returns. -/
def handlerReturns (d : Watched H) : Watched H :=
  if d.running = 0 then d
  else { d with running := d.running - 1 }.mmioWrite32 .vicIrqVecWr 0

/-- `InitInterrupts`. -/
def initInterrupts (d : Watched H) : Watched H :=
  d.mmioWrites [(.clear .vicIntClear0, 0xffffffff), (.clear .vicIntClear1, 0xffffffff),
    (.vicIntSelect0, 0), (.vicIntSelect1, 0), (.vicIntType0, 0xffffffff),
    (.vicIntType1, 0xffffffff), (.vicConfig, 0), (.vicIntEn0, 1), (.vicIntEn1, 1),
    (.vicIntMasteren, 1)]

/-- `DeinitInterupts`. -/
def deinitInterupts (d : Watched H) : Watched H :=
  d.mmioWrites [(.vicIntMasteren, 0), (.vicIntEn0, 0), (.vicIntEn1, 0),
    (.clear .vicIntClear0, 0xffffffff), (.clear .vicIntClear1, 0xffffffff), (.vicIntSelect0, 0),
    (.vicIntSelect1, 0), (.vicIntType0, 0xffffffff), (.vicIntType1, 0xffffffff), (.vicConfig, 0)]

/-- `ExitBootServicesEvent`. -/
def exitBootServicesEvent (d : Watched H) : Watched H :=
  (forLoop 0 nrIrqs (fun index d => (disableInterruptSource index d).2) d).deinitInterupts

/-- The driver after `InterruptDxeInitialize`: its table is empty, and what a registration
finds behind it is whatever the memory has. -/
def loaded (memory : ℕ → Option H) : Watched H :=
  initInterrupts {
    dxe := ⟨fun i => if i < nrIrqs.toNat then none else memory i, [], ⟨0, 0⟩⟩
    mmio := []
    running := 0 }

end Watched

/-- What happens to the driver: a call of its protocol, an interrupt with the
vector its register shows, the return of a handler, and the end of the boot
services. -/
inductive Event (H : Type) where
  | call (c : Call H)
  | getInterruptSourceState (source shown : UInt32)
  | endOfInterrupt (source : UInt32)
  | interrupt (vector : UInt32)
  | handlerReturns
  | exitBootServicesEvent

/-- What a call answers, if it is one, and the state an event leaves. -/
def Watched.answer (d : Watched H) : Event H → Option EfiStatus × Watched H
  | .call (.registerInterruptSource source handler) =>
    (registerInterruptSource source handler d).map some id
  | .call (.enableInterruptSource source) => (enableInterruptSource source d).map some id
  | .call (.disableInterruptSource source) => (disableInterruptSource source d).map some id
  | .getInterruptSourceState source shown =>
    (getInterruptSourceState source shown d).map (some ·.1) id
  | .endOfInterrupt source => (endOfInterrupt source d).map some id
  | .interrupt vector => (none, irqInterruptHandler vector d)
  | .handlerReturns => (none, handlerReturns d)
  | .exitBootServicesEvent => (none, exitBootServicesEvent d)

/-- The state an event leaves. -/
def Watched.step (d : Watched H) (e : Event H) : Watched H := (d.answer e).2

/-- **A call does to the driver what it does unwatched**, and answers the same. -/
theorem Watched.answer_call (d : Watched H) (c : Call H) :
    (d.answer (.call c)).1 = some (d.dxe.answer c).1
      ∧ (d.step (.call c)).dxe = InterruptDxe.step d.dxe c := by
  have henable : ∀ (source : UInt32) (d : Watched H),
      (Watched.enableInterruptSource source d).1
          = (InterruptDxe.enableInterruptSource source d.dxe).1
        ∧ (Watched.enableInterruptSource source d).2.dxe
          = (InterruptDxe.enableInterruptSource source d.dxe).2 := by
    intro source d
    unfold Watched.enableInterruptSource InterruptDxe.enableInterruptSource
    split
    · exact ⟨rfl, rfl⟩
    · exact ⟨rfl, rfl⟩
  cases c with
  | registerInterruptSource source handler =>
    show some (registerInterruptSource source handler d).1
        = some (InterruptDxe.registerInterruptSource source handler d.dxe).1
      ∧ (registerInterruptSource source handler d).2.dxe
        = (InterruptDxe.registerInterruptSource source handler d.dxe).2
    unfold registerInterruptSource InterruptDxe.registerInterruptSource
    split
    · exact ⟨rfl, rfl⟩
    split
    · exact ⟨rfl, rfl⟩
    split
    · exact ⟨rfl, rfl⟩
    obtain ⟨hstatus, hdxe⟩ := henable source { d with dxe := d.dxe.enter source handler }
    exact ⟨congrArg some hstatus, hdxe⟩
  | enableInterruptSource source =>
    obtain ⟨hstatus, hdxe⟩ := henable source d
    exact ⟨congrArg some hstatus, hdxe⟩
  | disableInterruptSource source =>
    show some (disableInterruptSource source d).1
        = some (InterruptDxe.disableInterruptSource source d.dxe).1
      ∧ (disableInterruptSource source d).2.dxe
        = (InterruptDxe.disableInterruptSource source d.dxe).2
    unfold disableInterruptSource InterruptDxe.disableInterruptSource
    split
    · exact ⟨rfl, rfl⟩
    · exact ⟨rfl, rfl⟩

/-! ## What is asked of the events -/

/-- The source that a call names. -/
def Event.source? : Event H → Option UInt32
  | .call c => some c.source
  | .getInterruptSourceState source _ => some source
  | .endOfInterrupt source => some source
  | _ => none

/-- The index at which an event gets to the table, if it does. -/
def Event.index? : Event H → Option ℕ
  | .call (.registerInterruptSource source _) =>
    if source ≤ nrIrqs then some source.toNat else none
  | .interrupt vector => some vector.toNat
  | _ => none

/-- **A source past the table is rejected**: the call fails, and touches neither the
table nor a register. -/
def RejectsPast (d : Watched H) (e : Event H) : Prop :=
  ∀ source, e.source? = some source → nrIrqs ≤ source →
    (d.answer e).1 ≠ some .efiSuccess ∧ d.step e = d

/-- **The event keeps to the table**: no call names the number `NR_IRQS` itself, and
no interrupt shows a vector from it on. -/
structure Event.Within (e : Event H) : Prop where
  source : e.source? ≠ some nrIrqs
  vector : ∀ v, e = .interrupt v → v < nrIrqs

/-! ## The table -/

/-- The two states agree in all that has to do with the table. -/
structure SameTable (d t : Watched H) : Prop where
  accessed : t.dxe.accessed = d.dxe.accessed
  handlers : t.dxe.handlers = d.dxe.handlers

theorem SameTable.trans {d t u : Watched H} (h : SameTable d t) (h' : SameTable t u) :
    SameTable d u :=
  ⟨h'.accessed.trans h.accessed, h'.handlers.trans h.handlers⟩

section

variable (d : Watched H)

/-- Writes to the registers do not get to the table. -/
theorem sameTable_mmioWrites (writes : List (Register × UInt32)) :
    SameTable d (d.mmioWrites writes) := by
  induction writes generalizing d with
  | nil => exact ⟨rfl, rfl⟩
  | cons w writes ih =>
    have hwrite : SameTable d (d.mmioWrite32 w.1 w.2) := ⟨rfl, rfl⟩
    exact hwrite.trans (ih (d.mmioWrite32 w.1 w.2))

theorem sameTable_enableInterruptSource (source : UInt32) :
    SameTable d (Watched.enableInterruptSource source d).2 := by
  unfold Watched.enableInterruptSource
  split
  · exact ⟨rfl, rfl⟩
  · exact ⟨rfl, rfl⟩

theorem sameTable_disableInterruptSource (source : UInt32) :
    SameTable d (Watched.disableInterruptSource source d).2 := by
  unfold Watched.disableInterruptSource
  split
  · exact ⟨rfl, rfl⟩
  · exact ⟨rfl, rfl⟩

theorem sameTable_getInterruptSourceState (source shown : UInt32) :
    SameTable d (Watched.getInterruptSourceState source shown d).2 := by
  unfold Watched.getInterruptSourceState
  split
  · exact ⟨rfl, rfl⟩
  · exact ⟨rfl, rfl⟩

theorem sameTable_endOfInterrupt (source : UInt32) :
    SameTable d (Watched.endOfInterrupt source d).2 := by
  unfold Watched.endOfInterrupt
  split
  · exact ⟨rfl, rfl⟩
  · exact ⟨rfl, rfl⟩

theorem sameTable_handlerReturns : SameTable d d.handlerReturns := by
  unfold Watched.handlerReturns
  split
  · exact ⟨rfl, rfl⟩
  · exact ⟨rfl, rfl⟩

theorem sameTable_deinitInterupts : SameTable d d.deinitInterupts := sameTable_mmioWrites d _

/-- The end of the boot services masks every source, and writes to the registers. -/
theorem sameTable_exitBootServicesEvent : SameTable d d.exitBootServicesEvent := by
  have hmasked : SameTable d
      (forLoop 0 nrIrqs (fun index d => (Watched.disableInterruptSource index d).2) d) :=
    forLoop_keeps (motive := SameTable d) ⟨rfl, rfl⟩ fun index t ht =>
      ht.trans (sameTable_disableInterruptSource t index)
  exact hmasked.trans (sameTable_deinitInterupts _)

/-- **A registration that passes the check** reads the entry of its source, and may
write it. -/
theorem Watched.registerInterruptSource_of_le {source : UInt32} (hs : source ≤ nrIrqs)
    (handler : Option H) :
    (∀ i, i ∈ (registerInterruptSource source handler d).2.dxe.accessed
        ↔ i ∈ d.dxe.accessed ∨ source.toNat = i)
      ∧ ∀ i ≠ source.toNat,
        (registerInterruptSource source handler d).2.dxe.handlers i = d.dxe.handlers i := by
  have hread : ∀ i, i ∈ (d.touch source).dxe.accessed ↔ i ∈ d.dxe.accessed ∨ source.toNat = i := by
    intro i
    show i ∈ source.toNat :: d.dxe.accessed ↔ _
    rw [List.mem_cons, or_comm, eq_comm]
  unfold registerInterruptSource
  rw [if_neg (UInt32.not_lt.mpr hs)]
  split
  · exact ⟨hread, fun _ _ => rfl⟩
  split
  · exact ⟨hread, fun _ _ => rfl⟩
  have henabled := sameTable_enableInterruptSource
    { d with dxe := d.dxe.enter source handler } source
  rw [henabled.accessed, henabled.handlers]
  constructor
  · intro i
    show i ∈ source.toNat :: source.toNat :: d.dxe.accessed ↔ _
    rw [List.mem_cons, ← hread]
    exact or_iff_right_of_imp fun h => h ▸ List.mem_cons_self
  · intro i hi
    exact Function.update_of_ne hi _ _

/-- An interrupt reads the table at its vector, and leaves the masks alone. -/
theorem Watched.irqInterruptHandler_dxe (vector : UInt32) :
    (irqInterruptHandler vector d).dxe = d.dxe.touch vector := by
  unfold irqInterruptHandler
  dsimp only
  split
  · rfl
  · rfl
  · rfl

/-- Every other event leaves the table alone. -/
theorem sameTable_step {e : Event H} (h : e.index? = none) : SameTable d (d.step e) := by
  cases e with
  | call c =>
    cases c with
    | registerInterruptSource source handler =>
      by_cases hs : source ≤ nrIrqs
      · exact absurd ((if_pos hs).symm.trans h) nofun
      · show SameTable d (Watched.registerInterruptSource source handler d).2
        unfold Watched.registerInterruptSource
        rw [if_pos (UInt32.not_le.mp hs)]
        exact ⟨rfl, rfl⟩
    | enableInterruptSource source => exact sameTable_enableInterruptSource d source
    | disableInterruptSource source => exact sameTable_disableInterruptSource d source
  | getInterruptSourceState source shown => exact sameTable_getInterruptSourceState d source shown
  | endOfInterrupt source => exact sameTable_endOfInterrupt d source
  | interrupt vector => cases h
  | handlerReturns => exact sameTable_handlerReturns d
  | exitBootServicesEvent => exact sameTable_exitBootServicesEvent d

/-- An event that gets to the table is a registration that passes the check, or an
interrupt. -/
theorem Event.index?_cases (e : Event H) :
    e.index? = none
      ∨ (∃ source handler, e = .call (.registerInterruptSource source handler)
        ∧ source ≤ nrIrqs ∧ e.index? = some source.toNat)
      ∨ ∃ vector, e = .interrupt vector ∧ e.index? = some vector.toNat := by
  cases e with
  | call c =>
    cases c with
    | registerInterruptSource source handler =>
      by_cases hs : source ≤ nrIrqs
      · exact Or.inr (Or.inl ⟨source, handler, rfl, hs, if_pos hs⟩)
      · exact Or.inl (if_neg hs)
    | enableInterruptSource source => exact Or.inl rfl
    | disableInterruptSource source => exact Or.inl rfl
  | interrupt vector => exact Or.inr (Or.inr ⟨vector, rfl, rfl⟩)
  | getInterruptSourceState source shown => exact Or.inl rfl
  | endOfInterrupt source => exact Or.inl rfl
  | handlerReturns => exact Or.inl rfl
  | exitBootServicesEvent => exact Or.inl rfl

/-- **An event accesses the table at its own index**, and at no other. -/
theorem Watched.mem_accessed_step (e : Event H) (i : ℕ) :
    i ∈ (d.step e).dxe.accessed ↔ i ∈ d.dxe.accessed ∨ e.index? = some i := by
  rcases e.index?_cases with hnone | ⟨source, handler, rfl, hs, hindex⟩ | ⟨vector, rfl, hindex⟩
  · rw [(sameTable_step d hnone).accessed, hnone]
    simp
  · rw [hindex, Option.some.injEq]
    exact (registerInterruptSource_of_le d hs handler).1 i
  · rw [hindex, Option.some.injEq]
    show i ∈ (irqInterruptHandler vector d).dxe.accessed ↔ _
    rw [irqInterruptHandler_dxe]
    show i ∈ vector.toNat :: d.dxe.accessed ↔ _
    rw [List.mem_cons, or_comm, eq_comm]

/-- An event leaves every other entry as it is. -/
theorem Watched.handlers_step_of_ne {e : Event H} {i : ℕ} (hi : e.index? ≠ some i) :
    (d.step e).dxe.handlers i = d.dxe.handlers i := by
  rcases e.index?_cases with hnone | ⟨source, handler, rfl, hs, hindex⟩ | ⟨vector, rfl, hindex⟩
  · rw [(sameTable_step d hnone).handlers]
  · refine (registerInterruptSource_of_le d hs handler).2 i fun heq => hi ?_
    rw [hindex, heq]
  · show (irqInterruptHandler vector d).dxe.handlers i = _
    rw [irqInterruptHandler_dxe]
    rfl

/-- **The indices of a run** are those of its events. -/
theorem Watched.mem_accessed_run (l : List (Event H)) (i : ℕ) :
    i ∈ (Run.run step d l).dxe.accessed
      ↔ i ∈ d.dxe.accessed ∨ ∃ e ∈ l, e.index? = some i := by
  induction l generalizing d with
  | nil => simp
  | cons e l ih =>
    rw [Run.run_cons, ih, mem_accessed_step, or_assoc]
    simp

/-! ## The sources past the table -/

/-- The number of accesses so far, of the table and of the registers. -/
def Watched.touches : ℕ := d.dxe.accessed.length + d.mmio.length

theorem Watched.touches_mmioWrite32 (reg : Register) (value : UInt32) :
    (d.mmioWrite32 reg value).touches = d.touches + 1 := rfl

/-- A registration that passes the check reads the table. -/
theorem Watched.touches_registerInterruptSource {source : UInt32} (hs : ¬ source > nrIrqs)
    (handler : Option H) : d.touches < (registerInterruptSource source handler d).2.touches := by
  have hread : d.touches < (d.touch source).touches :=
    Nat.add_lt_add_right (Nat.lt_succ_self _) _
  unfold registerInterruptSource
  rw [if_neg hs]
  split
  · exact hread
  split
  · exact hread
  unfold enableInterruptSource
  rw [if_neg hs, touches_mmioWrite32]
  show d.dxe.accessed.length + d.mmio.length < d.dxe.accessed.length + 1 + 1 + d.mmio.length + 1
  omega

/-- What comes behind the check is done. -/
theorem Watched.touches_of_check {α : Type} {source : UInt32} (hs : ¬ source > nrIrqs)
    (unsupported done : α) {t : Watched H} (h : d.touches < t.touches) :
    d.touches < (if source > nrIrqs then (unsupported, d) else (done, t)).2.touches := by
  rw [if_neg hs]
  exact h

/-- **A call whose source passes the check touches the table or a register.** -/
theorem Watched.touches_step_of_le {e : Event H} {source : UInt32} (h : e.source? = some source)
    (hs : source ≤ nrIrqs) : d.touches < (d.step e).touches := by
  have hcheck : ¬ source > nrIrqs := UInt32.not_lt.mpr hs
  cases e with
  | call c =>
    cases c with
    | registerInterruptSource source handler =>
      cases h
      exact touches_registerInterruptSource d hcheck handler
    | enableInterruptSource source =>
      cases h
      exact touches_of_check d hcheck _ _ (Nat.lt_succ_self _)
    | disableInterruptSource source =>
      cases h
      exact touches_of_check d hcheck _ _ (Nat.lt_succ_self _)
  | getInterruptSourceState source shown =>
    cases h
    exact touches_of_check d hcheck _ _ (Nat.lt_succ_self _)
  | endOfInterrupt source =>
    cases h
    exact touches_of_check d hcheck _ _ (Nat.lt_succ_self _)
  | interrupt vector => cases h
  | handlerReturns => cases h
  | exitBootServicesEvent => cases h

/-- **A call whose source does not pass the check** is answered with
`EFI_UNSUPPORTED`, and leaves everything as it is. -/
theorem Watched.answer_of_gt {e : Event H} {source : UInt32} (h : e.source? = some source)
    (hs : source > nrIrqs) : d.answer e = (some .efiUnsupported, d) := by
  cases e with
  | call c =>
    cases c with
    | registerInterruptSource source handler =>
      cases h
      exact congrArg (Prod.map some id) (if_pos hs)
    | enableInterruptSource source =>
      cases h
      exact congrArg (Prod.map some id) (if_pos hs)
    | disableInterruptSource source =>
      cases h
      exact congrArg (Prod.map some id) (if_pos hs)
  | getInterruptSourceState source shown =>
    cases h
    exact congrArg (Prod.map (fun r : EfiStatus × Option Bool => some r.1) id) (if_pos hs)
  | endOfInterrupt source =>
    cases h
    exact congrArg (Prod.map some id) (if_pos hs)
  | interrupt vector => cases h
  | handlerReturns => cases h
  | exitBootServicesEvent => cases h

/-- **Every source past the table is rejected but the first.** -/
theorem rejectsPast_iff (e : Event H) : RejectsPast d e ↔ e.source? ≠ some nrIrqs := by
  constructor
  · intro h hsource
    have hlt := d.touches_step_of_le hsource (UInt32.le_refl _)
    rw [(h nrIrqs hsource (UInt32.le_refl _)).2] at hlt
    exact absurd hlt (Nat.lt_irrefl _)
  · intro hne source hsource hle
    have hgt : source > nrIrqs :=
      UInt32.lt_of_le_of_ne hle fun heq => hne (hsource.trans (congrArg some heq.symm))
    have hanswer := d.answer_of_gt hsource hgt
    have hstatus : (d.answer e).1 = some .efiUnsupported := congrArg Prod.fst hanswer
    refine ⟨?_, congrArg Prod.snd hanswer⟩
    rw [hstatus]
    exact nofun

end

/-! ## Runs -/

/-- The two parts of what is asked of an event, by what it touches. -/
theorem Event.within_iff (e : Event H) :
    e.Within ↔ (∀ i, e.index? = some i → i < nrIrqs.toNat) ∧ e.source? ≠ some nrIrqs := by
  constructor
  · intro h
    refine ⟨fun i hi => ?_, h.source⟩
    rcases e.index?_cases with hnone | ⟨source, handler, rfl, hs, hindex⟩ | ⟨vector, rfl, hindex⟩
    · exact absurd (hnone.symm.trans hi) nofun
    · have hlt : source < nrIrqs :=
        UInt32.lt_of_le_of_ne hs fun heq => h.source (congrArg some heq)
      rw [← Option.some.inj (hindex.symm.trans hi)]
      exact UInt32.lt_iff_toNat_lt.mp hlt
    · rw [← Option.some.inj (hindex.symm.trans hi)]
      exact UInt32.lt_iff_toNat_lt.mp (h.vector vector rfl)
  · rintro ⟨hindex, hsource⟩
    refine ⟨hsource, ?_⟩
    rintro v rfl
    exact UInt32.lt_iff_toNat_lt.mpr (hindex v.toNat rfl)

/-- **The table is kept to, and the sources past it are rejected, over a whole run**,
whatever is called and whichever vectors are shown, in any order: just when no call
names the number `NR_IRQS` itself and no interrupt shows a vector from it on. -/
theorem table_bounded_iff (memory : ℕ → Option H) (l : List (Event H)) :
    ((∀ i ∈ (Run.run Watched.step (.loaded memory) l).dxe.accessed, i < nrIrqs.toNat)
        ∧ Run.Along Watched.step RejectsPast (.loaded memory) l)
      ↔ ∀ e ∈ l, e.Within := by
  have hloaded : (Watched.loaded memory).dxe.accessed = [] := (sameTable_mmioWrites _ _).accessed
  have haccessed : (∀ i ∈ (Run.run Watched.step (.loaded memory) l).dxe.accessed, i < nrIrqs.toNat)
      ↔ ∀ e ∈ l, ∀ i, e.index? = some i → i < nrIrqs.toNat := by
    constructor
    · intro h e he i hi
      exact h i ((Watched.mem_accessed_run _ l i).mpr (Or.inr ⟨e, he, hi⟩))
    · intro h i hi
      rcases (Watched.mem_accessed_run _ l i).mp hi with hbefore | ⟨e, he, hindex⟩
      · rw [hloaded] at hbefore
        exact absurd hbefore List.not_mem_nil
      · exact h e he i hindex
  have hrejected : Run.Along Watched.step RejectsPast (.loaded memory) l
      ↔ ∀ e ∈ l, e.source? ≠ some nrIrqs :=
    (Run.along_congr_mem _ l fun d e _ => rejectsPast_iff d e).trans (Run.along_input_iff _ l)
  rw [haccessed, hrejected, ← forall₂_and]
  exact forall₂_congr fun e _ => e.within_iff.symm

/-- A handler is registered for source 332, which is `NR_IRQS`: the entry behind the
last one of the table is read and written. -/
theorem table_exceeded_last : ¬ ∀ (memory : ℕ → Option Unit) (l : List (Event Unit)),
    (∀ i ∈ (Run.run Watched.step (.loaded memory) l).dxe.accessed, i < nrIrqs.toNat)
      ∧ Run.Along Watched.step RejectsPast (.loaded memory) l := by
  intro h
  have hbounded := (h (fun _ => none) [.call (.registerInterruptSource 332 (some ()))]).1
  have hread := (Watched.mem_accessed_run (.loaded fun _ => none)
    [.call (.registerInterruptSource 332 (some ()))] 332).mpr
      (Or.inr ⟨_, List.mem_singleton_self _, rfl⟩)
  exact absurd (hbounded 332 hread) (by decide)

/-! ## The system with the library -/

section Library

variable {E : Type} (signals : E → UInt32 → List UInt32)

/-- The library's handler does not get to the table or to the masks. -/
theorem interruptsLibIrqHandler_dxe (s : IrqState E) :
    (interruptsLibIrqHandler signals s).2.dxe = s.dxe := by
  cases hentry : getInterruptHandlerEntry s.mHandlers (s.vicIrqVecPendRd 0) with
  | none =>
    rw [interruptsLibIrqHandler_none signals hentry]
    rfl
  | some entry =>
    rw [interruptsLibIrqHandler_some signals hentry]
    rfl

/-- Neither does any handler of the table. -/
theorem callTableHandler_dxe (handler : TableHandler E) (source : UInt32) (s : IrqState E) :
    (callTableHandler signals handler source s).2.dxe = s.dxe := by
  cases handler with
  | interruptsLibIrqHandler => exact interruptsLibIrqHandler_dxe signals s
  | driver handler =>
    show (callEndHandler signals handler source s).2.dxe = _
    rw [callEndHandler_eq]

theorem dispatch_dxe (vector : UInt32) (handler : Option (TableHandler E)) (s : IrqState E) :
    (dispatch signals vector handler s).2.dxe = s.dxe := by
  cases handler with
  | none => rfl
  | some handler =>
    have hdxe := callTableHandler_dxe signals handler vector s
    obtain ⟨o, t, hcall⟩ : ∃ o t, callTableHandler signals handler vector s = (o, t) := ⟨_, _, rfl⟩
    rw [hcall] at hdxe
    show ((callTableHandler signals handler vector >>= fun _ => emit .vecWr) s).2.dxe = _
    cases o with
    | none =>
      rw [Routine.bind_of_waits hcall]
      exact hdxe
    | some _ =>
      rw [Routine.bind_of_returns hcall]
      exact hdxe

/-- **An interrupt of the system** reads the table once, at its vector. -/
theorem irqInterruptHandler_dxe (s : IrqState E) :
    (irqInterruptHandler signals s).2.dxe = s.dxe.touch (s.vicIrqVecRd 0) := by
  let t : IrqState E := { s with
    vicIrqVecRd := fun n => s.vicIrqVecRd (n + 1)
    trace := s.trace ++ [.vecRd (s.vicIrqVecRd 0)] ++ [clearEvent (s.vicIrqVecRd 0)] }
  show ((readRegisteredInterruptHandlers (s.vicIrqVecRd 0)
    >>= dispatch signals (s.vicIrqVecRd 0)) t).2.dxe = _
  by_cases hv : s.vicIrqVecRd 0 < nrIrqs
  · have hread : readRegisteredInterruptHandlers (s.vicIrqVecRd 0) t
        = (some (s.dxe.handlers (s.vicIrqVecRd 0).toNat),
          { t with dxe := s.dxe.touch (s.vicIrqVecRd 0) }) := by
      unfold readRegisteredInterruptHandlers
      exact Prod.ext (if_pos hv) rfl
    rw [Routine.bind_of_returns hread]
    exact dispatch_dxe signals _ _ _
  · have hread : readRegisteredInterruptHandlers (s.vicIrqVecRd 0) t
        = (none, { t with dxe := s.dxe.touch (s.vicIrqVecRd 0) }) := by
      unfold readRegisteredInterruptHandlers
      exact Prod.ext (if_neg hv) rfl
    rw [Routine.bind_of_waits hread]

/-- What a step of the system is to the driver. -/
def IrqCall.events (s : IrqState E) : IrqCall E → List (Event (TableHandler E))
  | .registerIntHandler vector _ pool =>
    if pool then [.call (.registerInterruptSource vector (some .interruptsLibIrqHandler))] else []
  | .registerInterruptSource source handler =>
    [.call (.registerInterruptSource source (handler.map .driver))]
  | .registerTimerNotify _ => []
  | .interrupt => [.interrupt (s.vicIrqVecRd 0)]

/-- And a run of it. -/
def runEvents (s : IrqState E) : List (IrqCall E) → List (Event (TableHandler E))
  | [] => []
  | call :: calls => call.events s ++ runEvents (irqStep signals s call) calls

/-- **A step of the system** does to the driver what its events do. -/
theorem irqStep_dxe {s : IrqState E} {d : Watched (TableHandler E)} (hd : d.dxe = s.dxe)
    (call : IrqCall E) :
    (Run.run Watched.step d (call.events s)).dxe = (irqStep signals s call).dxe := by
  cases call with
  | registerIntHandler vector handler pool =>
    cases pool with
    | false => exact hd
    | true =>
      have hcall := d.answer_call
        (.registerInterruptSource vector (some .interruptsLibIrqHandler))
      refine hcall.2.trans ?_
      rw [hd]
      rfl
  | registerInterruptSource source handler =>
    refine (d.answer_call (.registerInterruptSource source (handler.map .driver))).2.trans ?_
    rw [hd]
    rfl
  | registerTimerNotify set => exact hd
  | interrupt =>
    refine (d.irqInterruptHandler_dxe _).trans ?_
    rw [hd]
    exact (irqInterruptHandler_dxe signals s).symm

theorem irqRun_dxe {s : IrqState E} {d : Watched (TableHandler E)} (hd : d.dxe = s.dxe)
    (calls : List (IrqCall E)) :
    (Run.run Watched.step d (runEvents signals s calls)).dxe
      = (Run.run (irqStep signals) s calls).dxe := by
  induction calls generalizing s d with
  | nil => exact hd
  | cons call calls ih =>
    show (Run.run Watched.step d (call.events s ++ runEvents signals _ calls)).dxe = _
    rw [Run.run_append]
    exact ih (irqStep_dxe signals hd call)

/-- **The table in a run of the system** is accessed at the indices of its events. -/
theorem mem_accessed_irqRun (s : IrqState E) (calls : List (IrqCall E)) (i : ℕ) :
    i ∈ (Run.run (irqStep signals) s calls).dxe.accessed
      ↔ i ∈ s.dxe.accessed ∨ ∃ e ∈ runEvents signals s calls, e.index? = some i := by
  rw [← irqRun_dxe signals (d := ⟨s.dxe, [], 0⟩) rfl calls]
  exact Watched.mem_accessed_run _ _ i

end Library

end InterruptDxe
