import HtcLeo.Interrupt.InterruptDxe
import HtcLeo.Lib.Routine

/-!
# Serving an interrupt

Reading `VIC_IRQ_VEC_RD` acknowledges an interrupt and says which one it is;
writing `VIC_IRQ_VEC_WR` ends it. `IrqInterruptHandler` does both, and calls
the handler of the vector in between. What it calls is either a handler that
a driver registered for itself, or the one handler `InterruptsLib` registers
for all its clients, which looks the client up in a list of its own.

The library's handler does not go by the vector it is called with. It reads
the vector register again, serves whatever the pending register shows after
that, and ends the interrupt itself; the handler of the timer ends it, too.
`irq_served_once_iff` says which interrupts are served by the handler of
their vector and ended once: those whose vector has no handler, or one that a
driver registered for itself and that does not end the interrupt.
-/

namespace InterruptDxe

/-! ## The handlers -/

/-- A handler at the end of a dispatch: `TimerInterruptHandler`, or one of the
others, of which nothing is known but the sources it passes to
`EndOfInterrupt`. -/
inductive EndHandler (E : Type) where
  | timerInterruptHandler
  | other (handler : E)
  deriving DecidableEq

/-- What `gRegisteredInterruptHandlers` holds: the handler of `InterruptsLib`,
or one that a driver registered for itself. -/
inductive TableHandler (E : Type) where
  | interruptsLibIrqHandler
  | driver (handler : EndHandler E)

/-- `HANDLER_ENTRY`, with the handler and its argument in one. -/
structure HandlerEntry (E : Type) where
  vector : UInt32
  handler : E

/-- The registers that clear an interrupt. -/
inductive IntClear where
  | vicIntClear0
  | vicIntClear1
  deriving DecidableEq

/-- What can be seen of the serving of an interrupt. -/
inductive IrqEvent (E : Type) where
  | vecRd (vector : UInt32)
  | vecPendRd (vector : UInt32)
  | intClear (reg : IntClear) (bit : UInt32)
  | timerNotify
  | runs (handler : EndHandler E)
  | vecWr
  deriving DecidableEq

/-- **The system**: the driver, the list `mHandlers` of the library, whether
the timer has a notify function, what the two vector registers are going to
show, and what has happened. -/
structure IrqState (E : Type) where
  dxe : State (TableHandler E)
  mHandlers : List (HandlerEntry E)
  mTimerNotifyFunction : Bool
  vicIrqVecRd : ℕ → UInt32
  vicIrqVecPendRd : ℕ → UInt32
  trace : List (IrqEvent E)

/-- The system before any registration. -/
def IrqState.init {E : Type} (vicIrqVecRd vicIrqVecPendRd : ℕ → UInt32) : IrqState E where
  dxe := State.init
  mHandlers := []
  mTimerNotifyFunction := false
  vicIrqVecRd := vicIrqVecRd
  vicIrqVecPendRd := vicIrqVecPendRd
  trace := []

variable {E : Type}

/-- Something happens. -/
def emit (event : IrqEvent E) : Routine (IrqState E) Unit :=
  .modify fun s => { s with trace := s.trace ++ [event] }

/-- `MmioRead32(VIC_IRQ_VEC_RD)`. -/
def readVecRd : Routine (IrqState E) UInt32 := fun s =>
  (some (s.vicIrqVecRd 0), { s with
    vicIrqVecRd := fun n => s.vicIrqVecRd (n + 1)
    trace := s.trace ++ [.vecRd (s.vicIrqVecRd 0)] })

/-- `MmioRead32(VIC_IRQ_VEC_PEND_RD)`. -/
def readVecPendRd : Routine (IrqState E) UInt32 := fun s =>
  (some (s.vicIrqVecPendRd 0), { s with
    vicIrqVecPendRd := fun n => s.vicIrqVecPendRd (n + 1)
    trace := s.trace ++ [.vecPendRd (s.vicIrqVecPendRd 0)] })

/-- The write that clears an interrupt. -/
def clearInt (vector : UInt32) : Routine (IrqState E) Unit :=
  emit (.intClear (if vector > 31 then .vicIntClear1 else .vicIntClear0) (Word.one vector))

/-- `EndOfInterrupt`. -/
def endOfInterrupt (source : UInt32) : Routine (IrqState E) EfiStatus :=
  if source > nrIrqs then return .efiUnsupported
  else do
    emit .vecWr
    return .efiSuccess

/-- `TimerInterruptHandler`. -/
def timerInterruptHandler (source : UInt32) : Routine (IrqState E) Unit := do
  emit (.runs .timerInterruptHandler)
  if ← .look IrqState.mTimerNotifyFunction then
    emit .timerNotify
  let _ ← endOfInterrupt source

section Serving

variable (signals : E → UInt32 → List UInt32)

/-- The calls of `EndOfInterrupt` of a handler, one after the other. -/
def endsOfInterrupt : List UInt32 → Routine (IrqState E) Unit
  | [] => pure ()
  | source :: sources => do
    let _ ← endOfInterrupt source
    endsOfInterrupt sources

/-- A handler at the end of a dispatch is called for a source. -/
def callEndHandler (handler : EndHandler E) (source : UInt32) : Routine (IrqState E) Unit :=
  match handler with
  | .timerInterruptHandler => timerInterruptHandler source
  | .other e => do
    emit (.runs (.other e))
    endsOfInterrupt (signals e source)

/-- `GetInterruptHandlerEntry`. -/
def getInterruptHandlerEntry (mHandlers : List (HandlerEntry E)) (vector : UInt32) :
    Option (HandlerEntry E) :=
  mHandlers.find? fun entry => entry.vector = vector

/-- `InterruptsLibIrqHandler`. Both reads overwrite the source it is called
with. The call through a `NULL` entry does not come back: the assertion before
it only prints. -/
def interruptsLibIrqHandler : Routine (IrqState E) Unit := do
  let _ ← readVecRd
  let source ← readVecPendRd
  clearInt source
  match getInterruptHandlerEntry (← .look IrqState.mHandlers) source with
  | some entry =>
    callEndHandler signals (.other entry.handler) source
    emit .vecWr
  | none => .wait

/-- A handler of the table is called for a source. -/
def callTableHandler (handler : TableHandler E) (source : UInt32) : Routine (IrqState E) Unit :=
  match handler with
  | .interruptsLibIrqHandler => interruptsLibIrqHandler signals
  | .driver handler => callEndHandler signals handler source

/-- The read of `gRegisteredInterruptHandlers[Source]`. The call of what is read past
the table does not come back. -/
def readRegisteredInterruptHandlers (source : UInt32) :
    Routine (IrqState E) (Option (TableHandler E)) := fun s =>
  (s.dxe.handlerRead source, { s with dxe := s.dxe.touch source })

/-- The end of `IrqInterruptHandler`: the call of the handler that was read, and
the end of the interrupt. -/
def dispatch (vector : UInt32) (interruptHandler : Option (TableHandler E)) :
    Routine (IrqState E) Unit := do
  match interruptHandler with
  | some handler => callTableHandler signals handler vector
  | none => pure ()
  emit .vecWr

/-- `IrqInterruptHandler`. -/
def irqInterruptHandler : Routine (IrqState E) Unit := do
  let vector ← readVecRd
  clearInt vector
  dispatch signals vector (← readRegisteredInterruptHandlers vector)

/-- `register_int_handler`, on whether `AllocateZeroPool` returns an entry. The
assertion that there is no entry yet only prints, and the status of the
registration is not looked at. -/
def registerIntHandler (vector : UInt32) (handler : E) (pool : Bool) (s : IrqState E) :
    IrqState E :=
  if !pool then s
  else { s with
    mHandlers := s.mHandlers ++ [⟨vector, handler⟩]
    dxe := (registerInterruptSource vector (some .interruptsLibIrqHandler) s.dxe).2 }

/-- What happens to the system. -/
inductive IrqCall (E : Type) where
  | registerIntHandler (vector : UInt32) (handler : E) (pool : Bool)
  | registerInterruptSource (source : UInt32) (handler : Option (EndHandler E))
  | registerTimerNotify (set : Bool)
  | interrupt

/-- The system after an event. -/
def irqStep (s : IrqState E) : IrqCall E → IrqState E
  | .registerIntHandler vector handler pool => registerIntHandler vector handler pool s
  | .registerInterruptSource source handler =>
    { s with dxe := (registerInterruptSource source (handler.map .driver) s.dxe).2 }
  | .registerTimerNotify set => { s with mTimerNotifyFunction := set }
  | .interrupt => (irqInterruptHandler signals s).2

/-! ## What one interrupt does -/

/-- **The end handler registered for a vector**: the one in the table, and
behind the library's handler the one in its list. -/
def registeredHandler (s : IrqState E) (vector : UInt32) : Option (EndHandler E) :=
  match s.dxe.handlers vector.toNat with
  | none => none
  | some (.driver handler) => some handler
  | some .interruptsLibIrqHandler =>
    (getInterruptHandlerEntry s.mHandlers vector).map fun entry => .other entry.handler

/-- What one interrupt adds to what has happened. -/
def servedEvents (s : IrqState E) : List (IrqEvent E) :=
  (irqInterruptHandler signals { s with trace := [] }).2.trace

/-- The end handler that runs, if one does. -/
def IrqEvent.handler? : IrqEvent E → Option (EndHandler E)
  | .runs handler => some handler
  | _ => none

/-- The event ends the interrupt. -/
def IrqEvent.isVecWr : IrqEvent E → Bool
  | .vecWr => true
  | _ => false

/-- The end handlers that ran. -/
def handlersRun (events : List (IrqEvent E)) : List (EndHandler E) :=
  events.filterMap IrqEvent.handler?

/-- How often `VIC_IRQ_VEC_WR` was written. -/
def vecWrites (events : List (IrqEvent E)) : ℕ := events.countP IrqEvent.isVecWr

/-- **The interrupt is served by the handler of its vector, and ended once.** -/
def ServedOnce (s : IrqState E) : Prop :=
  handlersRun (servedEvents signals s) = (registeredHandler s (s.vicIrqVecRd 0)).toList
    ∧ vecWrites (servedEvents signals s) = 1

/-- The sources a handler passes to `EndOfInterrupt` when it is called for a
source. -/
def endsSources (handler : EndHandler E) (source : UInt32) : List UInt32 :=
  match handler with
  | .timerInterruptHandler => [source]
  | .other e => signals e source

/-- **The vector is one of the table's and has no handler**, or one that a
driver registered for itself and that ends no interrupt. -/
def EndsNothing (s : IrqState E) (vector : UInt32) : Prop :=
  vector < nrIrqs ∧ match s.dxe.handlers vector.toNat with
    | none => True
    | some .interruptsLibIrqHandler => False
    | some (.driver handler) => ∀ source ∈ endsSources signals handler vector, nrIrqs < source

/-! ## The events of a call -/

/-- The event of a write that clears an interrupt. -/
def clearEvent (vector : UInt32) : IrqEvent E :=
  .intClear (if vector > 31 then .vicIntClear1 else .vicIntClear0) (Word.one vector)

/-- The events of a call of `EndOfInterrupt`. -/
def endEvents (source : UInt32) : List (IrqEvent E) :=
  if source ≤ nrIrqs then [.vecWr] else []

/-- The events of a call of an end handler. -/
def endHandlerEvents (mTimerNotifyFunction : Bool) (handler : EndHandler E) (source : UInt32) :
    List (IrqEvent E) :=
  match handler with
  | .timerInterruptHandler =>
    .runs .timerInterruptHandler :: (if mTimerNotifyFunction then [.timerNotify] else [])
      ++ endEvents source
  | .other e => .runs (.other e) :: (signals e source).flatMap endEvents

/-- `EndOfInterrupt` adds its events to what has happened. -/
theorem endOfInterrupt_eq (source : UInt32) (s : IrqState E) :
    ∃ status, endOfInterrupt source s
      = (some status, { s with trace := s.trace ++ endEvents source }) := by
  unfold endOfInterrupt endEvents
  by_cases hs : source ≤ nrIrqs
  · rw [if_neg (by simpa using hs), if_pos hs]
    exact ⟨.efiSuccess, rfl⟩
  · rw [if_pos (by simpa using hs), if_neg hs, List.append_nil]
    exact ⟨.efiUnsupported, rfl⟩

theorem endsOfInterrupt_eq (sources : List UInt32) (s : IrqState E) :
    endsOfInterrupt sources s
      = (some (), { s with trace := s.trace ++ sources.flatMap endEvents }) := by
  induction sources generalizing s with
  | nil => simp [endsOfInterrupt]
  | cons source sources ih =>
    obtain ⟨status, hend⟩ := endOfInterrupt_eq source s
    unfold endsOfInterrupt
    rw [Routine.bind_of_returns hend, ih, List.flatMap_cons, List.append_assoc]

/-- **A call of an end handler** returns, and adds its events to what has
happened. -/
theorem callEndHandler_eq (handler : EndHandler E) (source : UInt32) (s : IrqState E) :
    callEndHandler signals handler source s
      = (some (), { s with
          trace := s.trace
            ++ endHandlerEvents signals s.mTimerNotifyFunction handler source }) := by
  cases handler with
  | other e =>
    show endsOfInterrupt (signals e source) { s with trace := s.trace ++ [.runs (.other e)] } = _
    rw [endsOfInterrupt_eq, List.append_assoc]
    rfl
  | timerInterruptHandler =>
    have hrest : ∀ s : IrqState E, ((do let _ ← endOfInterrupt source) : Routine _ Unit) s
        = (some (), { s with trace := s.trace ++ endEvents source }) := by
      intro s
      obtain ⟨status, hend⟩ := endOfInterrupt_eq source s
      rw [Routine.bind_of_returns hend]
      rfl
    unfold callEndHandler timerInterruptHandler endHandlerEvents
    cases hnotify : s.mTimerNotifyFunction with
    | false =>
      have hcall := hrest { s with trace := s.trace ++ [.runs .timerInterruptHandler] }
      simpa [emit, hnotify] using hcall
    | true =>
      have hcall := hrest { s with
        trace := s.trace ++ [.runs .timerInterruptHandler, .timerNotify] }
      simpa [emit, hnotify] using hcall

/-- A call runs its handler, and no other. -/
theorem handlersRun_endHandlerEvents (notify : Bool) (handler : EndHandler E) (source : UInt32) :
    handlersRun (endHandlerEvents signals notify handler source) = [handler] := by
  have hend : ∀ source, handlersRun (endEvents source : List (IrqEvent E)) = [] := by
    intro source
    unfold endEvents
    split <;> rfl
  have hends : ∀ sources : List UInt32,
      handlersRun (sources.flatMap endEvents : List (IrqEvent E)) = [] := by
    intro sources
    unfold handlersRun
    rw [List.filterMap_flatMap]
    exact List.flatMap_eq_nil_iff.mpr fun source _ => hend source
  cases handler with
  | other e => exact congrArg (EndHandler.other e :: ·) (hends (signals e source))
  | timerInterruptHandler =>
    cases notify <;> exact congrArg (EndHandler.timerInterruptHandler :: ·) (hend source)

/-- A call ends the interrupts of its range that its handler signals. -/
theorem vecWrites_endHandlerEvents (notify : Bool) (handler : EndHandler E) (source : UInt32) :
    vecWrites (endHandlerEvents signals notify handler source)
      = (endsSources signals handler source).countP fun t => decide (t ≤ nrIrqs) := by
  have hend : ∀ source, vecWrites (endEvents source : List (IrqEvent E))
      = if source ≤ nrIrqs then 1 else 0 := by
    intro source
    unfold endEvents
    split <;> rfl
  have hends : ∀ sources : List UInt32, vecWrites (sources.flatMap endEvents : List (IrqEvent E))
      = sources.countP fun t => decide (t ≤ nrIrqs) := by
    intro sources
    induction sources with
    | nil => rfl
    | cons source sources ih =>
      unfold vecWrites at ih hend ⊢
      rw [List.flatMap_cons, List.countP_append, ih, hend, List.countP_cons, Nat.add_comm]
      simp
  cases handler with
  | other e => exact hends (signals e source)
  | timerInterruptHandler =>
    have hone := hends [source]
    rw [List.flatMap_singleton] at hone
    cases notify <;> exact hone

/-! ## The handler of the library -/

/-- The system once the library's handler has read both registers and cleared
the interrupt the second one shows. -/
def pended (s : IrqState E) : IrqState E :=
  { s with
    vicIrqVecRd := fun n => s.vicIrqVecRd (n + 1)
    vicIrqVecPendRd := fun n => s.vicIrqVecPendRd (n + 1)
    trace := s.trace ++ [.vecRd (s.vicIrqVecRd 0)] ++ [.vecPendRd (s.vicIrqVecPendRd 0)]
      ++ [clearEvent (s.vicIrqVecPendRd 0)] }

/-- Without a client for the pending vector it does not come back. -/
theorem interruptsLibIrqHandler_none {s : IrqState E}
    (hentry : getInterruptHandlerEntry s.mHandlers (s.vicIrqVecPendRd 0) = none) :
    interruptsLibIrqHandler signals s = (none, pended s) := by
  show (match getInterruptHandlerEntry s.mHandlers (s.vicIrqVecPendRd 0) with
    | some entry => _
    | none => Routine.wait) (pended s) = _
  rw [hentry]
  rfl

/-- With a client for it the client runs, and the interrupt is ended. -/
theorem interruptsLibIrqHandler_some {s : IrqState E} {entry : HandlerEntry E}
    (hentry : getInterruptHandlerEntry s.mHandlers (s.vicIrqVecPendRd 0) = some entry) :
    interruptsLibIrqHandler signals s
      = emit .vecWr { pended s with
          trace := (pended s).trace ++ endHandlerEvents signals (pended s).mTimerNotifyFunction
            (.other entry.handler) (s.vicIrqVecPendRd 0) } := by
  have hclient := callEndHandler_eq signals (.other entry.handler) (s.vicIrqVecPendRd 0) (pended s)
  show (match getInterruptHandlerEntry s.mHandlers (s.vicIrqVecPendRd 0) with
    | some entry => do
      callEndHandler signals (.other entry.handler) (s.vicIrqVecPendRd 0)
      emit .vecWr
    | none => Routine.wait) (pended s) = _
  rw [hentry]
  exact Routine.bind_of_returns hclient

/-! ## The events of an interrupt -/

/-- The system once an interrupt is acknowledged and cleared. -/
def acknowledged (s : IrqState E) : IrqState E :=
  { s with
    vicIrqVecRd := fun n => s.vicIrqVecRd (n + 1)
    trace := [.vecRd (s.vicIrqVecRd 0), clearEvent (s.vicIrqVecRd 0)] }

/-- The system once the table was read for the vector, too. -/
def looked (s : IrqState E) : IrqState E :=
  { acknowledged s with dxe := s.dxe.touch (s.vicIrqVecRd 0) }

theorem servedEvents_eq (s : IrqState E) :
    servedEvents signals s
      = ((readRegisteredInterruptHandlers (s.vicIrqVecRd 0)
          >>= dispatch signals (s.vicIrqVecRd 0)) (acknowledged s)).2.trace := rfl

/-- A vector past the table: the interrupt is not ended. -/
theorem servedEvents_past {s : IrqState E} (hv : ¬ s.vicIrqVecRd 0 < nrIrqs) :
    servedEvents signals s = [.vecRd (s.vicIrqVecRd 0), clearEvent (s.vicIrqVecRd 0)] := by
  have hread : readRegisteredInterruptHandlers (s.vicIrqVecRd 0) (acknowledged s)
      = (none, looked s) := by
    unfold readRegisteredInterruptHandlers
    exact Prod.ext (if_neg hv) rfl
  rw [servedEvents_eq, Routine.bind_of_waits hread]
  rfl

/-- A vector of the table: its handler is dispatched. -/
theorem servedEvents_of_lt {s : IrqState E} (hv : s.vicIrqVecRd 0 < nrIrqs) :
    servedEvents signals s
      = (dispatch signals (s.vicIrqVecRd 0) (s.dxe.handlers (s.vicIrqVecRd 0).toNat)
          (looked s)).2.trace := by
  have hread : readRegisteredInterruptHandlers (s.vicIrqVecRd 0) (acknowledged s)
      = (some (s.dxe.handlers (s.vicIrqVecRd 0).toNat), looked s) := by
    unfold readRegisteredInterruptHandlers
    exact Prod.ext (if_pos hv) rfl
  rw [servedEvents_eq, Routine.bind_of_returns hread]

/-- A vector of the table without a handler: the interrupt is ended once. -/
theorem servedEvents_none {s : IrqState E} (hv : s.vicIrqVecRd 0 < nrIrqs)
    (h : s.dxe.handlers (s.vicIrqVecRd 0).toNat = none) :
    servedEvents signals s
      = [.vecRd (s.vicIrqVecRd 0), clearEvent (s.vicIrqVecRd 0)] ++ [.vecWr] := by
  rw [servedEvents_of_lt signals hv, h]
  rfl

/-- A handler that a driver registered for itself: what it does, and the end of
the interrupt. -/
theorem servedEvents_driver {s : IrqState E} (hv : s.vicIrqVecRd 0 < nrIrqs)
    {handler : EndHandler E}
    (h : s.dxe.handlers (s.vicIrqVecRd 0).toNat = some (.driver handler)) :
    servedEvents signals s
      = [.vecRd (s.vicIrqVecRd 0), clearEvent (s.vicIrqVecRd 0)]
        ++ endHandlerEvents signals s.mTimerNotifyFunction handler (s.vicIrqVecRd 0)
        ++ [.vecWr] := by
  have hcall := callEndHandler_eq signals handler (s.vicIrqVecRd 0) (looked s)
  have hdispatch : dispatch signals (s.vicIrqVecRd 0) (some (.driver handler)) (looked s)
      = emit .vecWr { looked s with
          trace := (looked s).trace ++ endHandlerEvents signals (looked s).mTimerNotifyFunction
            handler (s.vicIrqVecRd 0) } := Routine.bind_of_returns hcall
  rw [servedEvents_of_lt signals hv, h, hdispatch]
  rfl

/-- The system once the library's handler has read both registers and cleared
the interrupt the second one shows. -/
def reread (s : IrqState E) : IrqState E :=
  { looked s with
    vicIrqVecRd := fun n => s.vicIrqVecRd (n + 1 + 1)
    vicIrqVecPendRd := fun n => s.vicIrqVecPendRd (n + 1)
    trace := [.vecRd (s.vicIrqVecRd 0), clearEvent (s.vicIrqVecRd 0), .vecRd (s.vicIrqVecRd 1),
      .vecPendRd (s.vicIrqVecPendRd 0), clearEvent (s.vicIrqVecPendRd 0)] }

/-- The library's handler without a client for the pending vector: it does not
come back, and the interrupt is not ended. -/
theorem servedEvents_library_none {s : IrqState E} (hv : s.vicIrqVecRd 0 < nrIrqs)
    (h : s.dxe.handlers (s.vicIrqVecRd 0).toNat = some .interruptsLibIrqHandler)
    (hentry : getInterruptHandlerEntry s.mHandlers (s.vicIrqVecPendRd 0) = none) :
    servedEvents signals s = (reread s).trace := by
  have hcall : interruptsLibIrqHandler signals (looked s) = (none, reread s) :=
    interruptsLibIrqHandler_none signals hentry
  have hdispatch : dispatch signals (s.vicIrqVecRd 0) (some .interruptsLibIrqHandler) (looked s)
      = (none, reread s) := Routine.bind_of_waits hcall
  rw [servedEvents_of_lt signals hv, h, hdispatch]

/-- The library's handler with a client for the pending vector: what the client
does, the end of the interrupt, and its end by the driver. -/
theorem servedEvents_library_some {s : IrqState E} (hv : s.vicIrqVecRd 0 < nrIrqs)
    (h : s.dxe.handlers (s.vicIrqVecRd 0).toNat = some .interruptsLibIrqHandler)
    {entry : HandlerEntry E}
    (hentry : getInterruptHandlerEntry s.mHandlers (s.vicIrqVecPendRd 0) = some entry) :
    servedEvents signals s
      = (reread s).trace
        ++ endHandlerEvents signals s.mTimerNotifyFunction (.other entry.handler)
          (s.vicIrqVecPendRd 0)
        ++ [.vecWr] ++ [.vecWr] := by
  have hcall : interruptsLibIrqHandler signals (looked s)
      = emit .vecWr { reread s with
          trace := (reread s).trace ++ endHandlerEvents signals (reread s).mTimerNotifyFunction
            (.other entry.handler) (s.vicIrqVecPendRd 0) } :=
    interruptsLibIrqHandler_some signals hentry
  have hdispatch : dispatch signals (s.vicIrqVecRd 0) (some .interruptsLibIrqHandler) (looked s)
      = emit .vecWr { reread s with
          trace := (reread s).trace ++ endHandlerEvents signals (reread s).mTimerNotifyFunction
            (.other entry.handler) (s.vicIrqVecPendRd 0) ++ [.vecWr] } :=
    Routine.bind_of_returns hcall
  rw [servedEvents_of_lt signals hv, h, hdispatch]
  rfl

/-! ## Which interrupts are served once -/

theorem vecWrites_append (events events' : List (IrqEvent E)) :
    vecWrites (events ++ events') = vecWrites events + vecWrites events' :=
  List.countP_append

theorem handlersRun_append (events events' : List (IrqEvent E)) :
    handlersRun (events ++ events') = handlersRun events ++ handlersRun events' :=
  List.filterMap_append

/-- A driver's own handler: the interrupt is ended once more than the handler ends
it. -/
theorem vecWrites_driver {s : IrqState E} (hv : s.vicIrqVecRd 0 < nrIrqs)
    {handler : EndHandler E}
    (h : s.dxe.handlers (s.vicIrqVecRd 0).toNat = some (.driver handler)) :
    vecWrites (servedEvents signals s)
      = ((endsSources signals handler (s.vicIrqVecRd 0)).countP fun t => decide (t ≤ nrIrqs))
        + 1 := by
  have hread : vecWrites [.vecRd (s.vicIrqVecRd 0), (clearEvent (s.vicIrqVecRd 0) : IrqEvent E)]
      = 0 := rfl
  rw [servedEvents_driver signals hv h, vecWrites_append, vecWrites_append,
    vecWrites_endHandlerEvents, hread, Nat.zero_add]
  rfl

/-- The library's handler: the interrupt is never ended exactly once. -/
theorem vecWrites_library_ne_one {s : IrqState E} (hv : s.vicIrqVecRd 0 < nrIrqs)
    (h : s.dxe.handlers (s.vicIrqVecRd 0).toNat = some .interruptsLibIrqHandler) :
    vecWrites (servedEvents signals s) ≠ 1 := by
  have hread : vecWrites (reread s).trace = 0 := rfl
  cases hentry : getInterruptHandlerEntry s.mHandlers (s.vicIrqVecPendRd 0) with
  | none =>
    rw [servedEvents_library_none signals hv h hentry, hread]
    exact Nat.zero_ne_one
  | some entry =>
    have hone : vecWrites [(.vecWr : IrqEvent E)] = 1 := rfl
    rw [servedEvents_library_some signals hv h hentry, vecWrites_append, vecWrites_append,
      vecWrites_append, hone]
    omega

/-- **An interrupt is served by the handler of its vector and ended once exactly
when** its vector is one of the table's and has no handler there, or one that a
driver registered for itself and that ends no interrupt. -/
theorem servedOnce_iff (s : IrqState E) :
    ServedOnce signals s ↔ EndsNothing signals s (s.vicIrqVecRd 0) := by
  unfold ServedOnce EndsNothing
  by_cases hv : s.vicIrqVecRd 0 < nrIrqs
  · rw [and_iff_right hv]
    cases h : s.dxe.handlers (s.vicIrqVecRd 0).toNat with
    | none =>
      unfold registeredHandler
      rw [servedEvents_none signals hv h, h]
      exact ⟨fun _ => trivial, fun _ => ⟨rfl, rfl⟩⟩
    | some handler =>
      cases handler with
      | driver handler =>
        have hrun : handlersRun (servedEvents signals s) = [handler] := by
          rw [servedEvents_driver signals hv h, handlersRun_append, handlersRun_append,
            handlersRun_endHandlerEvents]
          rfl
        have hregistered : registeredHandler s (s.vicIrqVecRd 0) = some handler := by
          unfold registeredHandler
          rw [h]
        rw [hrun, hregistered, vecWrites_driver signals hv h, Nat.add_eq_right,
          List.countP_eq_zero]
        simp
      | interruptsLibIrqHandler =>
        exact ⟨fun hserved => vecWrites_library_ne_one signals hv h hserved.2, False.elim⟩
  · refine ⟨fun hserved => ?_, fun hends => absurd hends.1 hv⟩
    rw [servedEvents_past signals hv] at hserved
    exact absurd hserved.2 Nat.zero_ne_one

/-- **When every interrupt of a run is served by the handler of its vector and
ended once**: for whatever the vector registers show, and after whatever
registrations, exactly when the vector of each is one of the table's and has no
handler there, or one that a driver registered for itself and that ends no
interrupt. -/
theorem irq_served_once_iff (vicIrqVecRd vicIrqVecPendRd : ℕ → UInt32)
    (calls : List (IrqCall E)) :
    Run.Along (irqStep signals) (fun s call => call = .interrupt → ServedOnce signals s)
        (IrqState.init vicIrqVecRd vicIrqVecPendRd) calls
      ↔ Run.Along (irqStep signals)
        (fun s call => call = .interrupt → EndsNothing signals s (s.vicIrqVecRd 0))
        (IrqState.init vicIrqVecRd vicIrqVecPendRd) calls :=
  Run.along_congr_mem _ calls fun s _ _ => imp_congr_right fun _ => servedOnce_iff signals s

end Serving

/-- The library serves another vector than the one that was acknowledged:
`INT_ARM11_PM` (32 + 9) has a client, the pending register shows `INT_UART1DM_IRQ`
(32 + 12), and its client runs instead. Both the library and the driver end the
interrupt. -/
theorem irq_served_by_another :
    let calls : List (IrqCall Bool) :=
      [.registerIntHandler 41 true true, .registerIntHandler 44 false true, .interrupt]
    let s := Run.run (irqStep fun _ _ => [])
      (IrqState.init (fun _ => 41) (fun _ => 44)) (calls.take 2)
    registeredHandler s (s.vicIrqVecRd 0) = some (.other true)
      ∧ handlersRun (servedEvents (fun _ _ => []) s) = [.other false]
      ∧ vecWrites (servedEvents (fun _ _ => []) s) = 2
      ∧ ¬ Run.Along (irqStep fun _ _ => [])
        (fun s call => call = .interrupt → ServedOnce (fun _ _ => []) s)
        (IrqState.init (fun _ => 41) (fun _ => 44)) calls := by
  refine ⟨by decide, by decide, by decide, fun hserved => ?_⟩
  have hinterrupt := hserved.2.2.1 rfl
  exact absurd hinterrupt.2 (by decide)

end InterruptDxe
