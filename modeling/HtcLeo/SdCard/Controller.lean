import HtcLeo.Lib.Buffer
import HtcLeo.Lib.Routine

/-!
# The SD card controller

The registers of the MCI block the SD driver reads and writes, with a card
behind them. What the device does is a script: `ticks` lists what successive
reads of `MCI_STATUS` show, `responses` what the response registers hold
after successive commands. A status word of the script gives the flags as
they stand at that read, and the data errors raised since the last one.

The four data error bits are *sticky*: once raised they show in every later
status word until they are written to `MCI_CLEAR`. They are the only part of
the controller that one read leaves to the next, and `Controller.errors` is
where they are kept.
-/

namespace SdCardDxe

/-! ## Masks -/

def mciStatusCmdCrcFail : UInt32 := 0x00000001
def mciStatusDataCrcFail : UInt32 := 0x00000002
def mciStatusCmdTimeout : UInt32 := 0x00000004
def mciStatusDataTimeout : UInt32 := 0x00000008
def mciStatusRxOverrun : UInt32 := 0x00000020
def mciStatusCmdResponseEnd : UInt32 := 0x00000040
def mciStatusCmdSent : UInt32 := 0x00000080
def mciStatusDataend : UInt32 := 0x00000100
def mciStatusStartBitErr : UInt32 := 0x00000200
def mciStatusDataBlkEnd : UInt32 := 0x00000400
def mciStatusRxactive : UInt32 := 0x00002000
def mciStatusRxdataAvlbl : UInt32 := 0x00200000

def mciClearCmdCrcFailClr : UInt32 := 0x00000001
def mciClearDataCrcFailClr : UInt32 := 0x00000002
def mciClearCmdTimoutClr : UInt32 := 0x00000004
def mciClearDataTimeoutClr : UInt32 := 0x00000008
def mciClearRxOverrunClr : UInt32 := 0x00000020
def mciClearCmdRespEndClt : UInt32 := 0x00000040
def mciClearCmdSentClr : UInt32 := 0x00000080
def mciClearDataEndClr : UInt32 := 0x00000100
def mciClearStartBitErrClr : UInt32 := 0x00000200
def mciClearDataBlkEndClr : UInt32 := 0x00000400

def mciCmdCmdIndex : UInt16 := 0x003f
def mciCmdResponse : UInt16 := 0x0040
def mciCmdInterrupt : UInt16 := 0x0100
def mciCmdEnable : UInt16 := 0x0400

def mciDataCtlEnable : UInt32 := 0x00000001
def mciDataCtlDirection : UInt32 := 0x00000002
def mciDataCtlBlocksizeS : UInt32 := 4

/-! ## The data errors -/

/-- **The sticky data errors** of the controller. -/
structure DataErrors where
  dataCrcFail : Bool
  dataTimeout : Bool
  rxOverrun : Bool
  startBitErr : Bool
  deriving DecidableEq

namespace DataErrors

/-- No error is raised. -/
def none : DataErrors := ⟨false, false, false, false⟩

/-- The errors a status word of the script raises. -/
def ofStatus (w : UInt32) : DataErrors where
  dataCrcFail := Word.flag w mciStatusDataCrcFail
  dataTimeout := Word.flag w mciStatusDataTimeout
  rxOverrun := Word.flag w mciStatusRxOverrun
  startBitErr := Word.flag w mciStatusStartBitErr

/-- The errors of both. -/
def union (e f : DataErrors) : DataErrors where
  dataCrcFail := e.dataCrcFail || f.dataCrcFail
  dataTimeout := e.dataTimeout || f.dataTimeout
  rxOverrun := e.rxOverrun || f.rxOverrun
  startBitErr := e.startBitErr || f.startBitErr

/-- The errors as they show in `MCI_STATUS`. -/
def bits (e : DataErrors) : UInt32 :=
  (if e.dataCrcFail then mciStatusDataCrcFail else 0)
    ||| (if e.dataTimeout then mciStatusDataTimeout else 0)
    ||| (if e.rxOverrun then mciStatusRxOverrun else 0)
    ||| (if e.startBitErr then mciStatusStartBitErr else 0)

/-- What is left after a word is written to `MCI_CLEAR`. -/
def clear (e : DataErrors) (w : UInt32) : DataErrors where
  dataCrcFail := e.dataCrcFail && !Word.flag w mciClearDataCrcFailClr
  dataTimeout := e.dataTimeout && !Word.flag w mciClearDataTimeoutClr
  rxOverrun := e.rxOverrun && !Word.flag w mciClearRxOverrunClr
  startBitErr := e.startBitErr && !Word.flag w mciClearStartBitErrClr

/-- Some error is raised. -/
def raised (e : DataErrors) : Bool :=
  e.dataCrcFail || e.dataTimeout || e.rxOverrun || e.startBitErr

theorem raised_eq_false_iff (e : DataErrors) : e.raised = false ↔ e = none := by
  obtain ⟨a, b, c, d⟩ := e
  cases a <;> cases b <;> cases c <;> cases d <;> decide

theorem raised_union (e f : DataErrors) : (e.union f).raised = (e.raised || f.raised) := by
  simp only [raised, union]
  ac_rfl

@[simp] theorem none_clear (w : UInt32) : none.clear w = none := rfl

@[simp] theorem bits_none : none.bits = 0 := rfl

/-- Errors are read back from the bits they show as. -/
theorem ofStatus_bits (e : DataErrors) : ofStatus e.bits = e := by
  obtain ⟨a, b, c, d⟩ := e
  cases a <;> cases b <;> cases c <;> cases d <;> decide

/-- The errors of a status word that shows sticky errors as well. -/
theorem ofStatus_or_bits (w : UInt32) (e : DataErrors) :
    ofStatus (w ||| e.bits) = (ofStatus w).union e := by
  conv_rhs => rw [← ofStatus_bits e]
  simp only [ofStatus, union, Word.flag_or]

/-- A write that names no error leaves the errors. -/
theorem clear_of_ofStatus {w : UInt32} (h : ofStatus w = none) (e : DataErrors) :
    e.clear w = e := by
  have h₁ : Word.flag w mciClearDataCrcFailClr = false := congrArg dataCrcFail h
  have h₂ : Word.flag w mciClearDataTimeoutClr = false := congrArg dataTimeout h
  have h₃ : Word.flag w mciClearRxOverrunClr = false := congrArg rxOverrun h
  have h₄ : Word.flag w mciClearStartBitErrClr = false := congrArg startBitErr h
  simp only [clear, h₁, h₂, h₃, h₄, Bool.not_false, Bool.and_true]

end DataErrors

/-! ## The controller -/

/-- **A card**: how it is addressed, how many 512-byte blocks it holds, its
content, and the words it delivers to data commands other than a block read
(by command index). -/
structure Card where
  highCapacity : Bool
  capacity : ℕ
  bytes : ℕ → UInt8
  other : UInt32 → ℕ → UInt32

/-- `BLOCK_SIZE`. -/
def blockSize : UInt32 := 512

/-- The offset of the block a `READ_SINGLE_BLOCK` argument names: a block
number on a high-capacity card, a byte address on the others. -/
def Card.offset (card : Card) (argument : UInt32) : ℕ :=
  if card.highCapacity then argument.toNat * 512 else argument.toNat

/-- The four response registers. -/
abbrev Response : Type := Fin 4 → UInt32

abbrev resp0 : Fin 4 := 0
abbrev resp1 : Fin 4 := 1
abbrev resp2 : Fin 4 := 2
abbrev resp3 : Fin 4 := 3

/-- **The controller**, with the script of what it is going to show. `taken`
counts the words taken from the FIFO since the last command. -/
structure Controller where
  card : Card
  argument : UInt32
  cmd : UInt32
  dataTimer : UInt32
  dataLength : UInt32
  dataCtl : UInt32
  taken : ℕ
  errors : DataErrors
  response : Response
  responses : List Response
  ticks : List UInt32

/-- A controller with every register zero and no data error set. -/
def Controller.reset : Controller where
  card := ⟨false, 0, fun _ => 0, fun _ _ => 0⟩
  argument := 0
  cmd := 0
  dataTimer := 0
  dataLength := 0
  dataCtl := 0
  taken := 0
  errors := .none
  response := fun _ => 0
  responses := []
  ticks := []

/-- The registers of the controller the driver uses. -/
inductive MciReg where
  | mciArgument
  | mciCmd
  | mciResp (n : Fin 4)
  | mciDataTimer
  | mciDataLength
  | mciDataCtl
  | mciStatus
  | mciClear
  | mciFifo
  deriving DecidableEq

/-- The word at the head of the FIFO: of the block named by the argument
after `READ_SINGLE_BLOCK` (CMD17), of the card's other data after any other
command. -/
def Controller.fifoWord (c : Controller) : UInt32 :=
  if c.cmd &&& 0x3f = 17 then
    Word.ofBytes fun j => c.card.bytes (c.card.offset c.argument + (4 * c.taken + j))
  else c.card.other (c.cmd &&& 0x3f) c.taken

/-- A read of `MCI_STATUS` is a tick of the script; past its end the routine
that reads is still waiting. -/
def readStatus : Routine Controller UInt32 := fun c =>
  match c.ticks with
  | [] => (none, c)
  | w :: rest =>
    (some (w ||| c.errors.bits), { c with
      errors := c.errors.union (.ofStatus w)
      ticks := rest })

/-- `MmioRead32` on the controller. -/
def mmioRead32 : MciReg → Routine Controller UInt32
  | .mciStatus => readStatus
  | .mciFifo => fun c => (some c.fifoWord, { c with taken := c.taken + 1 })
  | .mciResp n => .look fun c => c.response n
  | .mciArgument => .look fun c => c.argument
  | .mciCmd => .look fun c => c.cmd
  | .mciDataTimer => .look fun c => c.dataTimer
  | .mciDataLength => .look fun c => c.dataLength
  | .mciDataCtl => .look fun c => c.dataCtl
  | .mciClear => pure 0

/-- `MmioWrite32` on the controller. Writing `MCI_CMD` starts a command:
the response registers take what the card answers. -/
def mmioWrite32 (reg : MciReg) (w : UInt32) : Routine Controller Unit :=
  match reg with
  | .mciArgument => .modify fun c => { c with argument := w }
  | .mciCmd => .modify fun c => { c with
      cmd := w
      taken := 0
      response := c.responses.headD fun _ => 0
      responses := c.responses.tail }
  | .mciDataTimer => .modify fun c => { c with dataTimer := w }
  | .mciDataLength => .modify fun c => { c with dataLength := w }
  | .mciDataCtl => .modify fun c => { c with dataCtl := w }
  | .mciClear => .modify fun c => { c with errors := c.errors.clear w }
  | .mciResp _ => pure ()
  | .mciStatus => pure ()
  | .mciFifo => pure ()

/-- A read of `MCI_STATUS` while the script goes on. -/
theorem mmioRead32_status {c : Controller} {w : UInt32} {rest : List UInt32}
    (h : c.ticks = w :: rest) :
    mmioRead32 .mciStatus c
      = (some (w ||| c.errors.bits), { c with
          errors := c.errors.union (.ofStatus w)
          ticks := rest }) := by
  show readStatus c = _
  unfold readStatus
  rw [h]

/-- A read of `MCI_STATUS` at the end of the script. -/
theorem mmioRead32_status_end {c : Controller} (h : c.ticks = []) :
    mmioRead32 .mciStatus c = (none, c) := by
  show readStatus c = _
  unfold readStatus
  rw [h]

/-- A read of `MCI_STATUS` that raises no error on a controller without
errors shows the word of the script. -/
theorem mmioRead32_status_clean {c : Controller} {w : UInt32} {rest : List UInt32}
    (h : c.ticks = w :: rest) (hc : c.errors = .none) (hw : DataErrors.ofStatus w = .none) :
    mmioRead32 .mciStatus c = (some w, { c with ticks := rest }) := by
  rw [mmioRead32_status h, hc, hw, DataErrors.bits_none, UInt32.or_zero]
  show (some w, { c with errors := DataErrors.none, ticks := rest }) = _
  rw [← hc]

/-! ## Polling -/

/-- One round of `while (MmioRead32(MCI_STATUS) satisfies p);`. -/
def waitRound (p : UInt32 → Bool) (_ : Unit) : Routine Controller (Unit ⊕ Unit) := do
  if p (← mmioRead32 .mciStatus) then return .inl () else return .inr ()

/-- `while (MmioRead32(MCI_STATUS) satisfies p);`. -/
def waitWhile (p : UInt32 → Bool) : Routine Controller Unit :=
  .loop (fun _ c => c.ticks.length) (waitRound p) ()

/-- A routine that reads `MCI_STATUS` and goes on without reading it again
uses up a tick. -/
theorem ticks_lt_of_status {α : Type} {k : UInt32 → Routine Controller α}
    (hk : ∀ w, ∀ c : Controller, (k w c).2.ticks = c.ticks) {c c' : Controller} {a : α}
    (h : (mmioRead32 .mciStatus >>= k) c = (some a, c')) :
    c'.ticks.length < c.ticks.length := by
  cases ht : c.ticks with
  | nil =>
    rw [Routine.bind_of_waits (mmioRead32_status_end ht)] at h
    exact absurd (congrArg Prod.fst h) (by simp)
  | cons w rest =>
    rw [Routine.bind_of_returns (mmioRead32_status ht)] at h
    have hticks := hk (w ||| c.errors.bits)
      { c with errors := c.errors.union (.ofStatus w), ticks := rest }
    rw [h] at hticks
    rw [show c'.ticks = rest from hticks]
    exact Nat.lt_succ_self rest.length

theorem waitRound_consumes (p : UInt32 → Bool) :
    Routine.Consumes (fun _ (c : Controller) => c.ticks.length) (waitRound p) := by
  intro b c b' c' h
  refine ticks_lt_of_status (fun w c => ?_) h
  by_cases hp : p w
  · simp [hp]
  · simp [hp]

/-- **Waiting on a quiet script.** The wait ends at the first status word that
does not meet the condition. -/
theorem waitWhile_of_script {p : UInt32 → Bool} {before rest : List UInt32} {w : UInt32}
    {c : Controller} (ht : c.ticks = before ++ w :: rest) (hc : c.errors = .none)
    (hquiet : ∀ x ∈ before ++ [w], DataErrors.ofStatus x = .none)
    (hbefore : ∀ x ∈ before, p x = true) (hw : p w = false) :
    waitWhile p c = (some (), { c with ticks := rest }) := by
  induction before generalizing c with
  | nil =>
    have hread := mmioRead32_status_clean ht hc (hquiet w (by simp))
    refine Routine.loop_of_leaves (waitRound_consumes p) ?_
    unfold waitRound
    rw [Routine.bind_of_returns hread, if_neg (by simp [hw])]
    rfl
  | cons x before ih =>
    have hread := mmioRead32_status_clean ht hc (hquiet x (by simp))
    have hround : waitRound p () c
        = (some (.inl ()), { c with ticks := before ++ w :: rest }) := by
      unfold waitRound
      rw [Routine.bind_of_returns hread, if_pos (hbefore x (by simp))]
      rfl
    refine (Routine.loop_of_again (waitRound_consumes p) hround).trans ?_
    exact ih rfl hc (fun y hy => hquiet y (by simp at hy ⊢; tauto))
      (fun y hy => hbefore y (by simp [hy]))

/-! ## What a status read keeps -/

/-- Waiting keeps whatever a status read keeps. -/
theorem keeps_waitWhile {I : Controller → Prop}
    (h : Routine.Keeps I (mmioRead32 .mciStatus)) (p : UInt32 → Bool) :
    Routine.Keeps I (waitWhile p) := by
  refine Routine.loop_keeps (fun _ => h.bind fun w => ?_) ()
  split <;> exact Routine.keeps_pure I _

/-- A status read keeps every property that does not look at the errors and
the script. -/
theorem keeps_status {I : Controller → Prop}
    (h : ∀ c e t, I c → I { c with errors := e, ticks := t }) :
    Routine.Keeps I (mmioRead32 .mciStatus) := by
  intro c hc
  cases ht : c.ticks with
  | nil => rw [mmioRead32_status_end ht]; exact hc
  | cons w rest => rw [mmioRead32_status ht]; exact h c _ _ hc

/-- A status read never clears an error. -/
theorem keeps_raised_status :
    Routine.Keeps (fun c : Controller => c.errors.raised = true) (mmioRead32 .mciStatus) := by
  intro c hc
  cases ht : c.ticks with
  | nil => rw [mmioRead32_status_end ht]; exact hc
  | cons w rest =>
    rw [mmioRead32_status ht]
    show (c.errors.union (.ofStatus w)).raised = true
    rw [DataErrors.raised_union, hc, Bool.true_or]

end SdCardDxe
