import HtcLeo.Efi
import HtcLeo.SdCard.BlockIo
import HtcLeo.SdCard.Csd
import HtcLeo.SdCard.ReadBlock

/-!
# Bringing up the SD card

`SdCardInit` goes through a long sequence of commands – identify the card, put
it into the transfer state, widen the bus, read its status, switch it to high
speed if it can, set the block size – and gives up at the first that fails.
Only at the end is the geometry decoded from the CSD, into the media record
that the Block IO protocol shows.

`SdCardInitialize` does not look at what `SdCardInit` returns. It searches the
first blocks for a master boot record, stops for good if there is none, and
otherwise installs the protocol. What it publishes is the geometry of the card,
unless the sequence was given up, or the CSD was not understood, and the first
block can be read all the same and carries the signature (`publishesDecoded_iff`).
-/

namespace SdCardDxe

/-! ## Masks and commands -/

def cmd0 : UInt16 := 0x00
def cmd2 : UInt16 := 0x02
def cmd3 : UInt16 := 0x03
def cmd6 : UInt16 := 0x06
def cmd7 : UInt16 := 0x07
def cmd8 : UInt16 := 0x08
def cmd9 : UInt16 := 0x09
def cmd10 : UInt16 := 0x0A
def cmd13 : UInt16 := 0x0D
def cmd16 : UInt16 := 0x10
def acmd6 : UInt16 := 0x06
def acmd13 : UInt16 := 0x0D
def acmd51 : UInt16 := 0x33

def mciCmdLongrsp : UInt16 := 0x0080

def mciPowerControlPoweron : UInt32 := 0x3
def mciClkSelectIn : UInt32 := 0x0000C000
def mciClkSelectInS : UInt32 := 14
def mciClkSelectInOnTheFallingEdge : UInt32 := 0x0
def mciClkSelectInUsingFeedbackClock : UInt32 := 0x2
def mciClkFlowEna : UInt32 := 0x00001000
def mciClkWidebus : UInt32 := 0x00000C00
def mciClkWidebusS : UInt32 := 10
def mciClkWidebus4BitMode : UInt32 := 0x2
def mciClkPwrsave : UInt32 := 0x00000200
def mciClkEnable : UInt32 := 0x00000100

def mclk25MHz : UInt32 := 25000000
def mclk48MHz : UInt32 := 48000000

/-- `SDC_INSTANCE`. -/
def sdcInstance : UInt32 := 2

/-- `EFI_D_ERROR`. -/
def efiDError : UInt32 := 0x80000000

/-- `GLBL_CLK_ENA__SDCn_H_CLK_ENA___M`, for the instances there are. -/
def glblClkEnaMask : UInt32 → Option UInt32
  | 1 => some 0x00000080
  | 2 => some 0x00000100
  | 3 => some 0x08000000
  | 4 => some 0x10000000
  | _ => none

/-! ## The driver -/

/-- A request that the driver sends to the modem. -/
inductive SdRequest where
  | setSdcardClk (sdcInstance speed : UInt32)
  | sdcardGpioConfig (sdcInstance : UInt32)

/-- **The driver**: the controller, the registers of it that only the
initialisation uses, the requests made to the modem, the driver's variables,
and whether the Block IO protocol is installed. -/
structure Host where
  controller : Controller
  mciPower : UInt32
  mciClk : UInt32
  mciIntMask0 : UInt32
  mciIntMask1 : UInt32
  glblClkEna : UInt32
  requests : List SdRequest
  sdcnInstance : UInt32
  highCapacity : Bool
  scrValid : Bool
  scr : UInt32 × UInt32
  gMMCHSMedia : Media
  blockIo : Bool

/-- The driver when it is loaded. -/
def Host.start (controller : Controller) (mciClk glblClkEna : UInt32) : Host where
  controller := controller
  mciPower := 0
  mciClk := mciClk
  mciIntMask0 := 0
  mciIntMask1 := 0
  glblClkEna := glblClkEna
  requests := []
  sdcnInstance := 0
  highCapacity := false
  scrValid := false
  scr := (0, 0)
  gMMCHSMedia := .initial
  blockIo := false

/-- What the driver does with the controller alone. -/
def onController {α : Type} (x : Routine Controller α) : Routine Host α := fun h =>
  ((x h.controller).1, { h with controller := (x h.controller).2 })

/-- `SD_MCLK_set`. -/
def sdMclkSet (speed : UInt32) : Routine Host Unit :=
  .modify fun h => { h with requests := h.requests ++ [.setSdcardClk h.sdcnInstance speed] }

/-- `SDCn_init`. -/
def sdcnInit (sdcInstance : UInt32) : Routine Host Bool := do
  .modify fun h => { h with sdcnInstance := sdcInstance }
  match glblClkEnaMask sdcInstance with
  | none => return false
  | some mask =>
    .modify fun h => { h with
      glblClkEna := if mask &&& h.glblClkEna = 0 then h.glblClkEna ||| mask else h.glblClkEna }
    sdMclkSet 400000
    .modify fun h => { h with requests := h.requests ++ [.sdcardGpioConfig sdcInstance] }
    onController (mmioWrite32 .mciClear 0x07FFFFFF)
    .modify fun h => { h with
      mciIntMask0 := 0
      mciIntMask1 := 0
      mciPower := mciPowerControlPoweron
      mciClk := (mciClkSelectInOnTheFallingEdge <<< mciClkSelectInS) ||| mciClkEnable }
    return true

/-- `mmc_send_cmd` of a command that has a response. -/
def sendWithResponse (cmd : UInt16) (arg : UInt32) : Routine Controller (Bool × Option Response) :=
  mmcSendCmd (cmd ||| mciCmdEnable ||| mciCmdResponse) arg

/-- `mmc_send_cmd` of a command that has a long one. -/
def sendWithLongResponse (cmd : UInt16) (arg : UInt32) :
    Routine Controller (Bool × Option Response) :=
  mmcSendCmd (cmd ||| mciCmdEnable ||| mciCmdResponse ||| mciCmdLongrsp) arg

/-- One round of the loop that repeats `ACMD41` until the card is no longer busy;
it is left with `none` by the `return(0)` inside. -/
def busyRound (arg : UInt32) (response : Response) :
    Routine Controller (Response ⊕ Option Response) := do
  if Word.flag (response resp0) 0x80000000 then
    return .inr (some response)
  else do
    if !(← sendWithResponse cmd55 0).1 then
      return .inr none
    let (sent, response') ← sendWithResponse acmd41 arg
    if !sent then
      return .inr none
    return .inl (response'.getD response)

/-- `card_identification_selection`: the CID and the address of the card. -/
def cardIdentificationSelection : Routine Host (Option (Response × UInt16)) := do
  if !(← onController (mmcSendCmd (cmd0 ||| mciCmdEnable) 0)).1 then
    return none
  let hcSupport : UInt32 :=
    if (← onController (sendWithResponse cmd8 0x000001AA)).1 then (1 : UInt32) <<< 30 else 0
  if !(← onController (sendWithResponse cmd55 0)).1 then
    return none
  let arg := 0x00FF8000 ||| hcSupport
  let (sent, response) ← onController (sendWithResponse acmd41 arg)
  if !sent then
    return none
  match ← onController (.loop (fun _ c => c.ticks.length) (busyRound arg)
      (response.getD fun _ => 0)) with
  | none => return none
  | some response =>
    .modify fun h => { h with
      highCapacity := h.highCapacity || Word.flag (response resp0) hcSupport }
    let (sent, cid) ← onController (sendWithLongResponse cmd2 0)
    if !sent then
      return none
    let (sent, response) ← onController (sendWithResponse cmd3 0)
    if !sent then
      return none
    return some (cid.getD fun _ => 0,
      ((response.getD fun _ => 0) resp0 >>> 16).toUInt16)

/-- `card_set_block_size`. -/
def cardSetBlockSize (size : UInt32) : Routine Controller Bool := do
  return (← sendWithResponse cmd16 size).1

/-- `Byte_swap32`. -/
def byteSwap32 (value : UInt32) : UInt32 :=
  let byte0 : UInt32 := (value >>> 24) &&& 0x000000ff
  let byte1 : UInt32 := (value >>> 8) &&& 0x0000ff00
  let byte2 : UInt32 := (value <<< 8) &&& 0x00ff0000
  let byte3 : UInt32 := (value <<< 24) &&& 0xff000000
  byte0 ||| byte1 ||| byte2 ||| byte3

/-- The word by which `rca << 16` addresses the card. -/
def rcaArgument (rca : UInt16) : UInt32 := rca.toUInt32 <<< 16

/-- The registers of a data command that reads `length` bytes as one block, as
they are set before its block size. -/
def startData (length : UInt32) : Routine Controller Bool := do
  mmioWrite32 .mciDataTimer rdDataTimeout
  mmioWrite32 .mciDataLength length
  cardSetBlockSize length

/-- The data control register of a data command that reads `length` bytes. -/
def enableData (length : UInt32) : Routine Controller Unit :=
  mmioWrite32 .mciDataCtl
    (mciDataCtlEnable ||| mciDataCtlDirection ||| (length <<< mciDataCtlBlocksizeS))

/-- `read_SCR_register`. -/
def readScrRegister (rca : UInt16) : Routine Host Bool := do
  if !(← onController (startData 8)) then
    return false
  onController (enableData 8)
  if !(← onController (sendWithResponse cmd55 (rcaArgument rca))).1 then
    return false
  if !(← onController (sendWithResponse acmd51 0)).1 then
    return false
  onController (waitWhile fun mciStatus => !Word.flag mciStatus mciStatusRxdataAvlbl)
  let scr0 ← onController (mmioRead32 .mciFifo)
  let scr1 ← onController (mmioRead32 .mciFifo)
  .modify fun h => { h with scr := (byteSwap32 scr0, byteSwap32 scr1), scrValid := true }
  return true

/-- `card_transfer_init`: the CSD and the CID of the card. -/
def cardTransferInit (rca : UInt16) : Routine Host (Option (Response × Response)) := do
  let (sent, csd) ← onController (sendWithLongResponse cmd9 (rcaArgument rca))
  if !sent then
    return none
  let (sent, cid) ← onController (sendWithLongResponse cmd10 (rcaArgument rca))
  if !sent then
    return none
  if !(← onController (sendWithResponse cmd7 (rcaArgument rca))).1 then
    return none
  if !(← readScrRegister rca) then
    return none
  if !(← onController (sendWithResponse cmd55 (rcaArgument rca))).1 then
    return none
  if !(← onController (sendWithResponse acmd6 2)).1 then
    return none
  if !(← onController (sendWithResponse cmd13 (rcaArgument rca))).1 then
    return none
  return some (csd.getD fun _ => 0, cid.getD fun _ => 0)

/-- One round of the loop that takes 16 words from the FIFO; it is left with
`none` on an unexpected status. -/
def dataRound (data : List UInt32) : Routine Controller (List UInt32 ⊕ Option (List UInt32)) := do
  if data.length < 16 then
    let mciStatus ← mmioRead32 .mciStatus
    if Word.flag mciStatus mciStatusRxdataAvlbl then
      let w ← mmioRead32 .mciFifo
      return .inl (data ++ [w])
    else if !Word.flag mciStatus mciStatusRxactive then
      return .inr none
    else
      return .inl data
  else
    return .inr (some data)

/-- The 16 words of a data command, and the end of its block: the words, byte
swapped. -/
def receiveData : Routine Controller (Option (List UInt32)) := do
  match ← .loop (fun _ c => c.ticks.length) dataRound [] with
  | none => return none
  | some data =>
    if !(← checkClearReadStatus) then
      return none
    return some (data.map byteSwap32)

/-- `read_SD_status`. -/
def readSdStatus (rca : UInt16) : Routine Controller Bool := do
  if !(← startData 64) then
    return false
  enableData 64
  if !(← sendWithResponse cmd55 (rcaArgument rca)).1 then
    return false
  if !(← sendWithResponse acmd13 0).1 then
    return false
  return (← receiveData).isSome

/-- `SWITCH_CHECK`. -/
def switchCheck : UInt32 := (0 : UInt32) <<< 31
/-- `SWITCH_SET`. -/
def switchSet : UInt32 := (1 : UInt32) <<< 31

/-- `CMD6` with its data. -/
def switchFunction (arg : UInt32) : Routine Controller (Option (List UInt32)) := do
  enableData 64
  if !(← sendWithResponse cmd6 arg).1 then
    return none
  receiveData

/-- The switch status names function 1 for the first group. -/
def switchesToHighSpeed (data : List UInt32) : Bool :=
  data.getD 4 0 &&& 0x0F000000 = 0x01000000

/-- `switch_mode`. -/
def switchMode : Routine Host Bool := do
  let scrValid ← .look Host.scrValid
  let scr ← .look Host.scr
  if !scrValid then
    return false
  if (scr.1 &&& 0x0F000000) >>> 24 = 0 then
    return false
  if !(← onController (startData 64)) then
    return false
  match ← onController (switchFunction (switchCheck ||| 0x00FFFFF1)) with
  | none => return false
  | some data =>
    if data.getD 3 0 &&& 0x00020000 = 0 then
      return false
    if !switchesToHighSpeed data then
      return false
    match ← onController (switchFunction (switchSet ||| 0x00FFFFF1)) with
    | none => return false
    | some data => return switchesToHighSpeed data

/-- `SdCardInit` up to the decoding of the CSD: the CSD, or `none` if one of the
steps fails. -/
def bringUp : Routine Host (Option Response) := do
  if !(← sdcnInit sdcInstance) then
    return none
  match ← cardIdentificationSelection with
  | none => return none
  | some (_, rca) =>
    .modify fun h => { h with mciClk := h.mciClk ||| mciClkPwrsave ||| mciClkFlowEna }
    match ← cardTransferInit rca with
    | none => return none
    | some (csd, _) =>
      .modify fun h => { h with
        mciClk := (h.mciClk &&& ~~~mciClkWidebus) ||| (mciClkWidebus4BitMode <<< mciClkWidebusS) }
      if !(← onController (readSdStatus rca)) then
        return none
      sdMclkSet mclk25MHz
      if ← switchMode then
        sdMclkSet mclk48MHz
        .modify fun h => { h with
          mciClk := (h.mciClk &&& ~~~mciClkSelectIn)
            ||| (mciClkSelectInUsingFeedbackClock <<< mciClkSelectInS) }
      if !(← onController (cardSetBlockSize blockSize)) then
        return none
      return some csd

/-- `mmc_decode_csd(csd)`, on the media record of the driver. -/
def decodeCsd (csd : Response) : Routine Host Unit := fun h =>
  match mmcDecodeCsd csd h.gMMCHSMedia with
  | some media => (some (), { h with gMMCHSMedia := media })
  | none => (none, h)

/-- `SdCardInit`. -/
def sdCardInit : Routine Host UInt32 := do
  match ← bringUp with
  | none => return efiDError
  | some csd =>
    decodeCsd csd
    return 0

/-! ## The search for the boot record -/

/-- The last two bytes of a block are those of a master boot record. -/
def signed (blkDump : Buffer) : Bool := blkDump 510 = some 0x55 && blkDump 511 = some 0xAA

/-- One round of the search, for the block `i`. -/
def mbrRound (highCapacity : Bool) (last i : ℕ) : Routine (Io Controller) (ℕ ⊕ Bool) := do
  if i ≤ last then
    let blk ← mmcBread (readABlock highCapacity) (UInt32.ofNat i) 1 0
    let blkDump ← .look Io.buffer
    if blk ≠ 0 && signed blkDump then
      return .inr true
    else
      return .inl (i + 1)
  else
    return .inr false

/-- The search of the blocks up to `last`. -/
def searchMbr (highCapacity : Bool) (last : ℕ) : Routine (Io Controller) Bool :=
  .loop (fun i _ => last + 1 - i) (mbrRound highCapacity last) 0

/-- `ZeroMem(BlkDump, 512)`. -/
def blkDumpZero : Buffer := fun i => if i < 512 then some 0 else none

/-- The search for the boot record, in the blocks up to
`MIN(gMMCHSMedia.LastBlock, 50)`. -/
def findMbr : Routine Host Bool := fun h =>
  let found := searchMbr h.highCapacity (min h.gMMCHSMedia.lastBlock.toNat 50)
    ⟨h.controller, blkDumpZero, []⟩
  (found.1, { h with controller := found.2.device })

/-- `SdCardInitialize`, on what `gpio_get(HTCLEO_GPIO_SD_STATUS)` returns and
what `InstallMultipleProtocolInterfaces` answers. -/
def sdCardInitialize (sdStatus : UInt32) (install : EfiStatus) : Routine Host EfiStatus := do
  if sdStatus = 0 then do
    let _ ← sdCardInit
    if !(← findMbr) then
      -- `CpuDeadLoop`
      .wait
    else do
      .modify fun h => { h with blockIo := h.blockIo || install = .efiSuccess }
      return install
  else
    return .efiDeviceError

/-! ## The loops terminate -/

/-- A wait that ends has read a status word. -/
theorem waitWhile_lt {p : UInt32 → Bool} {c c' : Controller} {u : Unit}
    (h : waitWhile p c = (some u, c')) : c'.ticks.length < c.ticks.length := by
  refine Routine.loop_sound (fun _ d => d.ticks.length ≤ c.ticks.length)
    (fun _ d => d.ticks.length < c.ticks.length) ?_ ?_ (Nat.le_refl _) h
  · intro _ d _ d' hd hround
    exact Nat.le_trans (Nat.le_of_lt (waitRound_consumes p _ _ _ _ hround)) hd
  · intro _ d a d' hd hround
    refine Nat.lt_of_lt_of_le (ticks_lt_of_status (fun w e => ?_) hround) hd
    by_cases hp : p w
    · simp [hp]
    · simp [hp]

/-- Reading a status word uses up one, or none at the end of the script. -/
theorem keeps_ticks_status (n : ℕ) :
    Routine.Keeps (fun c : Controller => c.ticks.length ≤ n) (mmioRead32 .mciStatus) := by
  intro c hc
  cases ht : c.ticks with
  | nil => rw [mmioRead32_status_end ht]; exact hc
  | cons w rest =>
    rw [mmioRead32_status ht]
    rw [ht] at hc
    exact Nat.le_of_succ_le hc

/-- A command that is answered has used up a status word. -/
theorem awaitResponse_lt {cmd : UInt16} {arg : UInt32} {c c' : Controller}
    {r : Bool × Option Response} (h : awaitResponse cmd arg c = (some r, c')) :
    c'.ticks.length < c.ticks.length := by
  unfold awaitResponse at h
  obtain ⟨f, c₁, hloop, h⟩ := Routine.bind_eq_some_iff.mp h
  have hc₁ : (Routine.loop (fun _ (c : Controller) => c.ticks.length) (cmdRound cmd)
      ⟨false, false, false⟩ c).2.ticks.length ≤ c.ticks.length :=
    Routine.loop_keeps (keeps_cmdRound (keeps_ticks_status c.ticks.length) cmd) _ c (Nat.le_refl _)
  rw [hloop] at hc₁
  obtain ⟨_, c₂, hclear, h⟩ := Routine.bind_eq_some_iff.mp h
  have hc₂ : c₁.ticks = c₂.ticks := congrArg (fun r => r.2.ticks) hclear
  obtain ⟨_, c₃, hwait, h⟩ := Routine.bind_eq_some_iff.mp h
  have hc₃ := waitWhile_lt hwait
  -- what is left reads the response registers, and no status word
  obtain ⟨_, c₄, htimeout, h⟩ := Routine.bind_eq_some_iff.mp h
  have hc₄ : c₃.ticks = c₄.ticks := congrArg (fun r => r.2.ticks) htimeout
  obtain ⟨_, c₅, hcrc, h⟩ := Routine.bind_eq_some_iff.mp h
  have hc₅ : c₄.ticks = c₅.ticks := congrArg (fun r => r.2.ticks) hcrc
  obtain ⟨response, c₆, hresponse, h⟩ := Routine.bind_eq_some_iff.mp h
  have hc₆ : c₅.ticks = c₆.ticks := congrArg (fun r => r.2.ticks) hresponse
  have hc' : c₆.ticks = c'.ticks := by
    split at h
    · exact congrArg (fun r => r.2.ticks) h
    · split at h <;> exact congrArg (fun r => r.2.ticks) h
  rw [← hc₂] at hc₃
  rw [← hc', ← hc₆, ← hc₅, ← hc₄]
  exact Nat.lt_of_lt_of_le hc₃ hc₁

/-- The response bit of a command that has it. -/
theorem hasResponse (cmd : UInt16) : (cmd ||| mciCmdResponse) &&& mciCmdResponse ≠ 0 := by
  have habsorb : (cmd ||| mciCmdResponse) &&& mciCmdResponse = mciCmdResponse := by
    apply UInt16.toBitVec_inj.mp
    ext i hi
    simp only [UInt16.toBitVec_and, UInt16.toBitVec_or, BitVec.getElem_and, BitVec.getElem_or]
    cases cmd.toBitVec[i] <;> cases mciCmdResponse.toBitVec[i] <;> rfl
  rw [habsorb]
  decide

/-- A command that has a response and is answered has used up a status word. -/
theorem sendWithResponse_lt {cmd : UInt16} {arg : UInt32} {c c' : Controller}
    {r : Bool × Option Response} (h : sendWithResponse cmd arg c = (some r, c')) :
    c'.ticks.length < c.ticks.length := by
  unfold sendWithResponse mmcSendCmd at h
  obtain ⟨_, c₁, harg, h⟩ := Routine.bind_eq_some_iff.mp h
  have hc₁ : c.ticks = c₁.ticks := congrArg (fun r => r.2.ticks) harg
  obtain ⟨_, c₂, hcmd, h⟩ := Routine.bind_eq_some_iff.mp h
  have hc₂ : c₁.ticks = c₂.ticks := congrArg (fun r => r.2.ticks) hcmd
  rw [if_pos (hasResponse _)] at h
  rw [hc₁, hc₂]
  exact awaitResponse_lt h

/-- The loop that waits for the card consumes status words. -/
theorem busyRound_consumes (arg : UInt32) :
    Routine.Consumes (fun _ (c : Controller) => c.ticks.length) (busyRound arg) := by
  intro response c response' c' h
  unfold busyRound at h
  split at h
  · exact absurd (Option.some.inj (congrArg Prod.fst h)) (by simp)
  · obtain ⟨r, c₁, happ, h⟩ := Routine.bind_eq_some_iff.mp h
    have hc₁ := sendWithResponse_lt happ
    split at h
    · exact absurd (Option.some.inj (congrArg Prod.fst h)) (by simp)
    · obtain ⟨⟨sent, answer⟩, c₂, hop, h⟩ := Routine.bind_eq_some_iff.mp h
      have hc₂ := sendWithResponse_lt hop
      cases sent with
      | false => exact absurd (Option.some.inj (congrArg Prod.fst h)) (by simp)
      | true =>
        have hc' : c₂ = c' := congrArg Prod.snd h
        rw [← hc']
        exact Nat.lt_trans hc₂ hc₁

/-! ## What the initialisation leaves alone -/

/-- The media record and the protocol are as they were. -/
def Unpublished (media : Media) (blockIo : Bool) (h : Host) : Prop :=
  h.gMMCHSMedia = media ∧ h.blockIo = blockIo

section Unpublished

variable {media : Media} {blockIo : Bool}

theorem keeps_onController {α : Type} (x : Routine Controller α) :
    Routine.Keeps (Unpublished media blockIo) (onController x) := fun _ h => h

theorem keeps_sdcnInit (n : UInt32) :
    Routine.Keeps (Unpublished media blockIo) (sdcnInit n) := by
  intro h hh
  unfold sdcnInit
  cases glblClkEnaMask n with
  | none => exact hh
  | some mask => exact hh

theorem keeps_sdMclkSet (speed : UInt32) :
    Routine.Keeps (Unpublished media blockIo) (sdMclkSet speed) := fun _ h => h

/-- An early exit changes nothing. -/
theorem keeps_exit {α : Type} {c : Prop} [Decidable c] {a : α} {x : Routine Host α}
    (hx : Routine.Keeps (Unpublished media blockIo) x) :
    Routine.Keeps (Unpublished media blockIo) (if c then pure a else x) := by
  split
  · exact Routine.keeps_pure _ a
  · exact hx

/-- A step that ends the sequence if it fails. -/
theorem keeps_attempt {α β : Type} {x : Routine Controller β} {p : β → Prop} [DecidablePred p]
    {a : α} {rest : β → Routine Host α}
    (hrest : ∀ b, Routine.Keeps (Unpublished media blockIo) (rest b)) :
    Routine.Keeps (Unpublished media blockIo)
      (onController x >>= fun b => if p b then pure a else rest b) :=
  (keeps_onController x).bind fun b => keeps_exit (hrest b)

theorem keeps_cardIdentificationSelection :
    Routine.Keeps (Unpublished media blockIo) cardIdentificationSelection := by
  unfold cardIdentificationSelection
  refine keeps_attempt fun _ => ?_
  refine (keeps_onController _).bind fun _ => keeps_attempt fun _ => ?_
  refine keeps_attempt fun sent => ?_
  refine (keeps_onController _).bind fun response => ?_
  cases response with
  | none => exact Routine.keeps_pure _ none
  | some response =>
    refine Routine.Keeps.bind (fun _ h => h) fun _ => ?_
    refine keeps_attempt fun sent => ?_
    refine keeps_attempt fun sent => ?_
    exact Routine.keeps_pure _ _

theorem keeps_readScrRegister (rca : UInt16) :
    Routine.Keeps (Unpublished media blockIo) (readScrRegister rca) := by
  unfold readScrRegister
  refine keeps_attempt fun _ => ?_
  refine (keeps_onController _).bind fun _ => ?_
  refine keeps_attempt fun _ => ?_
  refine keeps_attempt fun _ => ?_
  refine (keeps_onController _).bind fun _ => (keeps_onController _).bind fun _ =>
    (keeps_onController _).bind fun _ => ?_
  exact Routine.Keeps.bind (fun _ h => h) fun _ => Routine.keeps_pure _ true

theorem keeps_cardTransferInit (rca : UInt16) :
    Routine.Keeps (Unpublished media blockIo) (cardTransferInit rca) := by
  unfold cardTransferInit
  refine keeps_attempt fun _ => ?_
  refine keeps_attempt fun _ => ?_
  refine keeps_attempt fun _ => ?_
  refine (keeps_readScrRegister rca).bind fun _ => keeps_exit ?_
  refine keeps_attempt fun _ => ?_
  refine keeps_attempt fun _ => ?_
  refine keeps_attempt fun _ => ?_
  exact Routine.keeps_pure _ _

theorem keeps_switchMode : Routine.Keeps (Unpublished media blockIo) switchMode := by
  unfold switchMode
  refine (Routine.keeps_look _ _).bind fun _ => (Routine.keeps_look _ _).bind fun _ =>
    keeps_exit (keeps_exit ?_)
  refine keeps_attempt fun _ => ?_
  refine (keeps_onController _).bind fun data => ?_
  cases data with
  | none => exact Routine.keeps_pure _ false
  | some data =>
    refine keeps_exit (keeps_exit ((keeps_onController _).bind fun data => ?_))
    cases data with
    | none => exact Routine.keeps_pure _ false
    | some data => exact Routine.keeps_pure _ _

/-- **The steps up to the decoding of the CSD publish nothing.** -/
theorem keeps_bringUp : Routine.Keeps (Unpublished media blockIo) bringUp := by
  unfold bringUp
  refine (keeps_sdcnInit _).bind fun _ => keeps_exit ?_
  refine keeps_cardIdentificationSelection.bind fun found => ?_
  cases found with
  | none => exact Routine.keeps_pure _ none
  | some found =>
    refine Routine.Keeps.bind (fun _ h => h) fun _ => ?_
    refine (keeps_cardTransferInit _).bind fun transfer => ?_
    cases transfer with
    | none => exact Routine.keeps_pure _ none
    | some transfer =>
      refine Routine.Keeps.bind (fun _ h => h) fun _ => ?_
      refine (keeps_onController _).bind fun _ => keeps_exit ?_
      refine (keeps_sdMclkSet _).bind fun _ => keeps_switchMode.bind fun _ => ?_
      have hrest : Routine.Keeps (Unpublished media blockIo) (do
          if !(← onController (cardSetBlockSize blockSize)) then
            return none
          return some transfer.1) :=
        (keeps_onController _).bind fun _ => keeps_exit (Routine.keeps_pure _ _)
      split
      · exact (keeps_sdMclkSet _).bind fun _ => Routine.Keeps.bind (fun _ h => h) fun _ => hrest
      · exact hrest

end Unpublished

/-! ## What the search finds -/

theorem mbrRound_consumes (highCapacity : Bool) (last : ℕ) :
    Routine.Consumes (fun i (_ : Io Controller) => last + 1 - i) (mbrRound highCapacity last) := by
  intro i io i' io' h
  unfold mbrRound at h
  split at h
  · next hi =>
    obtain ⟨blk, io₁, hread, h⟩ := Routine.bind_eq_some_iff.mp h
    rw [Routine.look_bind_apply] at h
    split at h
    · exact absurd (Option.some.inj (congrArg Prod.fst h)) (by simp)
    · have hi' := Sum.inl.inj (Option.some.inj (congrArg Prod.fst h))
      show last + 1 - i' < last + 1 - i
      omega
  · exact absurd (Option.some.inj (congrArg Prod.fst h)) (by simp)

/-- **The first block can be read and carries the signature.** -/
def FirstBlockSigned (h : Host) : Prop :=
  ∃ words c, readABlock h.highCapacity 0 h.controller = (some (true, words), c)
    ∧ signed (blkDumpZero.storeWords 0 words) = true

/-- A round of the search whose block can be read. -/
theorem mbrRound_of_read {highCapacity : Bool} {last i : ℕ} (hi : i ≤ last) {io io' : Io Controller}
    {ok : Bool}
    (hread : readInto (readABlock highCapacity) (UInt32.ofNat i) 0 io = (some ok, io')) :
    mbrRound highCapacity last i io
      = (some (if ok && signed io'.buffer then .inr true else .inl (i + 1)), io') := by
  have hblk : mmcBread (readABlock highCapacity) (UInt32.ofNat i) 1 0 io
      = (some (if ok then 1 else 0), io') := by
    rw [mmcBread_one, Routine.bind_of_returns hread]
    cases ok <;> rfl
  unfold mbrRound
  rw [if_pos hi, Routine.bind_of_returns hblk, Routine.look_bind_apply]
  cases ok <;> cases signed io'.buffer <;> rfl

/-- A round past the last block. -/
theorem mbrRound_past {highCapacity : Bool} {last i : ℕ} (hi : ¬ i ≤ last) (io : Io Controller) :
    mbrRound highCapacity last i io = (some (.inr false), io) := by
  unfold mbrRound
  rw [if_neg hi]
  rfl

/-- **The search of the first block alone** finds a boot record exactly when the
block can be read and carries the signature. -/
theorem searchMbr_zero (highCapacity : Bool) (c : Controller) :
    (searchMbr highCapacity 0 ⟨c, blkDumpZero, []⟩).1 = some true ↔
      ∃ words c', readABlock highCapacity 0 c = (some (true, words), c')
        ∧ signed (blkDumpZero.storeWords 0 words) = true := by
  have hconsumes := mbrRound_consumes highCapacity 0
  obtain ⟨o, c', hblock⟩ : ∃ o c', readABlock highCapacity 0 c = (o, c') := ⟨_, _, rfl⟩
  rw [hblock]
  cases o with
  | none =>
    have hread : readInto (readABlock highCapacity) 0 0 ⟨c, blkDumpZero, []⟩
        = (none, ⟨c', blkDumpZero, []⟩) := by
      unfold readInto
      rw [hblock]
    have hround : mbrRound highCapacity 0 0 ⟨c, blkDumpZero, []⟩
        = (none, ⟨c', blkDumpZero, []⟩) := by
      unfold mbrRound
      rw [if_pos (Nat.le_refl 0), show UInt32.ofNat 0 = 0 from rfl, mmcBread_one,
        Routine.bind_of_waits (Routine.bind_of_waits hread)]
    unfold searchMbr
    rw [Routine.loop_of_waits hconsumes hround]
    simp
  | some result =>
    obtain ⟨ok, words⟩ := result
    have hread : readInto (readABlock highCapacity) (UInt32.ofNat 0) 0 ⟨c, blkDumpZero, []⟩
        = (some ok, ⟨c', blkDumpZero.storeWords 0 words, [ok]⟩) := by
      unfold readInto
      rw [show UInt32.ofNat 0 = 0 from rfl, hblock]
      rfl
    have hround := mbrRound_of_read (Nat.le_refl 0) hread
    unfold searchMbr
    cases hfound : ok && signed (blkDumpZero.storeWords 0 words) with
    | true =>
      rw [hfound] at hround
      rw [Routine.loop_of_leaves hconsumes hround]
      obtain ⟨rfl, hsigned⟩ := Bool.and_eq_true_iff.mp hfound
      exact ⟨fun _ => ⟨words, c', rfl, hsigned⟩, fun _ => rfl⟩
    | false =>
      rw [hfound] at hround
      rw [Routine.loop_of_again hconsumes hround,
        Routine.loop_of_leaves hconsumes (mbrRound_past (by decide) _)]
      constructor
      · intro h
        exact absurd (Option.some.inj h) Bool.false_ne_true
      · rintro ⟨words', c'', heq, hsigned⟩
        simp only [Prod.mk.injEq, Option.some.injEq] at heq
        obtain ⟨⟨rfl, rfl⟩, -⟩ := heq
        exact absurd hfound (by simp [hsigned])

/-! ## What is published -/

/-- **The initialisation falls short**: one of its steps fails, or the CSD is of
a version that is not understood. -/
def FallsShort (h h₁ : Host) : Prop :=
  bringUp h = (some none, h₁)
    ∨ ∃ csd, bringUp h = (some (some csd), h₁) ∧ csdStructure csd ≠ 0 ∧ csdStructure csd ≠ 1

/-- **Only a decoded geometry is published**: where the entry point succeeds with
the protocol installed, `SdCardInit` returned 0, and the media record is what the
CSD of the card says. -/
def PublishesDecoded (sdStatus : UInt32) (install : EfiStatus) (h : Host) : Prop :=
  ∀ h', sdCardInitialize sdStatus install h = (some .efiSuccess, h') → h'.blockIo = true →
    ∃ csd h₀ h₁, bringUp h = (some (some csd), h₀) ∧ sdCardInit h = (some 0, h₁)
      ∧ (csdStructure csd = 0 ∨ csdStructure csd = 1)
      ∧ mmcDecodeCsd csd .initial = some h'.gMMCHSMedia

/-- A CSD of an unknown version leaves the media record. -/
theorem mmcDecodeCsd_unknown {csd : Response} (h₀ : csdStructure csd ≠ 0)
    (h₁ : csdStructure csd ≠ 1) (media : Media) : mmcDecodeCsd csd media = some media := by
  unfold mmcDecodeCsd
  rw [unstuffBits_structure]
  simp only [Option.bind_eq_bind, Option.bind_some, ne_eq, h₀, h₁, not_false_eq_true, and_self,
    if_true]
  rfl

/-- `SdCardInit` once the steps have succeeded, on a CSD that is decoded. -/
theorem sdCardInit_of_decoded {h h₀ : Host} {csd : Response} {media : Media}
    (hup : bringUp h = (some (some csd), h₀))
    (hmedia : mmcDecodeCsd csd h₀.gMMCHSMedia = some media) :
    sdCardInit h = (some 0, { h₀ with gMMCHSMedia := media }) := by
  have hdecode : decodeCsd csd h₀ = (some (), { h₀ with gMMCHSMedia := media }) := by
    unfold decodeCsd
    rw [hmedia]
  unfold sdCardInit
  rw [Routine.bind_of_returns hup]
  exact Routine.bind_of_returns hdecode

/-- `SdCardInit` returns when it falls short, and the entry point goes on. -/
theorem FallsShort.sdCardInit {h h₁ : Host} (hshort : FallsShort h h₁) :
    ∃ r, SdCardDxe.sdCardInit h = (some r, h₁) := by
  rcases hshort with hup | ⟨csd, hup, hzero, hone⟩
  · refine ⟨efiDError, ?_⟩
    unfold SdCardDxe.sdCardInit
    rw [Routine.bind_of_returns hup]
    rfl
  · exact ⟨0, sdCardInit_of_decoded hup (mmcDecodeCsd_unknown hzero hone _)⟩

/-- From the start they leave the media record as it was loaded. -/
theorem unpublished_bringUp (controller : Controller) (mciClk glblClkEna : UInt32) :
    Unpublished .initial false (bringUp (.start controller mciClk glblClkEna)).2 :=
  keeps_bringUp _ ⟨rfl, rfl⟩

/-- **A sequence that falls short leaves the media record as it was loaded**, and
the protocol uninstalled. -/
theorem FallsShort.unpublished {h₁ : Host} {controller : Controller} {mciClk glblClkEna : UInt32}
    (hshort : FallsShort (.start controller mciClk glblClkEna) h₁) :
    Unpublished .initial false h₁ := by
  have hkeep := unpublished_bringUp controller mciClk glblClkEna
  rcases hshort with hup | ⟨csd, hup, -, -⟩
  · rw [hup] at hkeep
    exact hkeep
  · rw [hup] at hkeep
    exact hkeep

/-- With the media record as loaded, the search is that of the first block. -/
theorem findMbr_of_initial {h : Host} (hmedia : h.gMMCHSMedia = .initial) :
    (findMbr h).1 = some true ↔ FirstBlockSigned h := by
  unfold findMbr
  rw [hmedia]
  exact searchMbr_zero h.highCapacity h.controller

/-- The entry point with a card, once a boot record is found. -/
theorem sdCardInitialize_of_found {h h₁ h₂ : Host} {r : UInt32} (install : EfiStatus)
    (hinit : sdCardInit h = (some r, h₁)) (hfound : findMbr h₁ = (some true, h₂)) :
    sdCardInitialize 0 install h
      = (some install, { h₂ with blockIo := h₂.blockIo || install = .efiSuccess }) := by
  unfold sdCardInitialize
  rw [if_pos rfl, Routine.bind_of_returns hinit, Routine.bind_of_returns hfound]
  rfl

/-- **A successful entry point** went through `SdCardInit`, whatever that
returned, and found a boot record. -/
theorem sdCardInitialize_success {sdStatus : UInt32} {install : EfiStatus} {h h' : Host}
    (hrun : sdCardInitialize sdStatus install h = (some .efiSuccess, h')) :
    sdStatus = 0 ∧ install = .efiSuccess ∧ ∃ r h₁ h₂, sdCardInit h = (some r, h₁)
      ∧ findMbr h₁ = (some true, h₂) ∧ h'.gMMCHSMedia = h₁.gMMCHSMedia := by
  by_cases hstatus : sdStatus = 0
  · subst hstatus
    have hrun' := hrun
    unfold sdCardInitialize at hrun
    rw [if_pos rfl] at hrun
    obtain ⟨r, h₁, hinit, hrun⟩ := Routine.bind_eq_some_iff.mp hrun
    obtain ⟨found, h₂, hfound, hrun⟩ := Routine.bind_eq_some_iff.mp hrun
    cases found with
    | false => exact absurd (congrArg Prod.fst hrun) (by simp)
    | true =>
      rw [sdCardInitialize_of_found install hinit hfound] at hrun'
      have hinstall : install = .efiSuccess := Option.some.inj (congrArg Prod.fst hrun')
      have hmedia₂ : h₂.gMMCHSMedia = h₁.gMMCHSMedia :=
        congrArg (fun r => r.2.gMMCHSMedia) hfound.symm
      have hmedia' : h'.gMMCHSMedia = h₂.gMMCHSMedia :=
        congrArg (fun r => r.2.gMMCHSMedia) hrun'.symm
      exact ⟨rfl, hinstall, r, h₁, h₂, hinit, hfound, hmedia'.trans hmedia₂⟩
  · unfold sdCardInitialize at hrun
    rw [if_neg hstatus] at hrun
    exact absurd (Option.some.inj (congrArg Prod.fst hrun)) (by decide)

/-- Behind an initialisation that falls short, a first block with the signature
publishes a geometry that was not decoded. -/
theorem not_publishesDecoded {h₁ : Host} {controller : Controller} {mciClk glblClkEna : UInt32}
    (hshort : FallsShort (.start controller mciClk glblClkEna) h₁) (hsigned : FirstBlockSigned h₁) :
    ¬ PublishesDecoded 0 .efiSuccess (.start controller mciClk glblClkEna) := by
  intro hpublishes
  obtain ⟨r, hinit⟩ := hshort.sdCardInit
  obtain ⟨h₂, hfound⟩ : ∃ h₂, findMbr h₁ = (some true, h₂) :=
    ⟨_, Prod.ext ((findMbr_of_initial hshort.unpublished.1).mpr hsigned) rfl⟩
  obtain ⟨csd, h₀, _, hup, -, hknown, -⟩ :=
    hpublishes _ (sdCardInitialize_of_found .efiSuccess hinit hfound) (by simp)
  rcases hshort with hnone | ⟨csd', hsome, hzero, hone⟩
  · exact absurd (hup.symm.trans hnone) (by simp)
  · have hcsd : csd = csd' := by
      simpa using congrArg Prod.fst (hup.symm.trans hsome)
    subst hcsd
    exact hknown.elim hzero hone

/-- Only a decoded geometry is published, unless the initialisation falls short of
it and the first block can be read all the same. -/
theorem publishesDecoded_iff (sdStatus : UInt32) (install : EfiStatus)
    (controller : Controller) (mciClk glblClkEna : UInt32) :
    PublishesDecoded sdStatus install (.start controller mciClk glblClkEna)
      ↔ ¬ (sdStatus = 0 ∧ install = .efiSuccess
        ∧ ∃ h₁, FallsShort (.start controller mciClk glblClkEna) h₁ ∧ FirstBlockSigned h₁) := by
  constructor
  · rintro hpublishes ⟨rfl, rfl, h₁, hshort, hsigned⟩
    exact not_publishesDecoded hshort hsigned hpublishes
  · intro hspared h' hrun _
    obtain ⟨hstatus, hinstall, r, h₁, h₂, hinit, hfound, hmedia⟩ := sdCardInitialize_success hrun
    -- a sequence that falls short is spared by the condition
    have hcomplete : ∀ h₀, ¬ FallsShort (.start controller mciClk glblClkEna) h₀ := by
      intro h₀ hshort
      obtain ⟨r', hinit'⟩ := hshort.sdCardInit
      have hsame : h₀ = h₁ := congrArg Prod.snd (hinit'.symm.trans hinit)
      subst hsame
      exact hspared ⟨hstatus, hinstall, h₀, hshort,
        (findMbr_of_initial hshort.unpublished.1).mp (congrArg Prod.fst hfound)⟩
    obtain ⟨up, h₀, hup, -⟩ := Routine.bind_eq_some_iff.mp
      (show (bringUp >>= _) _ = _ from hinit)
    have hkeep := unpublished_bringUp controller mciClk glblClkEna
    rw [hup] at hkeep
    cases up with
    | none => exact absurd (.inl hup) (hcomplete h₀)
    | some csd =>
      have hknown : csdStructure csd = 0 ∨ csdStructure csd = 1 := by
        by_contra hunknown
        exact hcomplete h₀ (.inr ⟨csd, hup, not_or.mp hunknown⟩)
      obtain ⟨media, hdecoded, -⟩ := mmcDecodeCsd_blockSize hknown .initial
      have hzero := sdCardInit_of_decoded hup (hkeep.1.symm ▸ hdecoded)
      have hmedia₁ : media = h₁.gMMCHSMedia :=
        congrArg (fun r => r.2.gMMCHSMedia) (hzero.symm.trans hinit)
      refine ⟨csd, h₀, _, hup, hzero, hknown, ?_⟩
      rw [hmedia, ← hmedia₁, hdecoded]

end SdCardDxe
