import HtcLeo.SdCard.Controller

/-!
# Reading one block

`read_a_block` sends `READ_SINGLE_BLOCK` through `mmc_send_cmd`, takes the
128 words of the block from the FIFO as they become available, and ends in
`check_clear_read_status`, which waits for the end of the block and fails on
any of the four data errors.

Three things are said of it. A read that succeeds took the words of the
block its argument names (`readABlock_words`). A read that finds a data error
set never succeeds (`readABlock_of_raised`). And a read during which the card
delivers the block and raises no error does succeed, provided no error was
set when it started (`readABlock_of_delivers`).
-/

namespace SdCardDxe

/-! ## The routines -/

def cmd1 : UInt16 := 0x01
def cmd5 : UInt16 := 0x05
def cmd17 : UInt16 := 0x11
def acmd41 : UInt16 := 0x29
def cmd55 : UInt16 := 0x37

/-- `RD_DATA_TIMEOUT`: a tenth of a second at 20 MHz. -/
def rdDataTimeout : UInt32 := 2000000

/-- The commands whose response carries no CRC. -/
def isOpCond (cmdIndex : UInt16) : Bool :=
  cmdIndex = cmd5 || cmdIndex = acmd41 || cmdIndex = cmd1

/-- The command flags `mmc_send_cmd` has seen. -/
structure CmdFlags where
  cmdTimeout : Bool
  cmdCrcFail : Bool
  cmdResponseEnd : Bool

/-- One round of the loop of `mmc_send_cmd` that waits for a command flag. -/
def cmdRound (cmd : UInt16) (f : CmdFlags) :
    Routine Controller (CmdFlags ⊕ CmdFlags) := do
  if f.cmdCrcFail || f.cmdTimeout || f.cmdResponseEnd
      || (isOpCond (cmd &&& mciCmdCmdIndex) && f.cmdCrcFail) then
    return .inr f
  let mciStatus ← mmioRead32 .mciStatus
  return .inl {
    cmdCrcFail := Word.flag mciStatus mciStatusCmdCrcFail
    cmdResponseEnd := Word.flag mciStatus mciStatusCmdResponseEnd
    -- without the interrupt bit the command times out
    cmdTimeout :=
      if cmd &&& mciCmdInterrupt = 0 then Word.flag mciStatus mciStatusCmdTimeout
      else f.cmdTimeout }

/-- The four response registers, read in order. -/
def readResponse : Routine Controller Response := do
  let r0 ← mmioRead32 (.mciResp resp0)
  let r1 ← mmioRead32 (.mciResp resp1)
  let r2 ← mmioRead32 (.mciResp resp2)
  let r3 ← mmioRead32 (.mciResp resp3)
  return fun n => match n with
    | 0 => r0
    | 1 => r1
    | 2 => r2
    | 3 => r3

/-- The part of `mmc_send_cmd` that waits for a response. -/
def awaitResponse (cmd : UInt16) (arg : UInt32) :
    Routine Controller (Bool × Option Response) := do
  let cmdIndex := cmd &&& mciCmdCmdIndex
  let f ← .loop (fun _ c => c.ticks.length) (cmdRound cmd) ⟨false, false, false⟩
  mmioWrite32 .mciClear mciClearCmdRespEndClt
  waitWhile fun mciStatus => Word.flag mciStatus mciStatusCmdResponseEnd
  mmioWrite32 .mciClear mciClearCmdTimoutClr
  mmioWrite32 .mciClear mciClearCmdCrcFailClr
  let response ← readResponse
  if f.cmdResponseEnd || (f.cmdCrcFail && isOpCond cmdIndex) then
    return (true, some response)
  else if (cmdIndex = cmd5 && arg = 0 && f.cmdTimeout)
      || (cmdIndex = cmd55 && arg = 0 && f.cmdTimeout) then
    return (true, some response)
  else
    return (false, some response)

/-- `mmc_send_cmd`, with the contents of `response[]` if it was written. -/
def mmcSendCmd (cmd : UInt16) (arg : UInt32) :
    Routine Controller (Bool × Option Response) := do
  mmioWrite32 .mciArgument arg
  mmioWrite32 .mciCmd cmd.toUInt32
  if cmd &&& mciCmdResponse ≠ 0 then
    awaitResponse cmd arg
  else do
    waitWhile fun mciStatus => !Word.flag mciStatus mciStatusCmdSent
    mmioWrite32 .mciClear mciClearCmdSentClr
    waitWhile fun mciStatus => Word.flag mciStatus mciStatusCmdSent
    return (true, none)

/-- One round of the loop of `check_clear_read_status`. -/
def checkRound (_ : Unit) : Routine Controller (Unit ⊕ Bool) := do
  let mciStatus ← mmioRead32 .mciStatus
  let dataBlockEnd := Word.flag mciStatus mciStatusDataBlkEnd
  if Word.flag mciStatus mciStatusDataCrcFail then
    return .inr false
  if Word.flag mciStatus mciStatusDataTimeout then
    return .inr false
  if Word.flag mciStatus mciStatusRxOverrun then
    return .inr false
  if Word.flag mciStatus mciStatusStartBitErr then
    return .inr false
  if dataBlockEnd then return .inr true else return .inl ()

/-- `check_clear_read_status`. -/
def checkClearReadStatus : Routine Controller Bool := do
  if !(← .loop (fun _ c => c.ticks.length) checkRound ()) then
    return false
  mmioWrite32 .mciClear mciClearDataBlkEndClr
  mmioWrite32 .mciClear (mciClearDataCrcFailClr ||| mciClearDataTimeoutClr
    ||| mciClearRxOverrunClr ||| mciClearStartBitErrClr)
  waitWhile fun mciStatus => !Word.flag mciStatus mciStatusDataend
  mmioWrite32 .mciClear mciClearDataEndClr
  waitWhile fun mciStatus => Word.flag mciStatus mciStatusDataend
  mmioWrite32 .mciClear mciClearDataBlkEndClr
  return true

/-- One round of the loop of `read_a_block` that empties the FIFO, on the
byte count and the words taken. -/
def fifoRound (s : UInt16 × List UInt32) :
    Routine Controller ((UInt16 × List UInt32) ⊕ (Bool × List UInt32)) := do
  if s.1.toUInt32 < blockSize then
    let mciStatus ← mmioRead32 .mciStatus
    if Word.flag mciStatus mciStatusRxdataAvlbl then
      let w ← mmioRead32 .mciFifo
      return .inl (s.1 + 4, s.2 ++ [w])
    else if !Word.flag mciStatus mciStatusRxactive then
      -- unexpected status on data read
      return .inr (false, s.2)
    else
      return .inl s
  else
    return .inr (true, s.2)

/-- The address `read_a_block` sends for a block. -/
def blockAddress (highCapacity : Bool) (blockNumber : UInt32) : UInt32 :=
  if highCapacity = false then blockNumber * blockSize else blockNumber

/-- What `read_a_block` does once its command has gone out. -/
def receiveBlock (sent : Bool × Option Response) :
    Routine Controller (Bool × List UInt32) := do
  if !sent.1 then
    return (false, [])
  let (filled, words) ← .loop (fun _ c => c.ticks.length) fifoRound (0, [])
  if !filled then
    return (false, words)
  if !(← checkClearReadStatus) then
    return (false, words)
  return (true, words)

/-- `read_a_block`, with the words stored into `read_buffer`. -/
def readABlock (highCapacity : Bool) (blockNumber : UInt32) :
    Routine Controller (Bool × List UInt32) := do
  let address := blockAddress highCapacity blockNumber
  mmioWrite32 .mciDataTimer rdDataTimeout
  mmioWrite32 .mciDataLength blockSize
  mmioWrite32 .mciDataCtl
    (mciDataCtlEnable ||| mciDataCtlDirection ||| (blockSize <<< mciDataCtlBlocksizeS))
  let sent ← mmcSendCmd (cmd17 ||| mciCmdEnable ||| mciCmdResponse) address
  receiveBlock sent

/-! ## Before the command -/

/-- `READ_SINGLE_BLOCK` as written to `MCI_CMD`. -/
def readSingleBlock : UInt16 := cmd17 ||| mciCmdEnable ||| mciCmdResponse

/-- The controller once the command of a read has gone out. -/
def Controller.loaded (c : Controller) (address : UInt32) : Controller :=
  { card := c.card
    argument := address
    cmd := readSingleBlock.toUInt32
    dataTimer := rdDataTimeout
    dataLength := blockSize
    dataCtl := mciDataCtlEnable ||| mciDataCtlDirection ||| (blockSize <<< mciDataCtlBlocksizeS)
    taken := 0
    errors := c.errors
    response := c.responses.headD fun _ => 0
    responses := c.responses.tail
    ticks := c.ticks }

/-- **A read sees no more of the controller than `Controller.loaded` keeps**:
the card, the script, and the data errors set when it starts. -/
theorem readABlock_eq (highCapacity : Bool) (blockNumber : UInt32) (c : Controller) :
    readABlock highCapacity blockNumber c
      = (awaitResponse readSingleBlock (blockAddress highCapacity blockNumber)
          >>= receiveBlock)
        (c.loaded (blockAddress highCapacity blockNumber)) := by
  have hresp : readSingleBlock &&& mciCmdResponse ≠ 0 := by decide
  have hsend : ∀ address, mmcSendCmd readSingleBlock address = (do
      mmioWrite32 .mciArgument address
      mmioWrite32 .mciCmd readSingleBlock.toUInt32
      awaitResponse readSingleBlock address) := by
    intro address
    unfold mmcSendCmd
    simp only [if_pos hresp]
  unfold readABlock
  rw [show cmd17 ||| mciCmdEnable ||| mciCmdResponse = readSingleBlock from rfl, hsend]
  simp only [bind_assoc]
  rfl

/-! ## The rounds -/

/-- The flags a status word shows to `mmc_send_cmd`. -/
def CmdFlags.seen (f : CmdFlags) (cmd : UInt16) (w : UInt32) : CmdFlags where
  cmdCrcFail := Word.flag w mciStatusCmdCrcFail
  cmdResponseEnd := Word.flag w mciStatusCmdResponseEnd
  cmdTimeout :=
    if cmd &&& mciCmdInterrupt = 0 then Word.flag w mciStatusCmdTimeout else f.cmdTimeout

/-- Some command flag was seen. -/
def CmdFlags.any (f : CmdFlags) : Bool := f.cmdCrcFail || f.cmdTimeout || f.cmdResponseEnd

/-- The loop of `mmc_send_cmd` leaves on any flag. -/
theorem cmdRound_of_any {cmd : UInt16} {f : CmdFlags} (h : f.any = true) (c : Controller) :
    cmdRound cmd f c = (some (.inr f), c) := by
  unfold CmdFlags.any at h
  unfold cmdRound
  rw [if_pos (by rw [h, Bool.true_or])]
  rfl

/-- The loop of `mmc_send_cmd` reads on while no flag was seen. -/
theorem cmdRound_of_not_any {cmd : UInt16} {f : CmdFlags} (h : f.any = false)
    (c : Controller) :
    cmdRound cmd f c
      = (mmioRead32 .mciStatus >>= fun w =>
          pure (Sum.inl (f.seen cmd w) : CmdFlags ⊕ CmdFlags)) c := by
  have hcrc : f.cmdCrcFail = false := by
    unfold CmdFlags.any at h
    simp only [Bool.or_eq_false_iff] at h
    exact h.1.1
  unfold CmdFlags.any at h
  unfold cmdRound
  rw [if_neg (by rw [h, hcrc, Bool.and_false]; decide)]
  rfl

theorem cmdRound_consumes (cmd : UInt16) :
    Routine.Consumes (fun _ (c : Controller) => c.ticks.length) (cmdRound cmd) := by
  intro f c f' c' h
  cases hany : f.any with
  | true =>
    rw [cmdRound_of_any hany] at h
    exact absurd (Option.some.inj (congrArg Prod.fst h)) (by simp)
  | false =>
    rw [cmdRound_of_not_any hany] at h
    exact ticks_lt_of_status (fun _ _ => rfl) h

/-- A round of `check_clear_read_status`: fail on an error, else look for the
end of the block. -/
theorem checkRound_eq (u : Unit) :
    checkRound u = (mmioRead32 .mciStatus >>= fun w => pure
      (if (DataErrors.ofStatus w).raised then .inr false
        else if Word.flag w mciStatusDataBlkEnd then .inr true else .inl ())) := by
  unfold checkRound
  refine congrArg _ (funext fun w => ?_)
  unfold DataErrors.raised DataErrors.ofStatus
  cases Word.flag w mciStatusDataCrcFail <;> cases Word.flag w mciStatusDataTimeout <;>
    cases Word.flag w mciStatusRxOverrun <;> cases Word.flag w mciStatusStartBitErr <;>
    cases Word.flag w mciStatusDataBlkEnd <;> rfl

theorem checkRound_consumes :
    Routine.Consumes (fun _ (c : Controller) => c.ticks.length) checkRound := by
  intro u c u' c' h
  rw [checkRound_eq] at h
  exact ticks_lt_of_status (fun _ _ => rfl) h

/-- A round that empties the FIFO of a block not yet complete. -/
theorem fifoRound_of_lt {s : UInt16 × List UInt32} (h : s.1.toUInt32 < blockSize)
    (c : Controller) :
    fifoRound s c
      = (mmioRead32 .mciStatus >>= fun w =>
          if Word.flag w mciStatusRxdataAvlbl then do
            let x ← mmioRead32 .mciFifo
            pure (.inl (s.1 + 4, s.2 ++ [x]))
          else if !Word.flag w mciStatusRxactive then pure (.inr (false, s.2))
          else pure (.inl s)) c := by
  unfold fifoRound
  rw [if_pos h]

/-- A round at the end of the block. -/
theorem fifoRound_of_ge {s : UInt16 × List UInt32} (h : ¬ s.1.toUInt32 < blockSize)
    (c : Controller) : fifoRound s c = (some (.inr (true, s.2)), c) := by
  unfold fifoRound
  rw [if_neg h]
  rfl

theorem fifoRound_consumes :
    Routine.Consumes (fun _ (c : Controller) => c.ticks.length) fifoRound := by
  intro s c s' c' h
  by_cases hs : s.1.toUInt32 < blockSize
  · rw [fifoRound_of_lt hs] at h
    refine ticks_lt_of_status (fun w c => ?_) h
    split
    · rfl
    · split <;> rfl
  · rw [fifoRound_of_ge hs] at h
    exact absurd (Option.some.inj (congrArg Prod.fst h)) (by simp)

/-! ## What the command leaves alone -/

/-- A round of the loop of `mmc_send_cmd` keeps whatever status reads keep. -/
theorem keeps_cmdRound {I : Controller → Prop} (hs : Routine.Keeps I (mmioRead32 .mciStatus))
    (cmd : UInt16) (f : CmdFlags) : Routine.Keeps I (cmdRound cmd f) := by
  intro c hI
  cases hany : f.any with
  | true => rw [cmdRound_of_any hany]; exact hI
  | false =>
    rw [cmdRound_of_not_any hany]
    exact hs.bind (fun _ => Routine.keeps_pure I _) c hI

/-- Sending a command keeps whatever status reads and the clearing of flags
other than the data errors keep. -/
theorem keeps_awaitResponse {I : Controller → Prop}
    (hs : Routine.Keeps I (mmioRead32 .mciStatus))
    (hc : ∀ w, DataErrors.ofStatus w = .none → Routine.Keeps I (mmioWrite32 .mciClear w))
    (cmd : UInt16) (arg : UInt32) : Routine.Keeps I (awaitResponse cmd arg) := by
  have hresp : Routine.Keeps I readResponse :=
    (Routine.keeps_look I _).bind fun _ => (Routine.keeps_look I _).bind fun _ =>
      (Routine.keeps_look I _).bind fun _ => (Routine.keeps_look I _).bind fun _ =>
        Routine.keeps_pure I _
  unfold awaitResponse
  refine (Routine.loop_keeps (keeps_cmdRound hs cmd) _).bind fun f =>
    (hc _ (by decide)).bind fun _ =>
    (keeps_waitWhile hs _).bind fun _ => (hc _ (by decide)).bind fun _ =>
      (hc _ (by decide)).bind fun _ => hresp.bind fun response => ?_
  split
  · exact Routine.keeps_pure I _
  · split <;> exact Routine.keeps_pure I _

/-- Emptying the FIFO keeps whatever status reads and FIFO reads keep. -/
theorem keeps_fifoRound {I : Controller → Prop}
    (hs : Routine.Keeps I (mmioRead32 .mciStatus))
    (hf : Routine.Keeps I (mmioRead32 .mciFifo)) (s : UInt16 × List UInt32) :
    Routine.Keeps I (fifoRound s) := by
  unfold fifoRound
  split
  · refine hs.bind fun w => ?_
    split
    · exact hf.bind fun x => Routine.keeps_pure I _
    · split <;> exact Routine.keeps_pure I _
  · exact Routine.keeps_pure I _

/-! ## A read that starts with an error set -/

/-- The end of a block is never reached past an error. -/
theorem checkClearReadStatus_of_raised {c c' : Controller} {ok : Bool}
    (hc : c.errors.raised = true) (h : checkClearReadStatus c = (some ok, c')) :
    ok = false := by
  unfold checkClearReadStatus at h
  obtain ⟨ended, c₁, hloop, hrest⟩ := Routine.bind_eq_some_iff.mp h
  have hended : ended = false := by
    refine Routine.loop_sound (fun _ c => c.errors.raised = true) (fun ok _ => ok = false)
      (fun u c u' c' hI hround => ?_) (fun u c ok c' hI hround => ?_) hc hloop
    · have hkeep := keeps_raised_status.bind
        (f := fun w => pure (if (DataErrors.ofStatus w).raised then .inr false
          else if Word.flag w mciStatusDataBlkEnd then .inr true else .inl ()))
        (fun _ => Routine.keeps_pure _ (_ : Unit ⊕ Bool)) c hI
      rw [checkRound_eq] at hround
      rw [hround] at hkeep
      exact hkeep
    · rw [checkRound_eq] at hround
      obtain ⟨w, c₂, hread, hret⟩ := Routine.bind_eq_some_iff.mp hround
      have hw : (DataErrors.ofStatus w).raised = true := by
        cases ht : c.ticks with
        | nil =>
          rw [mmioRead32_status_end ht] at hread
          exact absurd (congrArg Prod.fst hread) (by simp)
        | cons x rest =>
          rw [mmioRead32_status ht] at hread
          obtain rfl := Option.some.inj (congrArg Prod.fst hread)
          rw [DataErrors.ofStatus_or_bits, DataErrors.raised_union, hI, Bool.or_true]
      rw [if_pos hw] at hret
      simpa using (congrArg Prod.fst hret).symm
  subst hended
  exact (Option.some.inj (congrArg Prod.fst hrest)).symm

/-- A block received: the FIFO was emptied and the end of the block reached. -/
theorem receiveBlock_success {sent : Bool × Option Response} {c c' : Controller}
    {words : List UInt32} (h : receiveBlock sent c = (some (true, words), c')) :
    ∃ c₁, Routine.loop (fun _ c => c.ticks.length) fifoRound (0, []) c
        = (some (true, words), c₁)
      ∧ checkClearReadStatus c₁ = (some true, c') := by
  unfold receiveBlock at h
  cases hsent : sent.1 with
  | false =>
    rw [hsent] at h
    exact absurd (congrArg Prod.fst (Option.some.inj (congrArg Prod.fst h))) (by simp)
  | true =>
    rw [hsent] at h
    obtain ⟨⟨filled, words'⟩, c₁, hloop, hrest⟩ := Routine.bind_eq_some_iff.mp h
    cases filled with
    | false =>
      exact absurd (congrArg Prod.fst (Option.some.inj (congrArg Prod.fst hrest))) (by simp)
    | true =>
      obtain ⟨ok, c₂, hcheck, hret⟩ := Routine.bind_eq_some_iff.mp hrest
      cases ok with
      | false =>
        exact absurd (congrArg Prod.fst (Option.some.inj (congrArg Prod.fst hret))) (by simp)
      | true =>
        obtain ⟨rfl, rfl⟩ : words' = words ∧ c₂ = c' := by
          simpa [Prod.ext_iff] using hret
        exact ⟨c₁, hloop, hcheck⟩

/-- A read that succeeds: its command was answered, the FIFO emptied, and the
end of the block reached. -/
theorem readABlock_success {highCapacity : Bool} {blockNumber : UInt32}
    {c c' : Controller} {words : List UInt32}
    (h : readABlock highCapacity blockNumber c = (some (true, words), c')) :
    ∃ sent c₁ c₂,
      awaitResponse readSingleBlock (blockAddress highCapacity blockNumber)
          (c.loaded (blockAddress highCapacity blockNumber)) = (some sent, c₁)
        ∧ Routine.loop (fun _ c => c.ticks.length) fifoRound (0, []) c₁
          = (some (true, words), c₂)
        ∧ checkClearReadStatus c₂ = (some true, c') := by
  rw [readABlock_eq] at h
  obtain ⟨sent, c₁, hsend, hrest⟩ := Routine.bind_eq_some_iff.mp h
  obtain ⟨c₂, hloop, hcheck⟩ := receiveBlock_success hrest
  exact ⟨sent, c₁, c₂, hsend, hloop, hcheck⟩

/-- **A read that starts with a data error set never succeeds.** -/
theorem readABlock_of_raised {highCapacity : Bool} {blockNumber : UInt32}
    {c c' : Controller} {ok : Bool} {words : List UInt32} (hc : c.errors.raised = true)
    (h : readABlock highCapacity blockNumber c = (some (ok, words), c')) : ok = false := by
  cases ok with
  | false => rfl
  | true =>
    obtain ⟨sent, c₁, c₂, hsend, hloop, hcheck⟩ := readABlock_success h
    have hclear : ∀ w, DataErrors.ofStatus w = .none →
        Routine.Keeps (fun c : Controller => c.errors.raised = true)
          (mmioWrite32 .mciClear w) := by
      intro w hw c hI
      show (c.errors.clear w).raised = true
      rw [DataErrors.clear_of_ofStatus hw, hI]
    have hc₁ : c₁.errors.raised = true := by
      have hkeep := keeps_awaitResponse keeps_raised_status hclear readSingleBlock
        (blockAddress highCapacity blockNumber)
        (c.loaded (blockAddress highCapacity blockNumber)) hc
      rw [hsend] at hkeep
      exact hkeep
    have hc₂ : c₂.errors.raised = true := by
      have hkeep : (Routine.loop (fun _ (c : Controller) => c.ticks.length)
          fifoRound (0, []) c₁).2.errors.raised = true :=
        Routine.loop_keeps (keeps_fifoRound keeps_raised_status fun _ hI => hI) _ c₁ hc₁
      rw [hloop] at hkeep
      exact hkeep
    exact checkClearReadStatus_of_raised hc₂ hcheck

/-! ## What a successful read took from the card -/

/-- The card and the command of a controller that serves a block read. -/
structure Serving (card : Card) (address : UInt32) (c : Controller) : Prop where
  card_eq : c.card = card
  argument_eq : c.argument = address
  cmd_eq : c.cmd = readSingleBlock.toUInt32

/-- The bytes of the block an address names. -/
def Card.blockBytes (card : Card) (address : UInt32) : ℕ → UInt8 :=
  fun j => card.bytes (card.offset address + j)

/-- The FIFO of a controller that serves a block read gives the words of the
block in order. -/
theorem Serving.fifoWord {card : Card} {address : UInt32} {c : Controller}
    (h : Serving card address c) :
    c.fifoWord = Word.ofBytes fun j => card.blockBytes address (4 * c.taken + j) := by
  unfold Controller.fifoWord
  rw [h.cmd_eq, if_pos (by decide), h.card_eq, h.argument_eq]
  rfl

/-- The state of the FIFO loop: so many words taken, and these the first of
the block. -/
structure Taking (card : Card) (address : UInt32) (s : UInt16 × List UInt32)
    (c : Controller) : Prop where
  serving : Serving card address c
  taken : c.taken = s.2.length
  count : s.1.toNat = 4 * s.2.length
  le : s.2.length ≤ 128
  words : s.2 = Buffer.wordsOf (card.blockBytes address) s.2.length

/-- A status read changes nothing the FIFO loop relies on. -/
theorem taking_status {card : Card} {address : UInt32} {s : UInt16 × List UInt32} :
    Routine.Keeps (Taking card address s) (mmioRead32 .mciStatus) :=
  keeps_status fun _ _ _ h =>
    ⟨⟨h.serving.card_eq, h.serving.argument_eq, h.serving.cmd_eq⟩, h.taken, h.count,
      h.le, h.words⟩

/-- Taking a word of a block not yet complete. -/
theorem Taking.word {card : Card} {address : UInt32} {s : UInt16 × List UInt32}
    {c : Controller} (h : Taking card address s c) (hlt : s.1.toUInt32 < blockSize) :
    Taking card address (s.1 + 4, s.2 ++ [c.fifoWord]) { c with taken := c.taken + 1 } := by
  have hlen : s.2.length < 128 := by
    have hcount := h.count
    have hlt' : s.1.toNat < 512 := by
      simpa [blockSize, UInt32.lt_iff_toNat_lt] using hlt
    omega
  refine ⟨⟨h.serving.card_eq, h.serving.argument_eq, h.serving.cmd_eq⟩, ?_, ?_, ?_, ?_⟩
  · simp [h.taken]
  · rw [UInt16.toNat_add, h.count, List.length_append, List.length_singleton]
    show (4 * s.2.length + 4) % 65536 = _
    omega
  · simp only [List.length_append, List.length_singleton]
    omega
  · simp only [List.length_append, List.length_singleton]
    rw [Buffer.wordsOf_succ, ← h.words, h.serving.fifoWord, h.taken]

/-- The FIFO loop that runs to the end has taken the whole block. -/
theorem fifoLoop_words {card : Card} {address : UInt32} {c c' : Controller}
    {words : List UInt32} (hc : Serving card address c) (h0 : c.taken = 0)
    (h : Routine.loop (fun _ c => c.ticks.length) fifoRound (0, []) c
      = (some (true, words), c')) :
    words = Buffer.wordsOf (card.blockBytes address) 128 ∧ Serving card address c' := by
  have hstart : Taking card address (0, []) c := ⟨hc, h0, rfl, by simp, rfl⟩
  refine Routine.loop_sound (Taking card address)
    (fun r c => r.1 = true →
      r.2 = Buffer.wordsOf (card.blockBytes address) 128 ∧ Serving card address c)
    (fun s c s' c' hI hround => ?_) (fun s c r c' hI hround => ?_) hstart h rfl
  · -- a round that goes on has taken a word, or nothing
    have hlt : s.1.toUInt32 < blockSize := by
      by_contra hge
      rw [fifoRound_of_ge hge] at hround
      exact absurd (Option.some.inj (congrArg Prod.fst hround)) (by simp)
    rw [fifoRound_of_lt hlt] at hround
    obtain ⟨w, c₁, hread, hrest⟩ := Routine.bind_eq_some_iff.mp hround
    have hI₁ : Taking card address s c₁ := by
      have hkeep := taking_status c hI
      rw [hread] at hkeep
      exact hkeep
    split at hrest
    · obtain ⟨rfl, rfl⟩ : (s.1 + 4, s.2 ++ [c₁.fifoWord]) = s'
          ∧ { c₁ with taken := c₁.taken + 1 } = c' :=
        ⟨Sum.inl.inj (Option.some.inj (congrArg Prod.fst hrest)), congrArg Prod.snd hrest⟩
      exact hI₁.word hlt
    · split at hrest
      · exact absurd (Option.some.inj (congrArg Prod.fst hrest)) (by simp)
      · obtain ⟨rfl, rfl⟩ : s = s' ∧ c₁ = c' :=
          ⟨Sum.inl.inj (Option.some.inj (congrArg Prod.fst hrest)), congrArg Prod.snd hrest⟩
        exact hI₁
  · intro hok
    by_cases hlt : s.1.toUInt32 < blockSize
    · rw [fifoRound_of_lt hlt] at hround
      obtain ⟨w, c₁, hread, hrest⟩ := Routine.bind_eq_some_iff.mp hround
      split at hrest
      · exact absurd (Option.some.inj (congrArg Prod.fst hrest)) (by simp)
      · split at hrest
        · have hr := Sum.inr.inj (Option.some.inj (congrArg Prod.fst hrest))
          rw [← hr] at hok
          exact absurd hok (by simp)
        · exact absurd (Option.some.inj (congrArg Prod.fst hrest)) (by simp)
    · rw [fifoRound_of_ge hlt] at hround
      obtain ⟨rfl, rfl⟩ : (true, s.2) = r ∧ c = c' :=
        ⟨Sum.inr.inj (Option.some.inj (congrArg Prod.fst hround)), congrArg Prod.snd hround⟩
      have hlen : s.2.length = 128 := by
        have hcount := hI.count
        have hge : ¬ s.1.toNat < 512 := by
          simpa [blockSize, UInt32.lt_iff_toNat_lt] using hlt
        have hle := hI.le
        omega
      exact ⟨hlen ▸ hI.words, hI.serving⟩

/-- Ending a block keeps whatever status reads and clearing keep. -/
theorem keeps_checkClearReadStatus {I : Controller → Prop}
    (hs : Routine.Keeps I (mmioRead32 .mciStatus))
    (hc : ∀ w, Routine.Keeps I (mmioWrite32 .mciClear w)) :
    Routine.Keeps I checkClearReadStatus := by
  have hround : ∀ u, Routine.Keeps I (checkRound u) := by
    intro u
    rw [checkRound_eq]
    exact hs.bind fun _ => Routine.keeps_pure I _
  unfold checkClearReadStatus
  refine (Routine.loop_keeps hround _).bind fun ended => ?_
  split
  · exact Routine.keeps_pure I _
  · exact (hc _).bind fun _ => (hc _).bind fun _ => (keeps_waitWhile hs _).bind fun _ =>
      (hc _).bind fun _ => (keeps_waitWhile hs _).bind fun _ => (hc _).bind fun _ =>
        Routine.keeps_pure I _

/-- **A read that succeeds took the words of the block its command named.** -/
theorem readABlock_words {highCapacity : Bool} {blockNumber : UInt32}
    {c c' : Controller} {words : List UInt32}
    (h : readABlock highCapacity blockNumber c = (some (true, words), c')) :
    words = Buffer.wordsOf
        (c.card.blockBytes (blockAddress highCapacity blockNumber)) 128
      ∧ c'.card = c.card ∧ c'.argument = blockAddress highCapacity blockNumber := by
  obtain ⟨sent, c₁, c₂, hsend, hloop, hcheck⟩ := readABlock_success h
  have hclear : ∀ w, Routine.Keeps
      (Serving c.card (blockAddress highCapacity blockNumber)) (mmioWrite32 .mciClear w) :=
    fun w c hI => ⟨hI.card_eq, hI.argument_eq, hI.cmd_eq⟩
  have hstatus : Routine.Keeps (Serving c.card (blockAddress highCapacity blockNumber))
      (mmioRead32 .mciStatus) :=
    keeps_status fun _ _ _ hI => ⟨hI.card_eq, hI.argument_eq, hI.cmd_eq⟩
  have hsent : Serving c.card (blockAddress highCapacity blockNumber) c₁
      ∧ c₁.taken = 0 := by
    have hkeep := keeps_awaitResponse
      (I := fun c₁ => Serving c.card (blockAddress highCapacity blockNumber) c₁ ∧ c₁.taken = 0)
      (keeps_status fun _ _ _ hI => ⟨⟨hI.1.card_eq, hI.1.argument_eq, hI.1.cmd_eq⟩, hI.2⟩)
      (fun w _ c hI => ⟨hclear w c hI.1, hI.2⟩) readSingleBlock
      (blockAddress highCapacity blockNumber)
      (c.loaded (blockAddress highCapacity blockNumber)) ⟨⟨rfl, rfl, rfl⟩, rfl⟩
    rw [hsend] at hkeep
    exact hkeep
  obtain ⟨hwords, hserving⟩ := fifoLoop_words hsent.1 hsent.2 hloop
  have hend := keeps_checkClearReadStatus hstatus hclear c₂ hserving
  rw [hcheck] at hend
  exact ⟨hwords, hend.card_eq, hend.argument_eq⟩

/-! ## A read that goes well -/

/-- A run of polls: status words that make the driver poll again, then one
that ends the wait. -/
def Polled (again leaves : UInt32 → Bool) (l : List UInt32) : Prop :=
  ∃ before w, l = before ++ [w] ∧ (∀ x ∈ before, again x = true) ∧ leaves w = true

/-- Status words while the card hands out `n` words of a block: each shows a
word in the FIFO, or a transfer still going on. -/
inductive Feeds : ℕ → List UInt32 → Prop
  | done : Feeds 0 []
  | word {n : ℕ} {w : UInt32} {l : List UInt32} :
    Word.flag w mciStatusRxdataAvlbl = true → Feeds n l → Feeds (n + 1) (w :: l)
  | idle {n : ℕ} {w : UInt32} {l : List UInt32} :
    Word.flag w mciStatusRxdataAvlbl = false → Word.flag w mciStatusRxactive = true →
    Feeds (n + 1) l → Feeds (n + 1) (w :: l)

/-- No status word raises a data error. -/
def Quiet (l : List UInt32) : Prop := ∀ w ∈ l, DataErrors.ofStatus w = .none

/-- A status word that shows a command flag. -/
def showsCmdFlag (w : UInt32) : Bool :=
  Word.flag w mciStatusCmdCrcFail || Word.flag w mciStatusCmdTimeout
    || Word.flag w mciStatusCmdResponseEnd

/-- **The card delivers the block and raises no error**: the command is
answered and its flag goes down again, the 128 words come, the end of the
block shows, and the end of the data shows and goes down again. -/
structure Delivers (l : List UInt32) : Prop where
  quiet : Quiet l
  phases : ∃ answer down data block fin up, l = answer ++ down ++ data ++ block ++ fin ++ up
    ∧ Polled (fun w => !showsCmdFlag w) (fun w => Word.flag w mciStatusCmdResponseEnd) answer
    ∧ Polled (fun w => Word.flag w mciStatusCmdResponseEnd)
      (fun w => !Word.flag w mciStatusCmdResponseEnd) down
    ∧ Feeds 128 data
    ∧ Polled (fun w => !Word.flag w mciStatusDataBlkEnd)
      (fun w => Word.flag w mciStatusDataBlkEnd) block
    ∧ Polled (fun w => !Word.flag w mciStatusDataend)
      (fun w => Word.flag w mciStatusDataend) fin
    ∧ Polled (fun w => Word.flag w mciStatusDataend)
      (fun w => !Word.flag w mciStatusDataend) up

theorem quiet_append {l l' : List UInt32} : Quiet (l ++ l') ↔ Quiet l ∧ Quiet l' :=
  List.forall_mem_append

theorem quiet_replicate (n : ℕ) {w : UInt32} (h : DataErrors.ofStatus w = .none) :
    Quiet (List.replicate n w) := by
  intro x hx
  rw [List.eq_of_mem_replicate hx]
  exact h

theorem quiet_singleton {w : UInt32} (h : DataErrors.ofStatus w = .none) : Quiet [w] :=
  quiet_replicate 1 h

/-- A wait of the driver on a run of polls. -/
theorem waitWhile_of_polled {p : UInt32 → Bool} {l rest : List UInt32} {c : Controller}
    (hl : Polled p (fun w => !p w) l) (hq : Quiet l) (ht : c.ticks = l ++ rest)
    (hc : c.errors = .none) : waitWhile p c = (some (), { c with ticks := rest }) := by
  obtain ⟨before, w, rfl, hbefore, hw⟩ := hl
  refine waitWhile_of_script (w := w) ?_ hc hq hbefore (by simpa using hw)
  rw [ht, List.append_assoc]
  rfl

/-- The loop of `mmc_send_cmd` on a command that is answered. -/
theorem cmdLoop_of_polled (cmd : UInt16) {l rest : List UInt32}
    (hl : Polled (fun w => !showsCmdFlag w)
      (fun w => Word.flag w mciStatusCmdResponseEnd) l) (hq : Quiet l) {c : Controller}
    (ht : c.ticks = l ++ rest) (hc : c.errors = .none) {f₀ : CmdFlags}
    (hf₀ : f₀.any = false) :
    ∃ f, Routine.loop (fun _ (c : Controller) => c.ticks.length) (cmdRound cmd) f₀ c
        = (some f, { c with ticks := rest }) ∧ f.cmdResponseEnd = true := by
  obtain ⟨before, w, rfl, hbefore, hw⟩ := hl
  induction before generalizing c f₀ with
  | nil =>
    have hread := mmioRead32_status_clean ht hc (hq w (by simp))
    have hround : cmdRound cmd f₀ c
        = (some (.inl (f₀.seen cmd w)), { c with ticks := rest }) := by
      rw [cmdRound_of_not_any hf₀, Routine.bind_of_returns hread]
      rfl
    have hany : (f₀.seen cmd w).any = true := by
      show (_ || _ || Word.flag w mciStatusCmdResponseEnd) = true
      rw [show Word.flag w mciStatusCmdResponseEnd = true from hw, Bool.or_true]
    refine ⟨f₀.seen cmd w, ?_, hw⟩
    exact (Routine.loop_of_again (cmdRound_consumes cmd) hround).trans
      (Routine.loop_of_leaves (cmdRound_consumes cmd) (cmdRound_of_any hany _))
  | cons x before ih =>
    have hread := mmioRead32_status_clean ht hc (hq x (by simp))
    have hround : cmdRound cmd f₀ c
        = (some (.inl (f₀.seen cmd x)), { c with ticks := before ++ [w] ++ rest }) := by
      rw [cmdRound_of_not_any hf₀, Routine.bind_of_returns hread]
      rfl
    have hnone : (f₀.seen cmd x).any = false := by
      have hx := hbefore x (by simp)
      have hf : f₀.cmdTimeout = false := by
        unfold CmdFlags.any at hf₀
        simp only [Bool.or_eq_false_iff] at hf₀
        exact hf₀.1.2
      unfold showsCmdFlag at hx
      simp only [Bool.not_eq_true', Bool.or_eq_false_iff] at hx
      obtain ⟨⟨hcrc, htimeout⟩, hend⟩ := hx
      unfold CmdFlags.any CmdFlags.seen
      simp only [hcrc, htimeout, hend, hf, ite_self, Bool.or_false]
    rw [Routine.loop_of_again (cmdRound_consumes cmd) hround]
    exact ih (c := { c with ticks := before ++ [w] ++ rest }) hc hnone
      (fun y hy => hq y (List.mem_cons_of_mem x hy)) rfl
      (fun y hy => hbefore y (List.mem_cons_of_mem x hy))

/-- On a controller without errors, clearing changes nothing. -/
theorem mmioWrite32_clear_clean {c : Controller} (hc : c.errors = .none) (w : UInt32) :
    mmioWrite32 .mciClear w c = (some (), c) := by
  show (some (), { c with errors := c.errors.clear w }) = (some (), c)
  rw [hc, DataErrors.none_clear, ← hc]

/-- A command that is answered. -/
theorem awaitResponse_of_polled (cmd : UInt16) (arg : UInt32) {answer down rest : List UInt32}
    (hanswer : Polled (fun w => !showsCmdFlag w)
      (fun w => Word.flag w mciStatusCmdResponseEnd) answer)
    (hdown : Polled (fun w => Word.flag w mciStatusCmdResponseEnd)
      (fun w => !Word.flag w mciStatusCmdResponseEnd) down)
    (hqa : Quiet answer) (hqd : Quiet down) {c : Controller}
    (ht : c.ticks = answer ++ (down ++ rest))
    (hc : c.errors = .none) :
    ∃ response, awaitResponse cmd arg c
      = (some (true, response), { c with ticks := rest }) := by
  have hnone : (CmdFlags.mk false false false).any = false := rfl
  obtain ⟨f, hloop, hf⟩ := cmdLoop_of_polled cmd hanswer hqa ht hc hnone
  have hwait : waitWhile (fun w => Word.flag w mciStatusCmdResponseEnd)
      { c with ticks := down ++ rest } = (some (), { c with ticks := rest }) :=
    waitWhile_of_polled hdown hqd rfl hc
  have hclear : ∀ t w, mmioWrite32 .mciClear w { c with ticks := t }
      = (some (), { c with ticks := t }) := fun t w =>
    mmioWrite32_clear_clean (c := { c with ticks := t }) hc w
  unfold awaitResponse
  rw [Routine.bind_of_returns hloop, Routine.bind_of_returns (hclear _ _),
    Routine.bind_of_returns hwait, Routine.bind_of_returns (hclear _ _),
    Routine.bind_of_returns (hclear _ _)]
  simp only [hf, Bool.true_or, if_true]
  exact ⟨_, rfl⟩

/-- The FIFO loop on a card that hands out the rest of the block. -/
theorem fifoLoop_of_feeds {n : ℕ} {l : List UInt32} (hl : Feeds n l) (hq : Quiet l)
    {rest : List UInt32} {c : Controller} (ht : c.ticks = l ++ rest) (hc : c.errors = .none)
    {s : UInt16 × List UInt32} (hs : s.1.toNat + 4 * n = 512) :
    ∃ words, Routine.loop (fun _ (c : Controller) => c.ticks.length) fifoRound s c
      = (some (true, words), { c with taken := c.taken + n, ticks := rest }) := by
  induction hl generalizing c s with
  | done =>
    have hge : ¬ s.1.toUInt32 < blockSize := by
      simp [blockSize, UInt32.lt_iff_toNat_lt]
      omega
    obtain rfl : c.ticks = rest := ht
    exact ⟨s.2, Routine.loop_of_leaves fifoRound_consumes (fifoRound_of_ge hge c)⟩
  | @word n w l hw hl ih =>
    have hlt : s.1.toUInt32 < blockSize := by
      simp [blockSize, UInt32.lt_iff_toNat_lt]
      omega
    have hread := mmioRead32_status_clean ht hc (hq w (by simp))
    have hround : fifoRound s c = (some (.inl (s.1 + 4,
        s.2 ++ [Controller.fifoWord { c with ticks := l ++ rest }])),
        { c with taken := c.taken + 1, ticks := l ++ rest }) := by
      rw [fifoRound_of_lt hlt, Routine.bind_of_returns hread, if_pos hw]
      rfl
    rw [Routine.loop_of_again fifoRound_consumes hround]
    have hcount : (s.1 + 4).toNat + 4 * n = 512 := by
      rw [UInt16.toNat_add]
      show (s.1.toNat + 4) % 65536 + 4 * n = 512
      omega
    obtain ⟨words, hloop⟩ := ih (fun y hy => hq y (List.mem_cons_of_mem w hy))
      (c := { c with taken := c.taken + 1, ticks := l ++ rest }) rfl hc
      (s := (s.1 + 4, s.2 ++ [Controller.fifoWord { c with ticks := l ++ rest }])) hcount
    refine ⟨words, hloop.trans ?_⟩
    show (some (true, words), { c with taken := c.taken + 1 + n, ticks := rest }) = _
    rw [show c.taken + 1 + n = c.taken + (n + 1) by omega]
  | @idle n w l hw hactive hl ih =>
    have hlt : s.1.toUInt32 < blockSize := by
      simp [blockSize, UInt32.lt_iff_toNat_lt]
      omega
    have hread := mmioRead32_status_clean ht hc (hq w (by simp))
    have hround : fifoRound s c = (some (.inl s), { c with ticks := l ++ rest }) := by
      rw [fifoRound_of_lt hlt, Routine.bind_of_returns hread, if_neg (by simp [hw]),
        if_neg (by simp [hactive])]
      rfl
    rw [Routine.loop_of_again fifoRound_consumes hround]
    exact ih (fun y hy => hq y (List.mem_cons_of_mem w hy))
      (c := { c with ticks := l ++ rest }) rfl hc hs

/-- The loop of `check_clear_read_status` on a block that ends. -/
theorem checkLoop_of_polled {l rest : List UInt32}
    (hl : Polled (fun w => !Word.flag w mciStatusDataBlkEnd)
      (fun w => Word.flag w mciStatusDataBlkEnd) l) (hq : Quiet l) {c : Controller}
    (ht : c.ticks = l ++ rest) (hc : c.errors = .none) :
    Routine.loop (fun _ (c : Controller) => c.ticks.length) checkRound () c
      = (some true, { c with ticks := rest }) := by
  obtain ⟨before, w, rfl, hbefore, hw⟩ := hl
  have hquiet : DataErrors.none.raised = false := rfl
  induction before generalizing c with
  | nil =>
    have hread := mmioRead32_status_clean ht hc (hq w (by simp))
    refine Routine.loop_of_leaves checkRound_consumes ?_
    rw [checkRound_eq, Routine.bind_of_returns hread, hq w (by simp), hquiet, if_neg (by simp),
      if_pos hw]
    rfl
  | cons x before ih =>
    have hread := mmioRead32_status_clean ht hc (hq x (by simp))
    have hx : Word.flag x mciStatusDataBlkEnd = false := by simpa using hbefore x (by simp)
    have hround : checkRound () c
        = (some (.inl ()), { c with ticks := before ++ [w] ++ rest }) := by
      rw [checkRound_eq, Routine.bind_of_returns hread, hq x (by simp), hquiet,
        if_neg (by simp), if_neg (by simp [hx])]
      rfl
    rw [Routine.loop_of_again checkRound_consumes hround]
    exact ih (c := { c with ticks := before ++ [w] ++ rest }) hc
      (fun y hy => hq y (List.mem_cons_of_mem x hy)) rfl
      (fun y hy => hbefore y (List.mem_cons_of_mem x hy))

/-- A block that ends. -/
theorem checkClearReadStatus_of_polled {block fin up rest : List UInt32}
    (hblock : Polled (fun w => !Word.flag w mciStatusDataBlkEnd)
      (fun w => Word.flag w mciStatusDataBlkEnd) block)
    (hfin : Polled (fun w => !Word.flag w mciStatusDataend)
      (fun w => Word.flag w mciStatusDataend) fin)
    (hup : Polled (fun w => Word.flag w mciStatusDataend)
      (fun w => !Word.flag w mciStatusDataend) up)
    (hqb : Quiet block) (hqf : Quiet fin) (hqu : Quiet up) {c : Controller}
    (ht : c.ticks = block ++ (fin ++ (up ++ rest))) (hc : c.errors = .none) :
    checkClearReadStatus c = (some true, { c with ticks := rest }) := by
  have hloop := checkLoop_of_polled hblock hqb ht hc
  have hclear : ∀ t w, mmioWrite32 .mciClear w { c with ticks := t }
      = (some (), { c with ticks := t }) := fun t w =>
    mmioWrite32_clear_clean (c := { c with ticks := t }) hc w
  have hfin' : Polled (fun w => !Word.flag w mciStatusDataend)
      (fun w => !!Word.flag w mciStatusDataend) fin := by
    simpa only [Bool.not_not] using hfin
  have hwait₁ : waitWhile (fun w => !Word.flag w mciStatusDataend)
      { c with ticks := fin ++ (up ++ rest) } = (some (), { c with ticks := up ++ rest }) :=
    waitWhile_of_polled hfin' hqf rfl hc
  have hwait₂ : waitWhile (fun w => Word.flag w mciStatusDataend)
      { c with ticks := up ++ rest } = (some (), { c with ticks := rest }) :=
    waitWhile_of_polled hup hqu rfl hc
  unfold checkClearReadStatus
  rw [Routine.bind_of_returns hloop]
  simp only [Bool.not_true, Bool.false_eq_true, if_false]
  rw [Routine.bind_of_returns (hclear _ _), Routine.bind_of_returns (hclear _ _),
    Routine.bind_of_returns hwait₁, Routine.bind_of_returns (hclear _ _),
    Routine.bind_of_returns hwait₂, Routine.bind_of_returns (hclear _ _)]
  rfl

/-- **A read during which the card delivers the block and raises no error
succeeds**, if no data error is set when it starts; and it leaves none set. -/
theorem readABlock_of_delivers (highCapacity : Bool) (blockNumber : UInt32)
    {l rest : List UInt32} (hl : Delivers l) {c : Controller} (ht : c.ticks = l ++ rest)
    (hc : c.errors = .none) :
    ∃ words c', readABlock highCapacity blockNumber c = (some (true, words), c')
      ∧ c'.ticks = rest ∧ c'.errors = .none := by
  obtain ⟨answer, down, data, block, fin, up, rfl, hanswer, hdown, hdata, hblock, hfin, hup⟩ :=
    hl.phases
  obtain ⟨⟨⟨⟨⟨hqa, hqd⟩, hqw⟩, hqb⟩, hqf⟩, hqu⟩ :
      ((((Quiet answer ∧ Quiet down) ∧ Quiet data) ∧ Quiet block) ∧ Quiet fin) ∧ Quiet up := by
    simpa only [quiet_append] using hl.quiet
  simp only [List.append_assoc] at ht
  -- one phase after the other, each starting where the one before ended
  let address := blockAddress highCapacity blockNumber
  let c₁ : Controller :=
    { c.loaded address with ticks := data ++ (block ++ (fin ++ (up ++ rest))) }
  let c₂ : Controller :=
    { c₁ with taken := c₁.taken + 128, ticks := block ++ (fin ++ (up ++ rest)) }
  obtain ⟨response, hsend⟩ : ∃ response, awaitResponse readSingleBlock address
      (c.loaded address) = (some (true, response), c₁) :=
    awaitResponse_of_polled readSingleBlock address hanswer hdown hqa hqd ht hc
  obtain ⟨words, hloop⟩ : ∃ words, Routine.loop (fun _ (c : Controller) => c.ticks.length)
      fifoRound (0, []) c₁ = (some (true, words), c₂) :=
    fifoLoop_of_feeds (c := c₁) hdata hqw rfl hc rfl
  have hcheck : checkClearReadStatus c₂ = (some true, { c₂ with ticks := rest }) :=
    checkClearReadStatus_of_polled hblock hfin hup hqb hqf hqu rfl hc
  refine ⟨words, { c₂ with ticks := rest }, ?_, rfl, hc⟩
  rw [readABlock_eq]
  refine (Routine.bind_of_returns hsend).trans ?_
  unfold receiveBlock
  simp only [Bool.not_true, Bool.false_eq_true, if_false]
  rw [Routine.bind_of_returns hloop]
  simp only [Bool.not_true, Bool.false_eq_true, if_false]
  rw [Routine.bind_of_returns hcheck]
  rfl

/-! ## A script that delivers -/

/-- The status words of a read without a pause: each phase ends at its first
poll. -/
def promptTicks : List UInt32 :=
  [mciStatusCmdResponseEnd] ++ [0] ++ List.replicate 128 mciStatusRxdataAvlbl
    ++ [mciStatusDataBlkEnd] ++ [mciStatusDataend] ++ [0]

/-- A word of the FIFO at every poll. -/
theorem feeds_replicate (n : ℕ) : Feeds n (List.replicate n mciStatusRxdataAvlbl) := by
  induction n with
  | zero => exact .done
  | succ n ih => exact .word (by decide) ih

/-- A wait that ends at its first poll. -/
theorem polled_singleton {again leaves : UInt32 → Bool} {w : UInt32} (h : leaves w = true) :
    Polled again leaves [w] :=
  ⟨[], w, rfl, fun _ hx => absurd hx List.not_mem_nil, h⟩

/-- A read without a pause delivers its block. -/
theorem delivers_promptTicks : Delivers promptTicks where
  quiet := by
    simp only [promptTicks, quiet_append]
    exact ⟨⟨⟨⟨⟨quiet_singleton (by decide), quiet_singleton (by decide)⟩,
      quiet_replicate 128 (by decide)⟩, quiet_singleton (by decide)⟩,
      quiet_singleton (by decide)⟩, quiet_singleton (by decide)⟩
  phases := ⟨_, _, _, _, _, _, rfl, polled_singleton (by decide), polled_singleton (by decide),
    feeds_replicate 128, polled_singleton (by decide), polled_singleton (by decide),
    polled_singleton (by decide)⟩

end SdCardDxe
