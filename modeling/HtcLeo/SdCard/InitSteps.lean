import HtcLeo.SdCard.CardInit
import HtcLeo.SdCard.StatusWords

/-!
# The steps of the initialisation

The commands of `SdCardInit`, in their order, as a list of steps over what the controller is
going to show. The list depends on what the card answers and delivers: how often `ACMD41` is
repeated, the address the card gives itself, whether it can be switched to high speed.
`follows_bringUp` says that up to the decoding of the CSD `SdCardInit` follows these steps: it
gives up just where one of them fails, and gets as far as the CSD just where all of them pass.
-/

namespace SdCardDxe

/-! ## The answers of the card -/

/-- The answer to the command `k`. -/
def answer (responses : List Response) (k : ℕ) : Response := (responses.drop k).headD fun _ => 0

/-- The card is ready: so says the answer to the `ACMD41` of round `j`. -/
def ready (responses : List Response) (j : ℕ) : Prop :=
  Word.flag (answer responses (2 * j + 3) resp0) 0x80000000 = true

/-- The address that the card gives itself after `n` rounds. -/
def cardAddress (responses : List Response) (n : ℕ) : UInt16 :=
  (answer responses (2 * n + 5) resp0 >>> 16).toUInt16

/-- The CSD, after `n` rounds. -/
def cardCsd (responses : List Response) (n : ℕ) : Response := answer responses (2 * n + 6)

/-- The SCR of the card. -/
def Card.scr (card : Card) : UInt32 × UInt32 :=
  (byteSwap32 (card.other 51 0), byteSwap32 (card.other 51 1))

/-- The words of a data command. -/
def Card.dataWords (card : Card) (cmdIndex : UInt32) : List UInt32 :=
  ((List.range 16).map (card.other cmdIndex)).map byteSwap32

/-- The card has high speed, and would switch to it. -/
def Card.offersHighSpeed (card : Card) : Bool :=
  !((card.dataWords 6).getD 3 0 &&& 0x00020000 = 0) && switchesToHighSpeed (card.dataWords 6)

/-! ## The steps -/

/-- The data errors are cleared. -/
def clearing : Step Script where
  passes s t := t = s.cleared
  fails _ _ := False

/-- The rounds of `ACMD41`. -/
def opCondRound : List (Step Script) := [command cmd55 0, command acmd41 0]

/-- The rounds of `ACMD41`, on a card that is busy for `n` of them, or for ever. -/
inductive Busy (responses : List Response) : List (Step Script) → ℕ → Prop
  | after (n : ℕ) : (∀ j < n, ¬ ready responses j) → ready responses n →
    Busy responses (Step.rounds opCondRound n) n
  | forever : (∀ j, ¬ ready responses j) → Busy responses [Step.endless opCondRound] 0

/-- The steps of `card_identification_selection`. -/
def identification (busy : List (Step Script)) : List (Step Script) :=
  [goIdle, Step.tried [command cmd8 0x000001AA], command cmd55 0, command acmd41 0]
    ++ (busy ++ [command cmd2 0, command cmd3 0])

/-- The steps of `read_SCR_register`. -/
def scrSteps (rca : UInt16) : List (Step Script) :=
  [command cmd16 8, command cmd55 (rcaArgument rca), command acmd51 0, available]

/-- The steps of `card_transfer_init`. -/
def transferInit (rca : UInt16) : List (Step Script) :=
  [command cmd9 (rcaArgument rca), command cmd10 (rcaArgument rca), command cmd7 (rcaArgument rca)]
    ++ (scrSteps rca ++ [command cmd55 (rcaArgument rca), command acmd6 2,
      command cmd13 (rcaArgument rca)])

/-- The steps of `read_SD_status`. -/
def sdStatusSteps (rca : UInt16) : List (Step Script) :=
  [command cmd16 64, command cmd55 (rcaArgument rca), command acmd13 0, block 16]

/-- The steps of `switch_mode`. -/
def switchSteps (card : Card) : List (Step Script) :=
  if (card.scr.1 &&& 0x0F000000) >>> 24 = 0 then []
  else [command cmd16 64, command cmd6 (switchCheck ||| 0x00FFFFF1), block 16]
    ++ if card.offersHighSpeed then [command cmd6 (switchSet ||| 0x00FFFFF1), block 16] else []

/-- **The steps of the initialisation**, up to the decoding of the CSD. -/
def initialisation (card : Card) (rca : UInt16) (busy : List (Step Script)) : List (Step Script) :=
  clearing :: (identification busy ++ (transferInit rca ++ (sdStatusSteps rca
    ++ [Step.tried (switchSteps card), command cmd16 blockSize])))

/-! ## What is known of a controller -/

/-- The card, and what it is going to answer once `k` commands have been answered. -/
structure Stage (card : Card) (responses : List Response) (k : ℕ) (c : Controller) : Prop where
  card_eq : c.card = card
  responses_eq : c.responses = responses.drop k

/-- A command has just been answered, and no word of its data taken. -/
structure Answered (card : Card) (responses : List Response) (k : ℕ) (cmdIndex : UInt32)
    (c : Controller) : Prop extends Stage card responses k c where
  index_eq : c.cmd &&& 0x3f = cmdIndex
  taken_eq : c.taken = 0

section Steps

variable {card : Card} {responses : List Response} {k : ℕ}

theorem head_drop {c : Controller} (h : Stage card responses k c) :
    (c.responses.headD fun _ => 0) = answer responses k := by
  rw [h.responses_eq]
  rfl

/-- The controller after a command. -/
theorem Stage.commanded {c : Controller} (h : Stage card responses k c) (cmd : UInt16)
    (arg : UInt32) (t : Script) :
    Answered card responses (k + 1) (cmd.toUInt32 &&& 0x3f) ((c.commanded cmd arg).goTo t) := by
  refine ⟨⟨h.card_eq, ?_⟩, rfl, rfl⟩
  show c.responses.tail = _
  rw [h.responses_eq, List.tail_drop]

/-! ## Commands and waits -/

/-- The word `sent` is that of the command `cmd`, with a response and without the interrupt bit. -/
abbrev Sends (sent cmd : UInt16) : Prop :=
  sent &&& mciCmdCmdIndex = cmd ∧ sent &&& mciCmdInterrupt = 0 ∧ sent &&& mciCmdResponse ≠ 0

/-- What a command leaves, however it ends. -/
theorem answered_of_send {sent cmd : UInt16} (hsends : Sends sent cmd) {arg : UInt32}
    {c c' : Controller} {r : Bool × Option Response} (hc : Stage card responses k c)
    (h : mmcSendCmd sent arg c = (some r, c')) :
    r.2 = some (answer responses k) ∧ Answered card responses (k + 1) cmd.toUInt32 c' := by
  obtain ⟨hindex, hinterrupt, hresponse⟩ := hsends
  obtain ⟨t, -, hr, rfl⟩ := (mmcSendCmd_iff hinterrupt hresponse).mp h
  have hsent : sent.toUInt32 &&& 0x3f = cmd.toUInt32 := by
    rw [← hindex, UInt16.toUInt32_and]
    rfl
  refine ⟨by rw [hr, head_drop hc], ?_⟩
  rw [← hsent]
  exact hc.commanded sent arg t

/-- **A command is a step.** -/
theorem follows_send {sent cmd : UInt16} (hsends : Sends sent cmd) (arg : UInt32) :
    Routine.Follows Controller.script (Stage card responses k) [command cmd arg]
      (mmcSendCmd sent arg) (fun r => (!r.1) = true) fun r c =>
        r.2 = some (answer responses k) ∧ Answered card responses (k + 1) cmd.toUInt32 c := by
  obtain ⟨hindex, hinterrupt, hresponse⟩ := id hsends
  have hends : ∀ (ok : Bool) (c : Controller) (t : Script),
      (∃ r c', mmcSendCmd sent arg c = (some r, c') ∧ r.1 = ok ∧ c'.script = t)
        ↔ c.script.Command cmd arg ok t := by
    intro ok c t
    constructor
    · rintro ⟨r, c', h, rfl, rfl⟩
      obtain ⟨t, hcommand, -, rfl⟩ := (mmcSendCmd_iff hinterrupt hresponse).mp h
      rw [hindex] at hcommand
      rwa [script_goTo (c := c.commanded sent arg) hcommand.card_eq]
    · intro h
      have hrun := (mmcSendCmd_iff (c := c) (r := (ok, some (c.responses.headD fun _ => 0)))
        hinterrupt hresponse).mpr ⟨t, hindex.symm ▸ h, rfl, rfl⟩
      exact ⟨_, _, hrun, rfl, script_goTo (c := c.commanded sent arg) h.card_eq⟩
  refine Routine.follows_step (fun c _ t => ?_) (fun c _ t => ?_) fun c hc r c' h _ =>
    answered_of_send hsends hc h
  · simp only [Bool.not_eq_true']
    exact hends false c t
  · simp only [Bool.not_eq_true', Bool.not_eq_false]
    exact hends true c t

/-- `CMD0`. -/
theorem follows_goIdle :
    Routine.Follows Controller.script (Stage card responses k) [goIdle]
      (mmcSendCmd (cmd0 ||| mciCmdEnable) 0) (fun r => (!r.1) = true)
      fun _ => Stage card responses (k + 1) := by
  have hrun : ∀ {c c' : Controller} {r : Bool × Option Response},
      mmcSendCmd (cmd0 ||| mciCmdEnable) 0 c = (some r, c') ↔ ∃ t, goIdle.passes c.script t
        ∧ r = (true, none) ∧ c' = (c.commanded (cmd0 ||| mciCmdEnable) 0).goTo t :=
    mmcSendCmd_none_iff (by decide)
  have hscript : ∀ {c : Controller} {t : Script}, goIdle.passes c.script t →
      ((c.commanded (cmd0 ||| mciCmdEnable) 0).goTo t).script = t := by
    rintro c t ⟨u, hup, hdown⟩
    exact script_goTo (c := c.commanded _ _) (hdown.card_eq.trans hup.card_eq)
  refine Routine.follows_step (fun c _ t => ?_) (fun c _ t => ?_) fun c hc r c' h _ => ?_
  · refine iff_of_false ?_ id
    rintro ⟨r, c', h, hbad, -⟩
    obtain ⟨t, -, rfl, -⟩ := hrun.mp h
    cases hbad
  · constructor
    · rintro ⟨r, c', h, -, rfl⟩
      obtain ⟨t, hpasses, -, rfl⟩ := hrun.mp h
      rwa [hscript hpasses]
    · intro h
      exact ⟨_, _, hrun.mpr ⟨t, h, rfl, rfl⟩, Bool.false_ne_true, hscript h⟩
  · obtain ⟨t, -, -, rfl⟩ := hrun.mp h
    exact (hc.commanded _ _ t).toStage

/-- The wait for data. -/
theorem follows_available {cmdIndex : UInt32} :
    Routine.Follows Controller.script (Answered card responses k cmdIndex) [available]
      (waitWhile fun mciStatus => !Word.flag mciStatus mciStatusRxdataAvlbl) (fun _ => False)
      fun _ => Answered card responses k cmdIndex := by
  refine Routine.follows_step (fun c _ t => ?_) (fun c _ t => ?_) fun c hc _ c' h _ => ?_
  · exact iff_of_false (fun ⟨_, _, _, h, _⟩ => h) id
  · constructor
    · rintro ⟨_, c', h, -, rfl⟩
      obtain ⟨t, hup, rfl⟩ := (waitUp_iff _ (by decide)).mp h
      rwa [script_goTo hup.card_eq]
    · intro h
      exact ⟨(), _, (waitUp_iff _ (by decide)).mpr ⟨t, h, rfl⟩, id, script_goTo h.card_eq⟩
  · obtain ⟨t, -, rfl⟩ := (waitUp_iff _ (by decide)).mp h
    exact ⟨⟨hc.card_eq, hc.responses_eq⟩, hc.index_eq, hc.taken_eq⟩

/-! ## The data of a command -/

/-- The loop of `receiveData` takes 16 words. -/
theorem dataRound_eq :
    dataRound = feedRound (fun d => 16 - d.length) (fun d w => d ++ [w]) some fun _ => none := by
  funext d
  unfold dataRound feedRound
  simp only [Nat.sub_pos_iff_lt]

/-- Words that are taken are those of the command. -/
theorem takes_words (n : ℕ) {c : Controller} (hread : c.cmd &&& 0x3f ≠ 17) (d : List UInt32) :
    c.takes (fun d w => d ++ [w]) n d
      = d ++ (List.range' c.taken n).map (c.card.other (c.cmd &&& 0x3f)) := by
  induction n generalizing c d with
  | zero => exact (List.append_nil d).symm
  | succ n ih =>
    have hword : c.fifoWord = c.card.other (c.cmd &&& 0x3f) c.taken := by
      unfold Controller.fifoWord
      rw [if_neg hread]
    show (c.took 1).takes _ n (d ++ [c.fifoWord]) = _
    rw [ih (c := c.took 1) hread, hword, List.append_assoc, List.range'_succ, List.map_cons]
    rfl

/-- What `receiveData` returns, for the words that are still missing and the end of the block. -/
theorem receiveData_iff {c c' : Controller} {r : Option (List UInt32)} :
    receiveData c = (some r, c')
      ↔ ∃ m u, c.script.Feeds 16 m u ∧ ((0 < m ∧ r = none ∧ c' = (c.took (16 - m)).goTo u)
        ∨ (m = 0 ∧ ∃ (ok : Bool) (t : Script),
          (if ok then u.EndsWell t else u.Polls blockEnds false t)
          ∧ r = (if ok then some ((c.takes (fun d w => d ++ [w]) 16 []).map byteSwap32) else none)
          ∧ c' = (c.took 16).goTo t)) := by
  have hloop : ∀ {r : Option (List UInt32)} {c₁ : Controller},
      Routine.loop (fun _ (c : Controller) => c.ticks.length) dataRound [] c = (some r, c₁)
        ↔ Fed (fun d => 16 - d.length) (fun d w => d ++ [w]) some (fun _ => none) [] c r c₁ := by
    intro r c₁
    rw [dataRound_eq]
    refine feedLoop_iff fun d w hd => ?_
    rw [List.length_append, List.length_singleton]
    omega
  have hscript : ∀ {m : ℕ} {u : Script}, c.script.Feeds 16 m u →
      ((c.took 16).goTo u).script = u := fun h => script_goTo (c := c.took 16) h.card_eq
  unfold receiveData
  constructor
  · intro h
    obtain ⟨data, c₁, hdata, h⟩ := Routine.bind_eq_some_iff.mp h
    obtain ⟨m, u, hfeeds, rfl, rfl⟩ := hloop.mp hdata
    by_cases hm : m = 0
    · subst hm
      obtain ⟨ok, c₂, hcheck, h⟩ := Routine.bind_eq_some_iff.mp h
      obtain ⟨t, hends, rfl⟩ := checkClearReadStatus_iff.mp hcheck
      replace hends : if ok then ((c.took 16).goTo u).script.EndsWell t
          else ((c.took 16).goTo u).script.Polls blockEnds false t := hends
      rw [hscript hfeeds] at hends
      refine ⟨0, u, hfeeds, Or.inr ⟨rfl, ok, t, hends, ?_⟩⟩
      cases ok <;> cases h <;> exact ⟨rfl, rfl⟩
    · rw [if_neg hm] at h
      cases h
      exact ⟨m, u, hfeeds, Or.inl ⟨Nat.pos_of_ne_zero hm, rfl, rfl⟩⟩
  · rintro ⟨m, u, hfeeds, ⟨hm, rfl, rfl⟩ | ⟨rfl, ok, t, hends, rfl, rfl⟩⟩
    · have hdata := hloop.mpr ⟨m, u, hfeeds, rfl, rfl⟩
      rw [if_neg (Nat.ne_of_gt hm)] at hdata
      exact Routine.bind_of_returns hdata
    · have hdata := hloop.mpr ⟨0, u, hfeeds, rfl, rfl⟩
      have hcheck : checkClearReadStatus ((c.took 16).goTo u)
          = (some ok, ((c.took 16).goTo u).goTo t) :=
        checkClearReadStatus_iff.mpr ⟨t, (hscript hfeeds).symm ▸ hends, rfl⟩
      refine (Routine.bind_of_returns hdata).trans ((Routine.bind_of_returns hcheck).trans ?_)
      cases ok <;> rfl

/-- **The data of a command is a block** of 16 words. -/
theorem follows_receiveData {cmdIndex : UInt32} (hread : cmdIndex ≠ 17) :
    Routine.Follows Controller.script (Answered card responses k cmdIndex) [block 16] receiveData
      (fun r => r = none)
      fun r c => r = some (card.dataWords cmdIndex) ∧ Stage card responses k c := by
  refine Routine.follows_step (fun c _ t => ?_) (fun c _ t => ?_) fun c hc r c' h hr => ?_
  · constructor
    · rintro ⟨r, c', h, rfl, rfl⟩
      obtain ⟨m, u, hfeeds, ⟨hm, -, rfl⟩ | ⟨rfl, ok, t, hends, hr, rfl⟩⟩ := receiveData_iff.mp h
      · rw [script_goTo (c := c.took (16 - m)) hfeeds.card_eq]
        exact Or.inl ⟨m, hm, hfeeds⟩
      · cases ok with
        | false =>
          rw [script_goTo (c := c.took 16) (hends.card_eq.trans hfeeds.card_eq)]
          exact Or.inr ⟨u, hfeeds, hends⟩
        | true => cases hr
    · rintro (⟨m, hm, hfeeds⟩ | ⟨u, hfeeds, hends⟩)
      · exact ⟨none, _, receiveData_iff.mpr ⟨m, t, hfeeds, Or.inl ⟨hm, rfl, rfl⟩⟩, rfl,
          script_goTo (c := c.took (16 - m)) hfeeds.card_eq⟩
      · exact ⟨none, _, receiveData_iff.mpr ⟨0, u, hfeeds, Or.inr ⟨rfl, false, t, hends, rfl, rfl⟩⟩,
          rfl, script_goTo (c := c.took 16) (hends.card_eq.trans hfeeds.card_eq)⟩
  · constructor
    · rintro ⟨r, c', h, hr, rfl⟩
      obtain ⟨m, u, hfeeds, ⟨-, rfl, -⟩ | ⟨rfl, ok, t, hends, rfl, rfl⟩⟩ := receiveData_iff.mp h
      · exact absurd rfl hr
      · cases ok with
        | false => exact absurd rfl hr
        | true =>
          rw [script_goTo (c := c.took 16) (hends.card_eq.trans hfeeds.card_eq)]
          exact ⟨u, hfeeds, hends⟩
    · rintro ⟨u, hfeeds, hends⟩
      exact ⟨_, _, receiveData_iff.mpr ⟨0, u, hfeeds, Or.inr ⟨rfl, true, t, hends, rfl, rfl⟩⟩,
        Option.some_ne_none _, script_goTo (c := c.took 16) (hends.card_eq.trans hfeeds.card_eq)⟩
  · obtain ⟨m, u, hfeeds, ⟨-, rfl, -⟩ | ⟨rfl, ok, t, hends, rfl, rfl⟩⟩ := receiveData_iff.mp h
    · exact absurd rfl hr
    · cases ok with
      | false => exact absurd rfl hr
      | true =>
        refine ⟨?_, hc.card_eq, hc.responses_eq⟩
        rw [if_pos rfl, takes_words 16 (hc.index_eq ▸ hread), hc.taken_eq, hc.index_eq, hc.card_eq]
        rfl

/-! ## The routines on the controller -/

/-- A command whose answer is not looked at. -/
theorem follows_command {sent cmd : UInt16} (hsends : Sends sent cmd) (arg : UInt32) :
    Routine.Follows Controller.script (Stage card responses k) [command cmd arg]
      (mmcSendCmd sent arg) (fun r => (!r.1) = true) fun _ => Stage card responses (k + 1) :=
  (follows_send hsends arg).mono (fun _ h => h) fun _ _ _ _ _ h => h.2.toStage

/-- `card_set_block_size`. -/
theorem follows_cardSetBlockSize (size : UInt32) :
    Routine.Follows Controller.script (Stage card responses k) [command cmd16 size]
      (cardSetBlockSize size) (fun ok => (!ok) = true) fun _ => Stage card responses (k + 1) := by
  refine (follows_command (by decide) size).step (fun r hr => ⟨r.1, rfl, hr⟩) fun r hr => ?_
  exact Routine.follows_pure r.1 hr fun _ h => h

/-- The block size of a data command. -/
theorem follows_startData (length : UInt32) :
    Routine.Follows Controller.script (Stage card responses k) [command cmd16 length]
      (startData length) (fun ok => (!ok) = true) fun _ => Stage card responses (k + 1) := by
  have hwrite : ∀ (w : UInt32) (reg : MciReg), reg = .mciDataTimer ∨ reg = .mciDataLength →
      Routine.Follows Controller.script (Stage card responses k) [] (mmioWrite32 reg w)
        (fun _ => False) fun _ => Stage card responses k := by
    rintro w reg (rfl | rfl)
    · exact Routine.follows_of_silent fun c hc => ⟨(), _, rfl, id, rfl, hc.card_eq, hc.responses_eq⟩
    · exact Routine.follows_of_silent fun c hc => ⟨(), _, rfl, id, rfl, hc.card_eq, hc.responses_eq⟩
  unfold startData
  refine (hwrite _ _ (Or.inl rfl)).silent fun _ => (hwrite _ _ (Or.inr rfl)).silent fun _ => ?_
  exact follows_cardSetBlockSize length

theorem follows_enableData (length : UInt32) :
    Routine.Follows Controller.script (Stage card responses k) [] (enableData length)
      (fun _ => False) fun _ => Stage card responses k :=
  Routine.follows_of_silent fun _ hc => ⟨(), _, rfl, id, rfl, hc.card_eq, hc.responses_eq⟩

/-- `read_SD_status`. -/
theorem follows_readSdStatus (rca : UInt16) :
    Routine.Follows Controller.script (Stage card responses k) (sdStatusSteps rca)
      (readSdStatus rca) (fun ok => (!ok) = true) fun _ => Stage card responses (k + 3) := by
  unfold readSdStatus sdStatusSteps
  refine (follows_startData 64).attempt rfl fun _ _ => ?_
  refine (follows_enableData 64).silent fun _ => ?_
  refine (follows_command (by decide) (rcaArgument rca)).attempt rfl fun _ _ => ?_
  refine (follows_send (by decide) 0).attempt rfl fun _ _ => ?_
  refine Routine.follows_of_known fun _ => ?_
  refine (follows_receiveData (by decide)).step (fun r hr => ⟨false, by rw [hr]; rfl, rfl⟩)
    fun r hr => Routine.follows_of_known fun hdata => ?_
  rw [hdata]
  exact Routine.follows_pure true Bool.false_ne_true fun _ h => h

/-- `CMD6` with its data. -/
theorem follows_switchFunction (arg : UInt32) :
    Routine.Follows Controller.script (Stage card responses k) [command cmd6 arg, block 16]
      (switchFunction arg) (fun r => r = none)
      fun r c => r = some (card.dataWords 6) ∧ Stage card responses (k + 1) c := by
  unfold switchFunction
  refine (follows_enableData 64).silent fun _ => ?_
  refine (follows_send (by decide) arg).attempt rfl fun _ _ => ?_
  exact Routine.follows_of_known fun _ => follows_receiveData (by decide)

/-- What counts as an answer to `ACMD41` does not depend on its argument. -/
theorem command_acmd41 (arg : UInt32) : command acmd41 0 = command acmd41 arg := rfl

/-- A round of `ACMD41` on a card that is busy. -/
theorem follows_busyRound (arg : UInt32) (j : ℕ) (hbusy : ¬ ready responses j) :
    Routine.GoesRound Controller.script (fun j => Stage card responses (2 * j + 4)) opCondRound
      (busyRound arg) (fun j => answer responses (2 * j + 3)) (fun o => o = none) j := by
  unfold ready at hbusy
  unfold Routine.GoesRound busyRound opCondRound
  dsimp only
  rw [if_neg hbusy, command_acmd41 arg]
  refine (follows_command (by decide) 0).attempt ⟨none, rfl, rfl⟩ fun _ _ => ?_
  refine (follows_send (by decide) arg).attempt ⟨none, rfl, rfl⟩ fun r _ => ?_
  refine Routine.follows_of_known fun hanswer => ?_
  refine Routine.follows_pure _ ?_ fun c hc => ⟨?_, hc.toStage⟩
  · rintro ⟨a, h, -⟩
    cases h
  · rw [hanswer]
    rfl

/-- **The rounds of `ACMD41`.** -/
theorem follows_busyLoop (arg : UInt32) {busy : List (Step Script)} {n : ℕ}
    (h : Busy responses busy n) :
    Routine.Follows Controller.script (Stage card responses 4) busy
      (.loop (fun _ (c : Controller) => c.ticks.length) (busyRound arg) (answer responses 3))
      (fun o => o = none) fun o c =>
        o = some (answer responses (2 * n + 3)) ∧ Stage card responses (2 * n + 4) c := by
  cases h with
  | after n hbusy hready =>
    refine Routine.follows_loop (busyRound_consumes arg)
      (b := fun j => answer responses (2 * j + 3)) n
      (fun j hj => follows_busyRound arg j (hbusy j hj)) fun c hc => ?_
    refine ⟨some (answer responses (2 * n + 3)), ?_, Option.some_ne_none _, rfl, hc⟩
    unfold ready at hready
    unfold busyRound
    rw [if_pos hready]
    rfl
  | forever hbusy =>
    exact Routine.follows_endless (busyRound_consumes arg)
      (b := fun j => answer responses (2 * j + 3)) fun j => follows_busyRound arg j (hbusy j)

/-! ## The routines of the driver -/

/-- What the controller of the driver is going to show. -/
def Host.script (h : Host) : Script := h.controller.script

/-- What is known of the controller, and the SCR as the driver has it. -/
structure Holding (P : Controller → Prop) (scr : Bool × UInt32 × UInt32) (h : Host) : Prop where
  controller : P h.controller
  scr_eq : (h.scrValid, h.scr) = scr

variable {scr : Bool × UInt32 × UInt32} {α : Type} {P : Controller → Prop}
  {steps : List (Step Script)} {bad : α → Prop}

theorem onController_iff {x : Routine Controller α} {h h' : Host} {a : α} :
    onController x h = (some a, h')
      ↔ ∃ c, x h.controller = (some a, c) ∧ h' = { h with controller := c } := by
  unfold onController
  constructor
  · intro hrun
    obtain ⟨hvalue, rfl⟩ := Prod.mk.inj hrun
    exact ⟨_, Prod.ext hvalue rfl, rfl⟩
  · rintro ⟨c, hrun, rfl⟩
    rw [hrun]

/-- **What is done with the controller alone** follows the same steps. -/
theorem follows_onController {x : Routine Controller α} {Q : α → Controller → Prop}
    (hx : Routine.Follows Controller.script P steps x bad Q) :
    Routine.Follows Host.script (Holding P scr) steps (onController x) bad
      fun b => Holding (Q b) scr := by
  constructor
  · intro h hh t
    rw [show Host.script h = h.controller.script from rfl, ← hx.cut h.controller hh.controller t]
    constructor
    · rintro ⟨b, h', hrun, hb, rfl⟩
      obtain ⟨c, hend, rfl⟩ := onController_iff.mp hrun
      exact ⟨b, c, hend, hb, rfl⟩
    · rintro ⟨b, c, hrun, hb, rfl⟩
      exact ⟨b, _, onController_iff.mpr ⟨c, hrun, rfl⟩, hb, rfl⟩
  · intro h hh t
    rw [show Host.script h = h.controller.script from rfl,
      ← hx.completes h.controller hh.controller t]
    constructor
    · rintro ⟨b, h', hrun, hb, rfl⟩
      obtain ⟨c, hend, rfl⟩ := onController_iff.mp hrun
      exact ⟨b, c, hend, hb, rfl⟩
    · rintro ⟨b, c, hrun, hb, rfl⟩
      exact ⟨b, _, onController_iff.mpr ⟨c, hrun, rfl⟩, hb, rfl⟩
  · intro h hh b h' hrun hb
    obtain ⟨c, hend, rfl⟩ := onController_iff.mp hrun
    exact ⟨hx.post h.controller hh.controller b c hend hb, hh.scr_eq⟩

/-- What is known of the values before a routine of the driver. -/
theorem follows_of_holding {φ : Prop} {x : Routine Host α} {R : α → Host → Prop}
    (h : φ → Routine.Follows Host.script (Holding P scr) steps x bad R) :
    Routine.Follows Host.script (Holding (fun c => φ ∧ P c) scr) steps x bad R :=
  (Routine.follows_of_known h).mono (fun _ hs => ⟨hs.1.1, hs.1.2, hs.2⟩) fun _ _ _ _ _ hR => hR

theorem tries_of_holding {φ : Prop} {x : Routine Host α}
    (h : φ → Routine.Tries Host.script (Holding P scr) steps x) :
    Routine.Tries Host.script (Holding (fun c => φ ∧ P c) scr) steps x := fun s hs =>
  h hs.1.1 s ⟨hs.1.2, hs.2⟩

/-- What the driver does without its controller. -/
theorem follows_modify {f : Host → Host} (hcontroller : ∀ h, (f h).controller = h.controller)
    (hscr : ∀ h, ((f h).scrValid, (f h).scr) = (h.scrValid, h.scr)) :
    Routine.Follows Host.script (Holding P scr) [] (.modify f) (fun _ => False)
      fun _ => Holding P scr := by
  refine Routine.follows_of_silent fun h hh => ⟨(), f h, rfl, id, ?_, ?_, ?_⟩
  · unfold Host.script
    rw [hcontroller]
  · rw [hcontroller]
    exact hh.controller
  · rw [hscr]
    exact hh.scr_eq

/-- `card_identification_selection`. -/
theorem follows_cardIdentificationSelection {busy : List (Step Script)} {n : ℕ}
    (hbusy : Busy responses busy n) :
    Routine.Follows Host.script (Holding (Stage card responses 0) scr) (identification busy)
      cardIdentificationSelection (fun o => o = none) fun o h =>
        o = some (answer responses (2 * n + 4), cardAddress responses n)
          ∧ Holding (Stage card responses (2 * n + 6)) scr h := by
  unfold cardIdentificationSelection identification
  refine (follows_onController follows_goIdle).attempt rfl fun _ _ => ?_
  -- the answer to `CMD8` decides on the argument of `ACMD41` alone
  have hsends : Sends (cmd8 ||| mciCmdEnable ||| mciCmdResponse) cmd8 := by decide
  have hcmd8 : Routine.Follows Controller.script (Stage card responses 1)
      [Step.tried [command cmd8 0x000001AA]] (sendWithResponse cmd8 0x000001AA) (fun _ => False)
      fun _ => Stage card responses 2 :=
    (follows_command hsends 0x000001AA).tries.follows fun c hc _ c' h =>
      (answered_of_send hsends hc h).2.toStage
  refine (follows_onController hcmd8).step (fun _ hbad => hbad.elim) fun r _ => ?_
  dsimp only
  refine (follows_onController (follows_command (by decide) 0)).attempt rfl fun _ _ => ?_
  rw [command_acmd41 ((0x00FF8000 : UInt32) ||| if r.1 then (1 : UInt32) <<< 30 else 0)]
  refine (follows_onController (follows_send (by decide) _)).attempt rfl fun r' _ => ?_
  refine follows_of_holding fun hanswer => ?_
  rw [hanswer]
  refine (follows_onController ((follows_busyLoop _ hbusy).mono (fun _ h => h.toStage)
    fun _ _ _ _ _ h => h)).bind (fun o ho => ⟨none, by rw [ho], rfl⟩) fun o _ => ?_
  refine follows_of_holding fun hresponse => ?_
  rw [hresponse]
  refine Routine.Follows.silent (follows_modify (fun _ => rfl) fun _ => rfl) fun _ => ?_
  refine (follows_onController (follows_send (by decide) 0)).attempt rfl fun cid _ => ?_
  refine follows_of_holding fun hcid => ?_
  refine ((follows_onController (follows_send (by decide) 0)).mono
    (fun _ h => ⟨h.1.toStage, h.2⟩) fun _ _ _ _ _ h => h).attempt rfl fun rca _ => ?_
  refine follows_of_holding fun hrca => ?_
  rw [hcid, hrca]
  exact Routine.follows_pure _ (Option.some_ne_none _) fun h hh => ⟨rfl, hh.1.toStage, hh.2⟩

/-- A command whose answer the driver does not look at. -/
theorem follows_hostCommand {sent cmd : UInt16} (hsends : Sends sent cmd) (arg : UInt32) :
    Routine.Follows Host.script (Holding (Stage card responses k) scr) [command cmd arg]
      (onController (mmcSendCmd sent arg)) (fun r => (!r.1) = true)
      fun _ => Holding (Stage card responses (k + 1)) scr :=
  follows_onController (follows_command hsends arg)

/-- A word that is taken from the FIFO. -/
theorem follows_fifo {cmdIndex : UInt32} (hread : cmdIndex ≠ 17) (n : ℕ) :
    Routine.Follows Controller.script
      (fun c => Stage card responses k c ∧ c.cmd &&& 0x3f = cmdIndex ∧ c.taken = n) []
      (mmioRead32 .mciFifo) (fun _ => False) fun w c => w = card.other cmdIndex n
        ∧ Stage card responses k c ∧ c.cmd &&& 0x3f = cmdIndex ∧ c.taken = n + 1 := by
  refine Routine.follows_of_silent ?_
  rintro c ⟨hc, hindex, rfl⟩
  refine ⟨c.fifoWord, _, rfl, id, rfl, ?_, ⟨hc.card_eq, hc.responses_eq⟩, hindex, rfl⟩
  unfold Controller.fifoWord
  rw [if_neg (hindex ▸ hread), hindex, hc.card_eq]

/-- `read_SCR_register`. -/
theorem follows_readScrRegister (rca : UInt16) :
    Routine.Follows Host.script (Holding (Stage card responses k) scr) (scrSteps rca)
      (readScrRegister rca) (fun ok => (!ok) = true)
      fun _ => Holding (Stage card responses (k + 3)) (true, card.scr) := by
  unfold readScrRegister scrSteps
  refine (follows_onController (follows_startData 8)).attempt rfl fun _ _ => ?_
  refine (follows_onController (follows_enableData 8)).silent fun _ => ?_
  refine (follows_hostCommand (by decide) (rcaArgument rca)).attempt rfl fun _ _ => ?_
  refine (follows_onController (follows_send (by decide) 0)).attempt rfl fun _ _ => ?_
  refine follows_of_holding fun _ => ?_
  refine (follows_onController follows_available).step (fun _ hbad => hbad.elim) fun _ _ => ?_
  refine ((follows_onController (follows_fifo (by decide) 0)).mono
    (fun _ h => ⟨⟨h.1.toStage, h.1.index_eq, h.1.taken_eq⟩, h.2⟩)
    fun _ _ _ _ _ h => h).silent fun scr0 => ?_
  refine follows_of_holding fun hscr0 => ?_
  refine (follows_onController (follows_fifo (by decide) 1)).silent fun scr1 => ?_
  refine follows_of_holding fun hscr1 => ?_
  subst hscr0 hscr1
  exact Routine.follows_of_silent fun h hh =>
    ⟨true, _, rfl, Bool.false_ne_true, rfl, hh.controller.1, rfl⟩

/-- `card_transfer_init`. -/
theorem follows_cardTransferInit (rca : UInt16) :
    Routine.Follows Host.script (Holding (Stage card responses k) scr) (transferInit rca)
      (cardTransferInit rca) (fun o => o = none) fun o h =>
        o = some (answer responses k, answer responses (k + 1))
          ∧ Holding (Stage card responses (k + 9)) (true, card.scr) h := by
  unfold cardTransferInit transferInit
  refine (follows_onController (follows_send (by decide) _)).attempt rfl fun csd _ => ?_
  refine follows_of_holding fun hcsd => ?_
  refine ((follows_onController (follows_send (by decide) _)).mono
    (fun _ h => ⟨h.1.toStage, h.2⟩) fun _ _ _ _ _ h => h).attempt rfl fun cid _ => ?_
  refine follows_of_holding fun hcid => ?_
  refine ((follows_hostCommand (by decide) _).mono
    (fun _ h => ⟨h.1.toStage, h.2⟩) fun _ _ _ _ _ h => h).attempt rfl fun _ _ => ?_
  refine (follows_readScrRegister rca).bind (fun ok hok => ⟨none, if_pos hok, rfl⟩) fun ok hok => ?_
  rw [if_neg hok]
  refine (follows_hostCommand (by decide) _).attempt rfl fun _ _ => ?_
  refine (follows_hostCommand (by decide) _).attempt rfl fun _ _ => ?_
  refine (follows_hostCommand (by decide) _).attempt rfl fun _ _ => ?_
  rw [hcsd, hcid]
  exact Routine.follows_pure _ (Option.some_ne_none _) fun _ hh => ⟨rfl, hh⟩

/-- A variable of the driver that is known. -/
theorem follows_look {f : Host → α} {a : α} (hf : ∀ h, Holding P scr h → f h = a) :
    Routine.Follows Host.script (Holding P scr) [] (.look f) (fun _ => False)
      fun b h => b = a ∧ Holding P scr h :=
  Routine.follows_of_silent fun h hh => ⟨f h, h, rfl, id, rfl, hf h hh, hh⟩

/-- **`switch_mode` tries its steps**, and the initialisation goes on however they end. -/
theorem tries_switchMode :
    Routine.Tries Host.script (Holding (Stage card responses k) (true, card.scr)) (switchSteps card)
      switchMode := by
  unfold switchMode switchSteps
  refine (follows_look fun _ hh => congrArg Prod.fst hh.scr_eq).silent_tries fun _ => ?_
  refine Routine.tries_of_known fun hvalid => ?_
  refine (follows_look fun _ hh => congrArg Prod.snd hh.scr_eq).silent_tries fun _ => ?_
  refine Routine.tries_of_known fun hscr => ?_
  subst hvalid hscr
  dsimp only
  rw [if_neg (by decide : ¬ (!true) = true)]
  by_cases hlevel : (card.scr.1 &&& 0x0F000000) >>> 24 = 0
  · rw [if_pos hlevel, if_pos hlevel]
    exact Routine.tries_pure false
  · rw [if_neg hlevel, if_neg hlevel]
    refine (follows_onController (follows_startData 64)).bind_tries
      (fun ok hok => ⟨false, if_pos hok⟩) fun ok hok => ?_
    rw [if_neg hok]
    refine (follows_onController (follows_switchFunction _)).bind_tries
      (fun r hr => ⟨false, by rw [hr]⟩) fun r _ => tries_of_holding fun hdata => ?_
    subst hdata
    unfold Card.offersHighSpeed
    dsimp only
    by_cases hmode : (card.dataWords 6).getD 3 0 &&& 0x00020000 = 0
    · rw [if_pos hmode, decide_eq_true hmode]
      exact Routine.tries_pure false
    · rw [if_neg hmode, decide_eq_false hmode]
      cases switchesToHighSpeed (card.dataWords 6) with
      | false => exact Routine.tries_pure false
      | true =>
        refine (follows_onController (follows_switchFunction _)).bind_tries
          (fun r hr => ⟨false, by rw [hr]⟩) fun r hr => ?_
        cases r with
        | none => exact absurd rfl hr
        | some data => exact Routine.tries_pure _

/-- `SDCn_init` clears the data errors. -/
theorem follows_sdcnInit :
    Routine.Follows Host.script (Holding (Stage card responses k) scr) [clearing]
      (sdcnInit sdcInstance) (fun ok => (!ok) = true)
      fun _ => Holding (Stage card responses k) scr := by
  have hrun : ∀ h : Host, ∃ h', sdcnInit sdcInstance h = (some true, h')
      ∧ h'.controller = { h.controller with errors := .none }
      ∧ (h'.scrValid, h'.scr) = (h.scrValid, h.scr) := by
    intro h
    refine ⟨_, rfl, ?_, rfl⟩
    have hclear : ∀ e : DataErrors, e.clear 0x07FFFFFF = .none := by
      rintro ⟨a, b, c, d⟩
      cases a <;> cases b <;> cases c <;> cases d <;> decide
    exact congrArg (fun e => { h.controller with errors := e }) (hclear h.controller.errors)
  refine Routine.follows_step (fun h _ t => ?_) (fun h _ t => ?_) fun h hh ok h' hok _ => ?_
  · obtain ⟨h', hinit, -, -⟩ := hrun h
    refine iff_of_false ?_ id
    rintro ⟨ok, h'', hok, hbad, -⟩
    cases hinit.symm.trans hok
    cases hbad
  · obtain ⟨h', hinit, hcontroller, -⟩ := hrun h
    have hscript : h'.script = h.script.cleared := by
      unfold Host.script
      rw [hcontroller]
      rfl
    constructor
    · rintro ⟨ok, h'', hok, -, rfl⟩
      cases hinit.symm.trans hok
      exact hscript
    · rintro rfl
      exact ⟨true, h', hinit, Bool.false_ne_true, hscript⟩
  · obtain ⟨h₁, hinit, hcontroller, hscr⟩ := hrun h
    cases hinit.symm.trans hok
    refine ⟨?_, hscr.trans hh.scr_eq⟩
    rw [hcontroller]
    exact ⟨hh.controller.card_eq, hh.controller.responses_eq⟩

/-- The last block size. -/
theorem follows_lastBlockSize (csd : Response) :
    Routine.Follows Host.script (fun _ => True) [command cmd16 blockSize]
      (onController (cardSetBlockSize blockSize) >>= fun ok =>
        if (!ok) = true then pure none else pure (some csd))
      (fun o => o = none) fun o _ => o = some csd := by
  refine Routine.follows_of_state fun h _ => ?_
  have hh : ∀ h', h' = h →
      Holding (Stage h.controller.card h.controller.responses 0) (h.scrValid, h.scr) h' := by
    rintro _ rfl
    exact ⟨⟨rfl, rfl⟩, rfl⟩
  have hset := (follows_onController (follows_cardSetBlockSize blockSize)).mono hh
    fun _ _ _ _ _ hQ => hQ
  exact hset.attempt rfl fun _ _ => Routine.follows_pure _ (Option.some_ne_none _) fun _ _ => rfl

/-- **Up to the decoding of the CSD** `SdCardInit` follows the steps of the initialisation. -/
theorem follows_bringUp (card : Card) (scr : Bool × UInt32 × UInt32)
    {busy : List (Step Script)} {n : ℕ} (hbusy : Busy responses busy n) :
    Routine.Follows Host.script (Holding (Stage card responses 0) scr)
      (initialisation card (cardAddress responses n) busy) bringUp (fun o => o = none)
      fun o _ => o = some (cardCsd responses n) := by
  unfold bringUp initialisation
  refine follows_sdcnInit.attempt rfl fun _ _ => ?_
  refine (follows_cardIdentificationSelection hbusy).bind (fun o ho => ⟨none, by rw [ho], rfl⟩)
    fun o _ => Routine.follows_of_known fun hfound => ?_
  subst hfound
  refine Routine.Follows.silent (follows_modify (fun _ => rfl) fun _ => rfl) fun _ => ?_
  refine (follows_cardTransferInit _).bind (fun o ho => ⟨none, by rw [ho], rfl⟩)
    fun o _ => Routine.follows_of_known fun htransfer => ?_
  subst htransfer
  refine Routine.Follows.silent (follows_modify (fun _ => rfl) fun _ => rfl) fun _ => ?_
  refine (follows_onController (follows_readSdStatus _)).bind
    (fun ok hok => ⟨none, if_pos hok, rfl⟩) fun ok hok => ?_
  rw [if_neg hok]
  refine Routine.Follows.silent (follows_modify (fun _ => rfl) fun _ => rfl) fun _ => ?_
  refine (tries_switchMode.follows (Q := fun _ _ => True) fun _ _ _ _ _ => trivial).step
    (fun _ hbad => hbad.elim) fun switched _ => ?_
  dsimp only
  have haside : ∀ {f : Host → Host}, (∀ h, (f h).controller = h.controller) →
      Routine.Follows Host.script (fun _ => True) [] (.modify f) (fun _ => False)
        fun _ _ => True := by
    intro f hcontroller
    refine Routine.follows_of_silent fun h _ => ⟨(), f h, rfl, id, ?_, trivial⟩
    unfold Host.script
    rw [hcontroller]
  split
  · refine Routine.Follows.silent (haside fun _ => rfl) fun _ => ?_
    exact Routine.Follows.silent (haside fun _ => rfl) fun _ => follows_lastBlockSize _
  · exact follows_lastBlockSize _

end Steps

end SdCardDxe
