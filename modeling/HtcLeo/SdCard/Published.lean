import HtcLeo.SdCard.InitSteps
import Mathlib.Data.Nat.Find

/-!
# What is published

`SdCardInitialize` installs the protocol whatever `SdCardInit` returns, if the first block can be
read and is that of a boot record. `sdCardInitialize_publishes_iff` says for what the
controller shows, word by word, and what the card answers and holds, only the geometry of
the card is published.
-/

namespace SdCardDxe

/-! ## The steps that fail -/

/-- **The initialisation fails**, for what the controller shows and the card answers: one of its
steps is cut short, or all of them pass and the version of the CSD is not one of the two. -/
def InitialisationFails (card : Card) (responses : List Response) (s t : Script) : Prop :=
  ∃ busy n, Busy responses busy n ∧
    (Step.CutShort (initialisation card (cardAddress responses n) busy) s t
      ∨ Step.Completes (initialisation card (cardAddress responses n) busy) s t
        ∧ csdStructure (cardCsd responses n) ≠ 0 ∧ csdStructure (cardCsd responses n) ≠ 1)

/-- A card is ready after some rounds, or never. -/
theorem exists_busy (responses : List Response) : ∃ busy n, Busy responses busy n := by
  classical
  by_cases h : ∃ n, ready responses n
  · exact ⟨_, _, .after (Nat.find h) (fun j hj => Nat.find_min h hj) (Nat.find_spec h)⟩
  · exact ⟨_, _, .forever (not_exists.mp h)⟩

/-- **An initialisation falls short of the geometry just where its steps fail.** -/
theorem fallsShort_iff (controller : Controller) (mciClk glblClkEna : UInt32) (t : Script) :
    (∃ h₁, FallsShort (.start controller mciClk glblClkEna) h₁ ∧ h₁.script = t)
      ↔ InitialisationFails controller.card controller.responses controller.script t := by
  let start : Host := .start controller mciClk glblClkEna
  have hstart : Holding (Stage controller.card controller.responses 0) (false, (0, 0)) start :=
    ⟨⟨rfl, rfl⟩, rfl⟩
  constructor
  · rintro ⟨h₁, hshort, rfl⟩
    obtain ⟨busy, n, hbusy⟩ := exists_busy controller.responses
    have hsteps := follows_bringUp controller.card (false, (0, 0)) hbusy
    refine ⟨busy, n, hbusy, ?_⟩
    rcases hshort with hnone | ⟨csd, hsome, hzero, hone⟩
    · exact Or.inl ((hsteps.cut start hstart _).mp ⟨none, h₁, hnone, rfl, rfl⟩)
    · have hcsd := hsteps.post start hstart _ h₁ hsome (Option.some_ne_none csd)
      rw [Option.some.inj hcsd] at hzero hone
      exact Or.inr ⟨(hsteps.completes start hstart _).mp
        ⟨_, h₁, hsome, Option.some_ne_none csd, rfl⟩, hzero, hone⟩
  · rintro ⟨busy, n, hbusy, hends⟩
    have hsteps := follows_bringUp controller.card (false, (0, 0)) hbusy
    rcases hends with hcut | ⟨hdone, hzero, hone⟩
    · obtain ⟨o, h₁, hrun, rfl, hview⟩ := (hsteps.cut start hstart t).mpr hcut
      exact ⟨h₁, .inl hrun, hview⟩
    · obtain ⟨o, h₁, hrun, hgood, hview⟩ := (hsteps.completes start hstart t).mpr hdone
      obtain rfl := hsteps.post start hstart o h₁ hrun hgood
      exact ⟨h₁, .inr ⟨_, hrun, hzero, hone⟩, hview⟩

/-! ## The card stays what it is -/

section Keeps

variable (card : Card)

theorem command_keeps (cmdIndex : UInt16) (arg : UInt32) :
    (command cmdIndex arg).Keeps fun s => s.card = card := by
  rintro s t (h | h) hs <;> exact (Script.Command.card_eq h).trans hs

theorem goIdle_keeps : goIdle.Keeps fun s => s.card = card := by
  rintro s t (⟨u, hup, hdown⟩ | hfalse) hs
  · exact hdown.card_eq.trans (hup.card_eq.trans hs)
  · exact hfalse.elim

theorem available_keeps : available.Keeps fun s => s.card = card := by
  rintro s t (hup | hfalse) hs
  · exact (Script.Polls.card_eq hup).trans hs
  · exact hfalse.elim

theorem block_keeps (n : ℕ) : (block n).Keeps fun s => s.card = card := by
  rintro s t (⟨u, hfeeds, hends⟩ | ⟨m, -, hfeeds⟩ | ⟨u, hfeeds, hends⟩) hs
  · exact hends.card_eq.trans (hfeeds.card_eq.trans hs)
  · exact hfeeds.card_eq.trans hs
  · exact hends.card_eq.trans (hfeeds.card_eq.trans hs)

theorem clearing_keeps : clearing.Keeps fun s => s.card = card := by
  rintro s t (rfl | hfalse) hs
  · exact hs
  · exact hfalse.elim

theorem busy_keeps {responses : List Response} {busy : List (Step Script)} {n : ℕ}
    (hbusy : Busy responses busy n) : ∀ step ∈ busy, step.Keeps fun s => s.card = card := by
  have hround : ∀ step ∈ opCondRound, step.Keeps fun s => s.card = card := by
    simp only [opCondRound, List.forall_mem_cons, command_keeps, List.not_mem_nil, false_imp_iff,
      implies_true, and_self]
  cases hbusy with
  | after n _ _ => exact Step.keeps_rounds hround n
  | forever _ => exact List.forall_mem_singleton.mpr (Step.keeps_endless hround)

theorem switchSteps_keeps (card' : Card) :
    ∀ step ∈ switchSteps card', step.Keeps fun s => s.card = card := by
  unfold switchSteps
  split
  · exact fun _ hstep => absurd hstep List.not_mem_nil
  · split <;> simp only [List.forall_mem_append, List.forall_mem_cons, command_keeps, block_keeps,
      List.not_mem_nil, false_imp_iff, implies_true, and_self]

/-- **The initialisation keeps the card.** -/
theorem initialisation_keeps (card' : Card) (rca : UInt16) {responses : List Response}
    {busy : List (Step Script)} {n : ℕ} (hbusy : Busy responses busy n) :
    ∀ step ∈ initialisation card' rca busy, step.Keeps fun s => s.card = card := by
  have hcmd8 : ∀ step ∈ [command cmd8 0x000001AA], step.Keeps fun s => s.card = card :=
    List.forall_mem_singleton.mpr (command_keeps card _ _)
  simp only [initialisation, identification, transferInit, scrSteps, sdStatusSteps,
    List.forall_mem_append, List.forall_mem_cons, clearing_keeps, goIdle_keeps, command_keeps,
    available_keeps, block_keeps, Step.keeps_tried hcmd8,
    Step.keeps_tried (switchSteps_keeps card card'), List.not_mem_nil, false_imp_iff, implies_true,
    and_self, and_true, true_and]
  exact busy_keeps card hbusy

end Keeps

theorem InitialisationFails.card_eq {card : Card} {responses : List Response} {s t : Script}
    (h : InitialisationFails card responses s t) : t.card = s.card := by
  obtain ⟨busy, n, hbusy, hends⟩ := h
  have hkeeps := initialisation_keeps s.card card (cardAddress responses n) hbusy
  rcases hends with hcut | ⟨hdone, -, -⟩
  · exact Step.keeps_cutShort (I := fun s' => s'.card = s.card) hkeeps hcut rfl
  · exact Step.keeps_completes (I := fun s' => s'.card = s.card) hkeeps hdone rfl

/-! ## The first block -/

theorem blockAddress_zero (highCapacity : Bool) : blockAddress highCapacity 0 = 0 := by
  cases highCapacity <;> rfl

/-- The first block is that of a boot record and can be read. -/
theorem firstBlockSigned_iff (h : Host) :
    FirstBlockSigned h ↔ h.controller.card.bytes 510 = 0x55 ∧ h.controller.card.bytes 511 = 0xAA
      ∧ ∃ t, Step.Completes [command cmd17 0, block 128] h.script t := by
  have haddress := blockAddress_zero h.highCapacity
  have hoffset : h.controller.card.offset 0 = 0 := by
    unfold Card.offset
    cases h.controller.card.highCapacity <;> rfl
  have hread := readABlock_iff (c := h.controller) h.highCapacity 0
  rw [haddress] at hread
  have hsigned : ∀ {words c'}, readABlock h.highCapacity 0 h.controller = (some (true, words), c') →
      (signed (blkDumpZero.storeWords 0 words) = true
        ↔ h.controller.card.bytes 510 = 0x55 ∧ h.controller.card.bytes 511 = 0xAA) := by
    intro words c' hrun
    obtain ⟨hwords, -, -⟩ := readABlock_words hrun
    unfold signed
    rw [hwords, Buffer.storeWords_of_bytes, haddress, Buffer.put_of_mem _ (by decide) (by decide),
      Buffer.put_of_mem _ (by decide) (by decide)]
    unfold Card.blockBytes
    rw [hoffset]
    simp only [Bool.and_eq_true, decide_eq_true_eq, Option.some.injEq, Nat.zero_add, Nat.sub_zero]
  unfold FirstBlockSigned
  constructor
  · rintro ⟨words, c', hrun, hsig⟩
    obtain ⟨h510, h511⟩ := (hsigned hrun).mp hsig
    exact ⟨h510, h511, hread.mp ⟨words, c', hrun⟩⟩
  · rintro ⟨h510, h511, hcompletes⟩
    obtain ⟨words, c', hrun⟩ := hread.mpr hcompletes
    exact ⟨words, c', hrun, (hsigned hrun).mpr ⟨h510, h511⟩⟩

/-! ## What is published -/

/-- **When only a decoded geometry is published.** For whatever the controller shows: exactly
when it does not happen that a card is inserted, the protocol can be installed, the status words
make a step of the initialisation fail, or the card answers with a CSD of an unknown version, and
the status words after it deliver a first block that ends in the signature. -/
theorem sdCardInitialize_publishes_iff (sdStatus : UInt32) (install : EfiStatus)
    (controller : Controller) (mciClk glblClkEna : UInt32) :
    PublishesDecoded sdStatus install (.start controller mciClk glblClkEna)
      ↔ ¬ (sdStatus = 0 ∧ install = .efiSuccess
        ∧ controller.card.bytes 510 = 0x55 ∧ controller.card.bytes 511 = 0xAA
        ∧ ∃ left left',
          InitialisationFails controller.card controller.responses controller.script left
          ∧ Step.Completes [command cmd17 0, block 128] left left') := by
  rw [publishesDecoded_iff]
  refine not_congr (and_congr_right fun _ => and_congr_right fun _ => ?_)
  constructor
  · rintro ⟨h₁, hshort, hsigned⟩
    have hfails := (fallsShort_iff controller mciClk glblClkEna h₁.script).mp ⟨h₁, hshort, rfl⟩
    have hcard : h₁.controller.card = controller.card := hfails.card_eq
    obtain ⟨h510, h511, t, hread⟩ := (firstBlockSigned_iff h₁).mp hsigned
    rw [hcard] at h510 h511
    exact ⟨h510, h511, h₁.script, t, hfails, hread⟩
  · rintro ⟨h510, h511, left, left', hfails, hread⟩
    obtain ⟨h₁, hshort, rfl⟩ := (fallsShort_iff controller mciClk glblClkEna left).mpr hfails
    have hcard : h₁.controller.card = controller.card := hfails.card_eq
    rw [← hcard] at h510 h511
    exact ⟨h₁, hshort, (firstBlockSigned_iff h₁).mpr ⟨h510, h511, left', hread⟩⟩

/-! ## An initialisation that is given up -/

/-- A wait that ends at its first word, which shows no error. -/
theorem Script.polls_quiet {card : Card} {w : UInt32} (rest : List UInt32) {α : Type}
    {decides : DataErrors → UInt32 → Option α} {a : α} (hquiet : DataErrors.ofStatus w = .none)
    (h : decides .none w = some a) :
    Script.Polls decides ⟨card, w :: rest, .none⟩ a ⟨card, rest, .none⟩ := by
  have hunion : DataErrors.none.union (.ofStatus w) = .none := by
    rw [hquiet]
    rfl
  have hends := @Script.Polls.leaves _ decides card w rest .none a (hunion.symm ▸ h)
  rwa [hunion] at hends

/-- A command whose flags are in the first word. -/
theorem Script.command_quiet {card : Card} {w : UInt32} (rest : List UInt32) (cmdIndex : UInt16)
    (arg : UInt32) (hquiet : DataErrors.ofStatus w = .none) (hflag : showsCmdFlag w = true) :
    Script.Command cmdIndex arg (answers cmdIndex arg w) ⟨card, w :: 0 :: rest, .none⟩
      ⟨card, rest, .none⟩ :=
  ⟨w, _, Script.polls_quiet _ hquiet (if_pos hflag), rfl, Script.polls_quiet _ rfl rfl⟩

/-- The status words of an initialisation whose `CMD55` comes back with a CRC
error: `CMD0` is sent, `CMD8` is not answered. -/
def crcErrorTicks : List UInt32 :=
  [mciStatusCmdSent, 0, mciStatusCmdTimeout, 0, mciStatusCmdCrcFail, 0]

/-- A card whose first block ends in the signature of a boot record. -/
def Card.withMbr : Card where
  highCapacity := false
  capacity := 1
  bytes := fun i => if i = 510 then 0x55 else if i = 511 then 0xAA else 0
  other := fun _ _ => 0

/-- The controller that shows the CRC error, and then the first block. -/
def Controller.crcError : Controller :=
  { Controller.reset with card := .withMbr, ticks := crcErrorTicks ++ promptTicks }

/-- What is still to be shown before the first block, and the block. -/
def Script.beforeMbr (ticks : List UInt32) : Script := ⟨.withMbr, ticks ++ promptTicks, .none⟩

/-- The sequence is given up at `CMD55`. -/
theorem initialisationFails_crcError :
    InitialisationFails .withMbr Controller.crcError.responses Controller.crcError.script
      (.beforeMbr []) := by
  have hcmd0 : goIdle.passes (.beforeMbr crcErrorTicks) (.beforeMbr (crcErrorTicks.drop 2)) :=
    ⟨.beforeMbr (crcErrorTicks.drop 1), Script.polls_quiet _ (by decide) (by decide),
      Script.polls_quiet _ (by decide) (by decide)⟩
  have hcmd8 : (command cmd8 0x000001AA).fails (.beforeMbr (crcErrorTicks.drop 2))
      (.beforeMbr (crcErrorTicks.drop 4)) :=
    Script.command_quiet _ cmd8 0x000001AA (by decide) (by decide)
  have hcmd55 : (command cmd55 0).fails (.beforeMbr (crcErrorTicks.drop 4)) (.beforeMbr []) :=
    Script.command_quiet _ cmd55 0 (by decide) (by decide)
  obtain ⟨busy, n, hbusy⟩ := exists_busy Controller.crcError.responses
  refine ⟨busy, n, hbusy, Or.inl (Or.inr ⟨.beforeMbr crcErrorTicks, rfl, Or.inr ⟨_, hcmd0, ?_⟩⟩)⟩
  exact Or.inr ⟨_, Or.inl (Or.inl hcmd8), Or.inl hcmd55⟩

/-- **The protocol is installed after a failed initialisation.** The geometry it
shows is that of no card. -/
theorem publishes_after_crc_error :
    ¬ PublishesDecoded 0 .efiSuccess (.start .crcError 0 0) := by
  obtain ⟨h₁, hshort, hscript⟩ := (fallsShort_iff .crcError 0 0 _).mpr initialisationFails_crcError
  obtain ⟨hcard, hticks, herrors⟩ := Script.mk.inj hscript
  obtain ⟨words, c', hread, -, -⟩ := readABlock_of_delivers h₁.highCapacity 0
    delivers_promptTicks (hticks.trans (List.append_nil _).symm) herrors
  obtain ⟨t, hcompletes⟩ := (readABlock_iff h₁.highCapacity 0).mp ⟨words, c', hread⟩
  refine not_publishesDecoded hshort ((firstBlockSigned_iff h₁).mpr ⟨?_, ?_, t, ?_⟩)
  · rw [hcard]
    decide
  · rw [hcard]
    decide
  · rwa [blockAddress_zero] at hcompletes

end SdCardDxe
