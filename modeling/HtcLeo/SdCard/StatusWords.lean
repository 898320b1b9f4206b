import HtcLeo.Lib.Steps
import HtcLeo.SdCard.ReadBlock

/-!
# What status words say to the driver

The driver sees of the controller what `MCI_STATUS` shows, one word after the other, and
waits for a word that decides something: `Script.Polls` is such a wait, with the words it
reads. Between them words of data are taken, `Script.Feeds`. A command, the wait for data
and a block of data are steps made of these, in which nothing of the driver is left but the
flags it looks for. The errors a step leaves are those that later words show too.

That the routines of the driver do what the words say is shown here for the loops, a command
and a block (`mmcSendCmd_iff`, `readABlock_iff`).
-/

namespace SdCardDxe

/-! ## Scripts -/

/-- **What a controller is going to show**: the words of the card, the status words, and the
data errors that are set. -/
structure Script where
  card : Card
  words : List UInt32
  errors : DataErrors

/-- Status words are read until one decides. What decides is a word, with the errors that are
set by then. -/
inductive Script.Polls {α : Type} (decides : DataErrors → UInt32 → Option α) :
    Script → α → Script → Prop
  | leaves {card : Card} {w : UInt32} {rest : List UInt32} {e : DataErrors} {a : α} :
    decides (e.union (.ofStatus w)) w = some a →
    Polls decides ⟨card, w :: rest, e⟩ a ⟨card, rest, e.union (.ofStatus w)⟩
  | again {card : Card} {w : UInt32} {rest : List UInt32} {e : DataErrors} {a : α} {t : Script} :
    decides (e.union (.ofStatus w)) w = none →
    Polls decides ⟨card, rest, e.union (.ofStatus w)⟩ a t → Polls decides ⟨card, w :: rest, e⟩ a t

/-- Status words are read while the card hands out words: of `n` that are to come, `m` are missing
when a word shows neither a word of data nor a transfer that goes on. -/
inductive Script.Feeds : ℕ → ℕ → Script → Script → Prop
  | done {s : Script} : Feeds 0 0 s s
  | starved {n : ℕ} {card : Card} {w : UInt32} {rest : List UInt32} {e : DataErrors} :
    Word.flag w mciStatusRxdataAvlbl = false → Word.flag w mciStatusRxactive = false →
    Feeds (n + 1) (n + 1) ⟨card, w :: rest, e⟩ ⟨card, rest, e.union (.ofStatus w)⟩
  | word {n m : ℕ} {card : Card} {w : UInt32} {rest : List UInt32} {e : DataErrors} {t : Script} :
    Word.flag w mciStatusRxdataAvlbl = true →
    Feeds n m ⟨card, rest, e.union (.ofStatus w)⟩ t → Feeds (n + 1) m ⟨card, w :: rest, e⟩ t
  | idle {n m : ℕ} {card : Card} {w : UInt32} {rest : List UInt32} {e : DataErrors} {t : Script} :
    Word.flag w mciStatusRxdataAvlbl = false → Word.flag w mciStatusRxactive = true →
    Feeds (n + 1) m ⟨card, rest, e.union (.ofStatus w)⟩ t → Feeds (n + 1) m ⟨card, w :: rest, e⟩ t

/-! ## What decides -/

/-- A flag goes up. -/
def goesUp (mask : UInt32) (_ : DataErrors) (w : UInt32) : Option Unit :=
  if Word.flag w mask then some () else none

/-- A flag goes down. -/
def goesDown (mask : UInt32) (_ : DataErrors) (w : UInt32) : Option Unit :=
  if Word.flag w mask then none else some ()

/-- A command flag shows. -/
def commandFlag (_ : DataErrors) (w : UInt32) : Option UInt32 :=
  if showsCmdFlag w then some w else none

/-- The block ends, or an error is set. -/
def blockEnds (e : DataErrors) (w : UInt32) : Option Bool :=
  if e.raised then some false else if Word.flag w mciStatusDataBlkEnd then some true else none

/-- The command flags of a word are an answer to a command: to `ACMD41` and its like a CRC error
is one, as the response has no CRC, and to `CMD55` without an address so is a timeout. -/
def answers (cmdIndex : UInt16) (arg w : UInt32) : Bool :=
  Word.flag w mciStatusCmdResponseEnd || (Word.flag w mciStatusCmdCrcFail && isOpCond cmdIndex)
    || ((cmdIndex = cmd5 || cmdIndex = cmd55) && arg = 0 && Word.flag w mciStatusCmdTimeout)

/-! ## The steps -/

/-- A command flag shows, and the flag of a response goes down. -/
def Script.Command (cmdIndex : UInt16) (arg : UInt32) (answered : Bool) (s t : Script) : Prop :=
  ∃ w u, s.Polls commandFlag w u ∧ answers cmdIndex arg w = answered
    ∧ u.Polls (goesDown mciStatusCmdResponseEnd) () t

/-- **A command that has a response.** -/
def command (cmdIndex : UInt16) (arg : UInt32) : Step Script where
  passes := Script.Command cmdIndex arg true
  fails := Script.Command cmdIndex arg false

/-- A command that has none. -/
def goIdle : Step Script where
  passes s t :=
    ∃ u, s.Polls (goesUp mciStatusCmdSent) () u ∧ u.Polls (goesDown mciStatusCmdSent) () t
  fails _ _ := False

/-- A wait for data. -/
def available : Step Script where
  passes s t := s.Polls (goesUp mciStatusRxdataAvlbl) () t
  fails _ _ := False

/-- The script when the data errors have been cleared. -/
def Script.cleared (s : Script) : Script := ⟨s.card, s.words, .none⟩

/-- A block ends without an error, and the flag of the end of the data goes up and down. -/
def Script.EndsWell (s t : Script) : Prop :=
  ∃ v r, s.Polls blockEnds true v ∧ v.cleared.Polls (goesUp mciStatusDataend) () r
    ∧ r.Polls (goesDown mciStatusDataend) () t

/-- **A block of data** of `n` words: they come, and it ends. -/
def block (n : ℕ) : Step Script where
  passes s t := ∃ u, s.Feeds n 0 u ∧ u.EndsWell t
  fails s t := (∃ m, 0 < m ∧ s.Feeds n m t) ∨ ∃ u, s.Feeds n 0 u ∧ u.Polls blockEnds false t

/-! ## A controller and its script -/

/-- What the controller is going to show. -/
def Controller.script (c : Controller) : Script := ⟨c.card, c.ticks, c.errors⟩

/-- The controller when some of it has been shown. -/
def Controller.goTo (c : Controller) (t : Script) : Controller :=
  { c with ticks := t.words, errors := t.errors }

section Script

variable {c c' : Controller} {s t u : Script}

theorem script_goTo (h : t.card = c.card) : (c.goTo t).script = t := by
  unfold Controller.goTo Controller.script
  rw [← h]

theorem goTo_goTo : (c.goTo s).goTo t = c.goTo t := rfl

theorem Script.Polls.card_eq {α : Type} {decides : DataErrors → UInt32 → Option α} {a : α}
    (h : s.Polls decides a t) : t.card = s.card := by
  induction h with
  | leaves _ => rfl
  | again _ _ ih => exact ih

theorem Script.Feeds.card_eq {n m : ℕ} (h : s.Feeds n m t) : t.card = s.card := by
  induction h with
  | done => rfl
  | starved _ _ => rfl
  | word _ _ ih => exact ih
  | idle _ _ _ ih => exact ih

/-- A mask that is not one of a data error does not see the errors that are set. -/
theorem flag_shown {mask : UInt32}
    (h : ∀ a b c d, Word.flag (DataErrors.bits ⟨a, b, c, d⟩) mask = false)
    (w : UInt32) (e : DataErrors) : Word.flag (w ||| e.bits) mask = Word.flag w mask := by
  rw [Word.flag_or, h e.dataCrcFail e.dataTimeout e.rxOverrun e.startBitErr, Bool.or_false]

/-- A read of `MCI_STATUS`. -/
theorem mmioRead32_status_iff {w : UInt32} :
    mmioRead32 .mciStatus c = (some w, c') ↔ ∃ x rest, c.ticks = x :: rest
      ∧ w = x ||| c.errors.bits
      ∧ c' = c.goTo ⟨c.card, rest, c.errors.union (.ofStatus x)⟩ := by
  cases hticks : c.ticks with
  | nil =>
    rw [mmioRead32_status_end hticks]
    refine iff_of_false (fun h => ?_) ?_
    · cases h
    · rintro ⟨x, rest, h, -⟩
      cases h
  | cons x rest =>
    rw [mmioRead32_status hticks]
    constructor
    · rintro h
      cases h
      exact ⟨x, rest, rfl, rfl, rfl⟩
    · rintro ⟨y, rest', h, rfl, rfl⟩
      cases h
      rfl

/-! ## The loops -/

/-- A round that reads a status word and decides. -/
def pollRound {α : Type} (f : UInt32 → Unit ⊕ α) (_ : Unit) : Routine Controller (Unit ⊕ α) := do
  let w ← mmioRead32 .mciStatus
  return f w

/-- **A loop that polls** reads the words until one decides. -/
theorem pollLoop_iff {α : Type} {f : UInt32 → Unit ⊕ α}
    {decides : DataErrors → UInt32 → Option α}
    (hf : ∀ (w : UInt32) (e : DataErrors), f (w ||| e.bits)
      = (decides (e.union (.ofStatus w)) w).elim (.inl ()) .inr) {a : α} :
    Routine.loop (fun _ (c : Controller) => c.ticks.length) (pollRound f) () c = (some a, c')
      ↔ ∃ t, c.script.Polls decides a t ∧ c' = c.goTo t := by
  have hround : ∀ {c c' : Controller} {r : Unit ⊕ α}, pollRound f () c = (some r, c')
      ↔ ∃ x rest, c.ticks = x :: rest
        ∧ r = (decides (c.errors.union (.ofStatus x)) x).elim (.inl ()) .inr
        ∧ c' = c.goTo ⟨c.card, rest, c.errors.union (.ofStatus x)⟩ := by
    intro c c' r
    unfold pollRound
    rw [Routine.bind_eq_some_iff]
    constructor
    · rintro ⟨w, c₁, hread, hret⟩
      obtain ⟨x, rest, hticks, rfl, rfl⟩ := mmioRead32_status_iff.mp hread
      cases hret
      exact ⟨x, rest, hticks, hf x c.errors, rfl⟩
    · rintro ⟨x, rest, hticks, rfl, rfl⟩
      exact ⟨_, _, mmioRead32_status_iff.mpr ⟨x, rest, hticks, rfl, rfl⟩,
        by rw [hf x c.errors]; rfl⟩
  have hconsumes : Routine.Consumes (fun _ (c : Controller) => c.ticks.length) (pollRound f) := by
    intro b c b' c' h
    exact ticks_lt_of_status (fun _ _ => rfl) h
  rw [Routine.loop_eq_some_iff hconsumes]
  constructor
  · generalize hu : () = u
    intro h
    induction h with
    | @leaves u c c' a h =>
      obtain ⟨x, rest, hticks, hr, rfl⟩ := hround.mp h
      refine ⟨_, ?_, rfl⟩
      unfold Controller.script
      rw [hticks]
      refine .leaves ?_
      cases hd : decides (c.errors.union (.ofStatus x)) x with
      | none =>
        rw [hd] at hr
        cases hr
      | some a' =>
        rw [hd] at hr
        rw [← Sum.inr.inj hr]
    | @again u u' c c₁ c' a h _ ih =>
      obtain ⟨x, rest, hticks, hr, rfl⟩ := hround.mp h
      obtain ⟨t, ht, rfl⟩ := ih rfl
      refine ⟨t, ?_, rfl⟩
      unfold Controller.script
      rw [hticks]
      refine .again ?_ ht
      cases hd : decides (c.errors.union (.ofStatus x)) x with
      | none => rfl
      | some a' =>
        rw [hd] at hr
        cases hr
  · rintro ⟨t, h, rfl⟩
    generalize hs : c.script = s at h
    induction h generalizing c with
    | @leaves card w rest e a hd =>
      obtain ⟨rfl, hticks, rfl⟩ := Script.mk.inj hs
      refine .leaves (hround.mpr ⟨w, rest, hticks, ?_, rfl⟩)
      rw [hd]
      rfl
    | @again card w rest e a t hd _ ih =>
      obtain ⟨rfl, hticks, rfl⟩ := Script.mk.inj hs
      refine .again (hround.mpr ⟨w, rest, hticks, ?_, rfl⟩) (ih rfl)
      rw [hd]
      rfl

/-- A wait of the driver. -/
theorem waitWhile_iff {p : UInt32 → Bool} {decides : DataErrors → UInt32 → Option Unit}
    (hp : ∀ (w : UInt32) (e : DataErrors),
      decides (e.union (.ofStatus w)) w = if p (w ||| e.bits) then none else some ()) :
    waitWhile p c = (some (), c') ↔ ∃ t, c.script.Polls decides () t ∧ c' = c.goTo t := by
  have hround : waitRound p = pollRound fun w => if p w then .inl () else .inr () := by
    funext u
    unfold waitRound pollRound
    exact congrArg _ (funext fun w => (apply_ite pure (p w = true) _ _).symm)
  unfold waitWhile
  rw [hround]
  refine pollLoop_iff fun w e => ?_
  rw [hp w e]
  split <;> rfl

/-- A wait for a flag to go up. -/
theorem waitUp_iff (mask : UInt32)
    (h : ∀ a b c d, Word.flag (DataErrors.bits ⟨a, b, c, d⟩) mask = false) :
    waitWhile (fun w => !Word.flag w mask) c = (some (), c')
      ↔ ∃ t, c.script.Polls (goesUp mask) () t ∧ c' = c.goTo t := by
  refine waitWhile_iff fun w e => ?_
  rw [flag_shown h]
  unfold goesUp
  cases Word.flag w mask <;> rfl

/-- A wait for a flag to go down. -/
theorem waitDown_iff (mask : UInt32)
    (h : ∀ a b c d, Word.flag (DataErrors.bits ⟨a, b, c, d⟩) mask = false) :
    waitWhile (fun w => Word.flag w mask) c = (some (), c')
      ↔ ∃ t, c.script.Polls (goesDown mask) () t ∧ c' = c.goTo t := by
  refine waitWhile_iff fun w e => ?_
  rw [flag_shown h]
  rfl

/-- The loop of `check_clear_read_status`. -/
theorem checkLoop_iff {ok : Bool} :
    Routine.loop (fun _ (c : Controller) => c.ticks.length) checkRound () c = (some ok, c')
      ↔ ∃ t, c.script.Polls blockEnds ok t ∧ c' = c.goTo t := by
  have hround : checkRound = pollRound fun w => if (DataErrors.ofStatus w).raised then .inr false
      else if Word.flag w mciStatusDataBlkEnd then .inr true else .inl () := by
    funext u
    exact checkRound_eq u
  rw [hround]
  refine pollLoop_iff fun w e => ?_
  have hcomm : (DataErrors.ofStatus w).union e = e.union (.ofStatus w) := by
    unfold DataErrors.union
    simp only [Bool.or_comm]
  rw [flag_shown (by decide), DataErrors.ofStatus_or_bits, hcomm]
  unfold blockEnds
  cases (e.union (.ofStatus w)).raised <;> cases Word.flag w mciStatusDataBlkEnd <;> rfl

/-! ## A command -/

/-- The command flags of a status word. -/
def CmdFlags.ofStatus (w : UInt32) : CmdFlags :=
  ⟨Word.flag w mciStatusCmdTimeout, Word.flag w mciStatusCmdCrcFail,
    Word.flag w mciStatusCmdResponseEnd⟩

theorem any_ofStatus (w : UInt32) : (CmdFlags.ofStatus w).any = showsCmdFlag w := rfl

/-- Errors that are set do not show in the command flags. -/
theorem seen_shown {cmd : UInt16} (hinterrupt : cmd &&& mciCmdInterrupt = 0) (f : CmdFlags)
    (w : UInt32) (e : DataErrors) : f.seen cmd (w ||| e.bits) = .ofStatus w := by
  unfold CmdFlags.seen CmdFlags.ofStatus
  rw [flag_shown (by decide), flag_shown (by decide), flag_shown (by decide), if_pos hinterrupt]

/-- A round of the loop of `mmc_send_cmd`. -/
theorem cmdRound_iff {cmd : UInt16} (hinterrupt : cmd &&& mciCmdInterrupt = 0) {f : CmdFlags}
    {r : CmdFlags ⊕ CmdFlags} (hf : f.any = false) :
    cmdRound cmd f c = (some r, c') ↔ ∃ x rest, c.ticks = x :: rest
      ∧ r = .inl (.ofStatus x) ∧ c' = c.goTo ⟨c.card, rest, c.errors.union (.ofStatus x)⟩ := by
  rw [cmdRound_of_not_any hf, Routine.bind_eq_some_iff]
  constructor
  · rintro ⟨w, c₁, hread, hret⟩
    obtain ⟨x, rest, hticks, rfl, rfl⟩ := mmioRead32_status_iff.mp hread
    cases hret
    exact ⟨x, rest, hticks, by rw [seen_shown hinterrupt], rfl⟩
  · rintro ⟨x, rest, hticks, rfl, rfl⟩
    exact ⟨_, _, mmioRead32_status_iff.mpr ⟨x, rest, hticks, rfl, rfl⟩,
      by rw [seen_shown hinterrupt]; rfl⟩

/-- The loop of `mmc_send_cmd` is left in the round after a flag was seen. -/
theorem rounds_of_any {cmd : UInt16} {f g : CmdFlags} (hf : f.any = true) :
    Routine.Rounds (cmdRound cmd) f c g c' ↔ g = f ∧ c' = c := by
  have hround : cmdRound cmd f c = _ := cmdRound_of_any hf c
  constructor
  · intro h
    cases h with
    | leaves h =>
      cases hround.symm.trans h
      exact ⟨rfl, rfl⟩
    | again h _ => cases hround.symm.trans h
  · rintro ⟨rfl, rfl⟩
    exact .leaves hround

/-- **The loop of `mmc_send_cmd`** reads the words until one has a command flag. -/
theorem cmdLoop_iff {cmd : UInt16} (hinterrupt : cmd &&& mciCmdInterrupt = 0) {f g : CmdFlags}
    (hf : f.any = false) :
    Routine.loop (fun _ (c : Controller) => c.ticks.length) (cmdRound cmd) f c = (some g, c')
      ↔ ∃ w t, c.script.Polls commandFlag w t ∧ g = .ofStatus w ∧ c' = c.goTo t := by
  rw [Routine.loop_eq_some_iff (cmdRound_consumes cmd)]
  constructor
  · intro h
    induction h with
    | leaves h =>
      obtain ⟨x, rest, -, hr, -⟩ := (cmdRound_iff hinterrupt hf).mp h
      cases hr
    | @again f f' c c₁ c' g h hrounds ih =>
      obtain ⟨x, rest, hticks, hr, rfl⟩ := (cmdRound_iff hinterrupt hf).mp h
      cases hr
      cases hflag : showsCmdFlag x with
      | true =>
        obtain ⟨rfl, rfl⟩ := (rounds_of_any (by rw [any_ofStatus, hflag])).mp hrounds
        refine ⟨x, _, ?_, rfl, rfl⟩
        unfold Controller.script
        rw [hticks]
        exact .leaves (if_pos hflag)
      | false =>
        obtain ⟨w, t, ht, rfl, rfl⟩ := ih (by rw [any_ofStatus, hflag])
        refine ⟨w, t, ?_, rfl, rfl⟩
        unfold Controller.script
        rw [hticks]
        exact .again (if_neg (by rw [hflag]; exact Bool.false_ne_true)) ht
  · rintro ⟨w, t, h, rfl, rfl⟩
    generalize hs : c.script = s at h
    induction h generalizing c f with
    | @leaves card x rest e w hd =>
      obtain ⟨rfl, hticks, rfl⟩ := Script.mk.inj hs
      unfold commandFlag at hd
      split at hd
      · rename_i hflag
        cases hd
        exact .again ((cmdRound_iff hinterrupt hf).mpr ⟨x, rest, hticks, rfl, rfl⟩)
          ((rounds_of_any (by rw [any_ofStatus, hflag])).mpr ⟨rfl, rfl⟩)
      · cases hd
    | @again card x rest e w t hd _ ih =>
      obtain ⟨rfl, hticks, rfl⟩ := Script.mk.inj hs
      unfold commandFlag at hd
      split at hd
      · cases hd
      · rename_i hflag
        exact .again ((cmdRound_iff hinterrupt hf).mpr ⟨x, rest, hticks, rfl, rfl⟩)
          (ih (by rw [any_ofStatus]; exact eq_false_of_ne_true hflag) rfl)

theorem mmioWrite32_clear_eq (w : UInt32) (c : Controller) :
    mmioWrite32 .mciClear w c = (some (), { c with errors := c.errors.clear w }) := rfl

/-- A write to `MCI_CLEAR` that names no data error. -/
theorem mmioWrite32_clear_flags {w : UInt32} (hw : DataErrors.ofStatus w = .none) (c : Controller) :
    mmioWrite32 .mciClear w c = (some (), c) := by
  rw [mmioWrite32_clear_eq, DataErrors.clear_of_ofStatus hw]

/-- The response registers. -/
theorem readResponse_eq (c : Controller) : readResponse c = (some c.response, c) := by
  show (some _, c) = _
  congr 2
  funext n
  obtain rfl | rfl | rfl | rfl : n = 0 ∨ n = 1 ∨ n = 2 ∨ n = 3 := by omega
  all_goals rfl

/-- What `mmc_send_cmd` makes of the flags. -/
theorem verdict_eq (cmdIndex : UInt16) (arg w : UInt32) (response : Option Response) :
    (if (CmdFlags.ofStatus w).cmdResponseEnd
        || ((CmdFlags.ofStatus w).cmdCrcFail && isOpCond cmdIndex) then pure (true, response)
      else if (cmdIndex = cmd5 && arg = 0 && (CmdFlags.ofStatus w).cmdTimeout)
        || (cmdIndex = cmd55 && arg = 0 && (CmdFlags.ofStatus w).cmdTimeout) then
        pure (true, response)
      else pure (false, response) : Routine Controller (Bool × Option Response))
      = pure (answers cmdIndex arg w, response) := by
  have hanswers : answers cmdIndex arg w
      = ((CmdFlags.ofStatus w).cmdResponseEnd
          || ((CmdFlags.ofStatus w).cmdCrcFail && isOpCond cmdIndex)
        || ((cmdIndex = cmd5 && arg = 0 && (CmdFlags.ofStatus w).cmdTimeout)
          || (cmdIndex = cmd55 && arg = 0 && (CmdFlags.ofStatus w).cmdTimeout))) := by
    unfold answers CmdFlags.ofStatus
    rw [Bool.and_assoc, Bool.and_assoc, Bool.and_assoc, ← Bool.and_or_distrib_right]
  rw [hanswers]
  split
  · rename_i h
    rw [h, Bool.true_or]
  · rename_i h
    rw [eq_false_of_ne_true h, Bool.false_or]
    split
    · rename_i h'
      rw [h']
    · rename_i h'
      rw [eq_false_of_ne_true h']

/-- **The response to a command** is waited for, and its flag. -/
theorem awaitResponse_iff {cmd : UInt16} {arg : UInt32}
    (hinterrupt : cmd &&& mciCmdInterrupt = 0) {r : Bool × Option Response} :
    awaitResponse cmd arg c = (some r, c')
      ↔ ∃ t, c.script.Command (cmd &&& mciCmdCmdIndex) arg r.1 t ∧ r.2 = some c.response
        ∧ c' = c.goTo t := by
  have hclear : ∀ c : Controller, mmioWrite32 .mciClear mciClearCmdRespEndClt c = (some (), c)
      ∧ mmioWrite32 .mciClear mciClearCmdTimoutClr c = (some (), c)
      ∧ mmioWrite32 .mciClear mciClearCmdCrcFailClr c = (some (), c) := fun c =>
    ⟨mmioWrite32_clear_flags (by decide) c, mmioWrite32_clear_flags (by decide) c,
      mmioWrite32_clear_flags (by decide) c⟩
  unfold awaitResponse
  constructor
  · intro h
    obtain ⟨f, c₁, hloop, h⟩ := Routine.bind_eq_some_iff.mp h
    obtain ⟨w, u, hflag, rfl, rfl⟩ := (cmdLoop_iff hinterrupt rfl).mp hloop
    rw [Routine.bind_of_returns (hclear _).1] at h
    obtain ⟨_, c₂, hwait, h⟩ := Routine.bind_eq_some_iff.mp h
    obtain ⟨t, hdown, rfl⟩ := (waitDown_iff _ (by decide)).mp hwait
    rw [script_goTo hflag.card_eq] at hdown
    rw [Routine.bind_of_returns (hclear _).2.1, Routine.bind_of_returns (hclear _).2.2,
      Routine.bind_of_returns (readResponse_eq _), verdict_eq] at h
    cases h
    exact ⟨t, ⟨w, u, hflag, rfl, hdown⟩, rfl, rfl⟩
  · rintro ⟨t, ⟨w, u, hflag, hanswers, hdown⟩, hresponse, rfl⟩
    have hloop := (cmdLoop_iff (c := c) hinterrupt (f := ⟨false, false, false⟩) rfl).mpr
      ⟨w, u, hflag, rfl, rfl⟩
    have hwait := (waitDown_iff (c := c.goTo u) mciStatusCmdResponseEnd (by decide)).mpr
      ⟨t, (script_goTo hflag.card_eq).symm ▸ hdown, rfl⟩
    rw [Routine.bind_of_returns hloop, Routine.bind_of_returns (hclear _).1,
      Routine.bind_of_returns hwait, Routine.bind_of_returns (hclear _).2.1,
      Routine.bind_of_returns (hclear _).2.2, Routine.bind_of_returns (readResponse_eq _),
      verdict_eq, hanswers]
    show (some (r.1, some c.response), _) = _
    rw [← hresponse]
    rfl

/-- The controller when a command has been written. -/
def Controller.commanded (c : Controller) (cmd : UInt16) (arg : UInt32) : Controller :=
  { c with
    argument := arg
    cmd := cmd.toUInt32
    taken := 0
    response := c.responses.headD fun _ => 0
    responses := c.responses.tail }

/-- **A command that has a response.** -/
theorem mmcSendCmd_iff {cmd : UInt16} {arg : UInt32} (hinterrupt : cmd &&& mciCmdInterrupt = 0)
    (hresponse : cmd &&& mciCmdResponse ≠ 0) {r : Bool × Option Response} :
    mmcSendCmd cmd arg c = (some r, c')
      ↔ ∃ t, c.script.Command (cmd &&& mciCmdCmdIndex) arg r.1 t
        ∧ r.2 = some (c.responses.headD fun _ => 0) ∧ c' = (c.commanded cmd arg).goTo t := by
  unfold mmcSendCmd
  rw [if_pos hresponse]
  exact awaitResponse_iff (c := c.commanded cmd arg) hinterrupt

/-- A command that has none. -/
theorem mmcSendCmd_none_iff {cmd : UInt16} {arg : UInt32} (hresponse : cmd &&& mciCmdResponse = 0)
    {r : Bool × Option Response} :
    mmcSendCmd cmd arg c = (some r, c')
      ↔ ∃ t, goIdle.passes c.script t ∧ r = (true, none) ∧ c' = (c.commanded cmd arg).goTo t := by
  have hclear : ∀ c : Controller, mmioWrite32 .mciClear mciClearCmdSentClr c = (some (), c) :=
    mmioWrite32_clear_flags (by decide)
  unfold mmcSendCmd
  rw [if_neg (not_not.mpr hresponse)]
  show ((waitWhile fun w => !Word.flag w mciStatusCmdSent) >>= _) (c.commanded cmd arg) = _ ↔ _
  constructor
  · intro h
    obtain ⟨_, c₁, hwait, h⟩ := Routine.bind_eq_some_iff.mp h
    obtain ⟨u, hup, rfl⟩ := (waitUp_iff _ (by decide)).mp hwait
    rw [Routine.bind_of_returns (hclear _)] at h
    obtain ⟨_, c₂, hwait, h⟩ := Routine.bind_eq_some_iff.mp h
    obtain ⟨t, hdown, rfl⟩ := (waitDown_iff _ (by decide)).mp hwait
    rw [script_goTo hup.card_eq] at hdown
    cases h
    exact ⟨t, ⟨u, hup, hdown⟩, rfl, rfl⟩
  · rintro ⟨t, ⟨u, hup, hdown⟩, rfl, rfl⟩
    have hwait := (waitUp_iff (c := c.commanded cmd arg) mciStatusCmdSent
      (by decide)).mpr ⟨u, hup, rfl⟩
    have hwait' := (waitDown_iff (c := (c.commanded cmd arg).goTo u) mciStatusCmdSent
      (by decide)).mpr ⟨t, (script_goTo (c := c.commanded cmd arg) hup.card_eq).symm ▸ hdown, rfl⟩
    rw [Routine.bind_of_returns hwait, Routine.bind_of_returns (hclear _),
      Routine.bind_of_returns hwait']
    rfl

/-! ## A block of data -/

/-- A round of a loop that takes words from the FIFO, with what is still to come. -/
def feedRound {β γ : Type} (todo : β → ℕ) (take : β → UInt32 → β) (full cut : β → γ) (b : β) :
    Routine Controller (β ⊕ γ) := do
  if 0 < todo b then
    let mciStatus ← mmioRead32 .mciStatus
    if Word.flag mciStatus mciStatusRxdataAvlbl then
      let w ← mmioRead32 .mciFifo
      return .inl (take b w)
    else if !Word.flag mciStatus mciStatusRxactive then
      return .inr (cut b)
    else
      return .inl b
  else
    return .inr (full b)

/-- The controller when words have been taken. -/
def Controller.took (c : Controller) (n : ℕ) : Controller := { c with taken := c.taken + n }

/-- What `n` words taken come to. -/
def Controller.takes {β : Type} (take : β → UInt32 → β) : ℕ → Controller → β → β
  | 0, _, b => b
  | n + 1, c, b => takes take n (c.took 1) (take b c.fifoWord)

section Feed

variable {β γ : Type} {todo : β → ℕ} {take : β → UInt32 → β} {full cut : β → γ}

/-- A round with nothing to come. -/
theorem feedRound_zero (take : β → UInt32 → β) (full cut : β → γ) {b : β} (hb : todo b = 0)
    (c : Controller) :
    feedRound todo take full cut b c = (some (.inr (full b)), c) := by
  unfold feedRound
  rw [hb, if_neg (Nat.lt_irrefl 0)]
  rfl

/-- A round with words to come. -/
theorem feedRound_iff (take : β → UInt32 → β) (full cut : β → γ) {b : β} (hb : 0 < todo b)
    {r : β ⊕ γ} :
    feedRound todo take full cut b c = (some r, c') ↔ ∃ x rest, c.ticks = x :: rest
      ∧ r = (if Word.flag x mciStatusRxdataAvlbl then .inl (take b c.fifoWord)
        else if Word.flag x mciStatusRxactive then .inl b else .inr (cut b))
      ∧ c' = (c.took (if Word.flag x mciStatusRxdataAvlbl then 1 else 0)).goTo
        ⟨c.card, rest, c.errors.union (.ofStatus x)⟩ := by
  have hdecide : ∀ (x : UInt32) (rest : List UInt32), c.ticks = x :: rest →
      feedRound todo take full cut b c
        = (some (if Word.flag x mciStatusRxdataAvlbl then .inl (take b c.fifoWord)
            else if Word.flag x mciStatusRxactive then .inl b else .inr (cut b)),
          (c.took (if Word.flag x mciStatusRxdataAvlbl then 1 else 0)).goTo
            ⟨c.card, rest, c.errors.union (.ofStatus x)⟩) := by
    intro x rest hticks
    unfold feedRound
    rw [if_pos hb, Routine.bind_of_returns (mmioRead32_status_iff.mpr ⟨x, rest, hticks, rfl, rfl⟩),
      flag_shown (by decide), flag_shown (by decide)]
    cases Word.flag x mciStatusRxdataAvlbl with
    | true => rfl
    | false => cases Word.flag x mciStatusRxactive <;> rfl
  constructor
  · intro h
    cases hticks : c.ticks with
    | nil =>
      unfold feedRound at h
      rw [if_pos hb, Routine.bind_of_waits (mmioRead32_status_end hticks)] at h
      cases h
    | cons x rest =>
      rw [hdecide x rest hticks] at h
      cases h
      exact ⟨x, rest, rfl, rfl, rfl⟩
  · rintro ⟨x, rest, hticks, rfl, rfl⟩
    exact hdecide x rest hticks

theorem feedRound_consumes : Routine.Consumes (fun _ (c : Controller) => c.ticks.length)
    (feedRound todo take full cut) := by
  intro b c b' c' h
  by_cases hb : 0 < todo b
  · obtain ⟨x, rest, hticks, -, rfl⟩ := (feedRound_iff _ _ _ hb).mp h
    show rest.length < c.ticks.length
    rw [hticks]
    exact Nat.lt_succ_self rest.length
  · rw [feedRound_zero _ _ _ (Nat.eq_zero_of_not_pos hb)] at h
    cases h

/-- Words still missing are not more than were to come. -/
theorem Script.Feeds.le {n m : ℕ} (h : s.Feeds n m t) : m ≤ n := by
  induction h with
  | done => exact Nat.le_refl 0
  | starved _ _ => exact Nat.le_refl _
  | word _ _ ih => exact Nat.le_succ_of_le ih
  | idle _ _ _ ih => exact ih

/-- Words of which the first is `x`. -/
theorem feeds_cons_iff {n m : ℕ} {card : Card} {x : UInt32} {rest : List UInt32} {e : DataErrors} :
    Script.Feeds (n + 1) m ⟨card, x :: rest, e⟩ t
      ↔ if Word.flag x mciStatusRxdataAvlbl then
          Script.Feeds n m ⟨card, rest, e.union (.ofStatus x)⟩ t
        else if Word.flag x mciStatusRxactive then
          Script.Feeds (n + 1) m ⟨card, rest, e.union (.ofStatus x)⟩ t
        else m = n + 1 ∧ t = ⟨card, rest, e.union (.ofStatus x)⟩ := by
  constructor
  · intro h
    cases h with
    | starved havail hactive =>
      rw [havail, hactive]
      exact ⟨rfl, rfl⟩
    | word havail h =>
      rw [havail]
      exact h
    | idle havail hactive h =>
      rw [havail, hactive]
      exact h
  · intro h
    split at h
    · rename_i havail
      exact .word havail h
    · rename_i havail
      have havail' := eq_false_of_ne_true havail
      split at h
      · rename_i hactive
        exact .idle havail' hactive h
      · rename_i hactive
        obtain ⟨rfl, rfl⟩ := h
        exact .starved havail' (eq_false_of_ne_true hactive)

theorem takes_goTo (n : ℕ) (b : β) : (c.goTo t).takes take n b = c.takes take n b := by
  induction n generalizing c b with
  | zero => rfl
  | succ n ih => exact ih (c := c.took 1) (take b c.fifoWord)

theorem took_succ (n : ℕ) : (((c.took 1).goTo s).took n).goTo t = (c.took (n + 1)).goTo t := by
  unfold Controller.took Controller.goTo
  rw [Nat.add_assoc, Nat.add_comm 1]

/-- What a loop with words to come does. -/
def Fed (todo : β → ℕ) (take : β → UInt32 → β) (full cut : β → γ) (b : β) (c : Controller) (r : γ)
    (c' : Controller) : Prop :=
  ∃ m t, c.script.Feeds (todo b) m t
    ∧ r = (if m = 0 then full else cut) (c.takes take (todo b - m) b)
    ∧ c' = (c.took (todo b - m)).goTo t

/-- A loop with nothing to come. -/
theorem rounds_iff_fed_of_zero {b : β} (hb : todo b = 0) {r : γ} :
    Routine.Rounds (feedRound todo take full cut) b c r c' ↔ Fed todo take full cut b c r c' := by
  have hround := feedRound_zero take full cut hb c
  unfold Fed
  rw [hb]
  constructor
  · intro h
    rw [Routine.rounds_of_eq hround] at h
    obtain ⟨rfl, rfl⟩ := h
    exact ⟨0, c.script, .done, rfl, rfl⟩
  · rintro ⟨m, t, h, rfl, rfl⟩
    cases h
    exact .leaves hround

/-- One with words to come, of which the status words begin with `x`. -/
theorem fed_cons_iff (htake : ∀ b w, 0 < todo b → todo (take b w) + 1 = todo b) {b : β}
    (hb : 0 < todo b) {x : UInt32} {rest : List UInt32} (hticks : c.ticks = x :: rest) {r : γ} :
    Fed todo take full cut b c r c'
      ↔ if Word.flag x mciStatusRxdataAvlbl then
          Fed todo take full cut (take b c.fifoWord)
            ((c.took 1).goTo ⟨c.card, rest, c.errors.union (.ofStatus x)⟩) r c'
        else if Word.flag x mciStatusRxactive then
          Fed todo take full cut b (c.goTo ⟨c.card, rest, c.errors.union (.ofStatus x)⟩) r c'
        else r = cut b ∧ c' = c.goTo ⟨c.card, rest, c.errors.union (.ofStatus x)⟩ := by
  obtain ⟨n, hn⟩ := Nat.exists_eq_succ_of_ne_zero (Nat.ne_of_gt hb)
  have hscript : c.script = ⟨c.card, x :: rest, c.errors⟩ := by
    unfold Controller.script
    rw [hticks]
  have hnext : todo (take b c.fifoWord) = n := Nat.succ.inj ((htake b c.fifoWord hb).trans hn)
  unfold Fed
  rw [hscript, hn]
  simp only [feeds_cons_iff]
  split
  · rw [hnext]
    refine exists_congr fun m => exists_congr fun t => and_congr_right fun h => ?_
    have hle : n + 1 - m = n - m + 1 := by
      have hm := Script.Feeds.le h
      omega
    rw [hle, took_succ, takes_goTo]
    rfl
  · split
    · refine exists_congr fun m => exists_congr fun t => and_congr_right fun h => ?_
      rw [takes_goTo]
      rfl
    · constructor
      · rintro ⟨m, t, ⟨rfl, rfl⟩, hr, hc⟩
        rw [Nat.sub_self, if_neg (Nat.succ_ne_zero n)] at hr
        rw [Nat.sub_self] at hc
        exact ⟨hr, hc⟩
      · rintro ⟨rfl, rfl⟩
        refine ⟨n + 1, _, ⟨rfl, rfl⟩, ?_, ?_⟩
        · rw [Nat.sub_self, if_neg (Nat.succ_ne_zero n)]
          rfl
        · rw [Nat.sub_self]
          rfl

/-- **A loop that takes words from the FIFO.** -/
theorem feedLoop_iff (htake : ∀ b w, 0 < todo b → todo (take b w) + 1 = todo b) {b : β} {r : γ} :
    Routine.loop (fun _ (c : Controller) => c.ticks.length) (feedRound todo take full cut) b c
        = (some r, c') ↔ Fed todo take full cut b c r c' := by
  rw [Routine.loop_eq_some_iff feedRound_consumes]
  generalize hticks : c.ticks = words
  induction words generalizing c b with
  | nil =>
    rcases Nat.eq_zero_or_pos (todo b) with hb | hb
    · exact rounds_iff_fed_of_zero hb
    · have hwaits : feedRound todo take full cut b c = (none, c) := by
        unfold feedRound
        rw [if_pos hb]
        exact Routine.bind_of_waits (mmioRead32_status_end hticks)
      refine iff_of_false (Routine.not_rounds_of_waits hwaits) ?_
      · rintro ⟨m, t, h, -⟩
        obtain ⟨n, hn⟩ := Nat.exists_eq_succ_of_ne_zero (Nat.ne_of_gt hb)
        unfold Controller.script at h
        rw [hn, hticks] at h
        cases h
  | cons x rest ih =>
    rcases Nat.eq_zero_or_pos (todo b) with hb | hb
    · exact rounds_iff_fed_of_zero hb
    · have hround := (feedRound_iff take full cut hb).mpr
        ⟨x, rest, hticks, rfl, rfl⟩
      rw [fed_cons_iff htake hb hticks]
      cases havail : Word.flag x mciStatusRxdataAvlbl with
      | true =>
        rw [havail] at hround
        rw [Routine.rounds_of_eq hround]
        exact ih (c := (c.took 1).goTo _) rfl
      | false =>
        cases hactive : Word.flag x mciStatusRxactive with
        | true =>
          rw [havail, hactive] at hround
          rw [Routine.rounds_of_eq hround]
          exact ih (c := (c.took 0).goTo _) rfl
        | false =>
          rw [havail, hactive] at hround
          rw [Routine.rounds_of_eq hround]
          exact and_congr eq_comm eq_comm

end Feed

theorem Script.EndsWell.card_eq (h : s.EndsWell t) : t.card = s.card := by
  obtain ⟨v, r, hends, hup, hdown⟩ := h
  rw [hdown.card_eq, hup.card_eq]
  exact hends.card_eq

theorem Script.Command.card_eq {cmdIndex : UInt16} {arg : UInt32} {answered : Bool}
    (h : s.Command cmdIndex arg answered t) : t.card = s.card := by
  obtain ⟨w, u, hflag, -, hdown⟩ := h
  exact hdown.card_eq.trans hflag.card_eq

/-- The four data errors are cleared together. -/
theorem clear_dataErrors (e : DataErrors) :
    e.clear (mciClearDataCrcFailClr ||| mciClearDataTimeoutClr ||| mciClearRxOverrunClr
      ||| mciClearStartBitErrClr) = .none := by
  obtain ⟨a, b, c, d⟩ := e
  cases a <;> cases b <;> cases c <;> cases d <;> decide

/-- **The end of a block.** -/
theorem checkClearReadStatus_iff {ok : Bool} :
    checkClearReadStatus c = (some ok, c')
      ↔ ∃ t, (if ok then c.script.EndsWell t else c.script.Polls blockEnds false t)
        ∧ c' = c.goTo t := by
  have hblock : ∀ c : Controller, mmioWrite32 .mciClear mciClearDataBlkEndClr c = (some (), c) :=
    mmioWrite32_clear_flags (by decide)
  have hend : ∀ c : Controller, mmioWrite32 .mciClear mciClearDataEndClr c = (some (), c) :=
    mmioWrite32_clear_flags (by decide)
  have hclear : ∀ v : Script, mmioWrite32 .mciClear (mciClearDataCrcFailClr
        ||| mciClearDataTimeoutClr ||| mciClearRxOverrunClr ||| mciClearStartBitErrClr) (c.goTo v)
      = (some (), c.goTo v.cleared) := fun v => by
    rw [mmioWrite32_clear_eq, clear_dataErrors]
    rfl
  unfold checkClearReadStatus
  constructor
  · intro h
    obtain ⟨ended, c₁, hloop, h⟩ := Routine.bind_eq_some_iff.mp h
    obtain ⟨v, hends, rfl⟩ := checkLoop_iff.mp hloop
    cases ended with
    | false =>
      cases h
      exact ⟨v, hends, rfl⟩
    | true =>
      simp only [Bool.not_true, Bool.false_eq_true, if_false] at h
      rw [Routine.bind_of_returns (hblock _), Routine.bind_of_returns (hclear v)] at h
      obtain ⟨_, c₂, hwait, h⟩ := Routine.bind_eq_some_iff.mp h
      obtain ⟨r, hup, rfl⟩ := (waitUp_iff _ (by decide)).mp hwait
      rw [script_goTo (t := v.cleared) hends.card_eq] at hup
      rw [Routine.bind_of_returns (hend _)] at h
      obtain ⟨_, c₃, hwait, h⟩ := Routine.bind_eq_some_iff.mp h
      obtain ⟨t, hdown, rfl⟩ := (waitDown_iff _ (by decide)).mp hwait
      rw [goTo_goTo, script_goTo (hup.card_eq.trans hends.card_eq)] at hdown
      rw [Routine.bind_of_returns (hblock _)] at h
      cases h
      exact ⟨t, ⟨v, r, hends, hup, hdown⟩, rfl⟩
  · rintro ⟨t, h, rfl⟩
    cases ok with
    | false =>
      rw [Routine.bind_of_returns (checkLoop_iff.mpr ⟨t, h, rfl⟩)]
      rfl
    | true =>
      obtain ⟨v, r, hends, hup, hdown⟩ := h
      have hcard : r.card = c.card := hup.card_eq.trans hends.card_eq
      have hwait := (waitUp_iff (c := c.goTo v.cleared) mciStatusDataend
        (by decide)).mpr ⟨r, by rwa [script_goTo (t := v.cleared) hends.card_eq], rfl⟩
      have hwait' := (waitDown_iff (c := c.goTo r) mciStatusDataend (by decide)).mpr
        ⟨t, by rwa [script_goTo hcard], rfl⟩
      rw [Routine.bind_of_returns (checkLoop_iff.mpr ⟨v, hends, rfl⟩)]
      simp only [Bool.not_true, Bool.false_eq_true, if_false]
      rw [Routine.bind_of_returns (hblock _), Routine.bind_of_returns (hclear v),
        Routine.bind_of_returns hwait, Routine.bind_of_returns (hend _), goTo_goTo,
        Routine.bind_of_returns hwait', goTo_goTo, Routine.bind_of_returns (hblock _)]
      rfl

/-- The loop of `read_a_block` takes 128 words. -/
theorem fifoRound_eq : fifoRound = feedRound (fun s : UInt16 × List UInt32 => (515 - s.1.toNat) / 4)
    (fun s w => (s.1 + 4, s.2 ++ [w])) (fun s => (true, s.2)) (fun s => (false, s.2)) := by
  funext s
  have hcount : s.1.toUInt32 < blockSize ↔ 0 < (515 - s.1.toNat) / 4 := by
    rw [UInt32.lt_iff_toNat_lt, UInt16.toNat_toUInt32]
    show s.1.toNat < 512 ↔ _
    omega
  unfold fifoRound feedRound
  simp only [hcount]

/-- What a block read does once its command has been answered. -/
theorem receiveBlock_iff (response : Option Response) :
    (∃ words c', receiveBlock (true, response) c = (some (true, words), c'))
      ↔ ∃ t, (block 128).passes c.script t := by
  have hloop : ∀ {c c' : Controller} {r : Bool × List UInt32},
      Routine.loop (fun _ (c : Controller) => c.ticks.length) fifoRound (0, []) c = (some r, c')
        ↔ Fed (fun s : UInt16 × List UInt32 => (515 - s.1.toNat) / 4)
          (fun s w => (s.1 + 4, s.2 ++ [w])) (fun s => (true, s.2)) (fun s => (false, s.2)) (0, [])
          c r c' := by
    intro c c' r
    rw [fifoRound_eq]
    refine feedLoop_iff fun s w hs => ?_
    dsimp only at hs ⊢
    rw [UInt16.toNat_add]
    show (515 - (s.1.toNat + 4) % 65536) / 4 + 1 = _
    omega
  unfold receiveBlock
  simp only [Bool.not_true, Bool.false_eq_true, if_false]
  constructor
  · rintro ⟨words, c', h⟩
    obtain ⟨⟨filled, words'⟩, c₁, hfifo, h⟩ := Routine.bind_eq_some_iff.mp h
    obtain ⟨m, u, hfeeds, hr, rfl⟩ := hloop.mp hfifo
    cases filled with
    | false => cases h
    | true =>
      have hm : m = 0 := by
        by_contra hm
        rw [if_neg hm] at hr
        cases hr
      subst hm
      simp only [Bool.not_true, Bool.false_eq_true, if_false] at h
      obtain ⟨ok, c₂, hcheck, h⟩ := Routine.bind_eq_some_iff.mp h
      cases ok with
      | false => cases h
      | true =>
        obtain ⟨t, hends, rfl⟩ := checkClearReadStatus_iff.mp hcheck
        exact ⟨t, u, hfeeds, script_goTo (c := c.took 128) hfeeds.card_eq ▸ hends⟩
  · rintro ⟨t, u, hfeeds, hends⟩
    let words := (c.takes (fun (s : UInt16 × List UInt32) w => (s.1 + 4, s.2 ++ [w])) 128 (0, [])).2
    have hfifo := (hloop (r := (true, words))).mpr ⟨0, u, hfeeds, rfl, rfl⟩
    have hcheck : checkClearReadStatus ((c.took 128).goTo u)
        = (some true, ((c.took 128).goTo u).goTo t) :=
      checkClearReadStatus_iff.mpr
        ⟨t, (script_goTo (c := c.took 128) hfeeds.card_eq).symm ▸ hends, rfl⟩
    exact ⟨words, _, (Routine.bind_of_returns hfifo).trans (Routine.bind_of_returns hcheck)⟩

/-- **A block that is read**: the command is answered, and a block of 128 words comes. -/
theorem readABlock_iff (highCapacity : Bool) (blockNumber : UInt32) :
    (∃ words c', readABlock highCapacity blockNumber c = (some (true, words), c'))
      ↔ ∃ t, Step.Completes [command cmd17 (blockAddress highCapacity blockNumber), block 128]
        c.script t := by
  have hawait : ∀ {c₁ : Controller} {r : Bool × Option Response},
      awaitResponse readSingleBlock (blockAddress highCapacity blockNumber)
          (c.loaded (blockAddress highCapacity blockNumber)) = (some r, c₁)
        ↔ ∃ u, c.script.Command cmd17 (blockAddress highCapacity blockNumber) r.1 u
          ∧ r.2 = some (c.responses.headD fun _ => 0)
          ∧ c₁ = (c.loaded (blockAddress highCapacity blockNumber)).goTo u :=
    awaitResponse_iff (by decide)
  have hscript : ∀ {u : Script},
      c.script.Command cmd17 (blockAddress highCapacity blockNumber) true u →
      ((c.loaded (blockAddress highCapacity blockNumber)).goTo u).script = u :=
    fun h => script_goTo (c := c.loaded (blockAddress highCapacity blockNumber)) h.card_eq
  simp only [readABlock_eq]
  constructor
  · rintro ⟨words, c', h⟩
    obtain ⟨⟨sent, response⟩, c₁, hsend, h⟩ := Routine.bind_eq_some_iff.mp h
    obtain ⟨u, hcommand, -, rfl⟩ := hawait.mp hsend
    cases sent with
    | false => cases h
    | true =>
      obtain ⟨t, hblock⟩ := (receiveBlock_iff response).mp ⟨words, c', h⟩
      exact ⟨t, u, hcommand, t, hscript hcommand ▸ hblock, rfl⟩
  · rintro ⟨t, u, hcommand, _, hblock, rfl⟩
    let response : Option Response := some (c.responses.headD fun _ => 0)
    have hsend := (hawait (r := (true, response))).mpr ⟨u, hcommand, rfl, rfl⟩
    obtain ⟨words, c', h⟩ :=
      (receiveBlock_iff response).mpr ⟨_, (hscript hcommand).symm ▸ hblock⟩
    exact ⟨words, c', (Routine.bind_of_returns hsend).trans h⟩

end Script

end SdCardDxe
