import HtcLeo.Lib.Routine

/-!
# The modem mailbox

The application processor asks the modem for clocks, regulators and pins
through four words of shared memory. `msm_proc_comm` waits for the modem to
be ready, writes a command and two data words, rings the modem, and polls
`APP_COMMAND` until the modem has replaced the command by `PCOM_CMD_DONE`.
By then the modem has stored a status and two data words of its own.

The modem is here a script of replies: each says how many polls the answer
takes, the three words it stores, and how many polls of `MDM_STATUS` go by
before the modem is ready again. `Pcom.msmProcComm_of_reply` says what a
call does on any reply, in one equation; the clients and the clock driver
use nothing else about it.

A reply counts as a failure only if its status is `PCOM_CMD_FAIL`, one of
the twelve failure codes of the enumeration. `msmProcComm_honest_iff` says
for which commands and replies the caller is told the truth.
-/

namespace Pcom

/-! ## Commands and statuses -/

/-- `PCOM_CMD_IDLE`: no command in the mailbox. -/
def pcomCmdIdle : UInt32 := 0
/-- `PCOM_CMD_DONE`: the mark the modem leaves in `APP_COMMAND`. -/
def pcomCmdDone : UInt32 := 1

/-- The status words of the modem, in the order of the enumeration. -/
inductive Status where
  | pcomInvalidStatus
  | pcomReady
  | pcomCmdRunning
  | pcomCmdSuccess
  | pcomCmdFail
  | pcomCmdFailFalseReturned
  | pcomCmdFailCmdOutOfBoundsServer
  | pcomCmdFailCmdOutOfBoundsClient
  | pcomCmdFailCmdUnregistered
  | pcomCmdFailCmdLocked
  | pcomCmdFailServerNotYetReady
  | pcomCmdFailBadDestination
  | pcomCmdFailServerReset
  | pcomCmdFailSmsmNotInit
  | pcomCmdFailProcCommBusy
  | pcomCmdFailProcCommNotInit
  deriving DecidableEq, Repr

/-- The word a status is stored as. -/
def Status.code (s : Status) : UInt32 := UInt32.ofNat s.ctorIdx

/-- The failure statuses: `PCOM_CMD_FAIL` and each `PCOM_CMD_FAIL_*`. -/
def Status.IsFail (s : Status) : Prop := Status.pcomCmdFail.ctorIdx ≤ s.ctorIdx

instance : DecidablePred Status.IsFail :=
  fun s => inferInstanceAs (Decidable (Status.pcomCmdFail.ctorIdx ≤ s.ctorIdx))

/-! ## The modem -/

/-- The three words the modem stores when it answers. -/
structure Answer where
  status : UInt32
  data1 : UInt32
  data2 : UInt32
  deriving DecidableEq

/-- **A reply**: the words stored, after `polls` polls of the mailbox, and the
polls of `MDM_STATUS` that go by before the modem is ready again. -/
structure Reply extends Answer where
  polls : ℕ
  recovery : ℕ
  deriving DecidableEq

/-- What the modem finds in the mailbox when it is rung. -/
structure Request where
  command : UInt32
  data1 : UInt32
  data2 : UInt32
  deriving DecidableEq, Repr

/-- **The mailbox and the modem behind it.** `replies` is what the modem will
answer to the next commands, `pending` the reply it is working on, `notReady`
the polls until `MDM_STATUS` shows `PCOM_READY`; `issued` lists the commands
it was rung for, oldest first. -/
structure Modem where
  appCommand : UInt32
  appStatus : UInt32
  appData1 : UInt32
  appData2 : UInt32
  notReady : ℕ
  pending : Option Reply
  replies : List Reply
  issued : List Request

/-- A ready modem with an empty mailbox, about to give the replies listed. -/
def Modem.ready (replies : List Reply) : Modem :=
  ⟨pcomCmdIdle, Status.pcomInvalidStatus.code, 0, 0, 0, none, replies, []⟩

/-- The modem answers: it stores its words and marks the command done. -/
def Modem.answer (m : Modem) (r : Reply) : Modem :=
  { m with
    appCommand := pcomCmdDone
    appStatus := r.status
    appData1 := r.data1
    appData2 := r.data2
    pending := none
    notReady := r.recovery }

/-- The modem works on a reply for one poll. -/
def Modem.work (m : Modem) (r : Reply) : Modem :=
  match r.polls with
  | 0 => m.answer r
  | n + 1 => { m with pending := some { r with polls := n } }

/-- The mailbox with a request written into it. -/
def Modem.load (m : Modem) (q : Request) : Modem :=
  { m with
    appCommand := q.command
    appData1 := q.data1
    appData2 := q.data2 }

/-- The modem has taken the command in the mailbox. -/
def Modem.taken (m : Modem) (rest : List Reply) : Modem :=
  { m with
    replies := rest
    issued := m.issued ++ [⟨m.appCommand, m.appData1, m.appData2⟩] }

/-- The modem is rung: it takes the command and starts on its reply, if the
script has one. -/
def Modem.ring (m : Modem) : Modem :=
  match m.replies with
  | [] => { m.taken [] with pending := none }
  | r :: rest => (m.taken rest).work r

/-- The modem is left alone for one poll. -/
def Modem.tick (m : Modem) : Modem :=
  match m.pending with
  | some r => m.work r
  | none => { m with notReady := m.notReady - 1 }

/-- The polls that can still change anything. -/
def Modem.fuel (m : Modem) : ℕ :=
  match m.pending with
  | some r => r.polls + 1 + r.recovery
  | none => m.notReady

/-- The registers `pcom.c` reads and writes. -/
inductive Reg where
  | mdmStatus
  | appCommand
  | appStatus
  | appData1
  | appData2
  | msmA2mInt6
  deriving DecidableEq

/-- The word a register shows. -/
def Modem.read (m : Modem) : Reg → UInt32
  | .mdmStatus =>
    if m.notReady = 0 then Status.pcomReady.code else Status.pcomInvalidStatus.code
  | .appCommand => m.appCommand
  | .appStatus => m.appStatus
  | .appData1 => m.appData1
  | .appData2 => m.appData2
  | .msmA2mInt6 => 0

/-- What writing a register does. `MDM_STATUS` is the modem's own. -/
def Modem.write (m : Modem) (w : UInt32) : Reg → Modem
  | .mdmStatus => m
  | .appCommand => { m with appCommand := w }
  | .appStatus => { m with appStatus := w }
  | .appData1 => { m with appData1 := w }
  | .appData2 => { m with appData2 := w }
  | .msmA2mInt6 => m.ring

/-! ## The routines of `pcom.c` -/

/-- `readl`. -/
def readl (reg : Reg) : Routine Modem UInt32 := .look fun m => m.read reg

/-- `writel`. -/
def writel (w : UInt32) (reg : Reg) : Routine Modem Unit :=
  .modify fun m => m.write w reg

/-- `NanoSecondDelay(5)`, the pause between two polls. When the modem has
nothing left to do, no later poll will show anything new. -/
def nanoSecondDelay : Routine Modem Unit := fun m =>
  if m.pending = none ∧ m.notReady = 0 then (none, m) else (some (), m.tick)

/-- One round of the loop of `pcom_wait_for`. -/
def pcomPoll (reg : Reg) (value : UInt32) : Unit → Routine Modem (Unit ⊕ Int32) :=
  fun _ => do
    if (← readl reg) = value then
      return .inr 0
    nanoSecondDelay
    return .inl ()

/-- `pcom_wait_for`. -/
def pcomWaitFor (reg : Reg) (value : UInt32) : Routine Modem Int32 :=
  .loop (fun _ => Modem.fuel) (pcomPoll reg value) ()

/-- `msm_pcom_wait_for_modem_ready`. -/
def msmPcomWaitForModemReady : Routine Modem Int32 := do
  return ~~~(← pcomWaitFor .mdmStatus Status.pcomReady.code)

/-- `notify_modem`. -/
def notifyModem : Routine Modem Unit := writel 1 .msmA2mInt6

/-- `msm_proc_comm`. The two pointers are `none` for `NULL`; otherwise the
value they point at comes in as an argument and goes out with the result. -/
def msmProcComm (cmd : UInt32) (data1 data2 : Option UInt32) :
    Routine Modem (Int32 × Option UInt32 × Option UInt32) := do
  let _ ← msmPcomWaitForModemReady
  writel cmd .appCommand
  writel (data1.getD 0) .appData1
  writel (data2.getD 0) .appData2
  notifyModem
  let _ ← pcomWaitFor .appCommand pcomCmdDone
  let status ← readl .appStatus
  let answer ←
    if status ≠ Status.pcomCmdFail.code then do
      let word1 ← readl .appData1
      let word2 ← readl .appData2
      pure (0, data1.map fun _ => word1, data2.map fun _ => word2)
    else
      pure (-1, data1, data2)
  writel pcomCmdIdle .appCommand
  return answer

/-! ## Waiting -/

/-- Working on a reply uses up a poll. -/
theorem Modem.fuel_work (m : Modem) (r : Reply) :
    (m.work r).fuel < r.polls + 1 + r.recovery := by
  unfold Modem.work
  split
  · next h => simp [Modem.fuel, Modem.answer]
  · next n h => simp [Modem.fuel, h]

/-- A pause that ends has used up a poll. -/
theorem fuel_of_nanoSecondDelay {m m' : Modem}
    (h : nanoSecondDelay m = (some (), m')) : m'.fuel < m.fuel := by
  unfold nanoSecondDelay at h
  split at h
  · exact absurd (congrArg Prod.fst h) (by simp)
  · next hbusy =>
    obtain rfl : m.tick = m' := congrArg Prod.snd h
    unfold Modem.tick
    cases hp : m.pending with
    | some r =>
      have hfuel : m.fuel = r.polls + 1 + r.recovery := by simp [Modem.fuel, hp]
      rw [hfuel]
      exact m.fuel_work r
    | none =>
      have hn : m.notReady ≠ 0 := fun h0 => hbusy ⟨hp, h0⟩
      simp only [Modem.fuel, hp]
      omega

/-- A poll that sees the value leaves the loop. -/
theorem pcomPoll_of_seen {reg : Reg} {value : UInt32} {m : Modem}
    (h : m.read reg = value) : pcomPoll reg value () m = (some (.inr 0), m) := by
  unfold pcomPoll readl
  rw [Routine.look_bind_apply, if_pos h]
  rfl

/-- A poll that does not see the value pauses and goes round again. -/
theorem pcomPoll_of_not_seen {reg : Reg} {value : UInt32} {m : Modem}
    (h : m.read reg ≠ value) (hbusy : ¬ (m.pending = none ∧ m.notReady = 0)) :
    pcomPoll reg value () m = (some (.inl ()), m.tick) := by
  have hpause : nanoSecondDelay m = (some (), m.tick) := if_neg hbusy
  unfold pcomPoll readl
  rw [Routine.look_bind_apply, if_neg h]
  exact Routine.bind_of_returns hpause

/-- Polling goes round only by using up polls. -/
theorem pcomPoll_consumes (reg : Reg) (value : UInt32) :
    Routine.Consumes (fun _ => Modem.fuel) (pcomPoll reg value) := by
  rintro ⟨⟩ m ⟨⟩ m' h
  by_cases hseen : m.read reg = value
  · rw [pcomPoll_of_seen hseen] at h
    exact absurd (congrArg Prod.fst h) (by simp)
  · unfold pcomPoll readl at h
    rw [Routine.look_bind_apply, if_neg hseen] at h
    obtain ⟨⟨⟩, m₁, hpause, hret⟩ := Routine.bind_eq_some_iff.mp h
    obtain rfl : m₁ = m' := congrArg Prod.snd hret
    exact fuel_of_nanoSecondDelay hpause

/-- Waiting for a value that is there returns at once. -/
theorem pcomWaitFor_of_seen {reg : Reg} {value : UInt32} {m : Modem}
    (h : m.read reg = value) : pcomWaitFor reg value m = (some 0, m) :=
  Routine.loop_of_leaves (pcomPoll_consumes reg value) (pcomPoll_of_seen h)

/-- Waiting for a value that is not there waits on after the pause. -/
theorem pcomWaitFor_of_not_seen {reg : Reg} {value : UInt32} {m : Modem}
    (h : m.read reg ≠ value) (hbusy : ¬ (m.pending = none ∧ m.notReady = 0)) :
    pcomWaitFor reg value m = pcomWaitFor reg value m.tick :=
  Routine.loop_of_again (pcomPoll_consumes reg value)
    (pcomPoll_of_not_seen h hbusy)

/-- The modem takes no command and gives no new reply while it is polled. -/
theorem Modem.tick_script (m : Modem) :
    m.tick.replies = m.replies ∧ m.tick.issued = m.issued := by
  unfold Modem.tick Modem.work
  split
  · split <;> exact ⟨rfl, rfl⟩
  · exact ⟨rfl, rfl⟩

/-- **The modem always becomes ready again.** -/
theorem msmPcomWaitForModemReady_returns (m : Modem) :
    ∃ m', msmPcomWaitForModemReady m = (some (-1), m')
      ∧ m'.replies = m.replies ∧ m'.issued = m.issued := by
  suffices h : ∃ m', pcomWaitFor .mdmStatus Status.pcomReady.code m = (some 0, m')
      ∧ m'.replies = m.replies ∧ m'.issued = m.issued by
    obtain ⟨m', hwait, hscript⟩ := h
    exact ⟨m', Routine.bind_of_returns hwait, hscript⟩
  induction hn : m.fuel using Nat.strongRecOn generalizing m with
  | _ n ih =>
    by_cases h0 : m.notReady = 0
    · refine ⟨m, pcomWaitFor_of_seen ?_, rfl, rfl⟩
      simp [Modem.read, h0]
    · have hbusy : ¬ (m.pending = none ∧ m.notReady = 0) := fun h => h0 h.2
      have hread : m.read .mdmStatus ≠ Status.pcomReady.code := by
        simp only [Modem.read, if_neg h0]
        decide
      have hlt : m.tick.fuel < n :=
        hn ▸ fuel_of_nanoSecondDelay (if_neg hbusy)
      obtain ⟨m', hwait, hr, hi⟩ := ih _ hlt m.tick rfl
      refine ⟨m', (pcomWaitFor_of_not_seen hread hbusy).trans hwait, ?_, ?_⟩
      · exact hr.trans m.tick_script.1
      · exact hi.trans m.tick_script.2

/-- **A command being worked on is answered**, however many polls it takes. -/
theorem pcomWaitFor_done_of_pending {m : Modem} {r : Reply}
    (hp : m.pending = some r) (hc : m.read .appCommand ≠ pcomCmdDone) :
    pcomWaitFor .appCommand pcomCmdDone m = (some 0, m.answer r) := by
  have hbusy : ¬ (m.pending = none ∧ m.notReady = 0) := by simp [hp]
  induction hn : r.polls generalizing m r with
  | zero =>
    rw [pcomWaitFor_of_not_seen hc hbusy]
    have htick : m.tick = m.answer r := by simp [Modem.tick, hp, Modem.work, hn]
    rw [htick]
    exact pcomWaitFor_of_seen rfl
  | succ n ih =>
    rw [pcomWaitFor_of_not_seen hc hbusy]
    have htick : m.tick = { m with pending := some { r with polls := n } } := by
      simp [Modem.tick, hp, Modem.work, hn]
    rw [htick]
    exact ih (m := { m with pending := some { r with polls := n } })
      (r := { r with polls := n }) rfl hc (by simp) rfl

/-- A modem with a reply to come starts on it when it is rung. -/
theorem Modem.ring_of_replies {m : Modem} {r : Reply} {rest : List Reply}
    (hr : m.replies = r :: rest) : m.ring = (m.taken rest).work r := by
  unfold Modem.ring
  rw [hr]

/-- A command rung in with a reply to come is answered. -/
theorem pcomWaitFor_done_of_ring {m : Modem} {r : Reply} {rest : List Reply}
    (hr : m.replies = r :: rest) (hc : m.appCommand ≠ pcomCmdDone) :
    pcomWaitFor .appCommand pcomCmdDone m.ring
      = (some 0, (m.taken rest).answer r) := by
  rw [Modem.ring_of_replies hr]
  unfold Modem.work
  cases r.polls with
  | zero => exact pcomWaitFor_of_seen rfl
  | succ n =>
    exact pcomWaitFor_done_of_pending
      (m := { m.taken rest with pending := some { r with polls := n } })
      (r := { r with polls := n }) rfl hc

/-- A command the modem is not working on is never answered. -/
theorem pcomWaitFor_done_of_idle {m : Modem} (hp : m.pending = none)
    (hc : m.read .appCommand ≠ pcomCmdDone) :
    ∃ m', pcomWaitFor .appCommand pcomCmdDone m = (none, m')
      ∧ m'.issued = m.issued := by
  induction hn : m.notReady generalizing m with
  | zero =>
    have hpause : nanoSecondDelay m = (none, m) := if_pos ⟨hp, hn⟩
    refine ⟨m, Routine.loop_of_waits (pcomPoll_consumes _ _) ?_, rfl⟩
    unfold pcomPoll readl
    rw [Routine.look_bind_apply, if_neg hc]
    exact Routine.bind_of_waits hpause
  | succ n ih =>
    have hbusy : ¬ (m.pending = none ∧ m.notReady = 0) := by simp [hn]
    have htick : m.tick = { m with notReady := n } := by
      simp [Modem.tick, hp, hn]
    rw [pcomWaitFor_of_not_seen hc hbusy, htick]
    exact ih (m := { m with notReady := n }) hp hc rfl

/-! ## What a call does -/

/-- The state a call leaves the mailbox in: the words of the reply, no
command, and the request in the log. -/
def Modem.after (m : Modem) (q : Request) (r : Reply) (rest : List Reply) : Modem :=
  { appCommand := pcomCmdIdle
    appStatus := r.status
    appData1 := r.data1
    appData2 := r.data2
    notReady := r.recovery
    pending := none
    replies := rest
    issued := m.issued ++ [q] }

/-- What the caller gets on a reply: `0` and the words stored, unless the
status is `PCOM_CMD_FAIL`. -/
def Answer.outcome (a : Answer) (data1 data2 : Option UInt32) :
    Int32 × Option UInt32 × Option UInt32 :=
  if a.status ≠ Status.pcomCmdFail.code then
    (0, data1.map fun _ => a.data1, data2.map fun _ => a.data2)
  else (-1, data1, data2)

/-- A call writes its request, rings the modem and goes on from there. -/
theorem msmProcComm_eq {cmd : UInt32} {data1 data2 : Option UInt32}
    {m m₁ : Modem} (hready : msmPcomWaitForModemReady m = (some (-1), m₁)) :
    msmProcComm cmd data1 data2 m
      = (do
          let _ ← pcomWaitFor .appCommand pcomCmdDone
          let answer ← Routine.look fun m₂ =>
            (⟨m₂.appStatus, m₂.appData1, m₂.appData2⟩ : Answer)
          writel pcomCmdIdle .appCommand
          return answer.outcome data1 data2)
        (m₁.load ⟨cmd, data1.getD 0, data2.getD 0⟩).ring := by
  obtain ⟨o, m₂, hdone⟩ : ∃ o m₂, pcomWaitFor .appCommand pcomCmdDone
      (m₁.load ⟨cmd, data1.getD 0, data2.getD 0⟩).ring = (o, m₂) := ⟨_, _, rfl⟩
  unfold msmProcComm notifyModem
  rw [Routine.bind_of_returns hready]
  cases o with
  | none => exact (Routine.bind_of_waits hdone).trans (Routine.bind_of_waits hdone).symm
  | some z =>
    refine (Routine.bind_of_returns hdone).trans ?_
    refine Eq.trans ?_ (Routine.bind_of_returns hdone).symm
    unfold readl writel Answer.outcome
    simp only [Routine.look_bind_apply, Modem.read]
    split <;> rfl

/-- **What `msm_proc_comm` does on a reply.** It returns; the request is in
the modem's log; what the caller gets depends on the words stored alone. -/
theorem msmProcComm_of_reply {cmd : UInt32} (hcmd : cmd ≠ pcomCmdDone)
    (data1 data2 : Option UInt32) {m : Modem} {r : Reply} {rest : List Reply}
    (hr : m.replies = r :: rest) :
    msmProcComm cmd data1 data2 m
      = (some (r.outcome data1 data2),
          m.after ⟨cmd, data1.getD 0, data2.getD 0⟩ r rest) := by
  obtain ⟨m₁, hready, hreplies, hissued⟩ := msmPcomWaitForModemReady_returns m
  rw [msmProcComm_eq hready]
  refine (Routine.bind_of_returns
    (pcomWaitFor_done_of_ring
      (m := m₁.load ⟨cmd, data1.getD 0, data2.getD 0⟩)
      (hreplies.trans hr) hcmd)).trans ?_
  unfold Modem.after
  rw [← hissued]
  rfl

/-- Without a reply the call never returns, but the request is in the log. -/
theorem msmProcComm_of_silence {cmd : UInt32} (hcmd : cmd ≠ pcomCmdDone)
    (data1 data2 : Option UInt32) {m : Modem} (hr : m.replies = []) :
    ∃ m', msmProcComm cmd data1 data2 m = (none, m')
      ∧ m'.issued = m.issued ++ [⟨cmd, data1.getD 0, data2.getD 0⟩] := by
  obtain ⟨m₁, hready, hreplies, hissued⟩ := msmPcomWaitForModemReady_returns m
  have hring : (m₁.load ⟨cmd, data1.getD 0, data2.getD 0⟩).ring
      = { (m₁.load ⟨cmd, data1.getD 0, data2.getD 0⟩).taken [] with
          pending := none } := by
    unfold Modem.ring Modem.load
    rw [hreplies.trans hr]
  obtain ⟨m', hwait, hlog⟩ := pcomWaitFor_done_of_idle
    (m := { (m₁.load ⟨cmd, data1.getD 0, data2.getD 0⟩).taken [] with
      pending := none }) rfl hcmd
  refine ⟨m', ?_, hlog.trans (hissued ▸ rfl)⟩
  rw [msmProcComm_eq hready, hring]
  exact Routine.bind_of_waits hwait

/-! ## What the caller is told -/

/-- The word of a failure status. -/
def IsFailWord (w : UInt32) : Prop := ∃ s : Status, s.IsFail ∧ s.code = w

/-- **What a call owes its caller on an answer**: `0` only for
`PCOM_CMD_SUCCESS`, and then the words stored; on every failure status a
nonzero value and the caller's own words; an idle mailbox in both cases. -/
structure Honest (a : Answer) (data1 data2 : Option UInt32)
    (out : Int32 × Option UInt32 × Option UInt32) (m : Modem) : Prop where
  zero : out.1 = 0 → a.status = Status.pcomCmdSuccess.code
    ∧ out.2 = (data1.map fun _ => a.data1, data2.map fun _ => a.data2)
  fail : IsFailWord a.status → out.1 ≠ 0 ∧ out.2 = (data1, data2)
  idle : m.appCommand = pcomCmdIdle

/-- The success status is not one of the failures. -/
theorem not_isFailWord_success : ¬ IsFailWord Status.pcomCmdSuccess.code := by
  rintro ⟨s, hs, hcode⟩
  revert hs hcode
  cases s <;> decide

/-- Anything but `PCOM_CMD_FAIL` is reported as a success. -/
theorem Answer.outcome_of_ne_fail {a : Answer}
    (h : a.status ≠ Status.pcomCmdFail.code) (data1 data2 : Option UInt32) :
    a.outcome data1 data2
      = (0, data1.map fun _ => a.data1, data2.map fun _ => a.data2) := if_pos h

/-- `PCOM_CMD_FAIL` is reported as a failure. -/
theorem Answer.outcome_of_fail {a : Answer}
    (h : a.status = Status.pcomCmdFail.code) (data1 data2 : Option UInt32) :
    a.outcome data1 data2 = (-1, data1, data2) := if_neg (not_not.mpr h)

/-- **The caller is told the truth about two statuses**, and about no
other. -/
theorem honest_outcome_iff (a : Answer) (data1 data2 : Option UInt32) {m : Modem}
    (hm : m.appCommand = pcomCmdIdle) :
    Honest a data1 data2 (a.outcome data1 data2) m
      ↔ a.status = Status.pcomCmdSuccess.code ∨ a.status = Status.pcomCmdFail.code := by
  constructor
  · intro h
    by_cases hf : a.status = Status.pcomCmdFail.code
    · exact .inr hf
    · refine .inl (h.zero ?_).1
      rw [Answer.outcome_of_ne_fail hf]
  · rintro (hs | hf)
    · have hne : a.status ≠ Status.pcomCmdFail.code := by rw [hs]; decide
      rw [Answer.outcome_of_ne_fail hne]
      exact ⟨fun _ => ⟨hs, rfl⟩,
        fun hfail => absurd (hs ▸ hfail) not_isFailWord_success, hm⟩
    · rw [Answer.outcome_of_fail hf]
      have hne : (-1 : Int32) ≠ 0 := by decide
      exact ⟨fun h => absurd h hne, fun _ => ⟨hne, rfl⟩, hm⟩

/-- Reading back one's own words changes nothing. -/
theorem Answer.outcome_own (status : UInt32) (data1 data2 : Option UInt32) :
    (⟨status, data1.getD 0, data2.getD 0⟩ : Answer).outcome data1 data2
      = (if status ≠ Status.pcomCmdFail.code then 0 else -1, data1, data2) := by
  have hown : ∀ o : Option UInt32, (o.map fun _ => o.getD 0) = o := by
    intro o
    cases o <;> rfl
  unfold Answer.outcome
  rw [hown, hown]
  split <;> rfl

/-- **A call whose command is the mark of an answer** takes the mailbox for
answered at once. Unless the modem was as quick, it reads its own words back,
under the status that was there. -/
theorem msmProcComm_done {data1 data2 : Option UInt32} {m m₁ : Modem} {r : Reply}
    {rest : List Reply} (hready : msmPcomWaitForModemReady m = (some (-1), m₁))
    (hr : m₁.replies = r :: rest) :
    ∃ m', msmProcComm pcomCmdDone data1 data2 m
        = (some ((if r.polls = 0 then r.toAnswer
            else ⟨m₁.appStatus, data1.getD 0, data2.getD 0⟩).outcome data1 data2), m')
      ∧ m'.appCommand = pcomCmdIdle := by
  obtain ⟨m₂, hring, hcmd, hwords⟩ :
      ∃ m₂, (m₁.load ⟨pcomCmdDone, data1.getD 0, data2.getD 0⟩).ring = m₂
        ∧ m₂.read .appCommand = pcomCmdDone
        ∧ (⟨m₂.appStatus, m₂.appData1, m₂.appData2⟩ : Answer)
          = if r.polls = 0 then r.toAnswer
            else ⟨m₁.appStatus, data1.getD 0, data2.getD 0⟩ := by
    refine ⟨_, Modem.ring_of_replies hr, ?_⟩
    unfold Modem.work
    cases r.polls <;> exact ⟨rfl, rfl⟩
  have hdone : pcomWaitFor .appCommand pcomCmdDone m₂ = (some 0, m₂) :=
    pcomWaitFor_of_seen hcmd
  rw [msmProcComm_eq hready, hring, ← hwords]
  exact ⟨{ m₂ with appCommand := pcomCmdIdle }, Routine.bind_of_returns hdone, rfl⟩

/-- The mark of an answer, passed as a command: the caller is told the truth
whatever the mailbox held only about a success that echoes its own words. -/
theorem honest_done_iff (data1 data2 : Option UInt32) (a : Answer) :
    (∀ (m : Modem) (polls recovery : ℕ) (rest : List Reply),
        m.replies = ⟨a, polls, recovery⟩ :: rest →
        ∃ out m', msmProcComm pcomCmdDone data1 data2 m = (some out, m')
          ∧ Honest a data1 data2 out m')
      ↔ a.status = Status.pcomCmdSuccess.code
        ∧ (data1.map fun _ => a.data1) = data1 ∧ (data2.map fun _ => a.data2) = data2 := by
  constructor
  · intro h
    -- a slow modem behind a mailbox that still shows an earlier success
    let m : Modem :=
      { Modem.ready [⟨a, 1, 0⟩] with appStatus := Status.pcomCmdSuccess.code }
    obtain ⟨out, m', hcall, hhonest⟩ := h m 1 0 [] rfl
    have hwait : pcomWaitFor .mdmStatus Status.pcomReady.code m = (some 0, m) :=
      pcomWaitFor_of_seen rfl
    have hready : msmPcomWaitForModemReady m = (some (-1), m) :=
      Routine.bind_of_returns hwait
    obtain ⟨m'', hcall', -⟩ := msmProcComm_done (r := ⟨a, 1, 0⟩) hready rfl
    have hout := Option.some.inj (congrArg Prod.fst (hcall.symm.trans hcall'))
    have hstale : m.appStatus ≠ Status.pcomCmdFail.code :=
      show Status.pcomCmdSuccess.code ≠ _ by decide
    rw [if_neg Nat.one_ne_zero, Answer.outcome_own, if_pos hstale] at hout
    obtain ⟨hstatus, hwords⟩ := hhonest.zero (by rw [hout])
    rw [hout] at hwords
    exact ⟨hstatus, (congrArg Prod.fst hwords).symm, (congrArg Prod.snd hwords).symm⟩
  · rintro ⟨hs, h1, h2⟩ m polls recovery rest hr
    obtain ⟨m₁, hready, hreplies, -⟩ := msmPcomWaitForModemReady_returns m
    obtain ⟨m', hcall, hidle⟩ := msmProcComm_done hready (hreplies.trans hr)
    refine ⟨_, m', hcall, ?_⟩
    by_cases h0 : polls = 0
    · rw [if_pos h0]
      exact (honest_outcome_iff a data1 data2 hidle).mpr (.inl hs)
    · rw [if_neg h0, Answer.outcome_own]
      exact ⟨fun _ => ⟨hs, by rw [h1, h2]⟩,
        fun hfail => absurd (hs ▸ hfail) not_isFailWord_success, hidle⟩

/-- **When the caller of the mailbox is told the truth**, whatever the mailbox
held and however long the modem takes: when the modem stores
`PCOM_CMD_SUCCESS` or `PCOM_CMD_FAIL`. (The mark of an answer is no command
to speak of; passed as one, it needs a success that echoes the caller's own
words.) -/
theorem msmProcComm_honest_iff (cmd : UInt32) (data1 data2 : Option UInt32)
    (a : Answer) :
    (∀ (m : Modem) (polls recovery : ℕ) (rest : List Reply),
        m.replies = ⟨a, polls, recovery⟩ :: rest →
        ∃ out m', msmProcComm cmd data1 data2 m = (some out, m')
          ∧ Honest a data1 data2 out m')
      ↔ (cmd ≠ pcomCmdDone ∧ (a.status = Status.pcomCmdSuccess.code
            ∨ a.status = Status.pcomCmdFail.code))
        ∨ (cmd = pcomCmdDone ∧ a.status = Status.pcomCmdSuccess.code
            ∧ (data1.map fun _ => a.data1) = data1
            ∧ (data2.map fun _ => a.data2) = data2) := by
  by_cases hcmd : cmd = pcomCmdDone
  · subst hcmd
    rw [honest_done_iff]
    simp
  · simp only [hcmd, ne_eq, not_false_eq_true, true_and, false_and, or_false]
    constructor
    · intro h
      obtain ⟨out, m', hcall, hhonest⟩ := h (Modem.ready [⟨a, 0, 0⟩]) 0 0 [] rfl
      rw [msmProcComm_of_reply hcmd data1 data2 rfl] at hcall
      obtain ⟨rfl, rfl⟩ : a.outcome data1 data2 = out ∧ _ = m' := by
        simpa [Prod.ext_iff] using hcall
      exact (honest_outcome_iff a data1 data2 rfl).mp hhonest
    · intro h m polls recovery rest hr
      exact ⟨_, _, msmProcComm_of_reply hcmd data1 data2 hr,
        (honest_outcome_iff a data1 data2 rfl).mpr h⟩

/-- `PCOM_VREG_SET_LEVEL` answered with `PCOM_CMD_FAIL_FALSE_RETURNED`: the
caller is told of a success, and its regulator and level are overwritten. -/
theorem fail_false_returned_reported_as_success :
    ¬ ∀ (cmd : UInt32) (data1 data2 : Option UInt32) (r : Reply) (m : Modem)
      (rest : List Reply), cmd ≠ pcomCmdDone → m.replies = r :: rest →
      ∃ out m', msmProcComm cmd data1 data2 m = (some out, m')
        ∧ Honest r.toAnswer data1 data2 out m' := by
  intro h
  obtain ⟨out, m', hcall, hhonest⟩ := h 31 (some 22) (some 2850)
    ⟨⟨5, 7, 9⟩, 0, 0⟩ (Modem.ready [⟨⟨5, 7, 9⟩, 0, 0⟩]) [] (by decide) rfl
  rw [msmProcComm_of_reply (by decide) (some 22) (some 2850) rfl] at hcall
  have hout := Option.some.inj (congrArg Prod.fst hcall)
  exact absurd (hhonest.zero (hout ▸ rfl)).1 (by decide)

end Pcom
