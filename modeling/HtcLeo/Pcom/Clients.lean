import HtcLeo.Pcom.Mailbox

/-!
# Regulators over the mailbox

`pcom_vreg_control` and `pcom_sdcard_power` repeat a mailbox command until
`APP_STATUS` shows `PCOM_CMD_SUCCESS`. They hand `msm_proc_comm` the
addresses of their own arguments, and `msm_proc_comm` stores the reply's data
words there unless the status was `PCOM_CMD_FAIL`: the next attempt then
carries the words of the reply.

All three loops of the source are one loop, `Pcom.retryUntilSuccess`, and
`Pcom.retry_spec` says what it issues and what it returns on any replies.
`client_carries_iff` says which replies leave every command of a call with
the call's own arguments.
-/

namespace Pcom

/-- `PCOM_VREG_SWITCH`. -/
def pcomVregSwitch : UInt32 := 30
/-- `PCOM_VREG_SET_LEVEL`. -/
def pcomVregSetLevel : UInt32 := 31
/-- `PCOM_DISABLE`. -/
def pcomDisable : UInt32 := 0
/-- `PCOM_ENABLE`. -/
def pcomEnable : UInt32 := 1
/-- `PCOM_VREG_SDC`: `PM_VREG_PDOWN_GP6_ID`. -/
def pcomVregSdc : UInt32 := 22

/-! ## The clients -/

/-- One attempt: issue the command on the two variables, and leave the loop
once `APP_STATUS` shows `PCOM_CMD_SUCCESS`. -/
def retryAttempt (cmd : UInt32) (vars : UInt32 × UInt32) :
    Routine Modem ((UInt32 × UInt32) ⊕ (UInt32 × UInt32)) := do
  let (_, data1, data2) ← msmProcComm cmd (some vars.1) (some vars.2)
  let vars' := (data1.getD vars.1, data2.getD vars.2)
  if Status.pcomCmdSuccess.code ≠ (← readl .appStatus) then
    return .inl vars'
  else
    return .inr vars'

/-- `do { msm_proc_comm(cmd, &a, &b); } while (PCOM_CMD_SUCCESS !=
readl(APP_STATUS))`, returning the two variables. -/
def retryUntilSuccess (cmd a b : UInt32) : Routine Modem (UInt32 × UInt32) :=
  .loop (fun _ m => m.replies.length) (retryAttempt cmd) (a, b)

/-- `pcom_vreg_control`. If turning it on, the level is set first. -/
def pcomVregControl (vreg level state : UInt32) : Routine Modem Unit := do
  let s := if state ≠ 0 then pcomEnable else pcomDisable
  let vreg ←
    if state ≠ 0 then do
      let vars ← retryUntilSuccess pcomVregSetLevel vreg level
      pure vars.1
    else
      pure vreg
  let _ ← retryUntilSuccess pcomVregSwitch vreg s

/-- `pcom_sdcard_power`. -/
def pcomSdcardPower (state : Int32) : Routine Modem Unit := do
  let s := if state ≠ 0 then pcomEnable else pcomDisable
  let _ ← retryUntilSuccess pcomVregSwitch pcomVregSdc s

/-! ## The retry loop -/

/-- The two variables after a reply. -/
def Answer.store (a : Answer) (vars : UInt32 × UInt32) : UInt32 × UInt32 :=
  if a.status ≠ Status.pcomCmdFail.code then (a.data1, a.data2) else vars

/-- The commands a retry loop issues, given the replies. -/
def attempts (cmd : UInt32) : UInt32 × UInt32 → List Reply → List Request
  | vars, [] => [⟨cmd, vars.1, vars.2⟩]
  | vars, r :: rs => ⟨cmd, vars.1, vars.2⟩ ::
      if r.status = Status.pcomCmdSuccess.code then []
      else attempts cmd (r.store vars) rs

/-- A reply that does not end a retry loop. -/
def Reply.unsuccessful (r : Reply) : Bool :=
  r.status ≠ Status.pcomCmdSuccess.code

/-- An attempt that is answered. -/
theorem retryAttempt_of_reply {cmd : UInt32} (hcmd : cmd ≠ pcomCmdDone)
    (vars : UInt32 × UInt32) {m : Modem} {r : Reply} {rest : List Reply}
    (hr : m.replies = r :: rest) :
    retryAttempt cmd vars m
      = (some (if r.unsuccessful then .inl (r.store vars) else .inr (r.store vars)),
          m.after ⟨cmd, vars.1, vars.2⟩ r rest) := by
  have hcall := msmProcComm_of_reply hcmd (some vars.1) (some vars.2) hr
  unfold retryAttempt readl
  rw [Routine.bind_of_returns hcall]
  have hvars : ((r.outcome (some vars.1) (some vars.2)).2.1.getD vars.1,
      (r.outcome (some vars.1) (some vars.2)).2.2.getD vars.2) = r.store vars := by
    unfold Answer.outcome Answer.store
    split <;> rfl
  simp only [Routine.look_bind_apply, hvars]
  show (if Status.pcomCmdSuccess.code ≠ r.status then _ else _ : Routine Modem _) _ = _
  unfold Reply.unsuccessful
  by_cases hs : r.status = Status.pcomCmdSuccess.code
  · simp [hs]
  · simp [hs, Ne.symm hs]

/-- An attempt that is not answered. -/
theorem retryAttempt_of_silence {cmd : UInt32} (hcmd : cmd ≠ pcomCmdDone)
    (vars : UInt32 × UInt32) {m : Modem} (hr : m.replies = []) :
    ∃ m', retryAttempt cmd vars m = (none, m')
      ∧ m'.issued = m.issued ++ [⟨cmd, vars.1, vars.2⟩] := by
  obtain ⟨m', hcall, hlog⟩ := msmProcComm_of_silence hcmd (some vars.1) (some vars.2) hr
  exact ⟨m', Routine.bind_of_waits hcall, hlog⟩

/-- Every attempt that goes round again has used up a reply. -/
theorem retryAttempt_consumes {cmd : UInt32} (hcmd : cmd ≠ pcomCmdDone) :
    Routine.Consumes (fun _ (m : Modem) => m.replies.length) (retryAttempt cmd) := by
  intro vars m vars' m' h
  cases hr : m.replies with
  | nil =>
    obtain ⟨m₁, hwait, -⟩ := retryAttempt_of_silence hcmd vars hr
    rw [hwait] at h
    exact absurd (congrArg Prod.fst h) (by simp)
  | cons r rest =>
    rw [retryAttempt_of_reply hcmd vars hr] at h
    obtain rfl : m.after ⟨cmd, vars.1, vars.2⟩ r rest = m' := congrArg Prod.snd h
    show rest.length < m.replies.length
    rw [hr]
    exact Nat.lt_succ_self rest.length

/-- **What a retry loop does.** It issues its attempts; it returns on the
first successful reply, with the words of that reply, and is left waiting if
there is none. -/
theorem retry_spec {cmd : UInt32} (hcmd : cmd ≠ pcomCmdDone) (rs : List Reply)
    (vars : UInt32 × UInt32) {m : Modem} (hm : m.replies = rs) :
    ∃ o m', retryUntilSuccess cmd vars.1 vars.2 m = (o, m')
      ∧ m'.issued = m.issued ++ attempts cmd vars rs
      ∧ match rs.dropWhile Reply.unsuccessful with
        | [] => o = none
        | r :: rest => o = some (r.data1, r.data2) ∧ m'.replies = rest := by
  induction rs generalizing vars m with
  | nil =>
    obtain ⟨m', hwait, hlog⟩ := retryAttempt_of_silence hcmd vars hm
    exact ⟨none, m', Routine.loop_of_waits (retryAttempt_consumes hcmd) hwait, hlog, rfl⟩
  | cons r rs ih =>
    have hround := retryAttempt_of_reply hcmd vars hm
    by_cases hs : r.status = Status.pcomCmdSuccess.code
    · have hun : r.unsuccessful = false := by simp [Reply.unsuccessful, hs]
      have hstore : r.store vars = (r.data1, r.data2) := by
        unfold Answer.store
        rw [if_pos (by rw [hs]; decide)]
      rw [hun, hstore] at hround
      refine ⟨_, _, Routine.loop_of_leaves (retryAttempt_consumes hcmd) hround, ?_, ?_⟩
      · simp [attempts, hs, Modem.after]
      · rw [List.dropWhile_cons_of_neg (by simp [hun])]
        exact ⟨rfl, rfl⟩
    · have hun : r.unsuccessful = true := by simp [Reply.unsuccessful, hs]
      rw [hun] at hround
      obtain ⟨o, m', hrun, hlog, hret⟩ :=
        ih (r.store vars) (m := m.after ⟨cmd, vars.1, vars.2⟩ r rs) rfl
      refine ⟨o, m', ?_, ?_, ?_⟩
      · exact (Routine.loop_of_again (retryAttempt_consumes hcmd) hround).trans hrun
      · rw [hlog]
        simp [attempts, hs, Modem.after]
      · rw [List.dropWhile_cons_of_pos hun]
        exact hret

/-! ## Which replies leave the arguments alone -/

/-- A reply that leaves the two variables as they are: `PCOM_CMD_FAIL`, after
which nothing is stored, or an echo of both. -/
def Answer.Echoes (a : Answer) (vars : UInt32 × UInt32) : Prop :=
  a.status = Status.pcomCmdFail.code ∨ (a.data1 = vars.1 ∧ a.data2 = vars.2)

/-- Every reply before the first success leaves the two variables alone. -/
def RetriesEcho (vars : UInt32 × UInt32) (rs : List Reply) : Prop :=
  ∀ r ∈ rs.takeWhile Reply.unsuccessful, r.Echoes vars

theorem Answer.store_eq_iff (a : Answer) (vars : UInt32 × UInt32) :
    a.store vars = vars ↔ a.Echoes vars := by
  unfold Answer.store Answer.Echoes
  by_cases hf : a.status = Status.pcomCmdFail.code
  · simp [hf]
  · simp [hf, Prod.ext_iff]

/-- The first attempt carries the variables as they are. -/
theorem mem_attempts_self (cmd : UInt32) (vars : UInt32 × UInt32) (rs : List Reply) :
    ⟨cmd, vars.1, vars.2⟩ ∈ attempts cmd vars rs := by
  cases rs <;> simp [attempts]

/-- Every attempt issues the same command. -/
theorem command_of_mem_attempts {cmd : UInt32} {vars : UInt32 × UInt32}
    {rs : List Reply} {q : Request} (hq : q ∈ attempts cmd vars rs) :
    q.command = cmd := by
  induction rs generalizing vars with
  | nil => rw [List.mem_singleton.mp hq]
  | cons r rs ih =>
    rcases List.mem_cons.mp hq with rfl | htail
    · rfl
    · split at htail
      · exact absurd htail List.not_mem_nil
      · exact ih htail

/-- **Every attempt repeats the first one exactly when every reply before the
first success leaves the variables alone.** -/
theorem attempts_repeat_iff (cmd : UInt32) (vars : UInt32 × UInt32)
    (rs : List Reply) :
    (∀ q ∈ attempts cmd vars rs, q = ⟨cmd, vars.1, vars.2⟩) ↔ RetriesEcho vars rs := by
  induction rs with
  | nil => simp [attempts, RetriesEcho]
  | cons r rs ih =>
    by_cases hs : r.status = Status.pcomCmdSuccess.code
    · simp [attempts, RetriesEcho, Reply.unsuccessful, hs]
    · have hecho : RetriesEcho vars (r :: rs) ↔ r.Echoes vars ∧ RetriesEcho vars rs := by
        unfold RetriesEcho
        rw [List.takeWhile_cons_of_pos (by simp [Reply.unsuccessful, hs]),
          List.forall_mem_cons]
      rw [hecho, ← r.store_eq_iff, ← ih]
      simp only [attempts, if_neg hs, List.forall_mem_cons, true_and]
      constructor
      · intro h
        -- the next attempt carries the variables as the reply left them
        have hstore : r.store vars = vars := by
          have hnext := h _ (mem_attempts_self cmd (r.store vars) rs)
          exact Prod.ext (congrArg Request.data1 hnext) (congrArg Request.data2 hnext)
        rw [hstore] at h
        exact ⟨hstore, h⟩
      · rintro ⟨hstore, h⟩
        rw [hstore]
        exact h

/-! ## What the clients issue -/

/-- A call of one of the two clients. -/
inductive Client where
  | pcomVregControl (vreg level state : UInt32)
  | pcomSdcardPower (state : Int32)

/-- The routine of a call. -/
def Client.exec : Client → Routine Modem Unit
  | .pcomVregControl vreg level state => Pcom.pcomVregControl vreg level state
  | .pcomSdcardPower state => Pcom.pcomSdcardPower state

/-- **The commands a call may issue**, with its own regulator, level and on/off
state. -/
def Client.Carries : Client → Request → Prop
  | .pcomVregControl vreg level state, q =>
    q = ⟨pcomVregSetLevel, vreg, level⟩
      ∨ q = ⟨pcomVregSwitch, vreg, if state ≠ 0 then pcomEnable else pcomDisable⟩
  | .pcomSdcardPower state, q =>
    q = ⟨pcomVregSwitch, pcomVregSdc, if state ≠ 0 then pcomEnable else pcomDisable⟩

/-- The replies that leave the arguments of a call alone: in each loop every
reply before the success does, and the success that ends the setting of the
level gives the regulator back. -/
def Client.Undisturbed : Client → List Reply → Prop
  | .pcomVregControl vreg level state, rs =>
    if state ≠ 0 then
      RetriesEcho (vreg, level) rs
        ∧ ∀ r rest, rs.dropWhile Reply.unsuccessful = r :: rest →
          r.data1 = vreg ∧ RetriesEcho (vreg, pcomEnable) rest
    else RetriesEcho (vreg, pcomDisable) rs
  | .pcomSdcardPower state, rs =>
    RetriesEcho (pcomVregSdc, if state ≠ 0 then pcomEnable else pcomDisable) rs

/-- The commands a call adds to the modem's log. -/
def Client.issues (c : Client) (m : Modem) : List Request :=
  (c.exec m).2.issued.drop m.issued.length

/-- What the switching of a regulator adds to the log. -/
theorem issued_switch (vreg s : UInt32) (m : Modem) :
    (retryUntilSuccess pcomVregSwitch vreg s m).2.issued
      = m.issued ++ attempts pcomVregSwitch (vreg, s) m.replies := by
  have hcmd : pcomVregSwitch ≠ pcomCmdDone := by decide
  obtain ⟨o, m', hrun, hlog, -⟩ := retry_spec hcmd m.replies (vreg, s) rfl
  exact (congrArg (fun r => r.2.issued) hrun).trans hlog

/-- What setting the level of a regulator and switching it on adds to the
log. -/
theorem issued_set_level {vreg level state : UInt32} (hs : state ≠ 0) (m : Modem) :
    (pcomVregControl vreg level state m).2.issued
      = m.issued ++ (attempts pcomVregSetLevel (vreg, level) m.replies
        ++ match m.replies.dropWhile Reply.unsuccessful with
          | [] => []
          | r :: rest => attempts pcomVregSwitch (r.data1, pcomEnable) rest) := by
  have hcmd : pcomVregSetLevel ≠ pcomCmdDone := by decide
  obtain ⟨o, m₁, hrun, hlog, hret⟩ := retry_spec hcmd m.replies (vreg, level) rfl
  have hcall : pcomVregControl vreg level state
      = (do
          let vars ← retryUntilSuccess pcomVregSetLevel vreg level
          let _ ← retryUntilSuccess pcomVregSwitch vars.1 pcomEnable) := by
    unfold pcomVregControl
    simp only [if_pos hs, pure_bind]
  rw [hcall]
  cases hd : m.replies.dropWhile Reply.unsuccessful with
  | nil =>
    rw [hd] at hret
    obtain rfl : o = none := hret
    rw [Routine.bind_of_waits hrun, hlog, List.append_nil]
  | cons r rest =>
    rw [hd] at hret
    obtain ⟨rfl, hrest⟩ : o = some (r.data1, r.data2) ∧ m₁.replies = rest := hret
    rw [Routine.bind_of_returns hrun, Routine.discard_snd, issued_switch, hlog, hrest,
      List.append_assoc]

/-- **What a call issues**, given the replies. -/
theorem issues_eq (c : Client) (m : Modem) :
    c.issues m = match c with
      | .pcomVregControl vreg level state =>
        if state ≠ 0 then
          attempts pcomVregSetLevel (vreg, level) m.replies
            ++ match m.replies.dropWhile Reply.unsuccessful with
              | [] => []
              | r :: rest => attempts pcomVregSwitch (r.data1, pcomEnable) rest
        else attempts pcomVregSwitch (vreg, pcomDisable) m.replies
      | .pcomSdcardPower state =>
        attempts pcomVregSwitch
          (pcomVregSdc, if state ≠ 0 then pcomEnable else pcomDisable) m.replies := by
  unfold Client.issues
  cases c with
  | pcomVregControl vreg level state =>
    by_cases hs : state ≠ 0
    · simp only [if_pos hs]
      exact (congrArg (List.drop _) (issued_set_level hs m)).trans List.drop_left
    · have hcall : pcomVregControl vreg level state
          = (do let _ ← retryUntilSuccess pcomVregSwitch vreg pcomDisable) := by
        unfold pcomVregControl
        simp only [if_neg hs, pure_bind]
      simp only [if_neg hs]
      show List.drop _ (pcomVregControl vreg level state m).2.issued = _
      rw [hcall, Routine.discard_snd, issued_switch, List.drop_left]
  | pcomSdcardPower state =>
    show List.drop _ (pcomSdcardPower state m).2.issued = _
    unfold pcomSdcardPower
    rw [Routine.discard_snd, issued_switch, List.drop_left]

/-- Attempts at setting the level are told from switches by their command. -/
theorem carries_set_level_iff {vreg level state : UInt32} {q : Request}
    (hq : q.command = pcomVregSetLevel) :
    (Client.pcomVregControl vreg level state).Carries q
      ↔ q = ⟨pcomVregSetLevel, vreg, level⟩ := by
  refine or_iff_left ?_
  rintro rfl
  exact absurd (show pcomVregSwitch = pcomVregSetLevel from hq) (by decide)

/-- Switches are told from attempts at setting the level by their command. -/
theorem carries_switch_iff {vreg level state : UInt32} {q : Request}
    (hq : q.command = pcomVregSwitch) :
    (Client.pcomVregControl vreg level state).Carries q
      ↔ q = ⟨pcomVregSwitch, vreg, if state ≠ 0 then pcomEnable else pcomDisable⟩ := by
  refine or_iff_right ?_
  rintro rfl
  exact absurd (show pcomVregSetLevel = pcomVregSwitch from hq) (by decide)

/-- Switches that start from another regulator never carry the right one. -/
theorem attempts_from_iff (cmd a b v : UInt32) (rs : List Reply) :
    (∀ q ∈ attempts cmd (v, b) rs, q = ⟨cmd, a, b⟩) ↔ v = a ∧ RetriesEcho (a, b) rs := by
  constructor
  · intro h
    obtain rfl : v = a := congrArg Request.data1 (h _ (mem_attempts_self cmd (v, b) rs))
    exact ⟨rfl, (attempts_repeat_iff cmd (v, b) rs).mp h⟩
  · rintro ⟨rfl, h⟩
    exact (attempts_repeat_iff cmd (v, b) rs).mpr h

/-- **When every command of a call carries the call's own arguments**:
exactly when the replies leave these arguments alone. -/
theorem client_carries_iff (c : Client) (m : Modem) :
    (∀ q ∈ c.issues m, c.Carries q) ↔ c.Undisturbed m.replies := by
  rw [issues_eq]
  cases c with
  | pcomSdcardPower state => exact attempts_repeat_iff pcomVregSwitch _ m.replies
  | pcomVregControl vreg level state =>
    have hswitch : ∀ (s v : UInt32) (rs : List Reply),
        (if state ≠ 0 then pcomEnable else pcomDisable) = s →
        ((∀ q ∈ attempts pcomVregSwitch (v, s) rs,
            (Client.pcomVregControl vreg level state).Carries q)
          ↔ v = vreg ∧ RetriesEcho (vreg, s) rs) := by
      rintro s v rs rfl
      rw [← attempts_from_iff pcomVregSwitch]
      exact forall₂_congr fun q hq => carries_switch_iff (command_of_mem_attempts hq)
    by_cases hs : state ≠ 0
    · simp only [Client.Undisturbed, if_pos hs, List.forall_mem_append]
      refine and_congr ?_ ?_
      · rw [← attempts_repeat_iff pcomVregSetLevel]
        exact forall₂_congr fun q hq =>
          carries_set_level_iff (command_of_mem_attempts hq)
      · cases m.replies.dropWhile Reply.unsuccessful with
        | nil => simp
        | cons r rest =>
          rw [hswitch pcomEnable r.data1 rest (if_pos hs)]
          simp
    · simp only [Client.Undisturbed, if_neg hs]
      rw [hswitch pcomDisable vreg m.replies (if_neg hs)]
      simp

/-- A regulator whose level is refused once with
`PCOM_CMD_FAIL_FALSE_RETURNED`: the second attempt sets level 0 of regulator
0. -/
theorem retry_programs_another_regulator :
    ¬ ∀ (c : Client) (m : Modem), ∀ q ∈ c.issues m, c.Carries q := by
  intro h
  have hq := h (.pcomVregControl 22 2850 1) (Modem.ready [⟨⟨5, 0, 0⟩, 0, 0⟩])
    ⟨pcomVregSetLevel, 0, 0⟩ (by rw [issues_eq]; decide)
  exact absurd hq (by simp [Client.Carries, pcomVregSetLevel, pcomVregSwitch])

end Pcom
