import HtcLeo.Lib.Run
import HtcLeo.Pcom.Mailbox
import Mathlib.Data.Nat.Init
import Mathlib.Logic.Function.Basic

/-!
# The clock driver

`ClockDxe` names clocks by the numbers of `Chipset/clock.h` and asks the
modem for them by numbers of the modem's own, which `FillClocksLookup` puts
into the table `ClocksLookup`. Every operation passes the *address of the
table entry* to `msm_proc_comm`, which reads the number there and stores a
word of the reply back unless the status was `PCOM_CMD_FAIL`.

`step_spec` says what an operation does to the table on any reply, and whether it
reaches the modem at all, and `lookup_kept_iff` which runs leave the table as it was
built.
-/

namespace ClockDxe

open Pcom

/-! ## Clock numbers -/

/-- A clock number below `NR_CLKS`: an index into `ClocksLookup`. -/
abbrev ClkId : Type := Fin 100

@[match_pattern] abbrev admClk : ClkId := 1
@[match_pattern] abbrev ecodecClk : ClkId := 5
@[match_pattern] abbrev grpClk : ClkId := 8
@[match_pattern] abbrev icodecRxClk : ClkId := 10
@[match_pattern] abbrev icodecTxClk : ClkId := 11
@[match_pattern] abbrev imemClk : ClkId := 12
@[match_pattern] abbrev mdcClk : ClkId := 13
@[match_pattern] abbrev mdpClk : ClkId := 14
@[match_pattern] abbrev sdc1Clk : ClkId := 19
@[match_pattern] abbrev sdc1Pclk : ClkId := 20
@[match_pattern] abbrev sdc2Clk : ClkId := 21
@[match_pattern] abbrev sdc2Pclk : ClkId := 22
@[match_pattern] abbrev sdc4Pclk : ClkId := 26
@[match_pattern] abbrev uart1dmClk : ClkId := 34
@[match_pattern] abbrev uart2dmClk : ClkId := 35
@[match_pattern] abbrev vfeMdcClk : ClkId := 40
@[match_pattern] abbrev vfeClk : ClkId := 41
@[match_pattern] abbrev spiClk : ClkId := 45
@[match_pattern] abbrev vfeAxiClk : ClkId := 46
@[match_pattern] abbrev sdacMclk : ClkId := 87

/-! ## The table -/

/-- `ClocksLookup`. -/
abbrev Lookup : Type := ClkId → UInt32

/-- The word `-1`, which marks a clock the modem does not know. -/
def minusOne : UInt32 := 0xffffffff

/-- The clocks `FillClocksLookup` fills in, with the modem's numbers. -/
def usedClocks : List (ClkId × UInt32) :=
  [(icodecRxClk, 50), (icodecTxClk, 52), (ecodecClk, 42), (sdacMclk, 64),
    (imemClk, 55), (grpClk, 56), (admClk, 19), (uart1dmClk, 78),
    (uart2dmClk, 80), (vfeAxiClk, 24), (vfeMdcClk, 40), (vfeClk, 41),
    (mdcClk, 53), (spiClk, 95), (mdpClk, 9), (sdc1Clk, 66), (sdc2Clk, 67),
    (sdc1Pclk, 17), (sdc2Pclk, 16)]

/-- `FillClocksLookup`: every entry `-1`, then the clocks in use. -/
def fillClocksLookup : Lookup :=
  usedClocks.foldl (fun table c => Function.update table c.1 c.2) fun _ => minusOne

/-! ## The speed of a rate -/

/-- `if (Rate > bound₁) Speed = s₁; else if (Rate > bound₂) …; else Speed = 1`. -/
def speedAbove (rate : UInt32) : List (UInt32 × UInt32) → UInt32
  | [] => 1
  | (bound, speed) :: rest => if rate > bound then speed else speedAbove rate rest

/-- `if (Rate == rate₁) Speed = s₁; else if …; else return 0`. -/
def speedAt (rate : UInt32) : List (UInt32 × UInt32) → Except UInt32 UInt32
  | [] => .error 0
  | (value, speed) :: rest => if rate = value then .ok speed else speedAt rate rest

/-- The bounds shared by `ICODEC_RX_CLK` and `ICODEC_TX_CLK`. -/
def icodecSpeeds : List (UInt32 × UInt32) :=
  [(11289600, 9), (8192000, 8), (6144000, 7), (5644800, 6), (4096000, 5),
    (3072000, 4), (2822400, 3), (2048000, 2)]

/-- The bounds of `SDAC_MCLK`. -/
def sdacSpeeds : List (UInt32 × UInt32) :=
  [(1411200, 9), (1024000, 8), (768000, 7), (705600, 6), (512000, 5),
    (384000, 4), (352800, 3), (256000, 2)]

/-- The bounds shared by `UART1DM_CLK` and `UART2DM_CLK`. -/
def uartdmSpeeds : List (UInt32 × UInt32) :=
  [(61440000, 15), (58982400, 14), (56000000, 13), (51200000, 12),
    (48000000, 11), (40000000, 10), (32000000, 9), (24000000, 8),
    (16000000, 7), (15360000, 6), (14745600, 5), (7680000, 4), (7372800, 3),
    (3840000, 2)]

/-- The bounds shared by `SDC1_CLK` and `SDC2_CLK`. -/
def sdcSpeeds : List (UInt32 × UInt32) :=
  [(50000000, 14), (49152000, 13), (45000000, 12), (40000000, 11),
    (35000000, 10), (30000000, 9), (25000000, 8), (20000000, 7),
    (15000000, 6), (10000000, 5), (5000000, 4), (400000, 3), (144000, 2)]

/-- The switch of `CotullaClkSetRate`: the speed of a rate, or the value
returned without a command. -/
def speedOf (id : ClkId) (rate : UInt32) : Except UInt32 UInt32 :=
  match id with
  | icodecRxClk => .ok (speedAbove rate icodecSpeeds)
  | icodecTxClk => .ok (speedAbove rate icodecSpeeds)
  | sdacMclk => .ok (speedAbove rate sdacSpeeds)
  | uart1dmClk => .ok (speedAbove rate uartdmSpeeds)
  | uart2dmClk => .ok (speedAbove rate uartdmSpeeds)
  | ecodecClk => .ok (speedAbove rate [(2048000, 3), (128000, 2)])
  | vfeMdcClk =>
    speedAt rate [(96000000, 37), (48000000, 32), (24000000, 22),
      (12000000, 14), (6000000, 6), (3000000, 1)]
  | vfeClk =>
    speedAt rate [(36000000, 1), (48000000, 2), (64000000, 3), (78000000, 4),
      (96000000, 5)]
  | spiClk =>
    .ok (speedAbove rate [(15360000, 5), (9600000, 4), (4800000, 3), (960000, 2)])
  | sdc1Clk => .ok (speedAbove rate sdcSpeeds)
  | sdc2Clk => .ok (speedAbove rate sdcSpeeds)
  | sdc1Pclk => .error 0
  | sdc2Pclk => .error 0
  | _ => .error minusOne

/-! ## The driver -/

/-- `PCOM_CLK_REGIME_SEC_ENABLE`. -/
def pcomClkRegimeSecEnable : UInt32 := 50
/-- `PCOM_CLK_REGIME_SEC_DISABLE`. -/
def pcomClkRegimeSecDisable : UInt32 := 51
/-- `PCOM_CLK_REGIME_SEC_SEL_SPEED`. -/
def pcomClkRegimeSecSelSpeed : UInt32 := 58
/-- `PCOM_CLK_REGIME_SEC_MSM_GET_CLK_FREQ_KHZ`. -/
def pcomClkRegimeSecMsmGetClkFreqKhz : UInt32 := 67

/-- **The driver's state**: its table, and the modem it talks to. -/
structure Dxe where
  clocksLookup : Lookup
  modem : Modem

/-- `msm_proc_comm(cmd, &ClocksLookup[Id], data2)`, returning what `data2`
points at afterwards. -/
def procCommEntry (cmd : UInt32) (id : ClkId) (data2 : Option UInt32) :
    Routine Dxe (Option UInt32) := fun d =>
  match msmProcComm cmd (some (d.clocksLookup id)) data2 d.modem with
  | (some (_, data1, data2'), m) =>
    (some data2', { d with
      clocksLookup :=
        Function.update d.clocksLookup id (data1.getD (d.clocksLookup id))
      modem := m })
  | (none, m) => (none, { d with modem := m })

/-- `CotullaClkSetRate`. -/
def cotullaClkSetRate (id : ClkId) (rate : UInt32) : Routine Dxe UInt32 :=
  match speedOf id rate with
  | .error ret => return ret
  | .ok speed => do
    let _ ← procCommEntry pcomClkRegimeSecSelSpeed id (some speed)
    return 0

/-- `ClkSetRate`. -/
def clkSetRate (id : ClkId) (freq : UInt32) : Routine Dxe UInt32 := do
  let retval ← cotullaClkSetRate id freq
  if retval ≠ minusOne then
    return retval
  return minusOne

/-- `ClkGetRate`. -/
def clkGetRate (id : ClkId) : Routine Dxe UInt32 := do
  if (← Routine.look fun d => d.clocksLookup id) ≠ minusOne then
    let rate ← procCommEntry pcomClkRegimeSecMsmGetClkFreqKhz id (some 0)
    return rate.getD 0
  else
    match id with
    | sdc4Pclk => return 64000000
    | _ => return minusOne

/-- `ClkEnable`. -/
def clkEnable (id : ClkId) : Routine Dxe UInt32 := do
  if (← Routine.look fun d => d.clocksLookup id) ≠ minusOne then
    let _ ← procCommEntry pcomClkRegimeSecEnable id none
    Routine.look fun d => d.clocksLookup id
  else
    return minusOne

/-- `ClkDisable`. -/
def clkDisable (id : ClkId) : Routine Dxe Unit := do
  if (← Routine.look fun d => d.clocksLookup id) ≠ minusOne then
    let _ ← procCommEntry pcomClkRegimeSecDisable id none

/-- A call of the driver. -/
inductive Call where
  | clkSetRate (id : ClkId) (freq : UInt32)
  | clkGetRate (id : ClkId)
  | clkEnable (id : ClkId)
  | clkDisable (id : ClkId)

/-- The clock a call is about. -/
def Call.id : Call → ClkId
  | .clkSetRate id _ => id
  | .clkGetRate id => id
  | .clkEnable id => id
  | .clkDisable id => id

/-- What a call does, its result thrown away. -/
def Call.exec : Call → Routine Dxe Unit
  | .clkSetRate id freq => do let _ ← ClockDxe.clkSetRate id freq
  | .clkGetRate id => do let _ ← ClockDxe.clkGetRate id
  | .clkEnable id => do let _ ← ClockDxe.clkEnable id
  | .clkDisable id => ClockDxe.clkDisable id

/-- **A step of a run**: a call, with the reply the modem gives if the call
issues a command. -/
def step (d : Dxe) (c : Call × Reply) : Dxe :=
  (c.1.exec { d with modem := { d.modem with replies := [c.2] } }).2

/-! ## What a call does to the table -/

/-- The command and second data word a call issues, given the table. -/
def Call.asks (table : Lookup) : Call → Option (UInt32 × UInt32)
  | .clkSetRate id freq =>
    match speedOf id freq with
    | .error _ => none
    | .ok speed => some (pcomClkRegimeSecSelSpeed, speed)
  | .clkGetRate id =>
    if table id ≠ minusOne then some (pcomClkRegimeSecMsmGetClkFreqKhz, 0) else none
  | .clkEnable id =>
    if table id ≠ minusOne then some (pcomClkRegimeSecEnable, 0) else none
  | .clkDisable id =>
    if table id ≠ minusOne then some (pcomClkRegimeSecDisable, 0) else none

/-- The entry of the table after a reply. -/
def storedEntry (a : Answer) (entry : UInt32) : UInt32 :=
  if a.status ≠ Status.pcomCmdFail.code then a.data1 else entry

/-- The commands a step adds to the modem's log. -/
def sent (d : Dxe) (c : Call × Reply) : List Request :=
  (step d c).modem.issued.drop d.modem.issued.length

/-- **What passing the address of an entry does**, on a reply. -/
theorem procCommEntry_of_reply {cmd : UInt32} (hcmd : cmd ≠ pcomCmdDone) (id : ClkId)
    (data2 : Option UInt32) {d : Dxe} {r : Reply} {rest : List Reply}
    (hr : d.modem.replies = r :: rest) :
    procCommEntry cmd id data2 d
      = (some (r.outcome (some (d.clocksLookup id)) data2).2.2,
          { clocksLookup := Function.update d.clocksLookup id
              (storedEntry r.toAnswer (d.clocksLookup id))
            modem := d.modem.after
              ⟨cmd, d.clocksLookup id, data2.getD 0⟩ r rest }) := by
  have hcall := msmProcComm_of_reply hcmd (some (d.clocksLookup id)) data2 hr
  unfold procCommEntry storedEntry
  by_cases hf : r.status = Status.pcomCmdFail.code
  · rw [Answer.outcome_of_fail hf] at hcall ⊢
    rw [hcall, if_neg (not_not.mpr hf)]
    rfl
  · rw [Answer.outcome_of_ne_fail hf] at hcall ⊢
    rw [hcall, if_pos hf]
    rfl

/-- What a step leaves behind, given what it asks the modem. -/
def After (d : Dxe) (c : Call × Reply) : Option (UInt32 × UInt32) → Dxe → Prop
  | none, d' => d'.clocksLookup = d.clocksLookup ∧ d'.modem.issued = d.modem.issued
  | some (cmd, word), d' =>
    d'.clocksLookup = Function.update d.clocksLookup c.1.id
        (storedEntry c.2.toAnswer (d.clocksLookup c.1.id))
      ∧ d'.modem.issued = d.modem.issued ++ [⟨cmd, d.clocksLookup c.1.id, word⟩]

/-- A call that asks the modem only about a clock it knows, and otherwise
changes nothing. -/
theorem after_of_known {α : Type} (d : Dxe) (c : Call) (r : Reply) {cmd : UInt32}
    (hcmd : cmd ≠ pcomCmdDone) (data2 : Option UInt32)
    {known : Option UInt32 → Routine Dxe α} {unknown : Routine Dxe α}
    (hknown : ∀ out d, (known out d).2 = d) (hunknown : ∀ d, (unknown d).2 = d) :
    After d (c, r)
      (if d.clocksLookup c.id ≠ minusOne then some (cmd, data2.getD 0) else none)
      ((do
        if (← Routine.look fun d : Dxe => d.clocksLookup c.id) ≠ minusOne then
          procCommEntry cmd c.id data2 >>= known
        else unknown)
        { d with modem := { d.modem with replies := [r] } }).2 := by
  rw [Routine.look_bind_apply]
  by_cases hid : d.clocksLookup c.id ≠ minusOne
  · rw [if_pos hid, if_pos hid,
      Routine.bind_of_returns (procCommEntry_of_reply hcmd c.id data2 rfl), hknown]
    exact ⟨rfl, rfl⟩
  · rw [if_neg hid, if_neg hid, hunknown]
    exact ⟨rfl, rfl⟩

/-- A call of `ClkGetRate` leaves behind what `step_spec` says. -/
theorem clkGetRate_spec (d : Dxe) (id : ClkId) (r : Reply) :
    After d (.clkGetRate id, r) (Call.asks d.clocksLookup (.clkGetRate id))
      (clkGetRate id { d with modem := { d.modem with replies := [r] } }).2 := by
  unfold clkGetRate
  refine after_of_known d (.clkGetRate id) r (by decide) (some 0) (fun _ _ => ?_) (fun d => ?_)
  · rfl
  · split <;> rfl

/-- A call of `ClkEnable` leaves behind what `step_spec` says. -/
theorem clkEnable_spec (d : Dxe) (id : ClkId) (r : Reply) :
    After d (.clkEnable id, r) (Call.asks d.clocksLookup (.clkEnable id))
      (clkEnable id { d with modem := { d.modem with replies := [r] } }).2 := by
  unfold clkEnable
  refine after_of_known d (.clkEnable id) r (by decide) none (fun _ _ => ?_) (fun d => ?_)
  · rfl
  · rfl

/-- A call of `ClkDisable` leaves behind what `step_spec` says. -/
theorem clkDisable_spec (d : Dxe) (id : ClkId) (r : Reply) :
    After d (.clkDisable id, r) (Call.asks d.clocksLookup (.clkDisable id))
      (clkDisable id { d with modem := { d.modem with replies := [r] } }).2 := by
  unfold clkDisable
  refine after_of_known d (.clkDisable id) r (by decide) none (fun _ _ => ?_) (fun d => ?_)
  · rfl
  · rfl

/-- `ClkSetRate` hands on what `CotullaClkSetRate` returned. -/
theorem clkSetRate_eq (id : ClkId) (freq : UInt32) :
    clkSetRate id freq = cotullaClkSetRate id freq := by
  unfold clkSetRate
  conv_rhs => rw [← bind_pure (cotullaClkSetRate id freq)]
  refine congrArg _ (funext fun retval => ?_)
  split
  · rfl
  · next h => rw [not_not.mp h]

/-- A call of `ClkSetRate` leaves behind what `step_spec` says. -/
theorem clkSetRate_spec (d : Dxe) (id : ClkId) (freq : UInt32) (r : Reply) :
    After d (.clkSetRate id freq, r) (Call.asks d.clocksLookup (.clkSetRate id freq))
      (clkSetRate id freq { d with modem := { d.modem with replies := [r] } }).2 := by
  rw [clkSetRate_eq]
  cases hs : speedOf id freq with
  | error ret =>
    simp only [cotullaClkSetRate, Call.asks, hs]
    exact ⟨rfl, rfl⟩
  | ok speed =>
    simp only [cotullaClkSetRate, Call.asks, hs]
    rw [Routine.bind_of_returns
      (procCommEntry_of_reply (by decide) id (some speed) rfl)]
    exact ⟨rfl, rfl⟩

/-- **What a step can do**: nothing, or one command whose reply is stored in
the entry it was read from. -/
theorem step_spec (d : Dxe) (c : Call × Reply) :
    After d c (c.1.asks d.clocksLookup) (step d c) := by
  obtain ⟨c, r⟩ := c
  unfold step
  cases c with
  | clkSetRate id freq =>
    simp only [Call.exec, Routine.discard_snd]
    exact clkSetRate_spec d id freq r
  | clkGetRate id =>
    simp only [Call.exec, Routine.discard_snd]
    exact clkGetRate_spec d id r
  | clkEnable id =>
    simp only [Call.exec, Routine.discard_snd]
    exact clkEnable_spec d id r
  | clkDisable id => exact clkDisable_spec d id r

/-! ## Runs that keep the table -/

/-- A step on which no reply disturbs the table: no command is issued, or the
reply is `PCOM_CMD_FAIL`, or its first data word is the clock's own number. -/
def Harmless (c : Call × Reply) : Prop :=
  c.1.asks fillClocksLookup = none ∨ c.2.status = Status.pcomCmdFail.code
    ∨ c.2.data1 = fillClocksLookup c.1.id

/-- **What a step owes the table**: it stays as `FillClocksLookup` built it,
and what the step sends names the clock by the number built in. -/
structure KeepsLookup (d : Dxe) (c : Call × Reply) : Prop where
  table : (step d c).clocksLookup = fillClocksLookup
  remote : ∀ q ∈ sent d c, q.data1 = fillClocksLookup c.1.id

/-- Storing in an entry keeps the table exactly when it stores the entry. -/
theorem update_storedEntry_iff (table : Lookup) (id : ClkId) (a : Answer) :
    Function.update table id (storedEntry a (table id)) = table
      ↔ a.status = Status.pcomCmdFail.code ∨ a.data1 = table id := by
  unfold storedEntry
  rw [Function.update_eq_self_iff]
  by_cases hf : a.status = Status.pcomCmdFail.code
  · simp [hf]
  · simp [hf]

/-- From the table as built, a step keeps it exactly when it is harmless. -/
theorem keepsLookup_iff {d : Dxe} (hd : d.clocksLookup = fillClocksLookup)
    (c : Call × Reply) : KeepsLookup d c ↔ Harmless c := by
  have hspec := step_spec d c
  have hsent : ∀ qs, (step d c).modem.issued = d.modem.issued ++ qs → sent d c = qs := by
    intro qs hqs
    unfold sent
    rw [hqs, List.drop_left]
  unfold Harmless
  rw [hd] at hspec
  cases hasks : c.1.asks fillClocksLookup with
  | none =>
    rw [hasks] at hspec
    refine iff_of_true ⟨hspec.1.trans hd, ?_⟩ (.inl rfl)
    rw [hsent [] (by rw [hspec.2, List.append_nil])]
    exact fun q hq => absurd hq List.not_mem_nil
  | some ask =>
    rw [hasks] at hspec
    obtain ⟨htable, hlog⟩ := hspec
    rw [hd] at htable hlog
    rw [← update_storedEntry_iff, ← htable]
    constructor
    · exact fun h => .inr h.table
    · intro h
      refine ⟨h.resolve_left (by simp), ?_⟩
      rw [hsent _ hlog]
      rintro q hq
      rw [List.mem_singleton.mp hq]

/-- **When a run keeps the table.** From the table as `FillClocksLookup`
built it, over any calls and replies: after every step the table is still
that one, and every command the step sent carries the number built in for
its clock, exactly when every step of the run is harmless. -/
theorem lookup_kept_iff (m : Modem) (l : List (Call × Reply)) :
    Run.Along step KeepsLookup ⟨fillClocksLookup, m⟩ l ↔ ∀ c ∈ l, Harmless c := by
  have hcongr : Run.Along step KeepsLookup ⟨fillClocksLookup, m⟩ l
      ↔ Run.Along step (fun _ c => Harmless c) ⟨fillClocksLookup, m⟩ l :=
    Run.along_congr (I := fun d => d.clocksLookup = fillClocksLookup)
      (fun _ _ _ h => h.table) (fun _ c hd => keepsLookup_iff hd c) rfl l
  exact hcongr.trans (Run.along_input_iff _ l)

/-- Enabling `SDC1_CLK`, answered with `PCOM_CMD_SUCCESS` and data words `1`
and `0`: the table loses the modem's number 66. -/
theorem enable_sdc1_overwrites_entry :
    ¬ ∀ (m : Modem) (l : List (Call × Reply)),
      Run.Along step KeepsLookup ⟨fillClocksLookup, m⟩ l := by
  intro h
  have hstep := (h (Modem.ready []) [(.clkEnable sdc1Clk, ⟨⟨3, 1, 0⟩, 0, 0⟩)]).1
  exact absurd ((keepsLookup_iff rfl _).mp hstep) (by unfold Harmless; decide)

end ClockDxe
