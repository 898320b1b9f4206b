import HtcLeo.ConSplitter.Attached

/-!
# Runs of the splitters

In the abstract, a run says which devices are attached to which splitter, and nothing
else: `Attached`. The splitters refine that (`splitters_refine`). Whatever comes and
goes and is called, every access to a table is inside it, the splitters list the
devices that are attached, and a mode one of them offers is a mode of all of its
devices, in the size it says, for which each is asked by its own number.

A device that goes may take the current mode along, or leave the splitter with the
number of another (`deletion_keeps_mode_iff`): the modes are made anew, but the number is the
one the current mode had. A splitter that loses devices is therefore not asked to set
its cursor, which reads the table at the current mode.
-/

namespace ConSplitter

open StatusCode Block

variable {δ : Type}

/-! ## Steps -/

/-- A call to a splitter. -/
inductive Call where
  | reset (extendedVerification : Bool)
  | outputString (string : List UInt16)
  | testString (string : List UInt16)
  | setMode (modeNumber : ℕ)
  | setAttribute (value : ℕ)
  | clearScreen
  | setCursorPosition (column row : ℕ)
  | enableCursor (visible : Bool)

/-- The function a call is to. -/
def textOutCall (around : Surroundings δ) (s : TextOutSplitter δ) :
    Call → Option (StatusCode × TextOutSplitter δ)
  | .reset extendedVerification => textOutReset around extendedVerification s
  | .outputString string => textOutOutputString around string s
  | .testString string => textOutTestString around string s
  | .setMode modeNumber => textOutSetMode around modeNumber s
  | .setAttribute value => textOutSetAttribute around value s
  | .clearScreen => textOutClearScreen around s
  | .setCursorPosition column row => textOutSetCursorPosition around column row s
  | .enableCursor visible => textOutEnableCursor around visible s

/-- What happens to the splitters: a device comes or goes, or a splitter is called. -/
inductive Event (δ : Type) where
  | start (which : Which) (textOut : δ)
  | stop (which : Which) (textOut : δ)
  | call (which : Which) (call : Call)

section

variable [DecidableEq δ] (device : δ → TextOutDevice)

/-- What an event does. -/
def splittersStep (sys : Splitters δ) (event : Event δ × Surroundings δ) : Option (Splitters δ) :=
  match event.1 with
  | .start which textOut => driverBindingStart device event.2 which textOut sys
  | .stop which textOut => (textOutDeleteDevice device event.2 which textOut sys).map Prod.snd
  | .call which call => (textOutCall event.2 (sys.get which) call).map fun r => sys.set which r.2

/-- **Which devices are attached** to which splitter. -/
abbrev Attached (δ : Type) : Type := Which → List δ

/-- What an event does to the devices that are attached. -/
def attachedStep (attached : Attached δ) (event : Event δ × Surroundings δ) : Attached δ :=
  match event.1 with
  | .start which textOut => Function.update attached which (attached which ++ [textOut])
  | .stop which textOut => Function.update attached which ((attached which).erase textOut)
  | .call _ _ => attached

end

/-- The splitter loses no device. -/
def Stays (events : List (Event δ × Surroundings δ)) (which : Which) : Prop :=
  ∀ textOut around, (Event.stop which textOut, around) ∉ events

/-- **What is asked of a run**: there is memory, the devices that are attached to the one
splitter and to the other can be compared within the list of the latter, and the cursor of a
splitter that loses devices is not set. -/
structure Proper [DecidableEq δ] (events : List (Event δ × Surroundings δ)) : Prop where
  granted : ∀ event ∈ events, ∀ n, event.2.granted n = true
  product : Run.Along attachedStep (fun attached event =>
    (attachedStep attached event .conOut).length * (attachedStep attached event .stdErr).length
      ≤ consoleSplitterAllocUnit) (fun _ => []) events
  cursor : ∀ which column row around,
    (Event.call which (.setCursorPosition column row), around) ∈ events → Stays events which

/-! ## What a step keeps -/

section

variable {device : δ → TextOutDevice} {s : TextOutSplitter δ} {around : Surroundings δ}

variable (around) in
/-- **A call comes back**, with the tables as they were. -/
theorem textOutCall_spec (h : Tables device s) (hvirtual : s.Virtual) (call : Call)
    (hvalid : ∀ column row, call = .setCursorPosition column row → s.ModeValid) :
    ∃ status s', textOutCall around s call = some (status, s') ∧ Kept s s' := by
  cases call with
  | reset extendedVerification => exact textOutReset_spec around h extendedVerification
  | outputString string => exact textOutOutputString_spec around h hvirtual string
  | testString string => exact textOutTestString_spec around h string
  | setMode modeNumber =>
    by_cases hmode : modeNumber < s.maxMode ∧ modeNumber ≤ 0x7FFFFFFF
    · obtain ⟨status, s', hset, hkept, -⟩ := textOutSetMode_spec around h modeNumber hmode.1 hmode.2
      exact ⟨status, s', hset, hkept⟩
    · exact ⟨efiUnsupported, s, if_pos (by omega), Kept.refl s⟩
  | setAttribute value =>
    obtain ⟨status, s', hset, hkept, -⟩ := textOutSetAttribute_spec around h value
    exact ⟨status, s', hset, hkept⟩
  | clearScreen =>
    obtain ⟨status, s', hclear, hkept, -⟩ := textOutClearScreen_spec around h
    exact ⟨status, s', hclear, hkept⟩
  | setCursorPosition column row =>
    exact textOutSetCursorPosition_spec around h (hvalid column row rfl) hvirtual column row
  | enableCursor visible => exact textOutEnableCursor_spec around h visible

variable [DecidableEq δ]

/-- **A device is started.** -/
theorem driverBindingStart_spec (hgranted : ∀ n, around.granted n = true)
    (hlawful : ∀ d, (device d).Lawful) {sys : Splitters δ} {which : Which}
    (h : ∀ w, Tables device (sys.get w)) (textOut : δ)
    (hproduct : ∀ sys' : Splitters δ, (sys'.get which).currentNumberOfConsoles
        = (sys.get which).currentNumberOfConsoles + 1 →
      (∀ w ≠ which, (sys'.get w).currentNumberOfConsoles = (sys.get w).currentNumberOfConsoles) →
      sys'.mConOut.currentNumberOfConsoles * sys'.mStdErr.currentNumberOfConsoles
        ≤ consoleSplitterAllocUnit) :
    ∃ sys', driverBindingStart device around which textOut sys = some sys'
      ∧ (sys'.get which).consoles = (sys.get which).consoles ++ [textOut]
      ∧ Tables device (sys'.get which) ∧ (sys'.get which).ModeValid
      ∧ ∀ w ≠ which, Cut device (sys.get w) (sys'.get w) := by
  let s₁ : TextOutSplitter δ := { sys.get which with mode := 0xFF }
  have htables₁ : Tables device s₁ := by
    refine ⟨(h which).list, (h which).list_room, (h which).query_room, (h which).bare,
      fun hpos => ?_⟩
    obtain ⟨map, hmapped⟩ := (h which).mapped hpos
    exact ⟨map, hmapped.map_eq, hmapped.size, hmapped.fits, hmapped.room, hmapped.agrees⟩
  have hother : ∀ w ≠ which, (sys.set which s₁).get w = sys.get w := fun w hw =>
    Splitters.get_set_of_ne sys hw s₁
  have hself : (sys.set which s₁).get which = s₁ := Splitters.get_set sys which s₁
  obtain ⟨sys₂, hadd, hconsoles, htables₂, hvalid₂, hcut₂⟩ := textOutAddDevice_spec hgranted hlawful
    (fun w => if hw : w = which then by rw [hw, hself]; exact htables₁
      else by rw [hother w hw]; exact h w) textOut
    fun sys' hcount hsame => hproduct sys' (by rw [hcount, hself]) fun w hw => by
      rw [hsame w hw, hother w hw]
  obtain ⟨_, s', hattr, hkept, -⟩ := textOutSetAttribute_spec around htables₂
    which.startAttribute
  refine ⟨sys₂.set which s', ?_, ?_, ?_, ?_, fun w hw => ?_⟩
  · unfold driverBindingStart
    dsimp only
    rw [hadd]
    dsimp only [Option.bind_eq_bind, Option.bind_some]
    rw [hattr]
    rfl
  · rw [Splitters.get_set, hkept.consoles_eq, hconsoles, hself]
    rfl
  · rw [Splitters.get_set]
    exact hkept.tables htables₂
  · rw [Splitters.get_set]
    exact hkept.valid hvalid₂
  · have hcut := hcut₂ w hw
    rw [hother w hw] at hcut
    rwa [Splitters.get_set_of_ne sys₂ hw]

/-- **The splitters refine the devices that are attached**: they list them, and have their
tables. -/
structure Refines (device : δ → TextOutDevice) (valid : Which → Prop) (sys : Splitters δ)
    (attached : Attached δ) : Prop where
  consoles : ∀ w, (sys.get w).consoles = attached w
  tables : ∀ w, Tables device (sys.get w)
  window : ∀ w, (sys.get w).Virtual
  mode : ∀ w, valid w → (sys.get w).ModeValid

omit [DecidableEq δ] in
theorem Refines.count {valid : Which → Prop} {sys : Splitters δ} {attached : Attached δ}
    (h : Refines device valid sys attached) (w : Which) :
    (sys.get w).currentNumberOfConsoles = (attached w).length := by
  rw [← h.consoles w, TextOutSplitter.length_consoles]

omit [DecidableEq δ] in
/-- One splitter changes, and the other is cut down at most. -/
theorem Refines.update {valid : Which → Prop} {sys : Splitters δ} {attached : Attached δ}
    (h : Refines device valid sys attached) {which : Which} (sys' : Splitters δ) (list : List δ)
    (hconsoles : (sys'.get which).consoles = list) (htables : Tables device (sys'.get which))
    (hwindow : (sys'.get which).Virtual) (hvalid : valid which → (sys'.get which).ModeValid)
    (hcut : ∀ w ≠ which, Cut device (sys.get w) (sys'.get w)) :
    Refines device valid sys' (Function.update attached which list) := by
  have hboth : ∀ {P : Which → Prop}, P which → (∀ w ≠ which, P w) → ∀ w, P w :=
    fun hwhich hother w => if hw : w = which then hw ▸ hwhich else hother w hw
  refine ⟨hboth ?_ fun w hw => ?_, hboth htables fun w hw => (hcut w hw).tables (h.tables w),
    hboth hwindow fun w hw => (hcut w hw).window (h.window w),
    hboth hvalid fun w hw hw' => (hcut w hw).valid (h.mode w hw')⟩
  · rw [Function.update_self, hconsoles]
  · rw [Function.update_of_ne hw, (hcut w hw).consoles_eq, h.consoles]

omit [DecidableEq δ] in
/-- The devices of both splitters, when the list of one has changed. -/
theorem Refines.product {valid : Which → Prop} {sys sys' : Splitters δ} {attached : Attached δ}
    {which : Which} {list : List δ} (h : Refines device valid sys attached)
    (hwhich : (sys'.get which).currentNumberOfConsoles = list.length)
    (hothers : ∀ w ≠ which,
      (sys'.get w).currentNumberOfConsoles = (sys.get w).currentNumberOfConsoles)
    (hproduct : (Function.update attached which list .conOut).length
      * (Function.update attached which list .stdErr).length ≤ consoleSplitterAllocUnit) :
    sys'.mConOut.currentNumberOfConsoles * sys'.mStdErr.currentNumberOfConsoles
      ≤ consoleSplitterAllocUnit := by
  have hlength : ∀ w, (sys'.get w).currentNumberOfConsoles
      = (Function.update attached which list w).length := fun w => by
    by_cases hw : w = which
    · rw [hw, Function.update_self, hwhich]
    · rw [Function.update_of_ne hw, hothers w hw, h.count]
  exact (congrArg₂ (· * ·) (hlength .conOut) (hlength .stdErr)).trans_le hproduct

/-- **What a step keeps.** -/
theorem Refines.step {valid : Which → Prop} {sys : Splitters δ} {attached : Attached δ}
    (h : Refines device valid sys attached) (hlawful : ∀ d, (device d).Lawful)
    (event : Event δ × Surroundings δ) (hgranted : ∀ n, event.2.granted n = true)
    (hproduct : (attachedStep attached event .conOut).length
        * (attachedStep attached event .stdErr).length ≤ consoleSplitterAllocUnit)
    (hcursor : ∀ w column row, event.1 = .call w (.setCursorPosition column row) → valid w)
    (hstays : ∀ w textOut, event.1 = .stop w textOut → ¬ valid w) :
    ∃ sys', splittersStep device sys event = some sys'
      ∧ Refines device valid sys' (attachedStep attached event) := by
  obtain ⟨event, around⟩ := event
  cases event with
  | start which textOut =>
    obtain ⟨sys', hstart, hconsoles, htables, hvalid, hcut⟩ := driverBindingStart_spec hgranted
      hlawful h.tables textOut fun sys' hwhich hothers => h.product
        (by rw [hwhich, h.count, List.length_append, List.length_singleton]) hothers hproduct
    refine ⟨sys', hstart, h.update sys' _ (hconsoles.trans (by rw [h.consoles])) htables
      (fun hzero => ?_)
      (fun _ => hvalid) hcut⟩
    have hlist := congrArg List.length hconsoles
    rw [TextOutSplitter.length_consoles, hzero, List.length_append, List.length_singleton] at hlist
    omega
  | stop which textOut =>
    obtain ⟨status, sys', hstop, hconsoles, htables, hwindow, hcut⟩ := textOutDeleteDevice_spec
      hgranted hlawful h.tables textOut fun sys' hwhich hothers => h.product
        (by rw [← TextOutSplitter.length_consoles, hwhich, h.consoles]) hothers hproduct
    exact ⟨sys', congrArg (Option.map Prod.snd) hstop,
      h.update sys' _ (hconsoles.trans (by rw [h.consoles])) htables (hwindow (h.window which))
        (fun hvalid => absurd hvalid (hstays which textOut rfl)) hcut⟩
  | call which call =>
    obtain ⟨status, s', hcall, hkept⟩ := textOutCall_spec around (h.tables which) (h.window which)
      call fun column row heq => h.mode which (hcursor which column row
        (congrArg (Event.call which) heq))
    refine ⟨sys.set which s', ?_, ?_⟩
    · show (textOutCall around (sys.get which) call).map _ = _
      rw [hcall]
      rfl
    · have hself := Splitters.get_set sys which s'
      have hupdate := h.update (sys.set which s') (attached which)
        (by rw [hself, hkept.consoles_eq, h.consoles]) (hself.symm ▸ hkept.tables (h.tables which))
        (hself.symm ▸ hkept.window (h.window which))
        (fun hvalid => hself.symm ▸ hkept.valid (h.mode which hvalid)) fun w hw => by
          rw [Splitters.get_set_of_ne sys hw]
          exact Cut.refl _
      rwa [Function.update_eq_self] at hupdate

/-! ## What a run keeps -/

/-- The splitters as their constructors leave them, with what lay in memory. -/
def constructed (list : Which → ℕ → δ) (queryData : Which → ℕ → TextOutQueryData)
    (column row : ℕ) : Splitters δ where
  mConOut := textOutConstructor (list .conOut) (queryData .conOut)
  mStdErr := textOutConstructor (list .stdErr) (queryData .stdErr)
  pcdConOutColumn := column
  pcdConOutRow := row

omit [DecidableEq δ] in
/-- No device is attached to begin with. -/
theorem refines_constructed (list : Which → ℕ → δ) (queryData : Which → ℕ → TextOutQueryData)
    (column row : ℕ) (valid : Which → Prop) :
    Refines device valid (constructed list queryData column row) fun _ => [] := by
  have hget : ∀ w, (constructed list queryData column row).get w
      = textOutConstructor (list w) (queryData w) := fun w => by cases w <;> rfl
  have hbase : ∀ w, Tables device (textOutConstructor (list w) (queryData w)) := fun w =>
    { list := Nat.zero_le _
      list_room := Nat.le_refl _
      query_room := Nat.le_refl _
      bare := fun _ => ⟨rfl, rfl, fun map hmap => by cases hmap⟩
      mapped := fun hpos => absurd hpos (Nat.lt_irrefl 0) }
  refine ⟨fun w => ?_, fun w => ?_, fun w => ?_, fun w _ => ?_⟩
  · rw [hget]
    rfl
  · rw [hget]
    exact hbase w
  · rw [hget]
    exact fun _ => ⟨rfl, home_inside⟩
  · rw [hget]
    exact ⟨Int.le_refl 0, Int.zero_lt_one⟩

/-- **The splitters refine the devices that are attached**, in every run. -/
theorem splitters_refine (hlawful : ∀ d, (device d).Lawful) (list : Which → ℕ → δ)
    (queryData : Which → ℕ → TextOutQueryData) (column row : ℕ)
    {events : List (Event δ × Surroundings δ)} (hproper : Proper events) :
    ∃ sys, Run.runOption (splittersStep device) (constructed list queryData column row) events
        = some sys
      ∧ Refines device (Stays events) sys (Run.run attachedStep (fun _ => []) events) := by
  refine Run.runOption_of_refines_along (fun sys attached event hmem h hproduct => ?_)
    (refines_constructed list queryData column row (Stays events)) hproper.product
  exact h.step hlawful event (hproper.granted event hmem) hproduct
    (fun w column row heq => hproper.cursor w column row event.2 (heq ▸ hmem))
    fun w textOut heq hstays => hstays textOut event.2 (heq ▸ hmem)

/-- The device is asked to set one of its modes, which has the size. -/
def AskedForMode (device : δ → TextOutDevice) (size : TextOutQueryData) (textOut : δ)
    (request : δ × TextOutRequest) : Prop :=
  ∃ m : ℕ, m < (device textOut).maxMode ∧ (device textOut).queryMode m = some size
    ∧ request = (textOut, .setMode m)

omit [DecidableEq δ] in
/-- **A mode that is offered is a mode of every device**, in the size that is said: setting it
asks each of them for one. -/
theorem Tables.offered (h : Tables device s) (hvirtual : s.Virtual) (around : Surroundings δ)
    {modeNumber : ℕ} {size : TextOutQueryData} (hne : modeNumber ≠ 1)
    (hquery : textOutQueryMode s modeNumber = some (efiSuccess, some size))
    (hmode : s.mode ≠ modeNumber) :
    ∃ status s' requests, textOutSetMode around modeNumber s = some (status, s')
      ∧ s'.mode = modeNumber ∧ s'.asked = s.asked ++ requests
      ∧ List.Forall₂ (AskedForMode device size) s.consoles requests := by
  have hvalid := lt_maxMode_of_queryMode hquery
  have hpos : 0 < s.currentNumberOfConsoles := Nat.pos_of_ne_zero fun hzero => by
    have hone := (h.bare hzero).1
    have hbase := (hvirtual hzero).1
    omega
  obtain ⟨map, hmapped⟩ := h.mapped hpos
  obtain ⟨status, s', hset, -, hmode', hasked⟩ :=
    textOutSetMode_spec around h modeNumber hvalid.2 hvalid.1
  refine ⟨status, s', _, hset, hmode', hasked hmode map hmapped, ?_⟩
  have hsize : s.size map modeNumber = size := by
    rw [textOutQueryMode_spec hmapped hvalid.2 hvalid.1] at hquery
    exact Option.some.inj (Prod.ext_iff.1 (Option.some.inj hquery)).2
  unfold TextOutSplitter.consoles front
  rw [List.forall₂_map_left_iff, List.forall₂_map_right_iff, List.forall₂_same]
  intro i hi
  obtain ⟨m, hm, hlt, hdevice⟩ :=
    hmapped.agrees.entry modeNumber hvalid.2 hne i (List.mem_range.1 hi)
  refine ⟨m, hlt, hdevice.trans (congrArg some hsize), ?_⟩
  rw [hm]

/-- **The modes of the splitters are shared by their devices**, in every run of devices that come
and go: a mode but 1 that a splitter offers is one every attached device has, in the size that
is said, and each is asked for its own number of it. -/
theorem offered_modes_shared (hlawful : ∀ d, (device d).Lawful) (list : Which → ℕ → δ)
    (queryData : Which → ℕ → TextOutQueryData) (column row : ℕ)
    {events : List (Event δ × Surroundings δ)} (hproper : Proper events) :
    ∃ sys, Run.runOption (splittersStep device) (constructed list queryData column row) events
        = some sys
      ∧ ∀ which, (sys.get which).consoles = Run.run attachedStep (fun _ => []) events which
        ∧ ∀ (around : Surroundings δ) modeNumber size, modeNumber ≠ 1 →
          textOutQueryMode (sys.get which) modeNumber = some (efiSuccess, some size) →
          (sys.get which).mode ≠ modeNumber →
          ∃ status s' requests,
            textOutSetMode around modeNumber (sys.get which) = some (status, s')
              ∧ s'.mode = modeNumber ∧ s'.asked = (sys.get which).asked ++ requests
              ∧ List.Forall₂ (AskedForMode device size)
                (Run.run attachedStep (fun _ => []) events which) requests := by
  obtain ⟨sys, hrun, hrefines⟩ := splitters_refine hlawful list queryData column row hproper
  refine ⟨sys, hrun, fun which => ⟨hrefines.consoles which,
    fun around modeNumber size hne hquery hmode => ?_⟩⟩
  rw [← hrefines.consoles which]
  exact (hrefines.tables which).offered (hrefines.window which) around hne hquery hmode

end

/-! ## Two screens -/

/-- Two devices that have a mode of thirty columns and sixteen rows, under different numbers. -/
def twoScreens : Bool → TextOutDevice
  | false => ⟨3, fun mode => [some ⟨40, 12⟩, none, some ⟨30, 16⟩].getD mode none, fun _ old => old⟩
  | true => ⟨3, fun mode => [some ⟨40, 12⟩, some ⟨30, 16⟩, some ⟨80, 25⟩].getD mode none,
      fun _ old => old⟩

theorem twoScreens_lawful (screen : Bool) : (twoScreens screen).Lawful := by
  cases screen <;>
    exact ⟨by decide, by decide, rfl, by decide⟩

/-- There is memory, and the devices do what they are asked for. -/
def willing : Surroundings Bool := ⟨fun _ => true, fun _ _ => efiSuccess, fun _ => (0, 0)⟩

/-- Both screens come, the second to standard error as well; one goes and a mode is set. -/
def screensComeAndGo : List (Event Bool × Surroundings Bool) :=
  [(.start .conOut false, willing), (.start .conOut true, willing), (.start .stdErr true, willing),
    (.stop .stdErr true, willing), (.call .conOut (.setMode 2), willing)]

theorem proper_screensComeAndGo : Proper screensComeAndGo where
  granted event hmem n := by
    have hall : ∀ event ∈ screensComeAndGo, event.2 = willing := by
      unfold screensComeAndGo
      simp
    rw [hall event hmem]
    rfl
  product := by
    unfold screensComeAndGo
    refine ⟨?_, ?_, ?_, ?_, ?_, trivial⟩ <;> decide
  cursor which column row around hmem := by
    unfold screensComeAndGo at hmem
    simp at hmem

/-- They share the modes of all the devices in that run. -/
theorem offered_modes_shared_twoScreens :
    ∃ sys, Run.runOption (splittersStep twoScreens)
          (constructed (fun _ _ => false) (fun _ _ => ⟨0, 0⟩) 30 16) screensComeAndGo = some sys
      ∧ ∀ which, (sys.get which).consoles
            = Run.run attachedStep (fun _ => []) screensComeAndGo which
        ∧ ∀ (around : Surroundings Bool) modeNumber size, modeNumber ≠ 1 →
          textOutQueryMode (sys.get which) modeNumber = some (efiSuccess, some size) →
          (sys.get which).mode ≠ modeNumber →
          ∃ status s' requests,
            textOutSetMode around modeNumber (sys.get which) = some (status, s')
              ∧ s'.mode = modeNumber ∧ s'.asked = (sys.get which).asked ++ requests
              ∧ List.Forall₂ (AskedForMode twoScreens size)
                (Run.run attachedStep (fun _ => []) screensComeAndGo which) requests :=
  offered_modes_shared twoScreens_lawful (fun _ _ => false) (fun _ _ => ⟨0, 0⟩) 30 16
    proper_screensComeAndGo

end ConSplitter
