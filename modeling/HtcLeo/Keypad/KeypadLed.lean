import HtcLeo.Keypad.KeypadDevice

/-!
# The light of the keypad

A press of a key that is not a volume key turns the light of the keypad on, and
a timer turns it off again five seconds later. Each time the light is turned on
an event is made for the timer, and the one before, if it is still running, is
cancelled; no event is ever closed.

The boot services are the few things they are used for: how many events there
are, for which of them a timer is set, and which notifications are due. A timer
goes off at any time, and its notification waits until nothing runs at its level,
which is that of the poll: between the two there may be a poll.

Where the notification of a timer runs as the timer goes off, the light always goes
off again (`served_run`); but the events pile up, one for each key that is seen, and
there is never more than one only as long as no second key is seen
(`ledOk_throughout_iff`). Where a poll comes between the two, the flag is cleared for
the timer of that poll, and two timers may be set.
-/

namespace Keypad

/-! ## The boot services -/

/-- **The keypad with its light**: the driver, and what the boot services hold for it.
Events are numbered as they are made. -/
structure LedKeypad where
  device : Device
  created : ℕ
  callbackTimer : Option ℕ
  armed : List ℕ
  due : List ℕ

/-- `gBS->SetTimer (m_CallbackTimer, TimerCancel, 0)`. -/
def LedKeypad.cancelTimer (s : LedKeypad) : LedKeypad :=
  { s with armed := s.armed.filter fun event => some event ≠ s.callbackTimer }

/-- `gBS->CreateEvent (.., &m_CallbackTimer)`. -/
def LedKeypad.createEvent (s : LedKeypad) : LedKeypad :=
  { s with created := s.created + 1, callbackTimer := some s.created }

/-- `gBS->SetTimer (m_CallbackTimer, TimerRelative, ..)`. -/
def LedKeypad.setTimer (s : LedKeypad) : LedKeypad :=
  { s with armed := s.callbackTimer.toList ++ s.armed }

/-- `EnableKeypadLedWithTimer`, with its calls of the boot services. -/
def enableLed (s : LedKeypad) : LedKeypad :=
  let s :=
    if s.device.timerRunning then
      let s := s.cancelTimer
      { s with device := { s.device with timerRunning := false } }
    else s
  let s := { s with device := s.device.gpioSet htcleoGpioKpLed true }
  let s := s.createEvent.setTimer
  { s with device := { s.device with timerRunning := true } }

/-- `DisableKeyPadLed`. -/
def disableKeyPadLed (s : LedKeypad) : LedKeypad :=
  { s with device := { s.device.gpioSet htcleoGpioKpLed false with timerRunning := false } }

/-- The driver, without the boot services. -/
def LedKeypad.onDevice (f : Device → Device) (s : LedKeypad) : LedKeypad :=
  { s with device := f s.device }

/-- One round of the loop of `KeypadDeviceImplGetKeys`. -/
def pollKeyLed (poll : Poll) (s : LedKeypad) (key : Key) : LedKeypad :=
  let config := keyConfig key
  let isPressed := poll.isPressed key
  let light := fun s => if isPressed && !config.isVolumeKey then enableLed s else s
  if !config.isValid then s
  else match config.deviceType with
    | .legacy => (light s).onDevice fun d => updateKey d key isPressed poll.delta
    | .keymatrix =>
      let s := light (s.onDevice fun d => d.gpioSet config.gpioOut false)
      s.onDevice fun d => updateKey (d.gpioSet config.gpioOut true) key isPressed poll.delta
    | _ => s

/-- `KeypadDeviceImplGetKeys`. -/
def getKeysLed (s : LedKeypad) (poll : Poll) : LedKeypad := keyList.foldl (pollKeyLed poll) s

/-- What happens to the keypad: a poll, a timer that goes off, or a notification
that is due and is served. -/
inductive LedStep where
  | poll (poll : Poll)
  | expire (event : ℕ)
  | notify

/-- A step. Only a timer that is set goes off. -/
def ledStep (s : LedKeypad) : LedStep → LedKeypad
  | .poll poll => getKeysLed s poll
  | .expire event =>
    if event ∈ s.armed then { s with armed := s.armed.erase event, due := s.due ++ [event] } else s
  | .notify =>
    match s.due with
    | [] => s
    | _ :: due => disableKeyPadLed { s with due := due }

/-- The keypad as it is loaded: no timer is running, and the light is off. -/
def ledStart (device : Device) : LedKeypad where
  device := { device.gpioSet htcleoGpioKpLed false with timerRunning := false }
  created := 0
  callbackTimer := none
  armed := []
  due := []

/-! ## What is asked of the light -/

/-- The light is on. -/
def LedKeypad.lit (s : LedKeypad) : Bool := s.device.outputs htcleoGpioKpLed

/-- **The light is in order**: no two timers are set, one is while the light is on, and
there is one event at most that is not closed. -/
structure LedOk (s : LedKeypad) : Prop where
  one_timer : s.armed.length ≤ 1
  turned_off : s.lit = true → s.armed ≠ []
  one_event : s.created ≤ 1

/-- The key turns the light on. -/
def Poll.lights (poll : Poll) (key : Key) : Bool :=
  poll.isPressed key && !(keyConfig key).isVolumeKey

/-- A poll, or a timer that goes off and whose notification is served at once. -/
inductive ServedStep where
  | poll (poll : Poll)
  | expire (event : ℕ)

/-- A step, with the notification. -/
def servedStep (s : LedKeypad) : ServedStep → LedKeypad
  | .poll p => ledStep s (.poll p)
  | .expire event => ledStep (ledStep s (.expire event)) .notify

/-- The keys that turn the light on in a step. -/
def ServedStep.seen : ServedStep → ℕ
  | .poll p => keyList.countP p.lights
  | .expire _ => 0

/-- And in a run. -/
def seen : List ServedStep → ℕ
  | [] => 0
  | step :: l => step.seen + seen l

theorem seen_append (l l' : List ServedStep) : seen (l ++ l') = seen l + seen l' := by
  induction l with
  | nil => exact (Nat.zero_add _).symm
  | cons step l ih =>
    show step.seen + seen (l ++ l') = step.seen + seen l + seen l'
    rw [ih, Nat.add_assoc]

/-! ## A key in a poll -/

/-- The two states agree in all that has to do with the light. -/
structure SameLight (s t : LedKeypad) : Prop where
  created : t.created = s.created
  callbackTimer : t.callbackTimer = s.callbackTimer
  armed : t.armed = s.armed
  due : t.due = s.due
  timerRunning : t.device.timerRunning = s.device.timerRunning
  lit : t.lit = s.lit

section

variable {s t u : LedKeypad}

theorem SameLight.trans (h : SameLight s t) (h' : SameLight t u) : SameLight s u :=
  ⟨h'.created.trans h.created, h'.callbackTimer.trans h.callbackTimer, h'.armed.trans h.armed,
    h'.due.trans h.due, h'.timerRunning.trans h.timerRunning, h'.lit.trans h.lit⟩

/-- Another pin than that of the light. -/
theorem sameLight_gpioSet (s : LedKeypad) {n : UInt8} (h : n ≠ htcleoGpioKpLed) (on : Bool) :
    SameLight s (s.onDevice fun d => d.gpioSet n on) where
  created := rfl
  callbackTimer := rfl
  armed := rfl
  due := rfl
  timerRunning := rfl
  lit := by
    show Function.update s.device.outputs n on htcleoGpioKpLed = _
    rw [Function.update_of_ne (Ne.symm h)]
    rfl

/-- The update of a key. -/
theorem sameLight_updateKey (s : LedKeypad) (key : Key) (isPressed : Bool) (delta : UInt64) :
    SameLight s (s.onDevice fun d => updateKey d key isPressed delta) :=
  ⟨rfl, rfl, rfl, rfl, rfl, rfl⟩

/-- The pin of the light. -/
theorem outputs_gpioSet_led (d : Device) (on : Bool) :
    (d.gpioSet htcleoGpioKpLed on).outputs htcleoGpioKpLed = on := by
  show Function.update d.outputs htcleoGpioKpLed on htcleoGpioKpLed = on
  rw [Function.update_self]

/-- What `EnableKeypadLedWithTimer` does. -/
theorem enableLed_eq (s : LedKeypad) :
    (enableLed s).created = s.created + 1
      ∧ (enableLed s).callbackTimer = some s.created
      ∧ (enableLed s).armed
        = s.created :: (if s.device.timerRunning then s.cancelTimer else s).armed
      ∧ (enableLed s).due = s.due
      ∧ (enableLed s).device.timerRunning = true
      ∧ (enableLed s).lit = true := by
  have hlit := outputs_gpioSet_led s.device true
  unfold enableLed
  split
  · exact ⟨rfl, rfl, rfl, rfl, rfl, hlit⟩
  · exact ⟨rfl, rfl, rfl, rfl, rfl, hlit⟩

theorem SameLight.enableLed (h : SameLight s t) : SameLight (enableLed s) (enableLed t) := by
  obtain ⟨hcreated, hevent, harmed, hdue, hrunning, hlit⟩ := enableLed_eq s
  obtain ⟨hcreated', hevent', harmed', hdue', hrunning', hlit'⟩ := enableLed_eq t
  refine ⟨?_, ?_, ?_, ?_, hrunning'.trans hrunning.symm, hlit'.trans hlit.symm⟩
  · rw [hcreated, hcreated', h.created]
  · rw [hevent, hevent', h.created]
  · rw [harmed, harmed', h.created, h.timerRunning]
    unfold LedKeypad.cancelTimer
    split <;> simp [h.armed, h.callbackTimer]
  · rw [hdue, hdue', h.due]

/-- The light, turned on or not. -/
theorem SameLight.light (h : SameLight s t) (on : Bool) :
    SameLight (if on then Keypad.enableLed s else s) (if on then Keypad.enableLed t else t) := by
  cases on with
  | false => exact h
  | true => exact h.enableLed

/-- **A round of the poll** turns the light on if its key says so, and is nothing to it
otherwise. -/
theorem pollKeyLed_sameLight (poll : Poll) (s : LedKeypad) (key : Key) :
    SameLight (if poll.lights key then enableLed s else s) (pollKeyLed poll s key) := by
  have hmatrix : ∀ gpioOut ≠ htcleoGpioKpLed, SameLight (if poll.lights key then enableLed s else s)
      (((if poll.lights key then enableLed (s.onDevice fun d => d.gpioSet gpioOut false)
          else s.onDevice fun d => d.gpioSet gpioOut false).onDevice fun d =>
        updateKey (d.gpioSet gpioOut true) key (poll.isPressed key) poll.delta)) := by
    intro gpioOut hpin
    have hlight := (sameLight_gpioSet s hpin false).light (poll.lights key)
    exact (hlight.trans (sameLight_gpioSet _ hpin true)).trans
      (sameLight_updateKey _ key (poll.isPressed key) poll.delta)
  cases key with
  | power => exact sameLight_updateKey _ _ _ _
  | volumeUp => exact hmatrix 33 (by decide)
  | volumeDown => exact hmatrix 33 (by decide)
  | back => exact hmatrix 31 (by decide)
  | windows => exact hmatrix 32 (by decide)
  | home => exact hmatrix 31 (by decide)
  | dial => exact hmatrix 32 (by decide)

/-- The driver is the one without the boot services: in `EnableKeypadLedWithTimer`. -/
theorem enableLed_device (s : LedKeypad) :
    (enableLed s).device = enableKeypadLedWithTimer s.device := by
  unfold enableLed enableKeypadLedWithTimer
  split <;> rfl

/-- With the light turned on or not. -/
theorem light_device (on : Bool) (s : LedKeypad) : (if on then enableLed s else s).device
    = if on then enableKeypadLedWithTimer s.device else s.device := by
  cases on with
  | false => rfl
  | true => exact enableLed_device s

/-- And in a round of the poll. -/
theorem pollKeyLed_device (poll : Poll) (s : LedKeypad) (key : Key) :
    (pollKeyLed poll s key).device = pollKey poll s.device key := by
  have hmatrix : ∀ (on : Bool) gpioOut, ((if on then
        enableLed (s.onDevice fun d => d.gpioSet gpioOut false)
        else s.onDevice fun d => d.gpioSet gpioOut false).onDevice fun d =>
          updateKey (d.gpioSet gpioOut true) key (poll.isPressed key) poll.delta).device
      = updateKey ((if on then enableKeypadLedWithTimer (s.device.gpioSet gpioOut false)
        else s.device.gpioSet gpioOut false).gpioSet gpioOut true) key (poll.isPressed key)
          poll.delta := by
    intro on gpioOut
    show updateKey (Device.gpioSet (if on then _ else _ : LedKeypad).device gpioOut true) _ _ _ = _
    rw [light_device]
    rfl
  cases key with
  | power => exact congrArg (fun d => updateKey d .power _ _) (light_device _ s)
  | volumeUp => exact hmatrix _ 33
  | volumeDown => exact hmatrix _ 33
  | back => exact hmatrix _ 31
  | windows => exact hmatrix _ 32
  | home => exact hmatrix _ 31
  | dial => exact hmatrix _ 32

end

/-- **A poll with the boot services** is, for the driver, a poll. -/
theorem getKeysLed_device (s : LedKeypad) (poll : Poll) :
    (getKeysLed s poll).device = keypadDeviceImplGetKeys s.device poll := by
  unfold getKeysLed keypadDeviceImplGetKeys
  induction keyList generalizing s with
  | nil => rfl
  | cons key keys ih =>
    rw [List.foldl_cons, List.foldl_cons, ih, pollKeyLed_device]

/-! ## The timer of the last event -/

/-- **The timer of the last event is set just when the flag says so**, no other is, and
without it the light is off. -/
structure Served (s : LedKeypad) : Prop where
  due : s.due = []
  running : s.device.timerRunning = true → ∃ event, s.callbackTimer = some event ∧ s.armed = [event]
  idle : s.device.timerRunning = false → s.armed = [] ∧ s.lit = false

section

variable {s t : LedKeypad}

theorem Served.of_sameLight (h : Served s) (hsame : SameLight s t) : Served t where
  due := hsame.due.trans h.due
  running hrunning := by
    rw [hsame.timerRunning] at hrunning
    rw [hsame.callbackTimer, hsame.armed]
    exact h.running hrunning
  idle hidle := by
    rw [hsame.timerRunning] at hidle
    rw [hsame.armed, hsame.lit]
    exact h.idle hidle

theorem Served.enableLed (h : Served s) : Served (enableLed s) := by
  obtain ⟨-, hevent, harmed, hdue, hrunning, -⟩ := enableLed_eq s
  refine ⟨hdue.trans h.due, fun _ => ⟨s.created, hevent, ?_⟩, fun hidle =>
    absurd (hidle.symm.trans hrunning) Bool.false_ne_true⟩
  rw [harmed]
  split
  · rename_i hset
    obtain ⟨event, hlast, hone⟩ := h.running hset
    show s.created :: s.armed.filter (fun event => some event ≠ s.callbackTimer) = _
    rw [hone, hlast]
    simp
  · rename_i hset
    rw [(h.idle (eq_false_of_ne_true hset)).1]

/-- A step with its notification keeps it. -/
theorem served_step (h : Served s) (step : ServedStep) : Served (servedStep s step) := by
  cases step with
  | poll p =>
    show Served (keyList.foldl (pollKeyLed p) s)
    generalize keyList = keys
    induction keys generalizing s with
    | nil => exact h
    | cons key keys ih =>
      refine ih (Served.of_sameLight ?_ (pollKeyLed_sameLight p s key))
      split
      · exact h.enableLed
      · exact h
  | expire event =>
    show Served (ledStep (ledStep s (.expire event)) .notify)
    by_cases hset : event ∈ s.armed
    · have hexpired : ledStep s (.expire event)
          = { s with armed := s.armed.erase event, due := s.due ++ [event] } := if_pos hset
      have hone : s.armed.erase event = [] := by
        cases hrunning : s.device.timerRunning with
        | false =>
          rw [(h.idle hrunning).1] at hset
          exact absurd hset List.not_mem_nil
        | true =>
          obtain ⟨last, -, harmed⟩ := h.running hrunning
          rw [harmed] at hset ⊢
          rw [List.mem_singleton.mp hset]
          simp
      rw [hexpired, h.due, hone]
      exact ⟨rfl, fun hrunning => absurd hrunning Bool.false_ne_true,
        fun _ => ⟨rfl, outputs_gpioSet_led s.device false⟩⟩
    · have hnothing : ledStep s (.expire event) = s := if_neg hset
      have hnone : ledStep s .notify = s := by
        unfold ledStep
        rw [h.due]
      rw [hnothing, hnone]
      exact h

/-- **The light goes off again**: there is never more than one timer set, and one is while the
light is on. -/
theorem Served.one_timer (h : Served s) : s.armed.length ≤ 1 ∧ (s.lit = true → s.armed ≠ []) := by
  cases hflag : s.device.timerRunning with
  | true =>
    obtain ⟨event, -, harmed⟩ := h.running hflag
    rw [harmed]
    exact ⟨Nat.le_refl 1, fun _ => List.cons_ne_nil _ _⟩
  | false =>
    obtain ⟨harmed, hdark⟩ := h.idle hflag
    rw [harmed]
    exact ⟨Nat.zero_le 1, fun hlit => absurd (hdark.symm.trans hlit) Bool.false_ne_true⟩

/-- A step makes an event for each key it sees. -/
theorem created_servedStep (s : LedKeypad) (step : ServedStep) :
    (servedStep s step).created = s.created + step.seen := by
  cases step with
  | poll p =>
    show (keyList.foldl (pollKeyLed p) s).created = s.created + keyList.countP p.lights
    generalize keyList = keys
    induction keys generalizing s with
    | nil => rfl
    | cons key keys ih =>
      rw [List.foldl_cons, ih, (pollKeyLed_sameLight p s key).created, List.countP_cons]
      split
      · rw [(enableLed_eq s).1]
        omega
      · rfl
  | expire event =>
    have hexpire : (ledStep s (.expire event)).created = s.created := by
      unfold ledStep
      dsimp only
      split <;> rfl
    refine Eq.trans ?_ hexpire
    unfold servedStep ledStep
    dsimp only
    split <;> rfl

end

/-! ## Runs -/

theorem created_run (s : LedKeypad) (l : List ServedStep) :
    (Run.run servedStep s l).created = s.created + seen l := by
  induction l generalizing s with
  | nil => rfl
  | cons step l ih =>
    rw [Run.run_cons, ih, created_servedStep, Nat.add_assoc]
    rfl

/-- Every run keeps the timer and the flag together. -/
theorem served_run (device : Device) (l : List ServedStep) :
    Served (Run.run servedStep (ledStart device) l) := by
  have hstart : Served (ledStart device) :=
    ⟨rfl, fun hrunning => absurd hrunning Bool.false_ne_true,
      fun _ => ⟨rfl, outputs_gpioSet_led device false⟩⟩
  exact Run.inv_run (I := Served) (fun _ step h => served_step h step) l hstart

/-- **When the light is in order throughout a run**, whatever the polls see and
whenever timers go off: just when no more than one key that turns it on is seen in all
of it. -/
theorem ledOk_throughout_iff (device : Device) (l : List ServedStep) :
    (∀ l₁ l₂, l = l₁ ++ l₂ → LedOk (Run.run servedStep (ledStart device) l₁)) ↔ seen l ≤ 1 := by
  constructor
  · intro h
    have hone := (h l [] (List.append_nil l).symm).one_event
    rw [created_run] at hone
    exact Nat.le_trans (Nat.le_add_left _ _) hone
  · rintro hseen l₁ l₂ rfl
    obtain ⟨htimer, hlit⟩ := (served_run device l₁).one_timer
    refine ⟨htimer, hlit, ?_⟩
    rw [created_run]
    rw [seen_append] at hseen
    exact (Nat.zero_add (seen l₁)).symm ▸ Nat.le_trans (Nat.le_add_right _ _) hseen

/-- Two polls that see the power key make two events and close none; and where the
timer of the first goes off before the second, and its notification waits till after
it, the third press leaves two timers set. -/
theorem not_ledOk_twice :
    ¬ LedOk (Run.run servedStep (ledStart .cold)
        [.poll (.down [.power] 0), .poll (.down [.power] 0)])
      ∧ (Run.run ledStep (ledStart .cold) [.poll (.down [.power] 0), .expire 0,
        .poll (.down [.power] 0), .notify, .poll (.down [.power] 0)]).armed = [2, 1] :=
  ⟨fun h => absurd h.one_event (by decide), by decide⟩

end Keypad
