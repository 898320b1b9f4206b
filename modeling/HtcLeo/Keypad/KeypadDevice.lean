import HtcLeo.Keypad.KeyStatus
import HtcLeo.Lib.Run

/-!
# The keypad

`KeypadDeviceImplGetKeys` polls the seven keys one after the other and hands
each to `LibKeyUpdateKeyStatus`. What one key sees of the others is the bit
of the Enter key: the three keys before the first character key see it as the
poll before left it, which the dial key, polled last, clears; the back and
the windows key see themselves, and the home key sees the windows key.

`getKeys_key` is this as one statement about a poll, and
`keystroke_pushed_iff` says which press episodes are reported: all but those
held for half a second and then taken for a combination with the Enter key.
-/

namespace Keypad

/-! ## The keys -/

/-- The keys of `KeyList`. -/
inductive Key where
  | power
  | volumeUp
  | volumeDown
  | back
  | windows
  | home
  | dial
  deriving DecidableEq, Repr

/-- `KeyList`, in the order in which the keys are polled. -/
def keyList : List Key := [.power, .volumeUp, .volumeDown, .back, .windows, .home, .dial]

/-- `KEY_DEVICE_TYPE`. -/
inductive KeyDeviceType where
  | unknown
  | legacy
  | keymatrix
  | tlmm
  | pm8x41
  | pm8x41Pon
  deriving DecidableEq, Repr

/-- What `KEY_CONTEXT_PRIVATE` says about the wiring of a key. -/
structure KeyConfig where
  isValid : Bool
  deviceType : KeyDeviceType
  gpio : UInt8
  activeLow : Bool
  gpioIn : UInt8
  gpioOut : UInt8
  isVolumeKey : Bool

/-- `KeypadInitializeKeyContextPrivate`. -/
def KeyConfig.initial : KeyConfig where
  isValid := false
  deviceType := .unknown
  gpio := 0
  activeLow := false
  gpioIn := 0
  gpioOut := 0
  isVolumeKey := false

/-- A key of the matrix, as the constructor configures it. -/
def KeyConfig.matrix (gpioOut gpioIn : UInt8) : KeyConfig :=
  { KeyConfig.initial with
    deviceType := .keymatrix
    gpioOut := gpioOut
    gpioIn := gpioIn
    activeLow := true
    isValid := true }

/-- The wiring `KeypadDeviceImplConstructor` sets up. -/
def keyConfig : Key → KeyConfig
  | .power => { KeyConfig.initial with
      deviceType := .legacy
      gpio := 94
      activeLow := true
      isValid := true }
  | .volumeUp => { KeyConfig.matrix 33 42 with isVolumeKey := true }
  | .volumeDown => { KeyConfig.matrix 33 41 with isVolumeKey := true }
  | .back => .matrix 31 42
  | .windows => .matrix 32 42
  | .home => .matrix 31 41
  | .dial => .matrix 32 41

/-- The context `KeypadDeviceImplReset` leaves each key in. -/
def resetContext : Key → KeyContext
  | .power => { libKeyInitializeKeyContext with
      keyData := { EfiKeyData.zero with scanCode := scanEsc } }
  | .volumeUp => { libKeyInitializeKeyContext with
      keyData := { EfiKeyData.zero with scanCode := scanUp } }
  | .volumeDown => { libKeyInitializeKeyContext with
      keyData := { EfiKeyData.zero with scanCode := scanDown } }
  | .back => { libKeyInitializeKeyContext with
      keyData := { EfiKeyData.zero with unicodeChar := charBackspace } }
  | .windows => { libKeyInitializeKeyContext with
      keyData := { EfiKeyData.zero with unicodeChar := charTab } }
  | .home => { libKeyInitializeKeyContext with
      keyData := { EfiKeyData.zero with scanCode := scanHome } }
  | .dial => { libKeyInitializeKeyContext with
      keyData := { EfiKeyData.zero with unicodeChar := charCarriageReturn } }

/-! ## Polling -/

/-- `HTCLEO_GPIO_KP_LED`. -/
def htcleoGpioKpLed : UInt8 := 48

/-- **The state of the keypad driver.** `outputs` holds the levels given to
`gpio_set`, and `events` what was pushed to the return API, oldest first,
each with the key whose update pushed it. -/
structure Device where
  contexts : Key → KeyContext
  maps : KeyBitmaps
  outputs : UInt8 → Bool
  timerRunning : Bool
  events : List (Key × EfiKeyData)

/-- A poll: what `gpio_get` shows for each key, and the time gone by. -/
structure Poll where
  gpioStatus : Key → UInt8
  delta : UInt64

/-- `(GpioStatus ? 1 : 0) ^ Context->ActiveLow`. -/
def Poll.isPressed (poll : Poll) (key : Key) : Bool :=
  (poll.gpioStatus key ≠ 0) ^^ (keyConfig key).activeLow

/-- `KeypadDeviceImplReset`. -/
def keypadDeviceImplReset (s : Device) : Device := { s with contexts := resetContext }

/-- `gpio_set`. -/
def Device.gpioSet (s : Device) (n : UInt8) (on : Bool) : Device :=
  { s with outputs := Function.update s.outputs n on }

/-- `EnableKeypadLedWithTimer`. A timer that is running is cancelled. -/
def enableKeypadLedWithTimer (s : Device) : Device :=
  let s := if s.timerRunning then { s with timerRunning := false } else s
  { s.gpioSet htcleoGpioKpLed true with timerRunning := true }

/-- The call of `LibKeyUpdateKeyStatus` for a key. -/
def updateKey (s : Device) (key : Key) (isPressed : Bool) (delta : UInt64) : Device :=
  let update := libKeyUpdateKeyStatus s.maps (s.contexts key) isPressed delta
  { s with
    maps := update.1
    contexts := Function.update s.contexts key update.2.1
    events := s.events ++ update.2.2.map fun keyData => (key, keyData) }

/-- One round of the loop of `KeypadDeviceImplGetKeys`. -/
def pollKey (poll : Poll) (s : Device) (key : Key) : Device :=
  let config := keyConfig key
  let isPressed := poll.isPressed key
  let light := fun s => if isPressed && !config.isVolumeKey then enableKeypadLedWithTimer s else s
  if !config.isValid then s
  else match config.deviceType with
    | .legacy => updateKey (light s) key isPressed poll.delta
    | .keymatrix =>
      let s := light (s.gpioSet config.gpioOut false)
      updateKey (s.gpioSet config.gpioOut true) key isPressed poll.delta
    | _ => s

/-- `KeypadDeviceImplGetKeys`. -/
def keypadDeviceImplGetKeys (s : Device) (poll : Poll) : Device :=
  keyList.foldl (pollKey poll) s

/-! ## One key in a poll -/

/-- The number of events the updates of a key have pushed. -/
def Device.pushes (s : Device) (key : Key) : ℕ := s.events.countP fun e => e.1 = key

/-- The keys carry the data `KeypadDeviceImplReset` gave them, and keep
nothing of a press that is over. -/
def Device.Configured (s : Device) : Prop :=
  ∀ key, (s.contexts key).keyData = (resetContext key).keyData ∧ (s.contexts key).Idle

variable {poll : Poll} {s : Device} {key other : Key}

/-- Lighting the keypad changes no key. -/
theorem enableKeypadLedWithTimer_keys (s : Device) :
    (enableKeypadLedWithTimer s).contexts = s.contexts
      ∧ (enableKeypadLedWithTimer s).maps = s.maps
      ∧ (enableKeypadLedWithTimer s).events = s.events := by
  unfold enableKeypadLedWithTimer
  split
  · exact ⟨rfl, rfl, rfl⟩
  · exact ⟨rfl, rfl, rfl⟩

/-- **A round of the poll is the update of its key**, but for the pins and the
light. -/
theorem pollKey_eq (poll : Poll) (s : Device) (key : Key) :
    ∃ s₁, pollKey poll s key = updateKey s₁ key (poll.isPressed key) poll.delta
      ∧ s₁.contexts = s.contexts ∧ s₁.maps = s.maps ∧ s₁.events = s.events := by
  have hlight : ∀ (on : Bool) (s : Device),
      (if on then enableKeypadLedWithTimer s else s).contexts = s.contexts
        ∧ (if on then enableKeypadLedWithTimer s else s).maps = s.maps
        ∧ (if on then enableKeypadLedWithTimer s else s).events = s.events := by
    intro on s
    cases on with
    | false => exact ⟨rfl, rfl, rfl⟩
    | true => exact enableKeypadLedWithTimer_keys s
  cases key with
  | power => exact ⟨_, rfl, hlight _ _⟩
  | volumeUp => exact ⟨_, rfl, hlight _ (s.gpioSet 33 false)⟩
  | volumeDown => exact ⟨_, rfl, hlight _ (s.gpioSet 33 false)⟩
  | back => exact ⟨_, rfl, hlight _ (s.gpioSet 31 false)⟩
  | windows => exact ⟨_, rfl, hlight _ (s.gpioSet 32 false)⟩
  | home => exact ⟨_, rfl, hlight _ (s.gpioSet 31 false)⟩
  | dial => exact ⟨_, rfl, hlight _ (s.gpioSet 32 false)⟩

/-- The update of a key in a poll, as a transition. -/
def transitionIn (poll : Poll) (s : Device) (key : Key) : KeyContext × List EfiKeyData :=
  keyTransition
    (keySetState s.maps (s.contexts key).keyData.scanCode (s.contexts key).keyData.unicodeChar
      (poll.isPressed key))
    ((s.contexts key).after poll.delta) (poll.isPressed key)

/-- What a round does to its own key. -/
theorem pollKey_self (poll : Poll) (s : Device) (key : Key) :
    (pollKey poll s key).contexts key = (transitionIn poll s key).1
      ∧ (pollKey poll s key).pushes key
        = s.pushes key + (transitionIn poll s key).2.length := by
  obtain ⟨s₁, hpoll, hcontexts, hmaps, hevents⟩ := pollKey_eq poll s key
  have htransition : (libKeyUpdateKeyStatus s₁.maps (s₁.contexts key)
      (poll.isPressed key) poll.delta).2 = transitionIn poll s key := by
    rw [hcontexts, hmaps]
    rfl
  rw [hpoll]
  constructor
  · show Function.update s₁.contexts key _ key = _
    rw [Function.update_self, htransition]
  · show (s₁.events ++ _).countP _ = _
    rw [List.countP_append, hevents, htransition, List.countP_map]
    simp [Device.pushes, Function.comp_def]

/-- What a round does to another key: nothing. -/
theorem pollKey_other (poll : Poll) (s : Device) (h : key ≠ other) :
    (pollKey poll s other).contexts key = s.contexts key
      ∧ (pollKey poll s other).pushes key = s.pushes key := by
  obtain ⟨s₁, hpoll, hcontexts, -, hevents⟩ := pollKey_eq poll s other
  rw [hpoll]
  constructor
  · show Function.update s₁.contexts other _ key = _
    rw [Function.update_of_ne h, hcontexts]
  · show (s₁.events ++ _).countP _ = _
    rw [List.countP_append, hevents, List.countP_map]
    simp [Device.pushes, Function.comp_def, Ne.symm h]

/-- A key not among those polled is left alone. -/
theorem pollKeys_of_not_mem (poll : Poll) {keys : List Key} (s : Device) (h : key ∉ keys) :
    (keys.foldl (pollKey poll) s).contexts key = s.contexts key
      ∧ (keys.foldl (pollKey poll) s).pushes key = s.pushes key := by
  induction keys generalizing s with
  | nil => exact ⟨rfl, rfl⟩
  | cons other keys ih =>
    have hne : key ≠ other := fun heq => h (heq ▸ List.mem_cons_self)
    obtain ⟨hcontexts, hpushes⟩ := ih (pollKey poll s other)
      fun hmem => h (List.mem_cons_of_mem other hmem)
    obtain ⟨hcontexts', hpushes'⟩ := pollKey_other poll s hne
    exact ⟨hcontexts.trans hcontexts', hpushes.trans hpushes'⟩

/-- A round keeps the keys configured. -/
theorem configured_pollKey (poll : Poll) (h : s.Configured) (other : Key) :
    (pollKey poll s other).Configured := by
  intro key
  by_cases hkey : key = other
  · subst hkey
    obtain ⟨hdata, hidle⟩ := h key
    rw [(pollKey_self poll s key).1]
    exact ⟨(keyData_keyTransition _ _ _).trans hdata,
      idle_keyTransition _ (hidle.after poll.delta) _⟩
  · rw [(pollKey_other poll s hkey).1]
    exact h key

theorem configured_pollKeys (poll : Poll) (keys : List Key) (h : s.Configured) :
    (keys.foldl (pollKey poll) s).Configured := by
  induction keys generalizing s with
  | nil => exact h
  | cons other keys ih => exact ih (configured_pollKey poll h other)

/-- A reset keypad is configured. -/
theorem configured_reset (s : Device) : (keypadDeviceImplReset s).Configured := by
  intro key
  cases key <;> exact ⟨rfl, fun _ => ⟨rfl, rfl⟩⟩

/-! ## The bit of the Enter key -/

/-- The keys with a character, all of scan code zero. -/
def Key.isChar : Key → Bool
  | .back => true
  | .windows => true
  | .dial => true
  | _ => false

/-- **What a round does to the bit of the Enter key**: every character key
writes it, the others leave it. -/
theorem enter_update (h : s.Configured) (poll : Poll) (key : Key) :
    (keySetState s.maps (s.contexts key).keyData.scanCode (s.contexts key).keyData.unicodeChar
        (poll.isPressed key)).enter
      = if key.isChar then poll.isPressed key else s.maps.enter := by
  rw [(h key).1]
  cases key with
  | power => exact enter_keySetState_scan s.maps scanEsc _
  | volumeUp => exact enter_keySetState_scan s.maps scanUp _
  | volumeDown => exact enter_keySetState_scan s.maps scanDown _
  | back => exact enter_keySetState_char s.maps (by decide) _
  | windows => exact enter_keySetState_char s.maps (by decide) _
  | home => exact enter_keySetState_scan s.maps scanHome _
  | dial => exact enter_keySetState_char s.maps (by decide) _

theorem maps_pollKey (poll : Poll) (s : Device) (key : Key) :
    (pollKey poll s key).maps = keySetState s.maps (s.contexts key).keyData.scanCode
      (s.contexts key).keyData.unicodeChar (poll.isPressed key) := by
  obtain ⟨s₁, hpoll, hcontexts, hmaps, -⟩ := pollKey_eq poll s key
  rw [hpoll, ← hcontexts, ← hmaps]
  rfl

/-- The bit of the Enter key after some keys are polled. -/
def enterAfter (poll : Poll) (enter : Bool) (keys : List Key) : Bool :=
  keys.foldl (fun enter key => if key.isChar then poll.isPressed key else enter) enter

theorem enter_pollKeys (poll : Poll) (keys : List Key) (h : s.Configured) :
    (keys.foldl (pollKey poll) s).maps.enter = enterAfter poll s.maps.enter keys := by
  induction keys generalizing s with
  | nil => rfl
  | cons key keys ih =>
    have hround : (pollKey poll s key).maps.enter
        = if key.isChar then poll.isPressed key else s.maps.enter := by
      rw [maps_pollKey, enter_update h]
    refine (ih (configured_pollKey poll h key)).trans ?_
    rw [hround]
    rfl

/-- A poll ends with the dial key, so its bit is what is left. -/
theorem enter_getKeys (poll : Poll) (h : s.Configured) :
    (keypadDeviceImplGetKeys s poll).maps.enter = poll.isPressed .dial :=
  enter_pollKeys poll keyList h

/-- What a key sees of the Enter key in a poll that starts with its bit
clear. -/
def showsEnter (poll : Poll) : Key → Bool
  | .back => poll.isPressed .back
  | .windows => poll.isPressed .windows
  | .home => poll.isPressed .windows
  | .dial => poll.isPressed .dial
  | _ => false

/-- Every key is polled once, and after these keys. -/
theorem keyList_split (poll : Poll) (key : Key) :
    ∃ before behind, keyList = before ++ key :: behind ∧ key ∉ before ∧ key ∉ behind
      ∧ enterAfter poll false (before ++ [key]) = showsEnter poll key := by
  cases key with
  | power => exact ⟨[], _, rfl, by decide, by decide, rfl⟩
  | volumeUp => exact ⟨[.power], _, rfl, by decide, by decide, rfl⟩
  | volumeDown => exact ⟨[.power, .volumeUp], _, rfl, by decide, by decide, rfl⟩
  | back => exact ⟨[.power, .volumeUp, .volumeDown], _, rfl, by decide, by decide, rfl⟩
  | windows => exact ⟨[.power, .volumeUp, .volumeDown, .back], _, rfl, by decide, by decide, rfl⟩
  | home =>
    exact ⟨[.power, .volumeUp, .volumeDown, .back, .windows], _, rfl, by decide, by decide, rfl⟩
  | dial =>
    exact ⟨[.power, .volumeUp, .volumeDown, .back, .windows, .home], _, rfl, by decide,
      by decide, rfl⟩

/-- **A key in a poll**: it is updated once, with bitmaps that show the Enter
key as the keys before it have left it. -/
theorem getKeys_key (poll : Poll) (h : s.Configured) (key : Key) :
    ∃ maps : KeyBitmaps, (s.maps.enter = false → maps.enter = showsEnter poll key)
      ∧ (keypadDeviceImplGetKeys s poll).contexts key
        = (keyTransition maps ((s.contexts key).after poll.delta) (poll.isPressed key)).1
      ∧ (keypadDeviceImplGetKeys s poll).pushes key
        = s.pushes key + (keyTransition maps ((s.contexts key).after poll.delta)
            (poll.isPressed key)).2.length := by
  obtain ⟨before, behind, hsplit, hbefore, hbehind, hshows⟩ := keyList_split poll key
  obtain ⟨hcontexts, hpushes⟩ := pollKeys_of_not_mem poll s hbefore
  have hconf := configured_pollKeys poll before h
  -- the key is updated from the state the keys before it have left
  let s₁ := before.foldl (pollKey poll) s
  have hpoll : keypadDeviceImplGetKeys s poll
      = behind.foldl (pollKey poll) (pollKey poll s₁ key) := by
    unfold keypadDeviceImplGetKeys
    rw [hsplit, List.foldl_append]
    rfl
  obtain ⟨hcontexts', hpushes'⟩ := pollKeys_of_not_mem poll (pollKey poll s₁ key) hbehind
  obtain ⟨hself, hselfPushes⟩ := pollKey_self poll s₁ key
  have htransition : transitionIn poll s₁ key
      = keyTransition (pollKey poll s₁ key).maps ((s.contexts key).after poll.delta)
          (poll.isPressed key) := by
    rw [maps_pollKey, ← hcontexts]
    rfl
  refine ⟨(pollKey poll s₁ key).maps, fun henter => ?_, ?_, ?_⟩
  · have hafter := enter_pollKeys poll (before ++ [key]) h
    rw [List.foldl_append, henter, hshows] at hafter
    exact hafter
  · rw [hpoll, hcontexts', hself, htransition]
  · rw [hpoll, hpushes', hselfPushes, hpushes, htransition]

theorem configured_getKeys (poll : Poll) (h : s.Configured) :
    (keypadDeviceImplGetKeys s poll).Configured :=
  configured_pollKeys poll keyList h

/-! ## Press episodes -/

/-- **A press episode of a key**: it starts from the released state with the
poll `start`, goes on through the polls `during`, and the key is released
again with the last of them and not before. -/
structure Episode (key : Key) (s : Device) (start : Poll) (during : List Poll) : Prop where
  released : (s.contexts key).state = .released
  started : ((keypadDeviceImplGetKeys s start).contexts key).state = .pressed
  lasts : Run.Along keypadDeviceImplGetKeys
    (fun s _ => (s.contexts key).state ≠ .released) (keypadDeviceImplGetKeys s start) during
  ended : ((Run.run keypadDeviceImplGetKeys s (start :: during)).contexts key).state
    = .released

/-- A long press of the key, at this poll, is taken for a combination with the
Enter key. -/
def takenForCombo (poll : Poll) : Key → Bool
  | .back => true
  | .windows => true
  | .home => poll.isPressed .windows
  | _ => false

/-- **The press is swallowed**: the key is held until half a second has gone by
since it went down, and the poll at which it has takes the long press for a
combination. `time` is the time gone by so far. -/
def swallowed (key : Key) : UInt64 → List Poll → Bool
  | _, [] => false
  | time, poll :: polls =>
    if !poll.isPressed key then false
    else if time + poll.delta ≥ ms2ns 500 then takenForCombo poll key
    else swallowed key (time + poll.delta) polls

/-- A key that is down sees the Enter key as down when its long press is taken
for a combination. -/
theorem showsEnter_of_pressed (hkey : key ≠ .dial) (h : poll.isPressed key = true) :
    showsEnter poll key = takenForCombo poll key := by
  cases key with
  | back => exact h
  | windows => exact h
  | dial => exact absurd rfl hkey
  | power => rfl
  | volumeUp => rfl
  | volumeDown => rfl
  | home => rfl

/-- Events are never taken back. -/
theorem pushes_le_run (polls : List Poll) (h : s.Configured) (key : Key) :
    s.pushes key ≤ (Run.run keypadDeviceImplGetKeys s polls).pushes key := by
  induction polls generalizing s with
  | nil => exact Nat.le_refl _
  | cons poll polls ih =>
    obtain ⟨maps, -, -, hpushes⟩ := getKeys_key poll h key
    refine Nat.le_trans ?_ (ih (configured_getKeys poll h))
    rw [hpushes]
    exact Nat.le_add_right _ _

/-- **Nothing is pushed for a lost press** until the key is released. -/
theorem lost_run {polls : List Poll} (h : s.Configured) (hlost : (s.contexts key).Lost)
    (hlasts : Run.Along keypadDeviceImplGetKeys
      (fun s _ => (s.contexts key).state ≠ .released) s polls) :
    (Run.run keypadDeviceImplGetKeys s polls).pushes key = s.pushes key := by
  induction polls generalizing s with
  | nil => rfl
  | cons poll polls ih =>
    obtain ⟨maps, -, hcontext, hpushes⟩ := getKeys_key poll h key
    obtain ⟨hnone, hnext⟩ := transition_lost maps (hlost.after poll.delta)
      (poll.isPressed key)
    rw [hnone, List.length_nil, Nat.add_zero] at hpushes
    rw [← hcontext] at hnext
    rw [Run.run_cons, ← hpushes]
    rcases hnext with hreleased | hlost'
    · -- the key is released, so this was the last poll
      cases polls with
      | nil => rfl
      | cons next rest => exact absurd hreleased hlasts.2.1
    · exact ih (configured_getKeys poll h) hlost' hlasts.2

/-- Only the dial key stands for a carriage return. -/
theorem Device.Configured.unicodeChar_ne (h : s.Configured) (hkey : key ≠ .dial) :
    (s.contexts key).keyData.unicodeChar ≠ charCarriageReturn := by
  rw [(h key).1]
  cases key with
  | dial => exact absurd rfl hkey
  | power => decide
  | volumeUp => decide
  | volumeDown => decide
  | back => decide
  | windows => decide
  | home => decide

/-- A held key, from any point of its press on. -/
theorem held_run {polls : List Poll} (h : s.Configured) (henter : s.maps.enter = false)
    (hkey : key ≠ .dial) (hdial : ∀ poll ∈ polls, poll.isPressed .dial = false) {time : UInt64}
    (hheld : (s.contexts key).Held time)
    (hlasts : Run.Along keypadDeviceImplGetKeys
      (fun s _ => (s.contexts key).state ≠ .released) s polls)
    (hended : ((Run.run keypadDeviceImplGetKeys s polls).contexts key).state
      = .released) :
    s.pushes key < (Run.run keypadDeviceImplGetKeys s polls).pushes key
      ↔ swallowed key time polls = false := by
  induction polls generalizing s time with
  | nil => exact absurd (hheld.state_eq.symm.trans hended) (by simp)
  | cons poll polls ih =>
    obtain ⟨maps, hshows, hcontext, hpushes⟩ := getKeys_key poll h key
    have hconf := configured_getKeys poll h
    have hle := pushes_le_run polls hconf key
    have hchar := h.unicodeChar_ne hkey
    rw [Run.run_cons, swallowed]
    cases hpressed : poll.isPressed key with
    | false =>
      -- let go before half a second has gone by: reported on release
      rw [hpressed, transition_held_released maps (hheld.after poll.delta)] at hpushes
      exact iff_of_true (by rw [hpushes] at hle; exact hle) rfl
    | true =>
      rw [hpressed] at hcontext hpushes
      rw [if_neg (by decide)]
      by_cases hlong : time + poll.delta ≥ ms2ns 500
      · have hlongpress := transition_held_long maps (hheld.after poll.delta) hlong hchar
        rw [hshows henter, showsEnter_of_pressed hkey hpressed] at hlongpress
        rw [if_pos hlong]
        cases hcombo : takenForCombo poll key with
        | false =>
          rw [hcombo, if_neg Bool.false_ne_true] at hlongpress
          rw [hlongpress] at hpushes
          exact iff_of_true (by rw [hpushes] at hle; exact hle) rfl
        | true =>
          -- taken for a combination: lost, and nothing comes of it any more
          rw [hcombo, if_pos rfl] at hlongpress
          obtain ⟨hlost, hnone⟩ := hlongpress
          rw [hnone] at hpushes
          rw [← hcontext] at hlost
          have hrun := lost_run hconf hlost hlasts.2
          rw [hrun, hpushes]
          exact iff_of_false (Nat.lt_irrefl _) (by decide)
      · obtain ⟨hheld', hnone⟩ := transition_held_short maps (hheld.after poll.delta) hlong
        rw [hnone] at hpushes
        rw [← hcontext] at hheld'
        rw [if_neg hlong, show s.pushes key = _ from hpushes.symm]
        have henter' : (keypadDeviceImplGetKeys s poll).maps.enter = false :=
          (enter_getKeys poll h).trans (hdial poll List.mem_cons_self)
        exact ih hconf henter' (fun p hp => hdial p (List.mem_cons_of_mem poll hp)) hheld'
          hlasts.2 hended

/-- **Which press episodes are reported**: in any trace from a reset on, an
episode in which the dial key is never down makes an event be pushed by the
time the key is released again exactly when the press is not swallowed. -/
theorem keystroke_pushed_iff (s : Device) (earlier : List Poll) {key : Key} {start : Poll}
    {during : List Poll}
    (hdial : ∀ poll ∈ start :: during, poll.isPressed .dial = false)
    (h : Episode key
      (Run.run keypadDeviceImplGetKeys (keypadDeviceImplReset s) earlier) start during) :
    (Run.run keypadDeviceImplGetKeys (keypadDeviceImplReset s) earlier).pushes key
        < (Run.run keypadDeviceImplGetKeys (keypadDeviceImplReset s)
            (earlier ++ start :: during)).pushes key
      ↔ swallowed key 0 during = false := by
  have hconf := Run.inv_run (fun _ poll h => configured_getKeys poll h) earlier
    (configured_reset s)
  rw [Run.run_append]
  obtain ⟨maps, -, hcontext, hpushes⟩ := getKeys_key start hconf key
  have hstarted := h.started
  rw [hcontext] at hstarted
  obtain ⟨hpressed, hheld, hnone⟩ :=
    held_of_started maps ((hconf key).2.after start.delta) h.released hstarted
  have hkey : key ≠ .dial := by
    rintro rfl
    rw [hdial start List.mem_cons_self] at hpressed
    exact Bool.noConfusion hpressed
  rw [hnone, List.length_nil, Nat.add_zero] at hpushes
  rw [← hcontext] at hheld
  rw [Run.run_cons, ← hpushes]
  exact held_run (configured_getKeys start hconf)
    ((enter_getKeys start hconf).trans (hdial start List.mem_cons_self)) hkey
    (fun p hp => hdial p (List.mem_cons_of_mem start hp)) hheld h.lasts h.ended

/-- A poll that finds these keys down. -/
def Poll.down (keys : List Key) (delta : UInt64) : Poll :=
  ⟨fun key => if key ∈ keys then 0 else 1, delta⟩

/-- A keypad as the loader leaves it. -/
def Device.cold : Device :=
  ⟨fun _ => libKeyInitializeKeyContext, ⟨fun _ => 0, fun _ => 0⟩, fun _ => false, false, []⟩

/-- A tap on the home key. -/
theorem home_tap_episode :
    Episode .home (keypadDeviceImplReset .cold) (.down [.home] 0)
      [.down [] (ms2ns 20), .down [] (ms2ns 20)] :=
  ⟨by decide, by decide, ⟨by decide, by decide, trivial⟩, by decide⟩

/-- A tap on the home key is reported. -/
theorem home_tap_pushed :
    (keypadDeviceImplReset .cold).pushes .home
      < (Run.run keypadDeviceImplGetKeys (keypadDeviceImplReset .cold)
        [.down [.home] 0, .down [] (ms2ns 20), .down [] (ms2ns 20)]).pushes .home :=
  (keystroke_pushed_iff .cold [] (by decide) home_tap_episode).mpr (by decide)

/-- The back key held for half a second is released without an event. -/
theorem held_back_key_swallowed :
    Episode .back (keypadDeviceImplReset .cold) (.down [.back] 0)
        [.down [.back] (ms2ns 500), .down [] (ms2ns 20)]
      ∧ (Run.run keypadDeviceImplGetKeys (keypadDeviceImplReset .cold)
        [.down [.back] 0, .down [.back] (ms2ns 500), .down [] (ms2ns 20)]).events = [] :=
  ⟨⟨by decide, by decide, ⟨by decide, by decide, trivial⟩, by decide⟩, by decide⟩

end Keypad
