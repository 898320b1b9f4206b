import HtcLeo.Keypad.KeyNotify
import HtcLeo.Keypad.KeyQueue
import HtcLeo.Timer.GptTimerLib

/-!
# The console

`KEYPAD_CONSOLE_IN_DEV` puts a text console on top of a keypad device. A poll
(`KeypadTimerHandler`) tells the device how much time has gone by and lets it
push keys through the return API; a key goes to the key queue of the console,
and to a second queue for the notification functions registered for it.

The time that is told is the difference of two readings of the performance
counter, in nanoseconds. It is right exactly when the counter did not wrap
between them, and `keypadTimerHandler_delta_iff` says so of every run of
polls after the first.
-/

namespace Keypad

open GptTimerLib

/-! ## The console -/

def scanNull : UInt16 := 0x0000
def charNull : UInt16 := 0x0000

/-- A partial keystroke: a change of the shift state without a key. -/
def isPartial (keyData : EfiKeyData) : Bool :=
  keyData.scanCode = scanNull && keyData.unicodeChar = charNull

/-- **`KEYPAD_CONSOLE_IN_DEV`**, and what its routines did outside of it:
whether `KeyNotifyProcessEvent` was signalled, the times passed to `GetKeys`
and the calls of notification functions, oldest first. -/
structure ConsoleIn (F : Type) where
  last : UInt64
  isSupportPartialKey : Bool
  efiKeyQueue : EfiKeyQueue
  efiKeyQueueForNotify : EfiKeyQueue
  keypadErr : Bool
  notifyList : List (ConsoleInExNotify F)
  keyNotifyProcessEvent : Bool
  deltas : List UInt64
  invoked : List (ConsoleInExNotify F × EfiKeyData)

/-- The console `KeypadControllerDriverStart` sets up. -/
def ConsoleIn.start {F : Type} : ConsoleIn F where
  last := -1
  isSupportPartialKey := false
  efiKeyQueue := .initial
  efiKeyQueueForNotify := .initial
  keypadErr := false
  notifyList := []
  keyNotifyProcessEvent := false
  deltas := []
  invoked := []

variable {F : Type}

/-- One round of the loop of `KeypadReturnApiPushEfikeyBufTail`. -/
def pushForNotify (keyData : EfiKeyData) (consoleIn : ConsoleIn F)
    (currentNotify : ConsoleInExNotify F) : ConsoleIn F :=
  if isKeyRegistered currentNotify.keyData keyData then
    { consoleIn with
      efiKeyQueueForNotify := pushEfikeyBufTail consoleIn.efiKeyQueueForNotify keyData
      keyNotifyProcessEvent := true }
  else consoleIn

/-- `KeypadReturnApiPushEfikeyBufTail`. -/
def keypadReturnApiPushEfikeyBufTail (consoleIn : ConsoleIn F) (keyData : EfiKeyData) :
    ConsoleIn F :=
  if isPartial keyData && !consoleIn.isSupportPartialKey then consoleIn
  else
    let consoleIn := consoleIn.notifyList.foldl (pushForNotify keyData) consoleIn
    { consoleIn with efiKeyQueue := pushEfikeyBufTail consoleIn.efiKeyQueue keyData }

/-- A poll: what `GPT_COUNT_VAL` shows, and the keys the device pushes. -/
structure ConsolePoll where
  gptCountVal : UInt32
  keys : List EfiKeyData

/-- `KeypadTimerHandler`. -/
def keypadTimerHandler (consoleIn : ConsoleIn F) (poll : ConsolePoll) : ConsoleIn F :=
  if consoleIn.keypadErr then consoleIn
  else
    let currentCounterValue := getPerformanceCounter poll.gptCountVal
    let deltaCounter := currentCounterValue - consoleIn.last
    let consoleIn := { consoleIn with
      last := currentCounterValue
      deltas := consoleIn.deltas ++ [getTimeInNanoSecond deltaCounter] }
    poll.keys.foldl keypadReturnApiPushEfikeyBufTail consoleIn

/-! ## What a key leaves alone -/

/-- The part of the console that a key does not touch. -/
structure ConsoleFrame (F : Type) where
  last : UInt64
  isSupportPartialKey : Bool
  keypadErr : Bool
  notifyList : List (ConsoleInExNotify F)
  deltas : List UInt64
  invoked : List (ConsoleInExNotify F × EfiKeyData)

def ConsoleIn.frame (consoleIn : ConsoleIn F) : ConsoleFrame F where
  last := consoleIn.last
  isSupportPartialKey := consoleIn.isSupportPartialKey
  keypadErr := consoleIn.keypadErr
  notifyList := consoleIn.notifyList
  deltas := consoleIn.deltas
  invoked := consoleIn.invoked

/-- The loop over the notify list touches the queue for the notifications
alone. -/
theorem pushForNotify_foldl (keyData : EfiKeyData) (notifyList : List (ConsoleInExNotify F))
    (consoleIn : ConsoleIn F) :
    (notifyList.foldl (pushForNotify keyData) consoleIn).frame = consoleIn.frame
      ∧ (notifyList.foldl (pushForNotify keyData) consoleIn).efiKeyQueue
        = consoleIn.efiKeyQueue := by
  induction notifyList generalizing consoleIn with
  | nil => exact ⟨rfl, rfl⟩
  | cons n notifyList ih =>
    have hround : (pushForNotify keyData consoleIn n).frame = consoleIn.frame
        ∧ (pushForNotify keyData consoleIn n).efiKeyQueue = consoleIn.efiKeyQueue := by
      unfold pushForNotify
      split <;> exact ⟨rfl, rfl⟩
    rw [List.foldl_cons]
    exact ⟨(ih _).1.trans hround.1, (ih _).2.trans hround.2⟩

/-- A key touches the two queues alone. -/
theorem frame_push (consoleIn : ConsoleIn F) (keyData : EfiKeyData) :
    (keypadReturnApiPushEfikeyBufTail consoleIn keyData).frame = consoleIn.frame := by
  unfold keypadReturnApiPushEfikeyBufTail
  split
  · rfl
  · exact (pushForNotify_foldl keyData consoleIn.notifyList consoleIn).1

/-- The keys of a poll touch the two queues alone. -/
theorem frame_pushes (consoleIn : ConsoleIn F) (keys : List EfiKeyData) :
    (keys.foldl keypadReturnApiPushEfikeyBufTail consoleIn).frame = consoleIn.frame := by
  induction keys generalizing consoleIn with
  | nil => rfl
  | cons key keys ih => exact (ih _).trans (frame_push consoleIn key)

/-- **What a poll records**, on a device without error: the reading, and the
time since the last one. -/
theorem keypadTimerHandler_frame {consoleIn : ConsoleIn F} (herr : consoleIn.keypadErr = false)
    (poll : ConsolePoll) :
    (keypadTimerHandler consoleIn poll).frame
      = { consoleIn.frame with
          last := getPerformanceCounter poll.gptCountVal
          deltas := consoleIn.deltas ++
            [getTimeInNanoSecond (getPerformanceCounter poll.gptCountVal - consoleIn.last)] } := by
  unfold keypadTimerHandler
  rw [if_neg (by simp [herr])]
  exact frame_pushes _ poll.keys

/-! ## The time between two polls -/

/-- **The device is told the time that went by**: the nanoseconds of the ticks
between the last reading and this one, modulo the width of the counter. -/
def PassesElapsed (consoleIn : ConsoleIn F) (poll : ConsolePoll) : Prop :=
  ∃ delta, (keypadTimerHandler consoleIn poll).deltas = consoleIn.deltas ++ [delta]
    ∧ delta.toNat = nanoseconds (poll.gptCountVal - consoleIn.last.toUInt32).toNat

/-- The counter has not wrapped since the last reading. -/
def NotWrapped (consoleIn : ConsoleIn F) (poll : ConsolePoll) : Prop :=
  consoleIn.last.toUInt32 ≤ poll.gptCountVal

/-- A console that was polled before, on a device without error. -/
def ConsoleIn.Polled (consoleIn : ConsoleIn F) : Prop :=
  consoleIn.keypadErr = false ∧ ∃ previous, consoleIn.last = getPerformanceCounter previous

/-- A poll leaves a console that was polled. -/
theorem polled_keypadTimerHandler {consoleIn : ConsoleIn F} (herr : consoleIn.keypadErr = false)
    (poll : ConsolePoll) : (keypadTimerHandler consoleIn poll).Polled := by
  have hframe := keypadTimerHandler_frame herr poll
  exact ⟨(congrArg ConsoleFrame.keypadErr hframe).trans herr, poll.gptCountVal,
    congrArg ConsoleFrame.last hframe⟩

/-- **One poll tells the right time exactly when the counter did not wrap.** -/
theorem passesElapsed_iff {consoleIn : ConsoleIn F} (h : consoleIn.Polled) (poll : ConsolePoll) :
    PassesElapsed consoleIn poll ↔ NotWrapped consoleIn poll := by
  obtain ⟨herr, previous, hlast⟩ := h
  have hprev : (getPerformanceCounter previous).toUInt32 = previous :=
    UInt32.toUInt32_toUInt64 previous
  have hdeltas : (keypadTimerHandler consoleIn poll).deltas = consoleIn.deltas ++
      [getTimeInNanoSecond (getPerformanceCounter poll.gptCountVal
        - getPerformanceCounter previous)] := by
    rw [← hlast]
    exact congrArg ConsoleFrame.deltas (keypadTimerHandler_frame herr poll)
  unfold PassesElapsed NotWrapped
  rw [hlast, hprev, hdeltas, ← nanoseconds_difference_iff]
  constructor
  · rintro ⟨delta, heq, hdelta⟩
    obtain rfl : _ = delta := List.singleton_inj.mp (List.append_cancel_left heq)
    exact hdelta
  · intro hdelta
    exact ⟨_, rfl, hdelta⟩

/-- **When the polls tell the time.** In every run of polls after the first,
each poll passes on the time since the poll before it exactly when the
counter never wraps between two polls. -/
theorem keypadTimerHandler_delta_iff (first : ConsolePoll) (polls : List ConsolePoll) :
    Run.Along keypadTimerHandler PassesElapsed
        (keypadTimerHandler (ConsoleIn.start : ConsoleIn F) first) polls
      ↔ Run.Along keypadTimerHandler NotWrapped
        (keypadTimerHandler (ConsoleIn.start : ConsoleIn F) first) polls :=
  Run.along_congr (I := ConsoleIn.Polled)
    (fun _ poll h _ => polled_keypadTimerHandler h.1 poll)
    (fun _ poll h => passesElapsed_iff h poll)
    (polled_keypadTimerHandler rfl first) polls

/-- A reading one tick after the last value of the counter. -/
theorem keypadTimerHandler_delta_wrap :
    ¬ Run.Along keypadTimerHandler PassesElapsed
      (keypadTimerHandler (ConsoleIn.start : ConsoleIn Unit) ⟨0xFFFFFFFF, []⟩) [⟨0, []⟩] := by
  rintro ⟨h, -⟩
  have hle := (passesElapsed_iff (polled_keypadTimerHandler rfl _) _).mp h
  exact absurd hle (show ¬ (0xFFFFFFFF : UInt32) ≤ 0 by decide)

end Keypad
