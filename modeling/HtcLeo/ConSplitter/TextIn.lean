import HtcLeo.ConSplitter.DeviceList
import HtcLeo.Lib.Unwind

/-!
# The text input splitter

`ConSplitterDxe` reads the keyboards that are attached to it as if they were one. Each is
attached for its plain protocol and, if it has one, for its extended protocol, which
tells the shift and toggle state along with a key. A single call of
`ConSplitterTextInReadKeyStrokeEx` asks every keyboard once, so that it may get more
than the one key it returns: the others wait in `KeyQueue`.

A notification is registered with every keyboard, and each gives a handle for it, which
is kept in `NotifyHandleList` at the place the keyboard has in the list. The splitter
registers one itself, for the state of the toggle keys, which it hands on from one
keyboard to all.

What the keyboards are asked for and what they give is recorded. Their answers, and the
memory that is granted, are those the call meets with. Arguments that must not be null
are taken not to be.
-/

namespace ConSplitter

open StatusCode Block

/-- `EFI_INPUT_KEY`. -/
structure EfiInputKey where
  scanCode : UInt16
  unicodeChar : UInt16
  deriving DecidableEq

/-- `EFI_KEY_STATE`. -/
structure EfiKeyState where
  keyShiftState : UInt32
  keyToggleState : UInt8
  deriving DecidableEq

/-- `EFI_KEY_DATA`. -/
structure EfiKeyData where
  key : EfiInputKey
  keyState : EfiKeyState
  deriving DecidableEq

def efiShiftStateValid : UInt32 := 0x80000000
def efiToggleStateValid : UInt8 := 0x80
def efiKeyStateExposed : UInt8 := 0x40

/-- `KEY_STATE_VALID_EXPOSED`. -/
def keyStateValidExposed : UInt8 := efiToggleStateValid ||| efiKeyStateExposed

/-- It is not a partial keystroke. -/
def EfiInputKey.whole (key : EfiInputKey) : Bool :=
  decide (key.scanCode ≠ 0) || decide (key.unicodeChar ≠ 0)

/-- A function that is notified of keys. -/
inductive KeyNotifyFunction where
  | toggleStateSyncKeyNotify
  | other (address : ℕ)
  deriving DecidableEq

/-- `TEXT_IN_EX_SPLITTER_NOTIFY`, and where it is. -/
structure Notify where
  address : ℕ
  notifyHandleList : Block ℕ
  keyData : EfiKeyData
  keyNotificationFn : KeyNotifyFunction

/-- What is asked of a keyboard, and what it gives. -/
inductive TextInEvent (δ : Type) where
  | reset (textIn : δ) (extendedVerification : Bool)
  | setState (textInEx : δ) (keyToggleState : UInt8)
  | readKeyStroke (textIn : δ) (key : EfiInputKey)
  | registerKeyNotify (textInEx : δ) (keyData : EfiKeyData) (function : KeyNotifyFunction)
      (notifyHandle : ℕ)
  | unregisterKeyNotify (textInEx : δ) (notifyHandle : ℕ)
  | signalEvent
  | connectConIn
  deriving DecidableEq

/-- What a call meets with: which of its allocations are granted, in turn and by their bytes, where
a new notification is put, and what the keyboards answer, by their places in the list or in turn.
`readKeyStroke` are the keys a keyboard gives until it has none. -/
structure Keyboards where
  granted : ℕ → ℕ → Bool
  address : ℕ
  reset : ℕ → StatusCode
  setState : ℕ → StatusCode
  checkEvent : ℕ → StatusCode
  registerKeyNotify : ℕ → StatusCode × ℕ
  readKeyStroke : ℕ → List EfiInputKey
  readKeyStrokeEx : ℕ → StatusCode × EfiKeyData
  pcdConInConnectOnDemand : Bool

/-- `TEXT_IN_SPLITTER_PRIVATE_DATA`, as far as it is for keys, and what the keyboards have been
asked for. `TextInListCount` and `TextInExListCount` are the sizes of the lists. -/
structure TextInSplitter (δ : Type) where
  currentNumberOfConsoles : ℕ
  textInList : Block δ
  currentNumberOfExConsoles : ℕ
  textInExList : Block δ
  notifyList : List Notify
  keyQueue : Block EfiKeyData
  currentNumberOfKeys : ℕ
  physicalKeyToggleState : UInt8
  virtualKeyStateExported : Bool
  keyEventSignalState : Bool
  conInIsConnect : Bool
  log : List (TextInEvent δ)

section

variable {δ : Type}

/-! ## The state of the toggle keys -/

/-- Every extended keyboard is told the state, and what it answers is not looked at. -/
def setStateOfEach (keyToggleState : UInt8) (s : TextInSplitter δ) : Option (TextInSplitter δ) := do
  let log ← (List.range s.currentNumberOfExConsoles).foldlM (fun log index => do
    let textInEx ← s.textInExList.read index
    some (log ++ [TextInEvent.setState textInEx keyToggleState])) s.log
  some { s with log }

/-- `ToggleStateSyncKeyNotify`. -/
def toggleStateSyncKeyNotify (keyData : EfiKeyData) (s : TextInSplitter δ) :
    Option (TextInSplitter δ) :=
  if keyData.keyState.keyToggleState &&& keyStateValidExposed = keyStateValidExposed
      ∧ keyData.keyState.keyToggleState ≠ s.physicalKeyToggleState then do
    let s ← setStateOfEach keyData.keyState.keyToggleState s
    some { s with physicalKeyToggleState := keyData.keyState.keyToggleState }
  else some s

/-- `ToggleStateSyncReInitialization`. -/
def toggleStateSyncReInitialization (s : TextInSplitter δ) : Option (TextInSplitter δ) :=
  setStateOfEach keyStateValidExposed
    { s with physicalKeyToggleState := keyStateValidExposed, virtualKeyStateExported := false }

/-- The keyboards told a state one by one, until one refuses. -/
def setStateTurns (around : Keyboards) (textInExList : Block δ) (keyToggleState : UInt8) :
    List ℕ → List (TextInEvent δ) → Option (StatusCode × List (TextInEvent δ))
  | [], log => some (efiSuccess, log)
  | index :: rest, log => do
    let textInEx ← textInExList.read index
    let log := log ++ [.setState textInEx keyToggleState]
    if efiError (around.setState index) then some (around.setState index, log)
    else setStateTurns around textInExList keyToggleState rest log

/-- `ConSplitterTextInSetState`. -/
def textInSetState (around : Keyboards) (keyToggleState : UInt8) (s : TextInSplitter δ) :
    Option (StatusCode × TextInSplitter δ) := do
  let physicalKeyToggleState := keyToggleState ||| efiKeyStateExposed
  let (status, log) ← setStateTurns around s.textInExList physicalKeyToggleState
    (List.range s.currentNumberOfExConsoles) s.log
  if efiError status then some (status, { s with log })
  else some (efiSuccess, { s with
    log
    physicalKeyToggleState
    virtualKeyStateExported := decide (keyToggleState &&& efiKeyStateExposed ≠ 0) })

/-- What both reset functions do: the keyboards of the list are reset, and if none of them fails
the toggle state is made anew and the queue is emptied. -/
def resetKeyboards (around : Keyboards) (extendedVerification : Bool) (list : Block δ) (number : ℕ)
    (s : TextInSplitter δ) : Option (StatusCode × TextInSplitter δ) := do
  let (returnStatus, log) ← (List.range number).foldlM (fun (returnStatus, log) index => do
    let textIn ← list.read index
    let status := around.reset index
    some (if efiError status then status else returnStatus,
      log ++ [TextInEvent.reset textIn extendedVerification])) (efiSuccess, s.log)
  let s := { s with keyEventSignalState := false, log }
  if efiError returnStatus then some (returnStatus, s)
  else do
    let s ← toggleStateSyncReInitialization s
    some (returnStatus, { s with currentNumberOfKeys := 0 })

/-- `ConSplitterTextInReset`. -/
def textInReset (around : Keyboards) (extendedVerification : Bool) (s : TextInSplitter δ) :
    Option (StatusCode × TextInSplitter δ) :=
  resetKeyboards around extendedVerification s.textInList s.currentNumberOfConsoles s

/-- `ConSplitterTextInResetEx`. -/
def textInResetEx (around : Keyboards) (extendedVerification : Bool) (s : TextInSplitter δ) :
    Option (StatusCode × TextInSplitter δ) :=
  resetKeyboards around extendedVerification s.textInExList s.currentNumberOfExConsoles s

/-! ## Keys -/

/-- `ConSplitterTextInExDequeueKey`. -/
def textInExDequeueKey (s : TextInSplitter δ) :
    Option (StatusCode × Option EfiKeyData × TextInSplitter δ) :=
  if s.currentNumberOfKeys = 0 then some (efiNotFound, none, s)
  else do
    let keyData ← s.keyQueue.read 0
    let keyQueue ← s.keyQueue.move 0 1 (s.currentNumberOfKeys - 1)
    some (efiSuccess, some keyData,
      { s with keyQueue, currentNumberOfKeys := s.currentNumberOfKeys - 1 })

/-- The saved keys taken out up to the first whole one. Every turn takes one out, so that there
are no more turns than keys. -/
def takeSavedKey : ℕ → TextInSplitter δ → Option (Option EfiInputKey × TextInSplitter δ)
  | 0, s => some (none, s)
  | turns + 1, s => do
    let (_, keyData, s) ← textInExDequeueKey s
    match keyData with
    | none => some (none, s)
    | some keyData =>
      if keyData.key.whole then some (some keyData.key, s) else takeSavedKey turns s

/-- A keyboard read until it gives a whole key or has none. -/
def readUntilWhole (textIn : δ) :
    List EfiInputKey → List (TextInEvent δ) → Option EfiInputKey × List (TextInEvent δ)
  | [], log => (none, log)
  | key :: keys, log =>
    if key.whole then (some key, log ++ [.readKeyStroke textIn key])
    else readUntilWhole textIn keys (log ++ [.readKeyStroke textIn key])

/-- The keyboards read one after the other. -/
def readKeyboards (around : Keyboards) (textInList : Block δ) :
    List ℕ → List (TextInEvent δ) → Option (Option EfiInputKey × List (TextInEvent δ))
  | [], log => some (none, log)
  | index :: rest, log => do
    let textIn ← textInList.read index
    let (key, log) := readUntilWhole textIn (around.readKeyStroke index) log
    match key with
    | some key => some (some key, log)
    | none => readKeyboards around textInList rest log

/-- `ConSplitterTextInPrivateReadKeyStroke`. -/
def textInPrivateReadKeyStroke (around : Keyboards) (s : TextInSplitter δ) :
    Option (StatusCode × EfiInputKey × TextInSplitter δ) := do
  let (key, s) ← takeSavedKey (s.currentNumberOfKeys + 1) s
  match key with
  | some key => some (efiSuccess, key, s)
  | none => do
    let (key, log) ← readKeyboards around s.textInList (List.range s.currentNumberOfConsoles) s.log
    match key with
    | some key => some (efiSuccess, key, { s with log })
    | none => some (efiNotReady, ⟨0, 0⟩, { s with log })

/-- What a call that reads a key begins with. -/
def beginRead (around : Keyboards) (s : TextInSplitter δ) : TextInSplitter δ :=
  let s := { s with keyEventSignalState := false }
  if ¬ s.conInIsConnect ∧ around.pcdConInConnectOnDemand then
    { s with conInIsConnect := true, log := s.log ++ [.connectConIn] }
  else s

/-- `ConSplitterTextInReadKeyStroke`. -/
def textInReadKeyStroke (around : Keyboards) (s : TextInSplitter δ) :
    Option (StatusCode × EfiInputKey × TextInSplitter δ) :=
  textInPrivateReadKeyStroke around (beginRead around s)

/-- `ConSplitterTextInWaitForKey`. -/
def textInWaitForKey (around : Keyboards) (s : TextInSplitter δ) : Option (TextInSplitter δ) :=
  if s.keyEventSignalState then some { s with log := s.log ++ [.signalEvent] }
  else
    (List.range s.currentNumberOfConsoles).foldlM (fun (t : TextInSplitter δ) index => do
      let _ ← t.textInList.read index
      if efiError (around.checkEvent index) then some t
      else some { t with log := t.log ++ [.signalEvent], keyEventSignalState := true }) s

/-- One keyboard in `ConSplitterTextInReadKeyStrokeEx`: its state is added, and its key is
queued. -/
def readExTurn (around : Keyboards) (t : EfiKeyState × TextInSplitter δ) (index : ℕ) :
    Option (EfiKeyState × TextInSplitter δ) := do
  let (keyState, s) := t
  let textInEx ← s.textInExList.read index
  let (status, current) := around.readKeyStrokeEx index
  if efiError status ∧ status ≠ efiNotReady then some (keyState, s)
  else
    let keyState : EfiKeyState :=
      { keyShiftState :=
          if current.keyState.keyShiftState &&& efiShiftStateValid ≠ 0 then
            keyState.keyShiftState ||| current.keyState.keyShiftState
          else keyState.keyShiftState
        keyToggleState :=
          if current.keyState.keyToggleState &&& efiToggleStateValid ≠ 0 then
            keyState.keyToggleState ||| current.keyState.keyToggleState
          else keyState.keyToggleState }
    if efiError status then some (keyState, s)
    else
      let s := { s with log := s.log ++ [.readKeyStroke textInEx current.key] }
      if s.virtualKeyStateExported ∨ current.key.whole then do
        let keyQueue ← s.keyQueue.write s.currentNumberOfKeys current
        some (keyState, { s with keyQueue, currentNumberOfKeys := s.currentNumberOfKeys + 1 })
      else some (keyState, s)

/-- The state of all keyboards entered in the keys that wait. -/
def consolidateKeys (keyState : EfiKeyState) (s : TextInSplitter δ) :
    Option (TextInSplitter δ) := do
  let keyQueue ← (List.range s.currentNumberOfKeys).foldlM (fun keyQueue index => do
    let keyData ← Block.read keyQueue index
    keyQueue.write index { keyData with keyState }) s.keyQueue
  some { s with keyQueue }

/-- `ConSplitterTextInReadKeyStrokeEx` where no key is saved: all keyboards are asked. -/
def readFromKeyboards (around : Keyboards) (s : TextInSplitter δ) :
    Option (StatusCode × EfiKeyData × TextInSplitter δ) := do
  let (keyState, s) ← (List.range s.currentNumberOfExConsoles).foldlM (readExTurn around)
    (⟨0, 0⟩, s)
  let s ← consolidateKeys keyState s
  let (_, keyData, s) ← textInExDequeueKey s
  match keyData with
  | some keyData => some (efiSuccess, keyData, s)
  | none => some (efiNotReady, ⟨⟨0, 0⟩, keyState⟩, s)

/-- `ConSplitterTextInReadKeyStrokeEx`. -/
def textInReadKeyStrokeEx (around : Keyboards) (s : TextInSplitter δ) :
    Option (StatusCode × EfiKeyData × TextInSplitter δ) := do
  let (_, keyData, s) ← textInExDequeueKey (beginRead around s)
  match keyData with
  | some keyData => some (efiSuccess, keyData, s)
  | none =>
    -- ASSERT (Private->CurrentNumberOfKeys == 0)
    if s.currentNumberOfKeys ≠ 0 then none else readFromKeyboards around s

/-! ## Notifications -/

/-- `IsKeyRegistered`. -/
def isKeyRegistered (regsiteredData inputData : EfiKeyData) : Bool :=
  if regsiteredData.key ≠ inputData.key then false
  else if regsiteredData.keyState.keyShiftState ≠ 0
      ∧ regsiteredData.keyState.keyShiftState ≠ inputData.keyState.keyShiftState then false
  else if regsiteredData.keyState.keyToggleState ≠ 0
      ∧ regsiteredData.keyState.keyToggleState ≠ inputData.keyState.keyToggleState then false
  else true

/-- A notification registered with one keyboard of the list. -/
def registerTurn (around : Keyboards) (textInExList : Block δ) (keyData : EfiKeyData)
    (function : KeyNotifyFunction) (index : ℕ) (t : Block ℕ × List (TextInEvent δ)) :
    Option (StatusCode × Block ℕ × List (TextInEvent δ)) := do
  let textInEx ← textInExList.read index
  let (status, handle) := around.registerKeyNotify index
  if efiError status then some (status, t)
  else do
    let handles ← t.1.write index handle
    some (status, handles, t.2 ++ [.registerKeyNotify textInEx keyData function handle])

/-- It is unregistered again. -/
def unregisterTurn (textInExList : Block δ) (index : ℕ) (t : Block ℕ × List (TextInEvent δ)) :
    Option (Block ℕ × List (TextInEvent δ)) := do
  let textInEx ← textInExList.read index
  let handle ← t.1.read index
  some (t.1, t.2 ++ [.unregisterKeyNotify textInEx handle])

/-- `ConSplitterTextInRegisterKeyNotify`. When a keyboard refuses the notification, it is
unregistered from those before. -/
def textInRegisterKeyNotify (around : Keyboards) (keyData : EfiKeyData)
    (keyNotificationFunction : KeyNotifyFunction) (s : TextInSplitter δ) :
    Option (StatusCode × Option ℕ × TextInSplitter δ) :=
  match s.notifyList.find? fun notify => isKeyRegistered notify.keyData keyData
      && decide (notify.keyNotificationFn = keyNotificationFunction) with
  | some notify => some (efiSuccess, some notify.address, s)
  | none =>
    if ¬ (around.granted 0 32 ∧ around.granted 1 (4 * s.textInExList.size)) then
      some (efiOutOfResources, none, s)
    else do
      let (status, notifyHandleList, log) ← tryEach efiError efiSuccess
        (registerTurn around s.textInExList keyData keyNotificationFunction)
        (unregisterTurn s.textInExList) (List.range s.currentNumberOfExConsoles)
        (⟨s.textInExList.size, fun _ => 0⟩, s.log)
      if efiError status then some (status, none, { s with log })
      else
        let newNotify : Notify :=
          ⟨around.address, notifyHandleList, keyData, keyNotificationFunction⟩
        some (efiSuccess, some around.address,
          { s with log, notifyList := s.notifyList ++ [newNotify] })

/-- `ConSplitterTextInUnregisterKeyNotify`. -/
def textInUnregisterKeyNotify (notificationHandle : ℕ) (s : TextInSplitter δ) :
    Option (StatusCode × TextInSplitter δ) :=
  match s.notifyList.find? fun notify => decide (notify.address = notificationHandle) with
  | none => some (efiInvalidParameter, s)
  | some notify => do
    let log ← (List.range s.currentNumberOfExConsoles).foldlM (fun log index => do
      let textInEx ← s.textInExList.read index
      let handle ← notify.notifyHandleList.read index
      some (log ++ [TextInEvent.unregisterKeyNotify textInEx handle])) s.log
    some (efiSuccess, { s with
      log
      notifyList :=
        s.notifyList.eraseP fun notify => decide (notify.address = notificationHandle) })

/-! ## Keyboards that come and go -/

/-- `ConSplitterTextInAddDevice`. -/
def textInAddDevice (around : Keyboards) (textIn : δ) (s : TextInSplitter δ) :
    Option (StatusCode × TextInSplitter δ) := do
  let grown := if s.textInList.size ≤ s.currentNumberOfConsoles then
    growBuffer (around.granted 0) 4 s.textInList else (efiSuccess, s.textInList)
  if efiError grown.1 then some (efiOutOfResources, s)
  else do
    let textInList ← grown.2.write s.currentNumberOfConsoles textIn
    some (efiSuccess, { s with
      textInList, currentNumberOfConsoles := s.currentNumberOfConsoles + 1 })

/-- The lists of handles grown, each taken to have as many entries as the list of keyboards. -/
def growNotifyHandles (around : Keyboards) (textInExListCount : ℕ) :
    ℕ → List Notify → Option (StatusCode × List Notify)
  | _, [] => some (efiSuccess, [])
  | turn, notify :: rest =>
    if notify.notifyHandleList.size < textInExListCount then none
    else
      let grown := growBuffer (around.granted turn) 4
        { notify.notifyHandleList with size := textInExListCount }
      if efiError grown.1 then some (efiOutOfResources, notify :: rest)
      else do
        let (status, rest) ← growNotifyHandles around textInExListCount (turn + 1) rest
        some (status, { notify with notifyHandleList := grown.2 } :: rest)

/-- The lists of handles, the queue and the list of extended keyboards grown. -/
def growTextInExList (around : Keyboards) (s : TextInSplitter δ) :
    Option (StatusCode × TextInSplitter δ) := do
  let (status, notifyList) ← growNotifyHandles around s.textInExList.size 0 s.notifyList
  let s := { s with notifyList }
  if efiError status then some (efiOutOfResources, s)
  else if s.keyQueue.size < s.textInExList.size then none
  else
    let grownQueue := growBuffer (around.granted s.notifyList.length) 12
      { s.keyQueue with size := s.textInExList.size }
    if efiError grownQueue.1 then some (efiOutOfResources, s)
    else
      let s := { s with keyQueue := grownQueue.2 }
      let grownList := growBuffer (around.granted (s.notifyList.length + 1)) 4 s.textInExList
      if efiError grownList.1 then some (efiOutOfResources, s)
      else some (efiSuccess, { s with textInExList := grownList.2 })

/-- One notification registered with a new keyboard, whose place is `index`. -/
def registerNewTurn (around : Keyboards) (textInEx : δ) (index turn : ℕ)
    (t : List Notify × List (TextInEvent δ)) :
    Option (StatusCode × List Notify × List (TextInEvent δ)) := do
  let notify ← t.1[turn]?
  let (status, handle) := around.registerKeyNotify turn
  if efiError status then some (status, t)
  else do
    let notifyHandleList ← notify.notifyHandleList.write index handle
    some (status, t.1.set turn { notify with notifyHandleList },
      t.2 ++ [.registerKeyNotify textInEx notify.keyData notify.keyNotificationFn handle])

/-- It is unregistered again. -/
def unregisterNewTurn (textInEx : δ) (index turn : ℕ) (t : List Notify × List (TextInEvent δ)) :
    Option (List Notify × List (TextInEvent δ)) := do
  let notify ← t.1[turn]?
  let handle ← notify.notifyHandleList.read index
  some (t.1, t.2 ++ [.unregisterKeyNotify textInEx handle])

/-- `ConSplitterTextInExAddDevice`. When the keyboard refuses a notification, those before are
unregistered. -/
def textInExAddDevice (around : Keyboards) (textInEx : δ) (s : TextInSplitter δ) :
    Option (StatusCode × TextInSplitter δ) := do
  let enlarged := if s.textInExList.size ≤ s.currentNumberOfExConsoles then
    growTextInExList around s else some (efiSuccess, s)
  let (status, s) ← enlarged
  if efiError status then some (efiOutOfResources, s)
  else do
    let (status, notifyList, log) ← tryEach efiError efiSuccess
      (registerNewTurn around textInEx s.currentNumberOfExConsoles)
      (unregisterNewTurn textInEx s.currentNumberOfExConsoles) (List.range s.notifyList.length)
      (s.notifyList, s.log)
    let s := { s with notifyList, log }
    if efiError status then some (status, s)
    else do
      let textInExList ← s.textInExList.write s.currentNumberOfExConsoles textInEx
      some (efiSuccess, { s with
        textInExList
        currentNumberOfExConsoles := s.currentNumberOfExConsoles + 1
        log := s.log ++ [.setState textInEx s.physicalKeyToggleState] })

variable [DecidableEq δ]

/-- `ConSplitterTextInDeleteDevice`. -/
def textInDeleteDevice (textIn : δ) (s : TextInSplitter δ) :
    Option (StatusCode × TextInSplitter δ) := do
  let (status, number, list) ← deleteDevice textIn s.currentNumberOfConsoles s.textInList
  some (status, { s with textInList := list, currentNumberOfConsoles := number })

/-- `ConSplitterTextInExDeleteDevice`. The handles stay where they are. -/
def textInExDeleteDevice (textInEx : δ) (s : TextInSplitter δ) :
    Option (StatusCode × TextInSplitter δ) := do
  let (status, number, list) ← deleteDevice textInEx s.currentNumberOfExConsoles s.textInExList
  some (status, { s with textInExList := list, currentNumberOfExConsoles := number })

omit [DecidableEq δ] in
/-- The end of `ConSplitterConInDriverBindingStart`, for a keyboard that may have the extended
protocol. -/
def conInDriverBindingStart (around : Keyboards) (textIn : δ) (extended : Bool)
    (s : TextInSplitter δ) : Option (StatusCode × TextInSplitter δ) := do
  let (status, s) ← textInAddDevice around textIn s
  if efiError status then some (status, s)
  else if extended then textInExAddDevice around textIn s else some (efiUnsupported, s)

/-- `ConSplitterConInDriverBindingStop`. -/
def conInDriverBindingStop (textIn : δ) (extended : Bool) (s : TextInSplitter δ) :
    Option (StatusCode × TextInSplitter δ) := do
  let deleted := if extended then textInExDeleteDevice textIn s else some (efiSuccess, s)
  let (status, s) ← deleted
  if efiError status then some (status, s) else textInDeleteDevice textIn s

omit [DecidableEq δ] in
/-- `ConSplitterTextInConstructor`, as far as it is for keys, from what lies in memory. -/
def textInConstructor (around : Keyboards) (textIn textInEx : ℕ → δ) (keyQueue : ℕ → EfiKeyData) :
    Option (StatusCode × TextInSplitter δ) := do
  let s : TextInSplitter δ :=
    { currentNumberOfConsoles := 0
      textInList := ⟨0, textIn⟩
      currentNumberOfExConsoles := 0
      textInExList := ⟨0, textInEx⟩
      notifyList := []
      keyQueue := ⟨0, keyQueue⟩
      currentNumberOfKeys := 0
      physicalKeyToggleState := 0
      virtualKeyStateExported := false
      keyEventSignalState := false
      conInIsConnect := false
      log := [] }
  let grown := growBuffer (around.granted 2) 4 s.textInList
  let s := { s with textInList := grown.2 }
  if efiError grown.1 then some (efiOutOfResources, s)
  else
    let grown := growBuffer (around.granted 3) 12 s.keyQueue
    let s := { s with keyQueue := grown.2 }
    if efiError grown.1 then some (efiOutOfResources, s)
    else
      let grown := growBuffer (around.granted 4) 4 s.textInExList
      let s := { s with textInExList := grown.2 }
      if efiError grown.1 then some (efiOutOfResources, s)
      else do
        -- ToggleStateSyncInitialization, whose registration is not looked at
        let s := { s with
          physicalKeyToggleState := keyStateValidExposed, virtualKeyStateExported := false }
        let (_, _, s) ← textInRegisterKeyNotify around ⟨⟨0, 0⟩, ⟨0, 0⟩⟩ .toggleStateSyncKeyNotify s
        some (efiSuccess, s)

end

end ConSplitter
