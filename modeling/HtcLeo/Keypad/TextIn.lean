import HtcLeo.Keypad.Console
import HtcLeo.Lib.Routine
import Mathlib.Data.List.TakeWhile

/-!
# Waiting for a key and reading it

`KeypadWaitForKey` polls the device, drops the partial keystrokes at the head
of the key queue and signals its event when a whole one is left.
`KeypadReadKeyStroke` takes keys from the queue until one is whole, and polls
the device before each. Between the two, and in each turn of the second,
more keys can arrive, and on a full queue they push out the very key the
event was signalled for.

The reader that was signalled finds a key all the same
(`waitForKey_readKeyStroke`): a whole key only leaves the queue for another
one that is pushed, and every turn that does not return takes a partial one
away.
-/

namespace Keypad

variable {F : Type}

/-! ## Reading -/

/-- `EFI_INPUT_KEY`. -/
structure EfiInputKey where
  scanCode : UInt16
  unicodeChar : UInt16
  deriving DecidableEq, Repr

def efiRightControlPressed : UInt32 := 0x00000004
def efiLeftControlPressed : UInt32 := 0x00000008

/-- **A console with the polls of its device still to come.** A routine that
polls past the last of them is still waiting. -/
structure Session (F : Type) where
  consoleIn : ConsoleIn F
  polls : List ConsolePoll

/-- The call of `KeypadTimerHandler`. -/
def pollDevice : Routine (Session F) Unit := fun s =>
  match s.polls with
  | [] => (none, s)
  | poll :: polls => (some (), ⟨keypadTimerHandler s.consoleIn poll, polls⟩)

/-- What `KeypadReadKeyStrokeWorker` does after the poll. -/
def takeKey : Routine (Session F) (EfiStatus × Option EfiKeyData) := fun s =>
  if s.consoleIn.keypadErr then (some (.efiDeviceError, none), s)
  else
    let popped := popEfikeyBufHead s.consoleIn.efiKeyQueue
    (some (popped.1, popped.2.1),
      { s with consoleIn := { s.consoleIn with efiKeyQueue := popped.2.2 } })

/-- `KeypadReadKeyStrokeWorker`, with `hasKeyData` false for a `NULL`
`KeyData`. -/
def keypadReadKeyStrokeWorker (hasKeyData : Bool) :
    Routine (Session F) (EfiStatus × Option EfiKeyData) := do
  if !hasKeyData then
    return (.efiInvalidParameter, none)
  pollDevice
  takeKey

/-- The control characters: `KeypadReadKeyStroke` turns a letter that was
pressed with a control key into the control character it stands for. -/
def translateControl (keyData : EfiKeyData) : EfiInputKey :=
  if keyData.keyShiftState &&& (efiLeftControlPressed ||| efiRightControlPressed) ≠ 0 then
    if 0x61 ≤ keyData.unicodeChar ∧ keyData.unicodeChar ≤ 0x7a then
      ⟨keyData.scanCode, keyData.unicodeChar - 0x61 + 1⟩
    else if 0x41 ≤ keyData.unicodeChar ∧ keyData.unicodeChar ≤ 0x5a then
      ⟨keyData.scanCode, keyData.unicodeChar - 0x41 + 1⟩
    else ⟨keyData.scanCode, keyData.unicodeChar⟩
  else ⟨keyData.scanCode, keyData.unicodeChar⟩

/-- One round of the loop of `KeypadReadKeyStroke`. -/
def readRound (_ : Unit) :
    Routine (Session F) (Unit ⊕ (EfiStatus × Option EfiInputKey)) := do
  let answer ← keypadReadKeyStrokeWorker true
  match answer with
  | (.efiSuccess, some keyData) =>
    if isPartial keyData then
      -- skip the partial keystroke
      return .inl ()
    else
      return .inr (.efiSuccess, some (translateControl keyData))
  | (status, _) => return .inr (status, none)

/-- `KeypadReadKeyStroke`. Each turn of its loop polls the device. -/
def keypadReadKeyStroke : Routine (Session F) (EfiStatus × Option EfiInputKey) :=
  .loop (fun _ s => s.polls.length) readRound ()

/-! ## Waiting -/

/-- At most `n` turns of the loop of `KeypadWaitForKey`: whether it signals the
event, and the queue it leaves. -/
def waitTurns : ℕ → EfiKeyQueue → Bool × EfiKeyQueue
  | 0, queue => (false, queue)
  | n + 1, queue =>
    if isEfikeyBufEmpty queue then (false, queue)
    else if isPartial (queue.buffer queue.head.toNat) then
      waitTurns n (popEfikeyBufHead queue).2.2
    else (true, queue)

/-- `KeypadWaitForKey`: whether it signals the event. The ring is empty after
at most 255 turns. -/
def keypadWaitForKey (consoleIn : ConsoleIn F) (poll : ConsolePoll) : Bool × ConsoleIn F :=
  let consoleIn := keypadTimerHandler consoleIn poll
  if consoleIn.keypadErr then (false, consoleIn)
  else
    let waited := waitTurns 256 consoleIn.efiKeyQueue
    (waited.1, { consoleIn with efiKeyQueue := waited.2 })

/-! ## What is in the queue -/

/-- A poll that pushes no partial keystroke. -/
def ConsolePoll.Whole (poll : ConsolePoll) : Prop := ∀ key ∈ poll.keys, isPartial key = false

/-- **A whole key is pending**, behind at most `n` partial ones, on a device
without error, and all keys that are have the one origin. -/
structure Pending (origin : EfiKeyData → Prop) (consoleIn : ConsoleIn F) (n : ℕ) : Prop where
  noErr : consoleIn.keypadErr = false
  whole : ∃ keys, consoleIn.efiKeyQueue.Holds keys ∧ (∃ key ∈ keys, isPartial key = false)
    ∧ keys.countP isPartial ≤ n ∧ ∀ key ∈ keys, origin key

variable {consoleIn : ConsoleIn F} {keys : List EfiKeyData} {n : ℕ} {origin : EfiKeyData → Prop}

/-- A key that is not dropped goes to the key queue. -/
theorem holds_push (h : consoleIn.efiKeyQueue.Holds keys) {key : EfiKeyData}
    (hkey : ¬ (isPartial key && !consoleIn.isSupportPartialKey) = true) :
    (keypadReturnApiPushEfikeyBufTail consoleIn key).efiKeyQueue.Holds
      (Ring.pushNewest 255 keys key) := by
  unfold keypadReturnApiPushEfikeyBufTail
  rw [if_neg hkey]
  dsimp only
  rw [(pushForNotify_foldl key consoleIn.notifyList consoleIn).2]
  exact h.push key

/-- A push of a whole key adds no partial one. -/
theorem countP_pushNewest_le (keys : List EfiKeyData) {key : EfiKeyData}
    (hkey : isPartial key = false) :
    (Ring.pushNewest 255 keys key).countP isPartial ≤ keys.countP isPartial := by
  have htail : keys.tail.countP isPartial ≤ keys.countP isPartial :=
    (List.tail_sublist keys).countP_le
  unfold Ring.pushNewest
  split
  · simp [List.countP_append, hkey]
  · simpa [List.countP_append, hkey] using htail

/-- **A whole key pushed keeps a whole key pending**, itself if it pushes the
other one out. -/
theorem Pending.push (h : Pending origin consoleIn n) {key : EfiKeyData}
    (hkey : isPartial key = false) (horigin : origin key) :
    Pending origin (keypadReturnApiPushEfikeyBufTail consoleIn key) n := by
  obtain ⟨herr, keys, hholds, -, hcount, hkeys⟩ := h
  have hframe := congrArg ConsoleFrame.keypadErr (frame_push consoleIn key)
  refine ⟨hframe.trans herr, _, holds_push hholds (by simp [hkey]), ?_, ?_, fun key' hkey' => ?_⟩
  · exact ⟨key, Ring.mem_pushNewest_self 255 keys key, hkey⟩
  · exact Nat.le_trans (countP_pushNewest_le keys hkey) hcount
  · rcases Ring.mem_of_mem_pushNewest hkey' with rfl | hmem
    · exact horigin
    · exact hkeys key' hmem

/-- A poll of whole keys keeps a whole key pending. -/
theorem Pending.poll (h : Pending origin consoleIn n) {poll : ConsolePoll} (hpoll : poll.Whole)
    (horigin : ∀ key ∈ poll.keys, origin key) :
    Pending origin (keypadTimerHandler consoleIn poll) n := by
  unfold keypadTimerHandler
  rw [if_neg (by simp [h.noErr])]
  exact Run.inv_run_mem (I := fun c => Pending origin c n)
    (fun _ key hkey h => h.push (hpoll key hkey) (horigin key hkey)) ⟨h.noErr, h.whole⟩

/-- Polls of whole keys keep a whole key pending. -/
theorem Pending.polls (h : Pending origin consoleIn n) {polls : List ConsolePoll}
    (hpolls : ∀ poll ∈ polls, poll.Whole)
    (horigin : ∀ poll ∈ polls, ∀ key ∈ poll.keys, origin key) :
    Pending origin (polls.foldl keypadTimerHandler consoleIn) n :=
  Run.inv_run_mem (I := fun c => Pending origin c n)
    (fun _ poll hpoll h => h.poll (hpolls poll hpoll) (horigin poll hpoll)) h

/-- Taking a key while a whole one is pending: either it is whole, or one
partial key is gone. -/
theorem Pending.take (h : Pending origin consoleIn n) (polls : List ConsolePoll) :
    ∃ key consoleIn', takeKey ⟨consoleIn, polls⟩
        = (some (.efiSuccess, some key), ⟨consoleIn', polls⟩) ∧ origin key
      ∧ (isPartial key = true → ∃ m, n = m + 1 ∧ Pending origin consoleIn' m) := by
  obtain ⟨herr, keys, hholds, ⟨whole, hmem, hwhole⟩, hcount, hkeys⟩ := h
  cases keys with
  | nil => simp at hmem
  | cons key keys =>
    obtain ⟨queue, hpop, hrest⟩ := hholds.pop_cons
    refine ⟨key, { consoleIn with efiKeyQueue := queue }, ?_, hkeys key List.mem_cons_self,
      fun hpart => ?_⟩
    · unfold takeKey
      rw [if_neg (by simp [herr]), hpop]
    · rw [List.countP_cons_of_pos hpart] at hcount
      refine ⟨n - 1, by omega, herr, keys, hrest, ⟨whole, ?_, hwhole⟩, by omega,
        fun key' hkey' => hkeys key' (List.mem_cons_of_mem key hkey')⟩
      -- the whole key is not the partial one that was taken
      rcases List.mem_cons.mp hmem with rfl | hmem
      · exact absurd (hpart.symm.trans hwhole) (by decide)
      · exact hmem

/-- The control character of a whole key is whole. -/
theorem translateControl_whole {key : EfiKeyData} (h : isPartial key = false) :
    ¬ ((translateControl key).scanCode = scanNull
      ∧ (translateControl key).unicodeChar = charNull) := by
  have hne : ¬ (key.scanCode = scanNull ∧ key.unicodeChar = charNull) := by
    simpa [isPartial] using h
  have hcontrol : ∀ (c a : UInt16), a ≤ c → c ≤ a + 0x19 → a ≤ 0x61 → c - a + 1 ≠ charNull := by
    intro c a h₁ h₂ h₃ heq
    have hn := congrArg UInt16.toNat heq
    rw [UInt16.le_iff_toNat_le] at h₁ h₂ h₃
    rw [UInt16.toNat_add, UInt16.toNat_sub_of_le _ _ (UInt16.le_iff_toNat_le.mpr h₁)] at hn
    rw [UInt16.toNat_add] at h₂
    simp [charNull] at hn h₂ h₃
    omega
  unfold translateControl
  split
  · split
    · next hc => exact fun he => hcontrol _ 0x61 hc.1 hc.2 (by decide) he.2
    · split
      · next hc => exact fun he => hcontrol _ 0x41 hc.1 hc.2 (by decide) he.2
      · exact hne
  · exact hne

/-! ## The reader -/

/-- Every turn that goes round again polls the device. -/
theorem readRound_consumes :
    Routine.Consumes (fun _ (s : Session F) => s.polls.length) (readRound (F := F)) := by
  rintro ⟨⟩ ⟨consoleIn, polls⟩ ⟨⟩ s' h
  cases polls with
  | nil =>
    have hwait : keypadReadKeyStrokeWorker (F := F) true ⟨consoleIn, []⟩
        = (none, ⟨consoleIn, []⟩) := rfl
    unfold readRound at h
    rw [Routine.bind_of_waits hwait] at h
    exact absurd (congrArg Prod.fst h) (by simp)
  | cons poll polls =>
    obtain ⟨answer, s₁, hworker, hround⟩ := Routine.bind_eq_some_iff.mp h
    have htake : takeKey ⟨keypadTimerHandler consoleIn poll, polls⟩ = (some answer, s₁) := hworker
    have hpolls : s₁.polls = polls := by
      have hsnd := congrArg (fun r => r.2.polls) htake
      unfold takeKey at hsnd
      split at hsnd <;> exact hsnd.symm
    have hs' : s' = s₁ := by
      have hsnd := congrArg Prod.snd hround
      revert hsnd
      split
      · split <;> exact fun h => h.symm
      · exact fun h => h.symm
    show s'.polls.length < (poll :: polls).length
    rw [hs', hpolls]
    exact Nat.lt_succ_self polls.length

/-- **With a whole key pending the reader returns one**, as soon as the device
has been polled once more than there are partial keys before it. -/
theorem Pending.readKeyStroke (h : Pending origin consoleIn n) {polls : List ConsolePoll}
    (hpolls : ∀ poll ∈ polls, poll.Whole)
    (horigin : ∀ poll ∈ polls, ∀ key ∈ poll.keys, origin key) (hn : n < polls.length) :
    ∃ key s', keypadReadKeyStroke ⟨consoleIn, polls⟩ = (some (.efiSuccess, some key), s')
      ∧ ¬ (key.scanCode = scanNull ∧ key.unicodeChar = charNull)
      ∧ ∃ keyData, isPartial keyData = false ∧ origin keyData ∧ key = translateControl keyData := by
  induction polls generalizing consoleIn n with
  | nil => simp at hn
  | cons poll polls ih =>
    obtain ⟨key, consoleIn', htake, hkeyorigin, hpartial⟩ :=
      (h.poll (hpolls poll (by simp)) (horigin poll (by simp))).take polls
    have hworker : keypadReadKeyStrokeWorker true ⟨consoleIn, poll :: polls⟩
        = (some (.efiSuccess, some key), ⟨consoleIn', polls⟩) := htake
    cases hkey : isPartial key with
    | true =>
      obtain ⟨m, rfl, hm⟩ := hpartial hkey
      have hround : readRound () ⟨consoleIn, poll :: polls⟩
          = (some (.inl ()), ⟨consoleIn', polls⟩) := by
        unfold readRound
        rw [Routine.bind_of_returns hworker]
        dsimp only
        rw [if_pos hkey]
        rfl
      obtain ⟨key', s', hread, hwhole⟩ := ih hm (fun p hp => hpolls p (by simp [hp]))
        (fun p hp => horigin p (by simp [hp])) (by simp at hn; omega)
      exact ⟨key', s', (Routine.loop_of_again readRound_consumes hround).trans hread, hwhole⟩
    | false =>
      have hround : readRound () ⟨consoleIn, poll :: polls⟩
          = (some (.inr (.efiSuccess, some (translateControl key))), ⟨consoleIn', polls⟩) := by
        unfold readRound
        rw [Routine.bind_of_returns hworker]
        dsimp only
        rw [if_neg (by simp [hkey])]
        rfl
      exact ⟨_, _, Routine.loop_of_leaves readRound_consumes hround, translateControl_whole hkey,
        key, hkey, hkeyorigin, rfl⟩

/-! ## The waiter -/

/-- **The loop of the waiter**: it drops the partial keys at the head, and
signals when that leaves one. -/
theorem waitTurns_holds {queue : EfiKeyQueue} (h : queue.Holds keys) (hn : keys.length < n) :
    (waitTurns n queue).1 = !(keys.dropWhile isPartial).isEmpty
      ∧ (waitTurns n queue).2.Holds (keys.dropWhile isPartial) := by
  obtain ⟨n, rfl⟩ : ∃ m, n = m + 1 := ⟨n - 1, by omega⟩
  induction keys generalizing queue n with
  | nil =>
    have hempty : isEfikeyBufEmpty queue = true := h.isEfikeyBufEmpty_eq
    unfold waitTurns
    rw [if_pos hempty]
    exact ⟨rfl, h⟩
  | cons key keys ih =>
    unfold waitTurns
    rw [if_neg (by simp [h.isEfikeyBufEmpty_eq]), h.front]
    by_cases hkey : isPartial key = true
    · obtain ⟨queue', hpop, hrest⟩ := h.pop_cons
      rw [List.length_cons] at hn
      obtain ⟨n, rfl⟩ : ∃ m, n = m + 1 := ⟨n - 1, by omega⟩
      rw [if_pos hkey, hpop, List.dropWhile_cons_of_pos hkey]
      exact ih hrest n (by omega)
    · rw [if_neg hkey, List.dropWhile_cons_of_neg hkey]
      exact ⟨rfl, h⟩

/-- A poll of a device without error leaves a queue that holds some keys. -/
theorem holds_keypadTimerHandler (h : consoleIn.efiKeyQueue.Holds keys) (poll : ConsolePoll) :
    ∃ keys', (keypadTimerHandler consoleIn poll).efiKeyQueue.Holds keys' := by
  unfold keypadTimerHandler
  split
  · exact ⟨keys, h⟩
  · refine Run.inv_run (I := fun c : ConsoleIn F => ∃ keys', c.efiKeyQueue.Holds keys')
      (fun c key => ?_) poll.keys ⟨keys, h⟩
    rintro ⟨keys', h'⟩
    by_cases hkey : isPartial key && !c.isSupportPartialKey
    · unfold keypadReturnApiPushEfikeyBufTail
      rw [if_pos hkey]
      exact ⟨keys', h'⟩
    · exact ⟨_, holds_push h' (by simpa using hkey)⟩

/-- **A signalled reader finds a key.** From any key queue, on a device without
error: when `KeypadWaitForKey` signals, then after any polls of whole keys
`KeypadReadKeyStroke` returns a whole key, whatever whole keys its own polls
push, and it is one the queue held or one of the polls pushed; when it does not
signal, the queue held no whole key after its poll and is now empty. -/
theorem waitForKey_readKeyStroke (consoleIn : ConsoleIn F) (poll : ConsolePoll)
    (herr : consoleIn.keypadErr = false)
    (hqueue : consoleIn.efiKeyQueue.head < keypadEfiKeyMaxCount
      ∧ consoleIn.efiKeyQueue.tail < keypadEfiKeyMaxCount) :
    ((keypadWaitForKey consoleIn poll).1 = true →
      ∀ between polls : List ConsolePoll, (∀ p ∈ between ++ polls, p.Whole) → 256 ≤ polls.length →
        ∃ key s', keypadReadKeyStroke
            ⟨between.foldl keypadTimerHandler (keypadWaitForKey consoleIn poll).2, polls⟩
            = (some (.efiSuccess, some key), s')
          ∧ ¬ (key.scanCode = scanNull ∧ key.unicodeChar = charNull)
          ∧ ∃ keyData, isPartial keyData = false ∧ key = translateControl keyData
            ∧ ((∃ keys, (keypadWaitForKey consoleIn poll).2.efiKeyQueue.Holds keys ∧ keyData ∈ keys)
              ∨ ∃ p ∈ between ++ polls, keyData ∈ p.keys))
    ∧ ((keypadWaitForKey consoleIn poll).1 = false →
      (∀ keys, (keypadTimerHandler consoleIn poll).efiKeyQueue.Holds keys →
        ∀ key ∈ keys, isPartial key = true)
      ∧ (keypadWaitForKey consoleIn poll).2.efiKeyQueue.Holds []) := by
  obtain ⟨start, hstart⟩ := EfiKeyQueue.exists_holds hqueue.1 hqueue.2
  obtain ⟨keys, hkeys⟩ := holds_keypadTimerHandler hstart poll
  have herr' : (keypadTimerHandler consoleIn poll).keypadErr = false :=
    (congrArg ConsoleFrame.keypadErr (keypadTimerHandler_frame herr poll)).trans herr
  obtain ⟨hsignal, hleft⟩ := waitTurns_holds hkeys hkeys.length_lt
  have hwait : keypadWaitForKey consoleIn poll
      = ((waitTurns 256 (keypadTimerHandler consoleIn poll).efiKeyQueue).1,
        { keypadTimerHandler consoleIn poll with
          efiKeyQueue := (waitTurns 256 (keypadTimerHandler consoleIn poll).efiKeyQueue).2 }) := by
    unfold keypadWaitForKey
    dsimp only
    rw [if_neg (by simp [herr'])]
  rw [hwait, hsignal]
  constructor
  · intro hsome between polls hwhole hlen
    have hlt := hleft.length_lt
    cases hdrop : keys.dropWhile isPartial with
    | nil => simp [hdrop] at hsome
    | cons key rest =>
      -- the key at the head is whole, and at most 254 partial ones are behind it
      have hkey : isPartial key = false := by
        have hnot := List.head_dropWhile_not (p := isPartial) (l := keys) (by simp [hdrop])
        simpa [hdrop] using hnot
      rw [hdrop] at hleft hlt
      have hcount : (key :: rest).countP isPartial ≤ 255 :=
        Nat.le_trans List.countP_le_length (by omega)
      let origin : EfiKeyData → Prop := fun keyData =>
        (∃ keys, (waitTurns 256 (keypadTimerHandler consoleIn poll).efiKeyQueue).2.Holds keys
          ∧ keyData ∈ keys) ∨ ∃ p ∈ between ++ polls, keyData ∈ p.keys
      have hpend : Pending origin { keypadTimerHandler consoleIn poll with
          efiKeyQueue := (waitTurns 256 (keypadTimerHandler consoleIn poll).efiKeyQueue).2 } 255 :=
        ⟨herr', _, hleft, ⟨key, by simp, hkey⟩, hcount, fun _ hmem => Or.inl ⟨_, hleft, hmem⟩⟩
      have hpushed : ∀ p ∈ between ++ polls, ∀ keyData ∈ p.keys, origin keyData :=
        fun p hp _ hmem => Or.inr ⟨p, hp, hmem⟩
      have hbetween := hpend.polls (fun p hp => hwhole p (List.mem_append_left polls hp))
        fun p hp => hpushed p (List.mem_append_left polls hp)
      obtain ⟨read, s', hread, hnull, keyData, hdata, horigin, rfl⟩ := hbetween.readKeyStroke
        (fun p hp => hwhole p (List.mem_append_right between hp))
        (fun p hp => hpushed p (List.mem_append_right between hp)) (by omega)
      exact ⟨_, s', hread, hnull, keyData, hdata, rfl, horigin⟩
  · intro hnone
    have hdrop : keys.dropWhile isPartial = [] := by simpa using hnone
    rw [hdrop] at hleft
    refine ⟨fun keys' hkeys' => ?_, hleft⟩
    rw [← hkeys.unique hkeys']
    exact List.dropWhile_eq_nil_iff.mp hdrop

/-- A console that takes partial keystrokes. -/
def takesPartial : ConsoleIn ℕ := { ConsoleIn.start with isSupportPartialKey := true }

/-- Whole keys and partial ones arrive with the poll of the waiter, a whole one before the
reader is called, and one more with its first poll. -/
theorem waitForKey_readKeyStroke_mixed :
    let arriving : ConsolePoll :=
      ⟨0, [⟨0, 0, 1, 0⟩, ⟨0, 0x61, 0, 0⟩, ⟨0, 0, 2, 0⟩, ⟨0x17, 0, 0, 0⟩]⟩
    let woken := keypadWaitForKey takesPartial arriving
    let between : List ConsolePoll := [⟨5, [⟨0, 0x62, 0, 0⟩]⟩]
    let polls : List ConsolePoll := ⟨9, [⟨0, 0x63, 0, 0⟩]⟩ :: List.replicate 255 ⟨12, []⟩
    woken.1 = true
      ∧ ∃ key s', keypadReadKeyStroke ⟨between.foldl keypadTimerHandler woken.2, polls⟩
          = (some (.efiSuccess, some key), s')
        ∧ ¬ (key.scanCode = scanNull ∧ key.unicodeChar = charNull) := by
  intro arriving woken between polls
  have hwoken : woken.1 = true := by decide
  refine ⟨hwoken, ?_⟩
  have hwhole : ∀ p ∈ between ++ polls, p.Whole := by
    intro p hp
    rcases List.mem_cons.mp hp with rfl | hp
    · exact List.forall_mem_singleton.mpr rfl
    rcases List.mem_cons.mp hp with rfl | hp
    · exact List.forall_mem_singleton.mpr rfl
    obtain rfl := List.eq_of_mem_replicate hp
    exact fun key hkey => absurd hkey List.not_mem_nil
  have hlength : 256 ≤ polls.length := by
    show 256 ≤ (List.replicate 255 (⟨12, []⟩ : ConsolePoll)).length + 1
    rw [List.length_replicate]
  obtain ⟨key, s', hread, hnull, -⟩ := (waitForKey_readKeyStroke takesPartial arriving rfl
    (by decide)).1 hwoken between polls hwhole hlength
  exact ⟨key, s', hread, hnull⟩

end Keypad
