import HtcLeo.Keypad.Console
import Mathlib.Algebra.GroupWithZero.Nat

/-!
# Calling the notification functions

A key that matches a registration must reach the registered function, which
cannot be called at the task priority of the poll. The push of a key queues
it for `KeyNotifyProcessHandler`, which runs later and calls the functions.
Both go through the notify list: the push queues the key once *for each*
registration it matches, and the handler calls *every* function a queued key
matches. A key that matches `m` registrations is queued `m` times and calls
each of the `m` functions each time.

`keyNotify_exactly_once_iff` draws the line: the functions are called once for
each keystroke, in order, exactly when no keystroke matches two
registrations.
-/

namespace Keypad

variable {F : Type}

/-! ## The handler -/

/-- One round of the inner loop of `KeyNotifyProcessHandler`. -/
def invokeNotify (keyData : EfiKeyData) (consoleIn : ConsoleIn F)
    (currentNotify : ConsoleInExNotify F) : ConsoleIn F :=
  if isKeyRegistered currentNotify.keyData keyData then
    { consoleIn with invoked := consoleIn.invoked ++ [(currentNotify, keyData)] }
  else consoleIn

/-- One turn of the outer loop of `KeyNotifyProcessHandler`: `none` when it
leaves the loop. -/
def processTurn (consoleIn : ConsoleIn F) : Option (ConsoleIn F) :=
  match popEfikeyBufHead consoleIn.efiKeyQueueForNotify with
  | (.efiSuccess, some keyData, queue) =>
    some (consoleIn.notifyList.foldl (invokeNotify keyData)
      { consoleIn with efiKeyQueueForNotify := queue })
  | _ => none

/-- At most `n` turns of the outer loop. -/
def processTurns : ℕ → ConsoleIn F → ConsoleIn F
  | 0, consoleIn => consoleIn
  | n + 1, consoleIn =>
    match processTurn consoleIn with
    | some consoleIn => processTurns n consoleIn
    | none => consoleIn

/-- `KeyNotifyProcessHandler`. A ring of 256 cells is empty after at most 255
turns (`Delivers.process`). -/
def keyNotifyProcessHandler (consoleIn : ConsoleIn F) : ConsoleIn F := processTurns 256 consoleIn

/-- **What happens to a console**: a key is pushed, the handler runs, or the
handler takes a single turn, with other things happening before its next. -/
inductive NotifyEvent where
  | push (keyData : EfiKeyData)
  | turn
  | process

/-- The console after an event. -/
def notifyEvent (consoleIn : ConsoleIn F) : NotifyEvent → ConsoleIn F
  | .push keyData => keypadReturnApiPushEfikeyBufTail consoleIn keyData
  | .turn => (processTurn consoleIn).getD consoleIn
  | .process => keyNotifyProcessHandler consoleIn

/-- The keys pushed by an event. -/
def NotifyEvent.keys : NotifyEvent → List EfiKeyData
  | .push keyData => [keyData]
  | _ => []

/-! ## What the loops do -/

/-- The registrations a key matches. -/
def matching (notifyList : List (ConsoleInExNotify F)) (keyData : EfiKeyData) :
    List (ConsoleInExNotify F) :=
  notifyList.filter fun n => isKeyRegistered n.keyData keyData

/-- The calls of the functions a key matches. -/
def invocations (notifyList : List (ConsoleInExNotify F)) (keyData : EfiKeyData) :
    List (ConsoleInExNotify F × EfiKeyData) :=
  (matching notifyList keyData).map fun n => (n, keyData)

@[simp] theorem length_invocations (notifyList : List (ConsoleInExNotify F))
    (keyData : EfiKeyData) :
    (invocations notifyList keyData).length = (matching notifyList keyData).length :=
  List.length_map _

/-- The loop of the push queues the key once for each registration it
matches. -/
theorem holds_pushForNotify {notifyList : List (ConsoleInExNotify F)} {keyData : EfiKeyData}
    {consoleIn : ConsoleIn F} {pending : List EfiKeyData}
    (h : consoleIn.efiKeyQueueForNotify.Holds pending)
    (hroom : pending.length + (matching notifyList keyData).length ≤ 255) :
    (notifyList.foldl (pushForNotify keyData) consoleIn).efiKeyQueueForNotify.Holds
      (pending ++ List.replicate (matching notifyList keyData).length keyData) := by
  induction notifyList generalizing consoleIn pending with
  | nil => simpa [matching] using h
  | cons n notifyList ih =>
    rw [List.foldl_cons]
    unfold pushForNotify
    by_cases hn : isKeyRegistered n.keyData keyData = true
    · have hmatch : matching (n :: notifyList) keyData = n :: matching notifyList keyData :=
        List.filter_cons_of_pos hn
      rw [hmatch, List.length_cons] at hroom ⊢
      rw [if_pos hn, List.replicate_succ, List.append_cons]
      refine ih ?_ (by rw [List.length_append, List.length_singleton]; omega)
      have hpush := h.push keyData
      rw [Ring.pushNewest_of_lt (by omega)] at hpush
      exact hpush
    · have hmatch : matching (n :: notifyList) keyData = matching notifyList keyData :=
        List.filter_cons_of_neg hn
      rw [hmatch] at hroom ⊢
      rw [if_neg hn]
      exact ih h hroom

/-- The inner loop of the handler calls each function the key matches. -/
theorem invokeNotify_foldl (keyData : EfiKeyData) (notifyList : List (ConsoleInExNotify F))
    (consoleIn : ConsoleIn F) :
    notifyList.foldl (invokeNotify keyData) consoleIn
      = { consoleIn with invoked := consoleIn.invoked ++ invocations notifyList keyData } := by
  induction notifyList generalizing consoleIn with
  | nil => simp [invocations, matching]
  | cons n notifyList ih =>
    rw [List.foldl_cons, ih]
    unfold invokeNotify invocations matching
    by_cases hn : isKeyRegistered n.keyData keyData = true
    · simp [hn]
    · simp [hn]

/-! ## The state of the delivery -/

/-- **Where the delivery stands**: the keys pending in the notify queue, and
what has been called so far. -/
structure Delivers (consoleIn : ConsoleIn F) (notifyList : List (ConsoleInExNotify F))
    (pending : List EfiKeyData) (invoked : List (ConsoleInExNotify F × EfiKeyData)) : Prop where
  list : consoleIn.notifyList = notifyList
  holds : consoleIn.efiKeyQueueForNotify.Holds pending
  calls : consoleIn.invoked = invoked

variable {consoleIn : ConsoleIn F} {notifyList : List (ConsoleInExNotify F)}
  {pending : List EfiKeyData} {invoked : List (ConsoleInExNotify F × EfiKeyData)}

/-- A key is queued once for each registration it matches. -/
theorem Delivers.push (h : Delivers consoleIn notifyList pending invoked) {keyData : EfiKeyData}
    (hkey : isPartial keyData = false)
    (hroom : pending.length + (matching notifyList keyData).length ≤ 255) :
    Delivers (keypadReturnApiPushEfikeyBufTail consoleIn keyData) notifyList
      (pending ++ List.replicate (matching notifyList keyData).length keyData) invoked := by
  have hframe := frame_push consoleIn keyData
  refine ⟨(congrArg ConsoleFrame.notifyList hframe).trans h.list, ?_,
    (congrArg ConsoleFrame.invoked hframe).trans h.calls⟩
  unfold keypadReturnApiPushEfikeyBufTail
  rw [if_neg (by simp [hkey]), h.list]
  exact holds_pushForNotify h.holds hroom

/-- A turn with nothing pending leaves the loop. -/
theorem Delivers.turn_nil (h : Delivers consoleIn notifyList [] invoked) :
    processTurn consoleIn = none := by
  unfold processTurn
  rw [h.holds.pop_nil]

/-- A turn takes the first pending key and calls the functions it matches. -/
theorem Delivers.turn_cons {keyData : EfiKeyData}
    (h : Delivers consoleIn notifyList (keyData :: pending) invoked) :
    ∃ consoleIn', processTurn consoleIn = some consoleIn'
      ∧ Delivers consoleIn' notifyList pending (invoked ++ invocations notifyList keyData) := by
  obtain ⟨queue, hpop, hholds⟩ := h.holds.pop_cons
  unfold processTurn
  rw [hpop]
  dsimp only
  rw [invokeNotify_foldl, h.list, h.calls]
  exact ⟨_, rfl, rfl, hholds, rfl⟩

/-- Enough turns call the functions of every pending key. -/
theorem Delivers.turns (h : Delivers consoleIn notifyList pending invoked) {n : ℕ}
    (hn : pending.length < n) :
    Delivers (processTurns n consoleIn) notifyList []
      (invoked ++ pending.flatMap (invocations notifyList)) := by
  induction pending generalizing consoleIn invoked n with
  | nil =>
    obtain ⟨n, rfl⟩ : ∃ m, n = m + 1 := ⟨n - 1, by simp at hn; omega⟩
    unfold processTurns
    rw [h.turn_nil]
    simpa using h
  | cons keyData pending ih =>
    rw [List.length_cons] at hn
    obtain ⟨n, rfl⟩ : ∃ m, n = m + 1 := ⟨n - 1, by omega⟩
    obtain ⟨consoleIn', hturn, h'⟩ := h.turn_cons
    unfold processTurns
    rw [hturn, List.flatMap_cons, ← List.append_assoc]
    exact ih h' (by omega)

/-- **The handler empties the queue** and calls the functions of every key
that was pending. -/
theorem Delivers.process (h : Delivers consoleIn notifyList pending invoked) :
    Delivers (keyNotifyProcessHandler consoleIn) notifyList []
      (invoked ++ pending.flatMap (invocations notifyList)) :=
  h.turns h.holds.length_lt

/-! ## Runs -/

/-- The push of an event finds room in the notify queue for all it queues. -/
def NoOverflow (consoleIn : ConsoleIn F) : NotifyEvent → Prop
  | .push keyData => ∃ pending, consoleIn.efiKeyQueueForNotify.Holds pending
      ∧ pending.length + (matching consoleIn.notifyList keyData).length ≤ 255
  | _ => True

/-- The calls that come of a key: those of the functions it matches, once for
each of them. -/
def invocationsTimes (notifyList : List (ConsoleInExNotify F)) (keyData : EfiKeyData) :
    List (ConsoleInExNotify F × EfiKeyData) :=
  (List.replicate (matching notifyList keyData).length (invocations notifyList keyData)).flatten

/-- **What has been called and what is pending** are, together, what comes of
the keys pushed so far. -/
theorem Delivers.event (h : Delivers consoleIn notifyList pending invoked) {e : NotifyEvent}
    (hkey : ∀ k ∈ e.keys, isPartial k = false) (hroom : NoOverflow consoleIn e) :
    ∃ pending' invoked', Delivers (notifyEvent consoleIn e) notifyList pending' invoked'
      ∧ invoked' ++ pending'.flatMap (invocations notifyList)
        = invoked ++ pending.flatMap (invocations notifyList)
          ++ e.keys.flatMap (invocationsTimes notifyList) := by
  cases e with
  | push keyData =>
    obtain ⟨pending', hholds, hlen⟩ := hroom
    rw [← h.holds.unique hholds, h.list] at hlen
    refine ⟨_, _, h.push (hkey keyData (by simp [NotifyEvent.keys])) hlen, ?_⟩
    rw [List.flatMap_append, List.append_assoc]
    simp [NotifyEvent.keys, invocationsTimes, List.flatMap_replicate]
  | turn =>
    cases pending with
    | nil =>
      refine ⟨[], invoked, ?_, by simp [NotifyEvent.keys]⟩
      show Delivers ((processTurn consoleIn).getD consoleIn) _ _ _
      rw [h.turn_nil]
      exact h
    | cons keyData pending =>
      obtain ⟨consoleIn', hturn, h'⟩ := h.turn_cons
      refine ⟨pending, invoked ++ invocations notifyList keyData, ?_, by simp [NotifyEvent.keys]⟩
      show Delivers ((processTurn consoleIn).getD consoleIn) _ _ _
      rw [hturn]
      exact h'
  | process =>
    exact ⟨[], _, h.process, by simp [NotifyEvent.keys]⟩

/-- **The account of a run**: once the handler has run, what was called is what
comes of the keys pushed, in the order in which they were pushed. -/
theorem Delivers.run (h : Delivers consoleIn notifyList pending invoked)
    {events : List NotifyEvent} (hkeys : ∀ k ∈ events.flatMap NotifyEvent.keys, isPartial k = false)
    (hroom : Run.Along notifyEvent NoOverflow consoleIn events) :
    (keyNotifyProcessHandler (Run.run notifyEvent consoleIn events)).invoked
      = invoked ++ pending.flatMap (invocations notifyList)
        ++ (events.flatMap NotifyEvent.keys).flatMap (invocationsTimes notifyList) := by
  induction events generalizing consoleIn pending invoked with
  | nil => simpa using h.process.calls
  | cons e events ih =>
    rw [List.flatMap_cons] at hkeys
    obtain ⟨pending', invoked', h', heq⟩ :=
      h.event (fun k hk => hkeys k (List.mem_append_left _ hk)) hroom.1
    rw [Run.run_cons, ih h' (fun k hk => hkeys k (List.mem_append_right _ hk)) hroom.2, heq,
      List.flatMap_cons, List.flatMap_append, List.append_assoc _ (e.keys.flatMap _)]

/-! ## Once for each keystroke -/

/-- **Each keystroke calls each function it matches exactly once**, one
keystroke after the other. -/
def InvokesEachOnce (notifyList : List (ConsoleInExNotify F)) (keys : List EfiKeyData)
    (invoked : List (ConsoleInExNotify F × EfiKeyData)) : Prop :=
  ∃ rounds : List (List (ConsoleInExNotify F × EfiKeyData)), invoked = rounds.flatten
    ∧ List.Forall₂ (fun keyData round => round.Perm (invocations notifyList keyData)) keys rounds

/-- Numbers whose squares have the same sum are at most one. -/
theorem le_one_of_sum_sq_eq {α : Type} (f : α → ℕ) {l : List α}
    (h : (l.map fun a => f a * f a).sum = (l.map f).sum) : ∀ a ∈ l, f a ≤ 1 := by
  have hle : ∀ l : List α, (l.map f).sum ≤ (l.map fun a => f a * f a).sum := by
    intro l
    induction l with
    | nil => exact Nat.le_refl 0
    | cons a l ih =>
      rw [List.map_cons, List.map_cons, List.sum_cons, List.sum_cons]
      exact Nat.add_le_add (Nat.le_mul_self (f a)) ih
  induction l with
  | nil => exact fun a ha => absurd ha List.not_mem_nil
  | cons a l ih =>
    have hsq := Nat.le_mul_self (f a)
    have hrest := hle l
    rw [List.map_cons, List.map_cons, List.sum_cons, List.sum_cons] at h
    intro b hb
    rcases List.mem_cons.mp hb with rfl | hb
    · have hb : f b * f b = f b := by omega
      rcases Nat.lt_or_ge 1 (f b) with hgt | hle
      · have hlt : f b * 1 < f b * f b := Nat.mul_lt_mul_of_pos_left hgt (by omega)
        omega
      · exact hle
    · exact ih (by omega) b hb

/-- What comes of a key that matches at most one registration. -/
theorem invocationsTimes_of_le_one {keyData : EfiKeyData}
    (h : (matching notifyList keyData).length ≤ 1) :
    invocationsTimes notifyList keyData = invocations notifyList keyData := by
  unfold invocationsTimes
  rcases Nat.le_one_iff_eq_zero_or_eq_one.mp h with h0 | h1
  · have hnil : invocations notifyList keyData = [] :=
      List.length_eq_zero_iff.mp ((length_invocations notifyList keyData).trans h0)
    rw [h0, hnil]
    rfl
  · rw [h1]
    simp

/-- What comes of the keys is each function once for each keystroke exactly
when no key matches two registrations. -/
theorem invokesEachOnce_iff (notifyList : List (ConsoleInExNotify F)) (keys : List EfiKeyData) :
    InvokesEachOnce notifyList keys (keys.flatMap (invocationsTimes notifyList))
      ↔ ∀ k ∈ keys, (matching notifyList k).length ≤ 1 := by
  constructor
  · rintro ⟨rounds, heq, hrounds⟩
    refine le_one_of_sum_sq_eq (fun k => (matching notifyList k).length) ?_
    have hlen : (keys.flatMap (invocationsTimes notifyList)).length
        = (keys.map fun k =>
          (matching notifyList k).length * (matching notifyList k).length).sum := by
      rw [List.length_flatMap]
      simp [invocationsTimes]
    have hrlen : rounds.flatten.length
        = (keys.map fun k => (matching notifyList k).length).sum := by
      clear heq hlen
      induction hrounds with
      | nil => rfl
      | cons hperm _ ih => simp [hperm.length_eq, ih]
    rw [← hlen, heq, hrlen]
  · intro h
    refine ⟨keys.map (invocations notifyList), ?_, ?_⟩
    · rw [← List.flatMap_def]
      exact List.flatMap_congr fun k hk => invocationsTimes_of_le_one (h k hk)
    · rw [List.forall₂_map_right_iff]
      exact List.forall₂_same.mpr fun k _ => List.Perm.refl _

/-- **When every function is called once for each keystroke.** Over any list of
registrations and any events that push keystrokes which are not partial, run
the handler in any batches and never overflow the notify queue: each keystroke
calls each function it matches exactly once, in the order of the pushes,
precisely when no keystroke matches two registrations. -/
theorem keyNotify_exactly_once_iff (consoleIn : ConsoleIn F)
    (hempty : consoleIn.efiKeyQueueForNotify.Holds []) (hinvoked : consoleIn.invoked = [])
    (events : List NotifyEvent)
    (hkeys : ∀ k ∈ events.flatMap NotifyEvent.keys, isPartial k = false)
    (hroom : Run.Along notifyEvent NoOverflow consoleIn events) :
    InvokesEachOnce consoleIn.notifyList (events.flatMap NotifyEvent.keys)
        (keyNotifyProcessHandler (Run.run notifyEvent consoleIn events)).invoked
      ↔ ∀ k ∈ events.flatMap NotifyEvent.keys, (matching consoleIn.notifyList k).length ≤ 1 := by
  have hd : Delivers consoleIn consoleIn.notifyList [] [] := ⟨rfl, hempty, hinvoked⟩
  rw [hd.run hkeys hroom]
  exact invokesEachOnce_iff consoleIn.notifyList (events.flatMap NotifyEvent.keys)

/-- **Few keys do not overflow the queue**: no more than 255 calls come of all that are pushed. -/
theorem Delivers.noOverflow (h : Delivers consoleIn notifyList pending invoked)
    (events : List NotifyEvent) (hkeys : ∀ k ∈ events.flatMap NotifyEvent.keys, isPartial k = false)
    (hfew : pending.length
      + ((events.flatMap NotifyEvent.keys).map fun k => (matching notifyList k).length).sum ≤ 255) :
    Run.Along notifyEvent NoOverflow consoleIn events := by
  induction events generalizing consoleIn pending invoked with
  | nil => trivial
  | cons e events ih =>
    rw [List.flatMap_cons] at hkeys hfew
    have hrest : ∀ k ∈ events.flatMap NotifyEvent.keys, isPartial k = false :=
      fun k hk => hkeys k (List.mem_append_right _ hk)
    rw [List.map_append, List.sum_append] at hfew
    cases e with
    | push keyData =>
      have hsum : (([keyData].map fun k => (matching notifyList k).length).sum : ℕ)
          = (matching notifyList keyData).length := List.sum_singleton
      rw [show NotifyEvent.keys (.push keyData) = [keyData] from rfl, hsum] at hfew
      have hroom : pending.length + (matching notifyList keyData).length ≤ 255 := by omega
      refine ⟨⟨pending, h.holds, by rwa [h.list]⟩, ?_⟩
      refine ih (h.push (hkeys keyData (by simp [NotifyEvent.keys])) hroom) hrest ?_
      rw [List.length_append, List.length_replicate]
      omega
    | turn =>
      refine ⟨trivial, ?_⟩
      show Run.Along notifyEvent NoOverflow ((processTurn consoleIn).getD consoleIn) events
      cases pending with
      | nil =>
        rw [h.turn_nil]
        exact ih h hrest (by omega)
      | cons keyData pending =>
        obtain ⟨consoleIn', hturn, h'⟩ := h.turn_cons
        rw [hturn]
        rw [List.length_cons] at hfew
        exact ih h' hrest (by omega)
    | process =>
      refine ⟨trivial, ih h.process hrest ?_⟩
      rw [List.length_nil]
      omega

/-- Three registrations, and keystrokes pushed in batches: some match one of them, one
matches none, and the handler runs, or takes a turn, in between. -/
theorem keyNotify_exactly_once_batches :
    let a : EfiKeyData := ⟨0, 0x61, 0x80000001, 0⟩
    let b : EfiKeyData := ⟨0, 0x62, 0x80000001, 0⟩
    let up : EfiKeyData := ⟨0x01, 0, 0, 0⟩
    let consoleIn : ConsoleIn ℕ := { ConsoleIn.start with
      notifyList := [⟨100, ⟨0, 0x61, 0, 0⟩, 7⟩, ⟨200, b, 8⟩, ⟨300, up, 9⟩] }
    let events : List NotifyEvent := [.push a, .push b, .process, .push up, .push a,
      .push ⟨0, 0x63, 0, 0⟩, .turn, .push b, .turn, .push ⟨0, 0x62, 0, 0⟩, .process, .push a]
    Run.Along notifyEvent NoOverflow consoleIn events
      ∧ InvokesEachOnce consoleIn.notifyList (events.flatMap NotifyEvent.keys)
        (keyNotifyProcessHandler (Run.run notifyEvent consoleIn events)).invoked := by
  intro a b up consoleIn events
  have hd : Delivers consoleIn consoleIn.notifyList [] [] :=
    ⟨rfl, EfiKeyQueue.holds_initial, rfl⟩
  have hroom := hd.noOverflow events (by decide) (by decide)
  exact ⟨hroom, (keyNotify_exactly_once_iff consoleIn EfiKeyQueue.holds_initial rfl events
    (by decide) hroom).mpr (by decide)⟩

/-- A key registered with any shift state and with one of its own, and a
keystroke that matches both: each function is called twice. -/
theorem keyNotify_called_twice :
    let key : EfiKeyData := ⟨0, 0x61, 0x80000001, 0⟩
    let consoleIn : ConsoleIn ℕ := { ConsoleIn.start with
      notifyList := [⟨100, ⟨0, 0x61, 0, 0⟩, 7⟩, ⟨200, key, 8⟩] }
    isPartial key = false ∧ Run.Along notifyEvent NoOverflow consoleIn [.push key]
      ∧ ¬ InvokesEachOnce consoleIn.notifyList [key]
        (keyNotifyProcessHandler (Run.run notifyEvent consoleIn [.push key])).invoked := by
  intro key consoleIn
  have hroom : Run.Along notifyEvent NoOverflow consoleIn [.push key] :=
    ⟨⟨[], EfiKeyQueue.holds_initial, by decide⟩, trivial⟩
  have hd : Delivers consoleIn consoleIn.notifyList [] [] :=
    ⟨rfl, EfiKeyQueue.holds_initial, rfl⟩
  refine ⟨by decide, hroom, fun h => ?_⟩
  rw [hd.run (by decide) hroom] at h
  exact absurd ((invokesEachOnce_iff consoleIn.notifyList [key]).mp h key (by simp)) (by decide)

end Keypad
