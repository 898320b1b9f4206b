import HtcLeo.Efi
import HtcLeo.Lib.Run
import Mathlib.Data.List.Nodup

/-!
# Key notifications

A client of the console registers a function for a key. The key data of a
registration is a pattern: a shift or toggle state of zero stands for any
state (`isKeyRegistered`), so one registration can cover another.
`KeypadRegisterKeyNotify` answers a request that an entry of the same
function covers with the handle of that entry, and adds an entry otherwise.

Sharing the handle is sound because the match is a preorder: what matches
the request matches the entry that covers it. `keyNotify_sound` is the whole
account of the list over runs of registrations and removals.
-/

namespace Keypad

/-! ## The match -/

/-- `IsKeyRegistered`. A zero shift or toggle state in the registered data is
ignored. -/
def isKeyRegistered (registeredData inputData : EfiKeyData) : Bool :=
  if registeredData.scanCode ≠ inputData.scanCode
      ∨ registeredData.unicodeChar ≠ inputData.unicodeChar then false
  else if registeredData.keyShiftState ≠ 0
      ∧ registeredData.keyShiftState ≠ inputData.keyShiftState then false
  else if registeredData.keyToggleState ≠ 0
      ∧ registeredData.keyToggleState ≠ inputData.keyToggleState then false
  else true

/-- The match, field by field. -/
theorem isKeyRegistered_iff (k x : EfiKeyData) :
    isKeyRegistered k x = true
      ↔ k.scanCode = x.scanCode ∧ k.unicodeChar = x.unicodeChar
        ∧ (k.keyShiftState = 0 ∨ k.keyShiftState = x.keyShiftState)
        ∧ (k.keyToggleState = 0 ∨ k.keyToggleState = x.keyToggleState) := by
  unfold isKeyRegistered
  grind

/-- A key matches itself. -/
theorem isKeyRegistered_refl (k : EfiKeyData) : isKeyRegistered k k = true :=
  (isKeyRegistered_iff k k).mpr ⟨rfl, rfl, .inr rfl, .inr rfl⟩

/-- **The match is transitive**: a state that the wider pattern asks for is
asked for by the narrower one as well. -/
theorem isKeyRegistered_trans {k k' x : EfiKeyData} (h : isKeyRegistered k k' = true)
    (h' : isKeyRegistered k' x = true) : isKeyRegistered k x = true := by
  obtain ⟨hs, hu, hshift, htoggle⟩ := (isKeyRegistered_iff k k').mp h
  obtain ⟨hs', hu', hshift', htoggle'⟩ := (isKeyRegistered_iff k' x).mp h'
  refine (isKeyRegistered_iff k x).mpr ⟨hs.trans hs', hu.trans hu', ?_, ?_⟩
  · rcases hshift with h0 | heq
    · exact .inl h0
    · rw [heq]
      exact hshift'
  · rcases htoggle with h0 | heq
    · exact .inl h0
    · rw [heq]
      exact htoggle'

/-! ## The list -/

/-- **`KEYPAD_CONSOLE_IN_EX_NOTIFY`**, with the address it was allocated at,
which is the handle given out for it. -/
structure ConsoleInExNotify (F : Type) where
  handle : ℕ
  keyData : EfiKeyData
  keyNotificationFn : F
  deriving DecidableEq

variable {F : Type} [DecidableEq F]

/-- The test of the loop of `KeypadRegisterKeyNotify`. -/
def ConsoleInExNotify.covers (notify : ConsoleInExNotify F) (keyData : EfiKeyData)
    (fn : F) : Bool :=
  isKeyRegistered notify.keyData keyData && decide (notify.keyNotificationFn = fn)

/-- `KeypadRegisterKeyNotify`, on what `AllocateZeroPool` returns. A `NULL`
argument is `none`, and a `NULL` `NotifyHandle` is `hasNotifyHandle = false`. -/
def keypadRegisterKeyNotify (keyData : Option EfiKeyData) (keyNotificationFunction : Option F)
    (hasNotifyHandle : Bool) (pool : Option ℕ) (notifyList : List (ConsoleInExNotify F)) :
    EfiStatus × Option ℕ × List (ConsoleInExNotify F) :=
  match keyData, keyNotificationFunction, hasNotifyHandle with
  | some keyData, some fn, true =>
    match notifyList.find? fun currentNotify => currentNotify.covers keyData fn with
    | some currentNotify => (.efiSuccess, some currentNotify.handle, notifyList)
    | none =>
      match pool with
      | none => (.efiOutOfResources, none, notifyList)
      | some newNotify =>
        (.efiSuccess, some newNotify, notifyList ++ [⟨newNotify, keyData, fn⟩])
  | _, _, _ => (.efiInvalidParameter, none, notifyList)

/-- `KeypadUnregisterKeyNotify`. The first entry at the address is removed. -/
def keypadUnregisterKeyNotify (notificationHandle : Option ℕ)
    (notifyList : List (ConsoleInExNotify F)) : EfiStatus × List (ConsoleInExNotify F) :=
  match notificationHandle with
  | none => (.efiInvalidParameter, notifyList)
  | some handle =>
    if notifyList.any fun currentNotify => currentNotify.handle = handle then
      (.efiSuccess, notifyList.eraseP fun currentNotify => currentNotify.handle = handle)
    else (.efiInvalidParameter, notifyList)

/-- A call on the list, with what the pool returns to it. -/
inductive NotifyCall (F : Type) where
  | register (keyData : Option EfiKeyData) (fn : Option F) (hasNotifyHandle : Bool)
      (pool : Option ℕ)
  | unregister (handle : Option ℕ)

/-- What a call answers – the status, and the handle stored – and the list it
leaves. -/
def notifyAnswer (notifyList : List (ConsoleInExNotify F)) :
    NotifyCall F → (EfiStatus × Option ℕ) × List (ConsoleInExNotify F)
  | .register keyData fn hasNotifyHandle pool =>
    let answer := keypadRegisterKeyNotify keyData fn hasNotifyHandle pool notifyList
    ((answer.1, answer.2.1), answer.2.2)
  | .unregister handle =>
    let answer := keypadUnregisterKeyNotify handle notifyList
    ((answer.1, none), answer.2)

/-- The list after a call. -/
abbrev notifyStep : List (ConsoleInExNotify F) → NotifyCall F → List (ConsoleInExNotify F) :=
  Run.next notifyAnswer

@[simp] theorem notifyAnswer_register (l : List (ConsoleInExNotify F)) (keyData : Option EfiKeyData)
    (fn : Option F) (hasNotifyHandle : Bool) (pool : Option ℕ) :
    notifyAnswer l (.register keyData fn hasNotifyHandle pool)
      = (((keypadRegisterKeyNotify keyData fn hasNotifyHandle pool l).1,
          (keypadRegisterKeyNotify keyData fn hasNotifyHandle pool l).2.1),
        (keypadRegisterKeyNotify keyData fn hasNotifyHandle pool l).2.2) := rfl

/-- The pool gives out no address that is still in use. -/
def PoolFresh (notifyList : List (ConsoleInExNotify F)) : NotifyCall F → Prop
  | .register _ _ _ (some newNotify) => newNotify ∉ notifyList.map ConsoleInExNotify.handle
  | _ => True

/-! ## One call -/

/-- **What a registration can do**: fail, find an entry that covers the
request, or add an entry where none did. -/
theorem keypadRegisterKeyNotify_cases (keyData : Option EfiKeyData) (fn : Option F)
    (hasNotifyHandle : Bool) (pool : Option ℕ) (notifyList : List (ConsoleInExNotify F)) :
    (∃ status, status ≠ .efiSuccess
        ∧ keypadRegisterKeyNotify keyData fn hasNotifyHandle pool notifyList
          = (status, none, notifyList))
      ∨ (∃ k f n, keyData = some k ∧ fn = some f ∧ n ∈ notifyList ∧ n.covers k f = true
        ∧ keypadRegisterKeyNotify keyData fn hasNotifyHandle pool notifyList
          = (.efiSuccess, some n.handle, notifyList))
      ∨ (∃ k f h, keyData = some k ∧ fn = some f ∧ pool = some h
        ∧ (∀ n ∈ notifyList, n.covers k f = false)
        ∧ keypadRegisterKeyNotify keyData fn hasNotifyHandle pool notifyList
          = (.efiSuccess, some h, notifyList ++ [⟨h, k, f⟩])) := by
  cases keyData with
  | none => exact .inl ⟨.efiInvalidParameter, by decide, rfl⟩
  | some k =>
    cases fn with
    | none => exact .inl ⟨.efiInvalidParameter, by decide, rfl⟩
    | some f =>
      cases hasNotifyHandle with
      | false => exact .inl ⟨.efiInvalidParameter, by decide, rfl⟩
      | true =>
        unfold keypadRegisterKeyNotify
        cases hfind : notifyList.find? fun n : ConsoleInExNotify F => n.covers k f with
        | some n =>
          refine .inr (.inl
            ⟨k, f, n, rfl, rfl, List.mem_of_find?_eq_some hfind, ?_, by simp [hfind]⟩)
          exact List.find?_some (p := fun n : ConsoleInExNotify F => n.covers k f) hfind
        | none =>
          cases pool with
          | none => exact .inl ⟨.efiOutOfResources, by decide, by simp [hfind]⟩
          | some h =>
            refine .inr (.inr ⟨k, f, h, rfl, rfl, rfl, fun n hn => ?_, by simp [hfind]⟩)
            exact Bool.eq_false_iff.mpr (List.find?_eq_none.mp hfind n hn)

/-- A call that fails leaves the list. -/
theorem notifyAnswer_error {notifyList : List (ConsoleInExNotify F)} {call : NotifyCall F}
    (h : (notifyAnswer notifyList call).1.1 ≠ .efiSuccess) :
    (notifyAnswer notifyList call).2 = notifyList := by
  cases call with
  | register keyData fn hasNotifyHandle pool =>
    rw [notifyAnswer_register] at *
    rcases keypadRegisterKeyNotify_cases keyData fn hasNotifyHandle pool notifyList with
      ⟨status, _, heq⟩ | ⟨k, f, n, _, _, _, _, heq⟩ | ⟨k, f, p, _, _, _, _, heq⟩
    · rw [heq]
    · rw [heq]
    · rw [heq] at h
      exact absurd rfl h
  | unregister handle =>
    unfold notifyAnswer keypadUnregisterKeyNotify at *
    cases handle with
    | none => rfl
    | some handle =>
      by_cases hany : notifyList.any fun n => n.handle = handle
      · simp [hany] at h
      · simp [hany]

/-- An entry stays as long as its handle is not given to an unregistration. -/
theorem mem_notifyStep {notifyList : List (ConsoleInExNotify F)} {call : NotifyCall F}
    {n : ConsoleInExNotify F} (hn : n ∈ notifyList) (hcall : call ≠ .unregister (some n.handle)) :
    n ∈ notifyStep notifyList call := by
  cases call with
  | register keyData fn hasNotifyHandle pool =>
    show n ∈ (keypadRegisterKeyNotify keyData fn hasNotifyHandle pool notifyList).2.2
    rcases keypadRegisterKeyNotify_cases keyData fn hasNotifyHandle pool notifyList with
      ⟨_, _, heq⟩ | ⟨_, _, _, _, _, _, _, heq⟩ | ⟨_, _, _, _, _, _, _, heq⟩
    · rw [heq]
      exact hn
    · rw [heq]
      exact hn
    · rw [heq]
      exact List.mem_append_left _ hn
  | unregister handle =>
    show n ∈ (keypadUnregisterKeyNotify handle notifyList).2
    unfold keypadUnregisterKeyNotify
    cases handle with
    | none => exact hn
    | some handle =>
      have hne : ¬ n.handle = handle := fun he => hcall (by rw [he])
      dsimp only
      split
      · exact (List.mem_eraseP_of_neg (by simpa using hne)).mpr hn
      · exact hn

/-! ## Runs -/

/-- **The invariant of the list**: no two entries are alike, and no two have
the same address. -/
structure NotifyListOk (notifyList : List (ConsoleInExNotify F)) : Prop where
  distinct : (notifyList.map fun n => (n.keyData, n.keyNotificationFn)).Nodup
  handles : (notifyList.map ConsoleInExNotify.handle).Nodup

omit [DecidableEq F] in
/-- A part of the list keeps the invariant. -/
theorem NotifyListOk.sublist {l l' : List (ConsoleInExNotify F)} (h : NotifyListOk l)
    (hsub : l'.Sublist l) : NotifyListOk l' where
  distinct := h.distinct.sublist (hsub.map _)
  handles := h.handles.sublist (hsub.map _)

/-- An entry that no entry of its function covers is unlike them all. -/
theorem NotifyListOk.append {l : List (ConsoleInExNotify F)} (h : NotifyListOk l)
    {handle : ℕ} {k : EfiKeyData} {f : F} (hcov : ∀ n ∈ l, n.covers k f = false)
    (hfresh : handle ∉ l.map ConsoleInExNotify.handle) :
    NotifyListOk (l ++ [⟨handle, k, f⟩]) where
  distinct := by
    rw [List.map_append, List.nodup_append]
    refine ⟨h.distinct, List.nodup_singleton _, fun p hp q hq heq => ?_⟩
    obtain ⟨n, hn, rfl⟩ := List.mem_map.mp hp
    obtain ⟨hk, hf⟩ : n.keyData = k ∧ n.keyNotificationFn = f := by
      rw [List.map_singleton, List.mem_singleton] at hq
      exact Prod.mk.injEq .. ▸ heq.trans hq
    have hne := hcov n hn
    unfold ConsoleInExNotify.covers at hne
    rw [hk, hf, isKeyRegistered_refl] at hne
    simp at hne
  handles := by
    rw [List.map_append, List.nodup_append]
    refine ⟨h.handles, List.nodup_singleton _, fun p hp q hq heq => ?_⟩
    rw [List.map_singleton, List.mem_singleton] at hq
    have hph : p = handle := heq.trans hq
    exact hfresh (hph ▸ hp)

/-- **Every call keeps the invariant.** -/
theorem notifyListOk_step {l : List (ConsoleInExNotify F)} {call : NotifyCall F}
    (h : NotifyListOk l) (hfresh : PoolFresh l call) : NotifyListOk (notifyStep l call) := by
  cases call with
  | register keyData fn hasNotifyHandle pool =>
    show NotifyListOk (keypadRegisterKeyNotify keyData fn hasNotifyHandle pool l).2.2
    rcases keypadRegisterKeyNotify_cases keyData fn hasNotifyHandle pool l with
      ⟨_, _, heq⟩ | ⟨_, _, _, _, _, _, _, heq⟩ | ⟨k, f, p, _, _, rfl, hcov, heq⟩
    · rw [heq]
      exact h
    · rw [heq]
      exact h
    · rw [heq]
      exact h.append hcov hfresh
  | unregister handle =>
    show NotifyListOk (keypadUnregisterKeyNotify handle l).2
    unfold keypadUnregisterKeyNotify
    cases handle with
    | none => exact h
    | some handle =>
      dsimp only
      split
      · exact h.sublist List.eraseP_sublist
      · exact h

/-- The invariant holds along every run from the empty list. -/
theorem notifyListOk_run {calls : List (NotifyCall F)}
    (hpool : Run.Along notifyStep PoolFresh [] calls) :
    NotifyListOk (Run.run notifyStep [] calls) :=
  Run.Along.inv_mem (I := NotifyListOk) (fun _ _ _ h hfresh => notifyListOk_step h hfresh)
    ⟨List.nodup_nil, List.nodup_nil⟩ hpool

/-- A registration that succeeds leaves an entry of the function it was given,
at the handle it stored, that covers the request. -/
theorem register_success {l : List (ConsoleInExNotify F)} {k : EfiKeyData} {f : F}
    {hasNotifyHandle : Bool} {pool handle : Option ℕ}
    (h : (notifyAnswer l (.register (some k) (some f) hasNotifyHandle pool)).1
      = (.efiSuccess, handle)) :
    ∃ n ∈ notifyStep l (.register (some k) (some f) hasNotifyHandle pool),
      handle = some n.handle ∧ n.keyNotificationFn = f ∧ isKeyRegistered n.keyData k = true := by
  show ∃ n ∈ (notifyAnswer l _).2, _
  rw [notifyAnswer_register] at *
  rcases keypadRegisterKeyNotify_cases (some k) (some f) hasNotifyHandle pool l with
    ⟨status, hne, heq⟩ | ⟨_, _, n, ⟨⟩, ⟨⟩, hn, hcov, heq⟩ | ⟨_, _, p, ⟨⟩, ⟨⟩, _, _, heq⟩
  · rw [heq] at h
    exact absurd (congrArg Prod.fst h) hne
  · rw [heq] at h ⊢
    obtain ⟨hmatch, hf⟩ : isKeyRegistered n.keyData k = true ∧ n.keyNotificationFn = f := by
      simpa [ConsoleInExNotify.covers] using hcov
    exact ⟨n, hn, (congrArg Prod.snd h).symm, hf, hmatch⟩
  · rw [heq] at h ⊢
    exact ⟨⟨p, k, f⟩, by simp, (congrArg Prod.snd h).symm, rfl, isKeyRegistered_refl k⟩

omit [DecidableEq F] in
/-- **Removing the entry at a handle removes that entry**, and no other, when
no two entries have the same address. -/
theorem unregister_removes {l : List (ConsoleInExNotify F)}
    (hl : (l.map ConsoleInExNotify.handle).Nodup) {n : ConsoleInExNotify F} (hn : n ∈ l) :
    ∃ before after, l = before ++ n :: after
      ∧ keypadUnregisterKeyNotify (some n.handle) l = (.efiSuccess, before ++ after) := by
  obtain ⟨before, after, rfl⟩ := List.append_of_mem hn
  refine ⟨before, after, rfl, ?_⟩
  have hbefore : ∀ m ∈ before, ¬ (decide (m.handle = n.handle) = true) := by
    intro m hm heq
    rw [List.map_append, List.nodup_append] at hl
    exact hl.2.2 m.handle (List.mem_map_of_mem hm) n.handle (by simp) (by simpa using heq)
  have herase : (before ++ n :: after).eraseP (fun m => m.handle = n.handle)
      = before ++ after := by
    rw [List.eraseP_append_right _ hbefore, List.eraseP_cons_of_pos (by simp)]
  unfold keypadUnregisterKeyNotify
  dsimp only
  rw [if_pos (by simp), herase]

/-- **The notify list is sound.** Over every run of registrations and removals
on a pool that gives out no address in use: no two entries are alike; from a
successful registration until its handle is given to an unregistration, what
matches the request matches an entry of its function; an unregistration of a
handle in the list removes exactly that entry; and a call that fails leaves
the list. -/
theorem keyNotify_sound {calls : List (NotifyCall F)}
    (hpool : Run.Along notifyStep PoolFresh [] calls) :
    let notifyList := Run.run notifyStep [] calls
    (notifyList.map fun n => (n.keyData, n.keyNotificationFn)).Nodup
      ∧ (∀ before k f hasNotifyHandle pool handle after,
          calls = before ++ .register (some k) (some f) hasNotifyHandle pool :: after →
          (notifyAnswer (Run.run notifyStep [] before)
            (.register (some k) (some f) hasNotifyHandle pool)).1 = (.efiSuccess, some handle) →
          NotifyCall.unregister (some handle) ∉ after →
          ∀ x, isKeyRegistered k x = true →
            ∃ n ∈ notifyList, n.keyNotificationFn = f ∧ isKeyRegistered n.keyData x = true)
      ∧ (∀ n ∈ notifyList, ∃ before after, notifyList = before ++ n :: after
          ∧ keypadUnregisterKeyNotify (some n.handle) notifyList = (.efiSuccess, before ++ after))
      ∧ (∀ call, (notifyAnswer notifyList call).1.1 ≠ .efiSuccess →
          (notifyAnswer notifyList call).2 = notifyList) := by
  have hok := notifyListOk_run hpool
  refine ⟨hok.distinct, ?_, fun n hn => unregister_removes hok.handles hn,
    fun call => notifyAnswer_error⟩
  rintro before k f hasNotifyHandle pool handle after rfl hanswer hafter x hx
  obtain ⟨n, hn, hhandle, hf, hmatch⟩ := register_success hanswer
  cases hhandle
  refine ⟨n, ?_, hf, isKeyRegistered_trans hmatch hx⟩
  -- the entry stays through the calls after the registration
  rw [Run.run_append, Run.run_cons]
  refine Run.inv_run_mem (I := fun l => n ∈ l)
    (fun l call hcall hmem => mem_notifyStep hmem fun heq => hafter ?_) hn
  rw [← heq]
  exact hcall

/-- A registration for a key, and one of the same function for the key with
a shift state: the second is covered by the first, and stays so without an
entry of its own. -/
theorem keyNotify_sound_shared :
    let key : EfiKeyData := ⟨0, 0x61, 0, 0⟩
    let shifted : EfiKeyData := ⟨0, 0x61, 0x80000001, 0⟩
    let calls : List (NotifyCall ℕ) :=
      [.register (some key) (some 7) true (some 100),
        .register (some shifted) (some 7) true none]
    Run.run notifyStep [] calls = [⟨100, key, 7⟩]
      ∧ ∀ x, isKeyRegistered shifted x = true →
        ∃ n ∈ Run.run notifyStep [] calls,
          n.keyNotificationFn = 7 ∧ isKeyRegistered n.keyData x = true := by
  intro key shifted calls
  have hpool : Run.Along notifyStep PoolFresh [] calls := by
    simp [calls, Run.Along, PoolFresh]
  refine ⟨by decide, ?_⟩
  exact (keyNotify_sound hpool).2.1 [.register (some key) (some 7) true (some 100)] shifted 7
    true none 100 [] rfl (by decide) (by simp)

end Keypad
