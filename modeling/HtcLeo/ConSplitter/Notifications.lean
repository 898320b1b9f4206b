import HtcLeo.ConSplitter.ToggleState
import HtcLeo.Lib.History

/-!
# Handles of notifications

A notification has a handle for each keyboard, at the place the keyboard has in the
list. When a keyboard goes, the list closes up and the handles stay where they are. What
is kept by everything else is `Known`: a handle in use has been given out for that
notification, by a keyboard that is the `same` as the one at its place. Every request
to unregister a notification is then for a handle that keyboard has given.

With any keyboard for the `same` this holds in every run. With the keyboard itself, it
holds as long as those that are left stand where they stood.
-/

namespace ConSplitter

open StatusCode Block Run

variable {δ : Type}

/-! ## Handles that have been given -/

/-- The keyboard has given the handle for a notification. -/
def GaveHandle (log : List (TextInEvent δ)) (textInEx : δ) (notifyHandle : ℕ) : Prop :=
  ∃ keyData function, .registerKeyNotify textInEx keyData function notifyHandle ∈ log

/-- A request to unregister a notification is for a handle that has been given. -/
def AsksGiven (same : δ → δ → Prop) (before : List (TextInEvent δ)) (event : TextInEvent δ) :
    Prop :=
  ∀ textInEx notifyHandle, event = .unregisterKeyNotify textInEx notifyHandle →
    ∃ giver, same textInEx giver ∧ GaveHandle before giver notifyHandle

/-- **The handles are known**: those in use have been given for their notifications, and so have
all that were ever asked for. -/
structure Known (same : δ → δ → Prop) (s : TextInSplitter δ) : Prop where
  handles : ∀ notify ∈ s.notifyList, ∀ i < s.currentNumberOfExConsoles, ∃ giver,
    same (s.textInExList.cell i) giver
      ∧ .registerKeyNotify giver notify.keyData notify.keyNotificationFn
        (notify.notifyHandleList.cell i) ∈ s.log
  asked : Recorded (AsksGiven same) s.log

/-- It is about a notification. -/
def TextInEvent.notification : TextInEvent δ → Bool
  | .registerKeyNotify .. => true
  | .unregisterKeyNotify .. => true
  | _ => false

theorem asksGiven_of_not {event : TextInEvent δ} (same : δ → δ → Prop)
    (h : event.notification = false) (before : List (TextInEvent δ)) :
    AsksGiven same before event := by
  rintro textInEx notifyHandle rfl
  cases h

theorem wholeKeys_of_notification {events : List (TextInEvent δ)}
    (h : ∀ event ∈ events, event.notification = true) : wholeKeys events = [] :=
  List.filterMap_eq_nil_iff.2 fun event hevent => by
    have hevent := h event hevent
    cases event <;> first | rfl | cases hevent

theorem statesTold_of_notification {events : List (TextInEvent δ)}
    (h : ∀ event ∈ events, event.notification = true) : statesTold events = [] :=
  List.filterMap_eq_nil_iff.2 fun event hevent => by
    have hevent := h event hevent
    cases event <;> first | rfl | cases hevent

variable {same : δ → δ → Prop}

/-- Other things that are recorded. -/
theorem Known.of_log {s s' : TextInSplitter δ} (h : Known same s) (events : List (TextInEvent δ))
    (hnotifyList : s'.notifyList = s.notifyList)
    (hnumber : s'.currentNumberOfExConsoles = s.currentNumberOfExConsoles)
    (hlist : s'.textInExList = s.textInExList) (hlog : s'.log = s.log ++ events)
    (hevents : ∀ event ∈ events, event.notification = false) : Known same s' where
  handles notify hnotify i hi := by
    rw [hnotifyList] at hnotify
    obtain ⟨giver, hsame, hgave⟩ := h.handles notify hnotify i (hnumber ▸ hi)
    exact ⟨giver, hlist ▸ hsame, hlog ▸ List.mem_append_left _ hgave⟩
  asked := by
    rw [hlog]
    exact h.asked.append events fun event hevent _ => asksGiven_of_not same (hevents event hevent) _

theorem OnlyReads.known {s s' : TextInSplitter δ} {events : List (TextInEvent δ)}
    (hreads : OnlyReads s s' events) (h : Known same s) : Known same s' :=
  h.of_log events hreads.notifyList hreads.exConsoles hreads.exList hreads.log
    fun event hevent => by
    rcases hreads.events event hevent with ⟨textIn, key, rfl⟩ | rfl | rfl <;> rfl

/-! ## Notifications that are registered -/

/-- What is recorded of a keyboard that gives a handle. -/
theorem recorded_register {log : List (TextInEvent δ)} (h : Recorded (AsksGiven same) log)
    (textInEx : δ) (keyData : EfiKeyData) (function : KeyNotifyFunction) (notifyHandle : ℕ) :
    Recorded (AsksGiven same)
      (log ++ [.registerKeyNotify textInEx keyData function notifyHandle]) :=
  (recorded_snoc _).2 ⟨h, fun _ _ heq => by cases heq⟩

/-- What is recorded of a keyboard that is asked to take back a handle it has given. -/
theorem recorded_unregister {log : List (TextInEvent δ)} (h : Recorded (AsksGiven same) log)
    {textInEx giver : δ} (hsame : same textInEx giver) {notifyHandle : ℕ}
    (hgave : GaveHandle log giver notifyHandle) :
    Recorded (AsksGiven same) (log ++ [.unregisterKeyNotify textInEx notifyHandle]) := by
  refine (recorded_snoc _).2 ⟨h, fun textInEx' notifyHandle' heq => ?_⟩
  cases heq
  exact ⟨giver, hsame, hgave⟩

/-- More of what is only about notifications. -/
def MoreNotifications (log log' : List (TextInEvent δ)) : Prop :=
  ∃ events, log' = log ++ events ∧ ∀ event ∈ events, event.notification = true

theorem MoreNotifications.refl (log : List (TextInEvent δ)) : MoreNotifications log log :=
  ⟨[], (List.append_nil _).symm, fun _ h => by cases h⟩

theorem MoreNotifications.snoc {log log' : List (TextInEvent δ)} (h : MoreNotifications log log')
    {event : TextInEvent δ} (hevent : event.notification = true) :
    MoreNotifications log (log' ++ [event]) := by
  obtain ⟨events, rfl, hevents⟩ := h
  refine ⟨events ++ [event], List.append_assoc _ _ _, fun e he => ?_⟩
  rcases List.mem_append.1 he with hfirst | hlast
  · exact hevents e hfirst
  · exact List.mem_singleton.1 hlast ▸ hevent

/-- Every request is for a handle that has been given, if it was so before. -/
def StaysAsked (log log' : List (TextInEvent δ)) : Prop :=
  ∀ same : δ → δ → Prop, (∀ d, same d d) → Recorded (AsksGiven same) log →
    Recorded (AsksGiven same) log'

/-- **A notification with the first `k` keyboards**: each of them has given its handle for it. -/
structure Registering (list : Block δ) (keyData : EfiKeyData)
    (function : KeyNotifyFunction) (size : ℕ) (log : List (TextInEvent δ)) (k : ℕ)
    (t : Block ℕ × List (TextInEvent δ)) : Prop where
  size : t.1.size = size
  more : MoreNotifications log t.2
  gave : ∀ i < k, .registerKeyNotify (list.cell i) keyData function (t.1.cell i) ∈ t.2
  asked : StaysAsked log t.2

/-- **A notification is registered with all keyboards**, or with none. -/
theorem registerTurns_spec (around : Keyboards) (list : Block δ) (keyData : EfiKeyData)
    (function : KeyNotifyFunction) {n : ℕ} {handles : Block ℕ} (log : List (TextInEvent δ))
    (hlist : n ≤ list.size) (hhandles : n ≤ handles.size) :
    ∃ status t, tryEach efiError efiSuccess (registerTurn around list keyData function)
        (unregisterTurn list) (List.range n) (handles, log) = some (status, t)
      ∧ Registering list keyData function handles.size log
        (if efiError status then 0 else n) t := by
  refine tryEach_range (Registering list keyData function handles.size log) rfl
    (fun k hk t h => ?_) (fun k hk t h => ?_)
    ⟨rfl, .refl log, fun i hi => absurd hi (Nat.not_lt_zero i), fun _ _ => id⟩
  · have hwrite : k < t.1.size := h.size.symm ▸ hk.trans_le hhandles
    unfold registerTurn
    rw [read_of_lt (hk.trans_le hlist)]
    dsimp only [Option.bind_eq_bind, Option.bind_some]
    cases herror : efiError (around.registerKeyNotify k).1 with
    | true =>
      rw [if_pos rfl]
      refine ⟨_, t, rfl, ?_⟩
      rwa [if_pos herror]
    | false =>
      rw [if_neg Bool.false_ne_true, write_of_lt hwrite]
      refine ⟨_, _, rfl, ?_⟩
      rw [if_neg (Bool.eq_false_iff.1 herror)]
      refine ⟨h.size, h.more.snoc rfl, fun i hi => ?_,
        fun same hrefl hasked => recorded_register (h.asked same hrefl hasked) _ _ _ _⟩
      dsimp only
      rcases Nat.lt_succ_iff_lt_or_eq.1 hi with hlt | rfl
      · rw [Function.update_of_ne (Nat.ne_of_lt hlt)]
        exact List.mem_append_left _ (h.gave i hlt)
      · rw [Function.update_self]
        exact List.mem_append_right _ (List.mem_singleton.2 rfl)
  · have hread : k < t.1.size := h.size.symm ▸ hk.trans_le hhandles
    unfold unregisterTurn
    rw [read_of_lt (hk.trans_le hlist)]
    dsimp only [Option.bind_eq_bind, Option.bind_some]
    rw [read_of_lt hread]
    refine ⟨_, rfl, h.size, h.more.snoc rfl, fun i hi => ?_, fun same hrefl hasked => ?_⟩
    · exact List.mem_append_left _ (h.gave i (Nat.lt_succ_of_lt hi))
    · exact recorded_unregister (h.asked same hrefl hasked) (hrefl _)
        ⟨keyData, function, h.gave k (Nat.lt_succ_self k)⟩

/-- The same notification, with the handles of the places that are kept. -/
structure SameNotify (keep : ℕ → Prop) (notify notify' : Notify) : Prop where
  keyData : notify'.keyData = notify.keyData
  function : notify'.keyNotificationFn = notify.keyNotificationFn
  cells : ∀ i, keep i → notify'.notifyHandleList.cell i = notify.notifyHandleList.cell i

/-- **A new keyboard with the first `k` notifications**: it has given a handle for each of them. -/
structure RegisteringNew (textInEx : δ) (index : ℕ) (notifies : List Notify)
    (log : List (TextInEvent δ)) (k : ℕ) (t : List Notify × List (TextInEvent δ)) : Prop where
  length : t.1.length = notifies.length
  more : MoreNotifications log t.2
  notify : ∀ i notify', t.1[i]? = some notify' → ∃ notify, notifies[i]? = some notify
    ∧ SameNotify (· ≠ index) notify notify'
    ∧ notify'.notifyHandleList.size = notify.notifyHandleList.size
    ∧ (i < k → .registerKeyNotify textInEx notify'.keyData notify'.keyNotificationFn
      (notify'.notifyHandleList.cell index) ∈ t.2)
  asked : StaysAsked log t.2

/-- **All notifications are registered with a new keyboard**, or none. -/
theorem registerNewTurns_spec (around : Keyboards) (textInEx : δ) {index : ℕ}
    {notifies : List Notify} {log : List (TextInEvent δ)}
    (hroom : ∀ notify ∈ notifies, index < notify.notifyHandleList.size) :
    ∃ status t, tryEach efiError efiSuccess (registerNewTurn around textInEx index)
        (unregisterNewTurn textInEx index) (List.range notifies.length) (notifies, log)
          = some (status, t)
      ∧ RegisteringNew textInEx index notifies log
        (if efiError status then 0 else notifies.length) t := by
  -- the notification at a place
  have hget : ∀ k < notifies.length, ∀ t k',
      RegisteringNew textInEx index notifies log k' t → ∃ notify', t.1[k]? = some notify'
        ∧ index < notify'.notifyHandleList.size := by
    intro k hk t k' h
    have hsome := List.getElem?_eq_getElem (h.length.symm ▸ hk)
    obtain ⟨notify, hnotify, -, hsize, -⟩ := h.notify k _ hsome
    exact ⟨_, hsome, hsize.symm ▸ hroom notify (List.mem_of_getElem? hnotify)⟩
  refine tryEach_range (RegisteringNew textInEx index notifies log) rfl
    (fun k hk t h => ?_) (fun k hk t h => ?_)
    ⟨rfl, .refl log, fun i notify' hnotify' => ⟨notify', hnotify', ⟨rfl, rfl, fun _ _ => rfl⟩, rfl,
      fun hi => absurd hi (Nat.not_lt_zero i)⟩, fun _ _ => id⟩
  · obtain ⟨notify, hnotify, hwrite⟩ := hget k hk t k h
    unfold registerNewTurn
    rw [hnotify]
    dsimp only [Option.bind_eq_bind, Option.bind_some]
    cases herror : efiError (around.registerKeyNotify k).1 with
    | true =>
      rw [if_pos rfl]
      refine ⟨_, t, rfl, ?_⟩
      rwa [if_pos herror]
    | false =>
      rw [if_neg Bool.false_ne_true, write_of_lt hwrite]
      refine ⟨_, _, rfl, ?_⟩
      rw [if_neg (Bool.eq_false_iff.1 herror)]
      refine ⟨?_, h.more.snoc rfl, fun i notify' hnotify' => ?_,
        fun same hrefl hasked => recorded_register (h.asked same hrefl hasked) _ _ _ _⟩
      · exact List.length_set.trans h.length
      · dsimp only at hnotify'
        by_cases hi : i = k
        · subst hi
          rw [List.getElem?_set_self (h.length.symm ▸ hk)] at hnotify'
          obtain rfl := Option.some.inj hnotify'
          obtain ⟨notify₀, hnotify₀, hsame, hsize, -⟩ := h.notify i notify hnotify
          refine ⟨notify₀, hnotify₀, ⟨hsame.keyData, hsame.function,
            fun j hj => (Function.update_of_ne hj _ _).trans (hsame.cells j hj)⟩, hsize,
            fun _ => ?_⟩
          dsimp only
          rw [Function.update_self]
          exact List.mem_append_right _ (List.mem_singleton.2 rfl)
        · rw [List.getElem?_set_ne (Ne.symm hi)] at hnotify'
          obtain ⟨notify₀, hnotify₀, hsame, hsize, hgave⟩ := h.notify i notify' hnotify'
          exact ⟨notify₀, hnotify₀, hsame, hsize,
            fun hlt => List.mem_append_left _ (hgave (by omega))⟩
  · obtain ⟨notify, hnotify, hread⟩ := hget k hk t (k + 1) h
    unfold unregisterNewTurn
    rw [hnotify]
    dsimp only [Option.bind_eq_bind, Option.bind_some]
    rw [read_of_lt hread]
    refine ⟨_, rfl, h.length, h.more.snoc rfl, fun i notify' hnotify' => ?_,
      fun same hrefl hasked => ?_⟩
    · obtain ⟨notify₀, hnotify₀, hsame, hsize, hgave⟩ := h.notify i notify' hnotify'
      exact ⟨notify₀, hnotify₀, hsame, hsize,
        fun hlt => List.mem_append_left _ (hgave (Nat.lt_succ_of_lt hlt))⟩
    · obtain ⟨-, -, -, -, hgave⟩ := h.notify k notify hnotify
      exact recorded_unregister (h.asked same hrefl hasked) (hrefl _)
        ⟨_, _, hgave (Nat.lt_succ_self k)⟩

end ConSplitter
