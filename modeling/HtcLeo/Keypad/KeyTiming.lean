import HtcLeo.Keypad.KeyStatus
import HtcLeo.Lib.Run
import Mathlib.Tactic.Common

/-!
# When a key is reported

The time of a key counts from the update that found it pressed, and again from
each event that was reported while it is held. What follows is about traces of
updates, with whatever the other keys have made of the shared bitmaps in
between: a press is reported once on release or, held for half a second, then
and every fifth of a second (`keyTiming`). The times are sums of numbers, and the code
adds words of 64 bits: a press that takes longer than they can say may go by for a
short one, and is then reported when it is let go (`not_quietRelease_wrap`).

A press begins with an update that finds the key released and sees it pressed,
and lasts until an update returns it to the released state – a key that comes
back before a release has been accepted goes on with its press.
-/

namespace Keypad

/-- One update: the bitmaps as it finds them, what it sees of the key, and the
time since the update before. -/
structure StatusUpdate where
  maps : KeyBitmaps
  isPressed : Bool
  delta : UInt64

/-- The bitmaps with the state of the key noted. -/
def StatusUpdate.noted (u : StatusUpdate) (context : KeyContext) : KeyBitmaps :=
  keySetState u.maps context.keyData.scanCode context.keyData.unicodeChar u.isPressed

/-- What an update pushes, and the context it leaves. -/
def updateStatus (context : KeyContext) (u : StatusUpdate) : List EfiKeyData × KeyContext :=
  let (_, context, pushed) := libKeyUpdateKeyStatus u.maps context u.isPressed u.delta
  (pushed, context)

/-- The context an update leaves. -/
def updateContext : KeyContext → StatusUpdate → KeyContext := Run.next updateStatus

/-- What an update pushes. -/
def pushedBy (context : KeyContext) (u : StatusUpdate) : List EfiKeyData :=
  (updateStatus context u).1

/-- An update is the switch on the context whose time has gone on. -/
theorem updateStatus_eq (context : KeyContext) (u : StatusUpdate) :
    updateContext context u
        = (keyTransition (u.noted context) (context.after u.delta) u.isPressed).1
      ∧ pushedBy context u
        = (keyTransition (u.noted context) (context.after u.delta) u.isPressed).2 := ⟨rfl, rfl⟩

/-! ## The phases of a press -/

/-- A released key, with nothing left of the press before. -/
structure KeyContext.AtRest (context : KeyContext) : Prop where
  state_eq : context.state = .released
  repeats_eq : context.repeats = false
  longpress_eq : context.longpress = false

/-- A key that is repeating, `time` after its last event. -/
structure KeyContext.Repeating (context : KeyContext) (time : UInt64) : Prop where
  state_eq : context.state = .pressed
  repeats_eq : context.repeats = true
  longpress_eq : context.longpress = true
  time_eq : context.time = time

/-- A key whose press has been recognised as a long one. -/
structure KeyContext.Long (context : KeyContext) : Prop where
  state_eq : context.state = .pressed
  longpress_eq : context.longpress = true

theorem KeyContext.Lost.long {context : KeyContext} (h : context.Lost) : context.Long :=
  ⟨h.state_eq, h.longpress_eq⟩

theorem KeyContext.Repeating.long {context : KeyContext} {time : UInt64}
    (h : context.Repeating time) : context.Long :=
  ⟨h.state_eq, h.longpress_eq⟩

/-- A long press is repeating or lost. -/
theorem KeyContext.Long.cases {context : KeyContext} (h : context.Long) :
    context.Repeating context.time ∨ context.Lost := by
  cases hrepeats : context.repeats with
  | false => exact .inr ⟨h.state_eq, hrepeats, h.longpress_eq⟩
  | true => exact .inl ⟨h.state_eq, hrepeats, h.longpress_eq, rfl⟩

/-- What every context of a trace keeps. -/
structure KeyContext.Sound (context : KeyContext) : Prop where
  released : context.state = .released → context.AtRest
  pressed : context.state = .pressed → context.Held context.time ∨ context.Long

section Update

variable {context : KeyContext} {time : UInt64} (u : StatusUpdate)

/-- A key at rest waits for its press. -/
theorem update_atRest (h : context.AtRest) :
    pushedBy context u = []
      ∧ if u.isPressed then (updateContext context u).Held 0
        else (updateContext context u).AtRest := by
  obtain ⟨hcontext, hpushed⟩ := updateStatus_eq context u
  have hstate : (context.after u.delta).state = .released := h.state_eq
  rw [hcontext, hpushed]
  unfold keyTransition
  rw [hstate]
  cases u.isPressed with
  | false => exact ⟨rfl, ⟨h.state_eq, h.repeats_eq, h.longpress_eq⟩⟩
  | true => exact ⟨rfl, ⟨rfl, h.repeats_eq, h.longpress_eq, rfl⟩⟩

/-- A held key that is let go is reported, and its release is under way. -/
theorem update_held_release (h : context.Held time) (hu : u.isPressed = false) :
    pushedBy context u = [context.keyData]
      ∧ (updateContext context u).state = .longpressRelease := by
  obtain ⟨hcontext, hpushed⟩ := updateStatus_eq context u
  have hstate : (context.after u.delta).state = .pressed := h.state_eq
  have hlongpress : (context.after u.delta).longpress = false := h.longpress_eq
  rw [hcontext, hpushed, hu]
  unfold keyTransition
  rw [hstate, hlongpress]
  exact ⟨rfl, rfl⟩

/-- A held key that is held on for less than half a second stays held. -/
theorem update_held_short (h : context.Held time) (hu : u.isPressed = true)
    (hshort : ¬ ms2ns 500 ≤ time + u.delta) :
    pushedBy context u = [] ∧ (updateContext context u).Held (time + u.delta) := by
  obtain ⟨hcontext, hpushed⟩ := updateStatus_eq context u
  obtain ⟨hheld, hnone⟩ := transition_held_short (u.noted context) (h.after u.delta) hshort
  rw [hcontext, hpushed, hu]
  exact ⟨hnone, hheld⟩

/-- A key held for half a second is a long press: it starts to repeat as it is
reported, or is lost to a combination. -/
theorem update_held_long (h : context.Held time) (hu : u.isPressed = true)
    (hlong : ms2ns 500 ≤ time + u.delta) :
    (updateContext context u).Lost
      ∨ pushedBy context u = [context.keyData] ∧ (updateContext context u).Repeating 0 := by
  obtain ⟨hcontext, hpushed⟩ := updateStatus_eq context u
  have hafter := h.after u.delta
  have hhalf : (!(context.after u.delta).longpress
      && decide ((context.after u.delta).time ≥ ms2ns 500)) = true := by
    rw [hafter.longpress_eq, hafter.time_eq, decide_eq_true hlong]
    rfl
  rw [hcontext, hpushed, hu]
  unfold keyTransition
  rw [hafter.state_eq]
  dsimp only
  rw [if_pos rfl, if_neg hafter.not_repeating, if_pos hhalf]
  split
  · split
    · exact .inl ⟨rfl, hafter.repeats_eq, rfl⟩
    · split
      · exact .inl ⟨rfl, hafter.repeats_eq, rfl⟩
      · exact .inl ⟨rfl, hafter.repeats_eq, rfl⟩
  · split
    · exact .inr ⟨rfl, ⟨rfl, rfl, rfl, rfl⟩⟩
    · exact .inl ⟨rfl, hafter.repeats_eq, rfl⟩

/-- A repeating key that is held on is reported every fifth of a second. -/
theorem update_repeating (h : context.Repeating time) (hu : u.isPressed = true) :
    if ms2ns 200 ≤ time + u.delta then
      pushedBy context u = [context.keyData] ∧ (updateContext context u).Repeating 0
    else pushedBy context u = [] ∧ (updateContext context u).Repeating (time + u.delta) := by
  obtain ⟨hcontext, hpushed⟩ := updateStatus_eq context u
  have hstate : (context.after u.delta).state = .pressed := h.state_eq
  have hrepeats : (context.after u.delta).repeats = true := h.repeats_eq
  have hlongpress : (context.after u.delta).longpress = true := h.longpress_eq
  have htime : (context.after u.delta).time = time + u.delta := congrArg (· + u.delta) h.time_eq
  rw [hcontext, hpushed, hu]
  unfold keyTransition
  rw [hstate]
  dsimp only
  rw [if_pos rfl, hrepeats, hlongpress, htime, Bool.true_and, Bool.not_true, Bool.false_and]
  by_cases hdue : ms2ns 200 ≤ time + u.delta
  · rw [if_pos hdue, if_pos (decide_eq_true hdue)]
    exact ⟨rfl, ⟨rfl, rfl, rfl, rfl⟩⟩
  · have hnot : ¬ decide (time + u.delta ≥ ms2ns 200) = true := fun hd =>
      hdue (of_decide_eq_true hd)
    rw [if_neg hdue, if_neg hnot, if_neg Bool.false_ne_true]
    exact ⟨rfl, ⟨hstate, hrepeats, hlongpress, htime⟩⟩

/-- A long press that is let go is not reported; it goes on until the release
has lasted, and then the key is at rest. -/
theorem update_long_release (h : context.Long) (hu : u.isPressed = false) :
    pushedBy context u = []
      ∧ ((updateContext context u).AtRest
        ∨ updateContext context u = context.after u.delta) := by
  obtain ⟨hcontext, hpushed⟩ := updateStatus_eq context u
  have hstate : (context.after u.delta).state = .pressed := h.state_eq
  have hlongpress : (context.after u.delta).longpress = true := h.longpress_eq
  rw [hcontext, hpushed, hu]
  unfold keyTransition
  rw [hstate]
  dsimp only
  rw [if_neg Bool.false_ne_true, hlongpress, Bool.not_true, if_neg Bool.false_ne_true]
  split
  · exact ⟨rfl, .inl ⟨rfl, rfl, rfl⟩⟩
  · exact ⟨rfl, .inr rfl⟩

/-- A reported release is over with the next update, whatever it sees. -/
theorem update_released (h : context.state = .longpressRelease) :
    pushedBy context u = [] ∧ (updateContext context u).AtRest := by
  obtain ⟨hcontext, hpushed⟩ := updateStatus_eq context u
  have hstate : (context.after u.delta).state = .longpressRelease := h
  rw [hcontext, hpushed]
  unfold keyTransition
  rw [hstate]
  exact ⟨rfl, ⟨rfl, rfl, rfl⟩⟩

/-- An update pushes at most one event. -/
theorem length_pushedBy_le (context : KeyContext) : (pushedBy context u).length ≤ 1 := by
  rw [(updateStatus_eq context u).2]
  unfold keyTransition
  split
  · split <;> exact Nat.zero_le 1
  · repeat' split
    all_goals first
      | exact Nat.zero_le 1
      | exact Nat.le_refl 1
  · exact Nat.zero_le 1

/-- An update leaves the data of the key. -/
theorem keyData_updateContext (context : KeyContext) :
    (updateContext context u).keyData = context.keyData := by
  rw [(updateStatus_eq context u).1, keyData_keyTransition]
  rfl

/-- **The phases are all there are**: every update of a sound context leaves a
sound one. -/
theorem KeyContext.Sound.update (h : context.Sound) : (updateContext context u).Sound := by
  have hrest : (updateContext context u).AtRest → (updateContext context u).Sound := fun hr =>
    ⟨fun _ => hr, fun hp => absurd (hr.state_eq.symm.trans hp) (by decide)⟩
  have hlong : (updateContext context u).Long → (updateContext context u).Sound := fun hl =>
    ⟨fun hr => absurd (hl.state_eq.symm.trans hr) (by decide), fun _ => .inr hl⟩
  have hheld : ∀ time, (updateContext context u).Held time → (updateContext context u).Sound :=
    fun time hh => ⟨fun hr => absurd (hh.state_eq.symm.trans hr) (by decide),
      fun _ => .inl ⟨hh.state_eq, hh.repeats_eq, hh.longpress_eq, rfl⟩⟩
  cases hstate : context.state with
  | released =>
    obtain ⟨-, hnext⟩ := update_atRest u (h.released hstate)
    split at hnext
    · exact hheld 0 hnext
    · exact hrest hnext
  | pressed =>
    cases hu : u.isPressed with
    | false =>
      rcases h.pressed hstate with hh | hl
      · have hnext := (update_held_release u hh hu).2
        exact ⟨fun hr => absurd (hnext.symm.trans hr) (by decide),
          fun hp => absurd (hnext.symm.trans hp) (by decide)⟩
      · rcases (update_long_release u hl hu).2 with hr | hkept
        · exact hrest hr
        · exact hlong (by rw [hkept]; exact ⟨hl.state_eq, hl.longpress_eq⟩)
    | true =>
      rcases h.pressed hstate with hh | hl
      · by_cases hdue : ms2ns 500 ≤ context.time + u.delta
        · rcases update_held_long u hh hu hdue with hnext | ⟨-, hnext⟩
          · exact hlong hnext.long
          · exact hlong hnext.long
        · exact hheld _ (update_held_short u hh hu hdue).2
      · rcases hl.cases with hrep | hlost
        · have hnext := update_repeating u hrep hu
          split at hnext
          · exact hlong hnext.2.long
          · exact hlong hnext.2.long
        · have hidle : (context.after u.delta).Idle := fun hr =>
            absurd (hlost.state_eq.symm.trans hr) (by decide)
          rcases (transition_lost (u.noted context) (hlost.after u.delta) u.isPressed).2
            with hr | hkept
          · obtain ⟨hrepeats, hlongpress⟩ :=
              idle_keyTransition (u.noted context) hidle u.isPressed hr
            exact hrest ⟨hr, hrepeats, hlongpress⟩
          · exact hlong hkept.long
  | longpressRelease => exact hrest (update_released u hstate).2

end Update

/-! ## Traces -/

/-- The time of a context after these updates, counted from `time` on as `UINT64` counts. -/
def elapsed (time : UInt64) (updates : List StatusUpdate) : UInt64 :=
  updates.foldl (fun t u => t + u.delta) time

/-- The time these updates add up to. -/
def accumulated : List StatusUpdate → ℕ
  | [] => 0
  | u :: updates => u.delta.toNat + accumulated updates

theorem elapsed_concat (time : UInt64) (updates : List StatusUpdate) (u : StatusUpdate) :
    elapsed time (updates ++ [u]) = elapsed time updates + u.delta := by
  unfold elapsed
  rw [List.foldl_append]
  rfl

/-- A context counts the sum of the times, but for what goes past 64 bits. -/
theorem toNat_elapsed (time : UInt64) (updates : List StatusUpdate) :
    (elapsed time updates).toNat = (time.toNat + accumulated updates) % 2 ^ 64 := by
  induction updates generalizing time with
  | nil => exact (Nat.mod_eq_of_lt time.toNat_lt).symm
  | cons u updates ih =>
    show (elapsed (time + u.delta) updates).toNat = _
    rw [ih, UInt64.toNat_add, Nat.mod_add_mod, Nat.add_assoc]
    rfl

/-- It never counts more. -/
theorem toNat_elapsed_le (updates : List StatusUpdate) :
    (elapsed 0 updates).toNat ≤ accumulated updates := by
  rw [toNat_elapsed]
  exact Nat.le_trans (Nat.mod_le _ _) (Nat.le_of_eq (Nat.zero_add _))

/-- A sum that fits is what the context counts. -/
theorem toNat_elapsed_of_lt {updates : List StatusUpdate} (h : accumulated updates < 2 ^ 64) :
    (elapsed 0 updates).toNat = accumulated updates := by
  rw [toNat_elapsed, show (0 : UInt64).toNat = 0 from rfl, Nat.zero_add, Nat.mod_eq_of_lt h]

/-- The press is not over by the end of these updates. -/
def Lasts (context : KeyContext) (updates : List StatusUpdate) : Prop :=
  Run.Along updateContext (fun c u => (updateContext c u).state ≠ .released) context updates

/-- Nothing is pushed by these updates. -/
def Silent (context : KeyContext) (updates : List StatusUpdate) : Prop :=
  Run.Along updateContext (fun c u => pushedBy c u = []) context updates

section Trace

variable {context : KeyContext} {time : UInt64} {updates : List StatusUpdate}

/-- A lost press stays lost while it lasts. -/
theorem lost_updates_run (h : context.Lost) (hlasts : Lasts context updates) :
    (Run.run updateContext context updates).Lost := by
  refine Run.Along.inv_mem (fun c u _ hc hnext => ?_) h hlasts
  exact (transition_lost (u.noted c) (hc.after u.delta) u.isPressed).2.resolve_left hnext

/-- Nothing is pushed for a lost press. -/
theorem pushedBy_lost (h : context.Lost) (u : StatusUpdate) : pushedBy context u = [] :=
  (transition_lost (u.noted context) (h.after u.delta) u.isPressed).1

/-- A long press stays one while it lasts. -/
theorem Long.update (h : context.Long) {u : StatusUpdate}
    (hlasts : (updateContext context u).state ≠ .released) : (updateContext context u).Long := by
  cases hu : u.isPressed with
  | false =>
    rcases (update_long_release u h hu).2 with hr | hkept
    · exact absurd hr.state_eq hlasts
    · rw [hkept]
      exact ⟨h.state_eq, h.longpress_eq⟩
  | true =>
    rcases h.cases with hrep | hlost
    · have hnext := update_repeating u hrep hu
      split at hnext
      · exact hnext.2.long
      · exact hnext.2.long
    · exact ((transition_lost (u.noted context) (hlost.after u.delta) u.isPressed).2.resolve_left
        hlasts).long

theorem long_run (h : context.Long) (hlasts : Lasts context updates) :
    (Run.run updateContext context updates).Long :=
  Run.Along.inv_mem (fun _ _ _ hc hnext => Long.update hc hnext) h hlasts

/-- **A press with nothing pushed for it** is held for the time that has gone
by, or is lost. -/
theorem held_silent_run (h : context.Held time) (hlasts : Lasts context updates)
    (hsilent : Silent context updates) :
    (Run.run updateContext context updates).Held (elapsed time updates)
      ∨ (Run.run updateContext context updates).Lost := by
  induction updates generalizing context time with
  | nil => exact .inl h
  | cons u updates ih =>
    obtain ⟨hnone, hsilent⟩ := hsilent
    cases hu : u.isPressed with
    | false =>
      have hpushed := (update_held_release u h hu).1
      rw [hnone] at hpushed
      exact absurd hpushed (List.cons_ne_nil _ _).symm
    | true =>
      by_cases hdue : ms2ns 500 ≤ time + u.delta
      · rcases update_held_long u h hu hdue with hlost | ⟨hpushed, -⟩
        · have hend := lost_updates_run hlost hlasts.2
          exact .inr hend
        · rw [hnone] at hpushed
          exact absurd hpushed (List.cons_ne_nil _ _).symm
      · exact ih (update_held_short u h hu hdue).2 hlasts.2 hsilent

/-- **Between two events of a repeating key** the time counts on. -/
theorem repeating_silent_run (h : context.Repeating time) (hlasts : Lasts context updates)
    (hsilent : Silent context updates) :
    (Run.run updateContext context updates).Repeating (elapsed time updates) := by
  induction updates generalizing context time with
  | nil => exact h
  | cons u updates ih =>
    obtain ⟨hnone, hsilent⟩ := hsilent
    refine ih ?_ hlasts.2 hsilent
    cases hu : u.isPressed with
    | false =>
      rcases (update_long_release u h.long hu).2 with hr | hkept
      · exact absurd hr.state_eq hlasts.1
      · rw [hkept]
        exact ⟨h.state_eq, h.repeats_eq, h.longpress_eq, congrArg (· + u.delta) h.time_eq⟩
    | true =>
      have hnext := update_repeating u h hu
      split at hnext
      · have hpushed := hnext.1
        rw [hnone] at hpushed
        exact absurd hpushed (List.cons_ne_nil _ _).symm
      · exact hnext.2

/-- **A press held for half a second is a long one**: either it was recognised
before, or the update that completes the half second recognises it. -/
theorem held_long_run (h : context.Held time) {u : StatusUpdate} (hu : u.isPressed = true)
    (hlasts : Lasts context (updates ++ [u])) (hdue : ms2ns 500 ≤ elapsed time (updates ++ [u])) :
    (Run.run updateContext context (updates ++ [u])).Long := by
  induction updates generalizing context time with
  | nil =>
    rcases update_held_long u h hu hdue with hnext | ⟨-, hnext⟩
    · exact hnext.long
    · exact hnext.long
  | cons v updates ih =>
    obtain ⟨hheld, hlasts⟩ := hlasts
    cases hv : v.isPressed with
    | false =>
      -- the key would be at rest with the next update
      have hnext := (update_held_release v h hv).2
      cases updates with
      | nil => exact absurd (update_released u hnext).2.state_eq hlasts.1
      | cons w updates => exact absurd (update_released w hnext).2.state_eq hlasts.1
    | true =>
      by_cases hlong : ms2ns 500 ≤ time + v.delta
      · have hnext : (updateContext context v).Long := by
          rcases update_held_long v h hv hlong with hnext | ⟨-, hnext⟩
          · exact hnext.long
          · exact hnext.long
        have hend := long_run hnext hlasts
        exact hend
      · exact ih (update_held_short v h hv hlong).2 hlasts hdue

/-- A key at rest that is not pressed is not reported. -/
theorem atRest_quiet (h : context.AtRest) (hquiet : ∀ u ∈ updates, u.isPressed = false) :
    Silent context updates := by
  induction updates generalizing context with
  | nil => trivial
  | cons u updates ih =>
    obtain ⟨hnone, hnext⟩ := update_atRest u h
    rw [hquiet u List.mem_cons_self, if_neg Bool.false_ne_true] at hnext
    exact ⟨hnone, ih hnext fun v hv => hquiet v (List.mem_cons_of_mem u hv)⟩

/-- **A long press that is let go is not reported any more.** -/
theorem long_quiet (h : context.Long) (hquiet : ∀ u ∈ updates, u.isPressed = false) :
    Silent context updates := by
  induction updates generalizing context with
  | nil => trivial
  | cons u updates ih =>
    have hlater : ∀ v ∈ updates, v.isPressed = false := fun v hv =>
      hquiet v (List.mem_cons_of_mem u hv)
    obtain ⟨hnone, hnext⟩ := update_long_release u h (hquiet u List.mem_cons_self)
    rcases hnext with hr | hkept
    · exact ⟨hnone, atRest_quiet hr hlater⟩
    · exact ⟨hnone, ih (by rw [hkept]; exact ⟨h.state_eq, h.longpress_eq⟩) hlater⟩

/-- **A short press**, as long as it is held, stays held without an event. -/
theorem held_short_run (h : context.Held time) (hpressed : ∀ u ∈ updates, u.isPressed = true)
    (hshort : ∀ l, l ≠ [] → l <+: updates → elapsed time l < ms2ns 500) :
    Silent context updates ∧ (Run.run updateContext context updates).Held (elapsed time updates)
      ∧ (Run.run updateContext context updates).keyData = context.keyData := by
  induction updates generalizing context time with
  | nil => exact ⟨trivial, h, rfl⟩
  | cons u updates ih =>
    have hfirst : ¬ ms2ns 500 ≤ time + u.delta := UInt64.not_le.mpr
      (hshort [u] (List.cons_ne_nil u []) (List.prefix_append [u] updates))
    obtain ⟨hnone, hnext⟩ := update_held_short u h (hpressed u List.mem_cons_self) hfirst
    obtain ⟨hsilent, hheld, hdata⟩ := ih hnext
      (fun v hv => hpressed v (List.mem_cons_of_mem u hv))
      (fun l _ hl => hshort (u :: l) (List.cons_ne_nil u l) (List.cons_prefix_cons.mpr ⟨rfl, hl⟩))
    exact ⟨⟨hnone, hsilent⟩, hheld, hdata.trans (keyData_updateContext u context)⟩

/-- A key at rest that is not pressed stays at rest. -/
theorem atRest_run (h : context.AtRest) (hquiet : ∀ u ∈ updates, u.isPressed = false) :
    (Run.run updateContext context updates).AtRest := by
  refine Run.inv_run_mem (fun c u hu hc => ?_) h
  have hnext := (update_atRest u hc).2
  rw [hquiet u hu, if_neg Bool.false_ne_true] at hnext
  exact hnext

/-- An event that is pushed while the key is held leaves the press repeating from
then on, or lost. -/
theorem KeyContext.Sound.event_held (h : context.Sound) {u : StatusUpdate}
    (hu : u.isPressed = true) (hpushed : pushedBy context u ≠ []) :
    (updateContext context u).Lost ∨ (updateContext context u).Repeating 0 := by
  cases hstate : context.state with
  | released => exact absurd (update_atRest u (h.released hstate)).1 hpushed
  | pressed =>
    rcases h.pressed hstate with hheld | hlong
    · by_cases hdue : ms2ns 500 ≤ context.time + u.delta
      · exact (update_held_long u hheld hu hdue).imp_right And.right
      · exact absurd (update_held_short u hheld hu hdue).1 hpushed
    · rcases hlong.cases with hrep | hlost
      · have hnext := update_repeating u hrep hu
        split at hnext
        · exact .inr hnext.2
        · exact absurd hnext.1 hpushed
      · exact absurd (pushedBy_lost hlost u) hpushed
  | longpressRelease => exact absurd (update_released u hstate).1 hpushed

end Trace

/-! ## The timing of a key -/

/-- A press begins: the key is released, and is seen pressed. -/
structure Begins (context : KeyContext) (start : StatusUpdate) : Prop where
  released : context.state = .released
  pressed : start.isPressed = true

/-- **How a key is reported** from a context on. -/
structure KeyTiming (context : KeyContext) : Prop where
  /-- An update pushes at most one event. -/
  atMostOne : ∀ u, (pushedBy context u).length ≤ 1
  /-- Nothing is pushed for a released key before it is seen pressed, nor then. -/
  beforePress : context.state = .released → ∀ unpressed : List StatusUpdate,
    (∀ v ∈ unpressed, v.isPressed = false) →
    Silent context unpressed ∧ ∀ u, pushedBy (Run.run updateContext context unpressed) u = []
  /-- A press that is held for less than half a second is reported once, by the
  first update that sees the key up; the update after it ends the press. -/
  shortPress : ∀ start, Begins context start → ∀ held,
    (∀ u ∈ held, u.isPressed = true) →
    (∀ l, l <+: held → accumulated l < (ms2ns 500).toNat) →
    ∀ release, release.isPressed = false → ∀ after,
      Silent context (start :: held)
      ∧ pushedBy (Run.run updateContext context (start :: held)) release = [context.keyData]
      ∧ pushedBy (Run.run updateContext context (start :: held ++ [release])) after = []
      ∧ (Run.run updateContext context (start :: held ++ [release, after])).state = .released
  /-- The first event of a press that is still held comes after half a second. -/
  firstHeld : ∀ start, Begins context start → ∀ during,
    Lasts (updateContext context start) during → Silent context (start :: during) →
    ∀ u, u.isPressed = true →
      pushedBy (Run.run updateContext context (start :: during)) u ≠ [] →
      (ms2ns 500).toNat ≤ accumulated (during ++ [u])
  /-- Two events of a press that is held follow each other after a fifth of a
  second. -/
  repeatsApart : ∀ first, first.isPressed = true → pushedBy context first ≠ [] → ∀ between,
    Lasts (updateContext context first) between →
    Silent (updateContext context first) between →
    ∀ u, u.isPressed = true →
      pushedBy (Run.run updateContext context (first :: between)) u ≠ [] →
      (ms2ns 200).toNat ≤ accumulated (between ++ [u])
  /-- A press that was held for half a second, at an update that 64 bits can tell the
  time of, is not reported when it is let go, nor while the key stays up. -/
  quietRelease : ∀ start, Begins context start → ∀ during u more,
    Lasts (updateContext context start) (during ++ [u] ++ more) → u.isPressed = true →
    (ms2ns 500).toNat ≤ accumulated (during ++ [u]) → accumulated (during ++ [u]) < 2 ^ 64 →
    ∀ quiet : List StatusUpdate, (∀ v ∈ quiet, v.isPressed = false) →
      Silent (Run.run updateContext context (start :: (during ++ [u] ++ more))) quiet

theorem KeyContext.Sound.timing {context : KeyContext} (h : context.Sound) :
    KeyTiming context where
  atMostOne u := length_pushedBy_le u context
  beforePress hreleased unpressed hquiet :=
    ⟨atRest_quiet (h.released hreleased) hquiet,
      fun u => (update_atRest u (atRest_run (h.released hreleased) hquiet)).1⟩
  shortPress start hbegins held hpressed hshort release hrelease after := by
    obtain ⟨hnone, hheld⟩ := update_atRest start (h.released hbegins.released)
    rw [if_pos hbegins.pressed] at hheld
    obtain ⟨hsilent, hrun, hdata⟩ := held_short_run hheld hpressed fun l _ hl =>
      UInt64.lt_iff_toNat_lt.mpr (Nat.lt_of_le_of_lt (toNat_elapsed_le l) (hshort l hl))
    obtain ⟨hpushed, hstate⟩ := update_held_release release hrun hrelease
    obtain ⟨hafter, hrest⟩ := update_released after hstate
    refine ⟨⟨hnone, hsilent⟩, ?_, ?_, ?_⟩
    · rw [Run.run_cons, hpushed, hdata, keyData_updateContext]
    · rw [Run.run_append]
      exact hafter
    · rw [Run.run_append]
      exact hrest.state_eq
  firstHeld start hbegins during hlasts hsilent u hu hpushed := by
    obtain ⟨-, hheld⟩ := update_atRest start (h.released hbegins.released)
    rw [if_pos hbegins.pressed] at hheld
    refine Nat.le_trans (UInt64.le_iff_toNat_le.mp ?_) (toNat_elapsed_le (during ++ [u]))
    rw [elapsed_concat]
    rcases held_silent_run hheld hlasts hsilent.2 with hrun | hlost
    · exact UInt64.not_lt.mp fun hlt =>
        hpushed (update_held_short u hrun hu (UInt64.not_le.mpr hlt)).1
    · exact absurd (pushedBy_lost hlost u) hpushed
  repeatsApart first hfirst hpushed between hlasts hsilent u hu hagain := by
    refine Nat.le_trans (UInt64.le_iff_toNat_le.mp ?_) (toNat_elapsed_le (between ++ [u]))
    rw [elapsed_concat]
    rcases h.event_held hfirst hpushed with hlost | hrep
    · exact absurd (pushedBy_lost (lost_updates_run hlost hlasts) u) hagain
    · have hnext := update_repeating u (repeating_silent_run hrep hlasts hsilent) hu
      split at hnext
      · assumption
      · exact absurd hnext.1 hagain
  quietRelease start hbegins during u more hlasts hu hdue hfits quiet hquiet := by
    obtain ⟨-, hheld⟩ := update_atRest start (h.released hbegins.released)
    rw [if_pos hbegins.pressed] at hheld
    obtain ⟨hfirst, hmore⟩ := (Run.along_append _ _ _).mp hlasts
    have hcounted : ms2ns 500 ≤ elapsed 0 (during ++ [u]) := by
      rw [UInt64.le_iff_toNat_le, toNat_elapsed_of_lt hfits]
      exact hdue
    have hlong := long_run (held_long_run hheld hu hfirst hcounted) hmore
    rw [← Run.run_append] at hlong
    exact long_quiet hlong hquiet

/-- **The timing of a key**, whatever its data is and whatever happened to it
since it was initialised: every context a trace of updates leads to reports
from there on as it should. -/
theorem keyTiming (keyData : EfiKeyData) (earlier : List StatusUpdate) :
    KeyTiming (Run.run updateContext { libKeyInitializeKeyContext with keyData := keyData }
      earlier) := by
  have hsound : ({ libKeyInitializeKeyContext with keyData := keyData } : KeyContext).Sound :=
    ⟨fun _ => ⟨rfl, rfl, rfl⟩, fun hp => KeyState.noConfusion hp⟩
  exact KeyContext.Sound.timing (Run.inv_run (fun _ u hc => hc.update u) earlier hsound)

/-- An update of a key, on bitmaps in which no key is down. -/
def lonely (isPressed : Bool) (delta : UInt64) : StatusUpdate :=
  ⟨⟨fun _ => 0, fun _ => 0⟩, isPressed, delta⟩

/-- A press of `2 ^ 64` nanoseconds, which are none to the code, is reported when it is let go. -/
theorem not_quietRelease_wrap :
    Begins libKeyInitializeKeyContext (lonely true 0)
      ∧ Lasts (updateContext libKeyInitializeKeyContext (lonely true 0))
        [lonely true 1, lonely true 0xFFFFFFFFFFFFFFFF]
      ∧ (ms2ns 500).toNat ≤ accumulated [lonely true 1, lonely true 0xFFFFFFFFFFFFFFFF]
      ∧ pushedBy (Run.run updateContext libKeyInitializeKeyContext
          [lonely true 0, lonely true 1, lonely true 0xFFFFFFFFFFFFFFFF])
        (lonely false (ms2ns 20)) = [libKeyInitializeKeyContext.keyData] :=
  ⟨⟨rfl, rfl⟩, ⟨by decide, by decide, trivial⟩, by decide, rfl⟩

end Keypad
