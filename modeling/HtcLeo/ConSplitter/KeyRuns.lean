import HtcLeo.ConSplitter.Keyboards

/-!
# Runs of the text input splitter

A session is a splitter that has been built, keyboards that come and go, and calls of its
functions in any order, with whatever the keyboards answer. Along with the splitter it
has what has become of the whole keys it has got: a key is returned by a call that reads,
or thrown away by a reset.

Every call comes back (`TextInSession.step_answered`): none of them touches memory that
is not the splitter's own, and the queue does not overflow. In every run each whole key
that was got from a keyboard is returned or thrown away once, in the order in which they
were got, or it still waits (`keys_once`).

The keyboards are kept in sync and asked for their own handles in every run of which the
calls meet a condition on the state they start in, and it is exact: it is what one more
call has to meet (`inSync_iff`, `own_handles_iff`).
-/

namespace ConSplitter

open StatusCode Block Run

/-- What becomes of a key. -/
inductive KeyFate where
  | returned
  | thrownAway
  deriving DecidableEq

/-- A call of the splitter, or a keyboard that comes or goes. `toggleStateChange` is a keyboard that
notifies the splitter of its toggle keys. -/
inductive TextInCall (δ : Type) where
  | start (around : Keyboards) (textIn : δ) (extended : Bool)
  | stop (textIn : δ) (extended : Bool)
  | reset (around : Keyboards) (extendedVerification : Bool)
  | resetEx (around : Keyboards) (extendedVerification : Bool)
  | readKeyStroke (around : Keyboards)
  | readKeyStrokeEx (around : Keyboards)
  | waitForKey (around : Keyboards)
  | setState (around : Keyboards) (keyToggleState : UInt8)
  | registerKeyNotify (around : Keyboards) (keyData : EfiKeyData) (function : KeyNotifyFunction)
  | unregisterKeyNotify (notificationHandle : ℕ)
  | toggleStateChange (keyData : EfiKeyData)

/-- A splitter, and what has become of the whole keys it has got. -/
structure TextInSession (δ : Type) where
  splitter : TextInSplitter δ
  fates : List (EfiInputKey × KeyFate)

section

variable {δ : Type}

/-- It is a reset. -/
def TextInCall.resets : TextInCall δ → Bool
  | .reset .. => true
  | .resetEx .. => true
  | _ => false

namespace TextInSession

/-- A key is returned. -/
def returning (t : TextInSession δ) (status : StatusCode) (key : EfiInputKey)
    (s : TextInSplitter δ) : TextInSession δ where
  splitter := s
  fates := t.fates
    ++ ((if status = efiSuccess then [key] else []).filter EfiInputKey.whole).map (·, .returned)

/-- The keys that wait are thrown away, unless the reset has failed. -/
def resetting (t : TextInSession δ) (status : StatusCode) (s : TextInSplitter δ) :
    TextInSession δ where
  splitter := s
  fates := if efiError status then t.fates
    else t.fates ++ t.splitter.wholeWaiting.map (·, .thrownAway)

variable [DecidableEq δ]

/-- **One call.** -/
def step (t : TextInSession δ) : TextInCall δ → Option (TextInSession δ)
  | .start around textIn extended => do
    let (_, s) ← conInDriverBindingStart around textIn extended t.splitter
    some { t with splitter := s }
  | .stop textIn extended => do
    let (_, s) ← conInDriverBindingStop textIn extended t.splitter
    some { t with splitter := s }
  | .reset around extendedVerification => do
    let (status, s) ← textInReset around extendedVerification t.splitter
    some (t.resetting status s)
  | .resetEx around extendedVerification => do
    let (status, s) ← textInResetEx around extendedVerification t.splitter
    some (t.resetting status s)
  | .readKeyStroke around => do
    let (status, key, s) ← textInReadKeyStroke around t.splitter
    some (t.returning status key s)
  | .readKeyStrokeEx around => do
    let (status, keyData, s) ← textInReadKeyStrokeEx around t.splitter
    some (t.returning status keyData.key s)
  | .waitForKey around => do
    let s ← textInWaitForKey around t.splitter
    some { t with splitter := s }
  | .setState around keyToggleState => do
    let (_, s) ← textInSetState around keyToggleState t.splitter
    some { t with splitter := s }
  | .registerKeyNotify around keyData function => do
    let (_, _, s) ← textInRegisterKeyNotify around keyData function t.splitter
    some { t with splitter := s }
  | .unregisterKeyNotify notificationHandle => do
    let (_, s) ← textInUnregisterKeyNotify notificationHandle t.splitter
    some { t with splitter := s }
  | .toggleStateChange keyData => do
    let s ← toggleStateSyncKeyNotify keyData t.splitter
    some { t with splitter := s }

end TextInSession

/-- The splitter has just been built. -/
def TextInSplitter.Built (s : TextInSplitter δ) : Prop :=
  ∃ around textIn textInEx keyQueue,
    textInConstructor around textIn textInEx keyQueue = some (efiSuccess, s)

/-! ## What a call does -/

section

variable [DecidableEq δ]

/-- **A keyboard that goes leaves the others where they are**: those that are left are the first
ones of those there were. -/
def TextInCall.Undisturbed (s : TextInSplitter δ) : TextInCall δ → Prop
  | .stop textIn true => s.exConsoles.erase textIn <+: s.exConsoles
  | _ => True

omit [DecidableEq δ] in
/-- **The keyboards agree on the state**: none of them refuses the one they are told, or it is the
one they have. -/
def TextInCall.Agreed (s : TextInSplitter δ) : TextInCall δ → Prop
  | .setState around keyToggleState =>
    (∀ index < s.currentNumberOfExConsoles, efiError (around.setState index) = false)
      ∨ keyToggleState ||| efiKeyStateExposed = s.physicalKeyToggleState
  | _ => True

omit [DecidableEq δ] in
/-- Partial keystrokes are exposed to the splitter. -/
def TextInSplitter.Exposed (s : TextInSplitter δ) : Prop :=
  s.physicalKeyToggleState &&& efiKeyStateExposed = efiKeyStateExposed

/-- **What a call does.** -/
structure Answered (t : TextInSession δ) (call : TextInCall δ) (t' : TextInSession δ) : Prop where
  fits : t'.splitter.Fits
  keys : ∃ keys fates, wholeKeys t'.splitter.log = wholeKeys t.splitter.log ++ keys
    ∧ t'.fates = t.fates ++ fates
    ∧ t.splitter.wholeWaiting ++ keys = fates.map Prod.fst ++ t'.splitter.wholeWaiting
    ∧ (call.resets = false → ∀ fate ∈ fates, fate.2 = .returned)
  known : ∀ same, (∀ d, same d d) → (∀ d d', same d d') ∨ call.Undisturbed t.splitter →
    Known same t.splitter → Known same t'.splitter
  sync : t.splitter.InSync → (t'.splitter.InSync ↔ call.Agreed t.splitter)
  exposed : t.splitter.Exposed → t'.splitter.Exposed

omit [DecidableEq δ] in
/-- Keyboards that are in sync stay so when no state is told. -/
theorem TextInSplitter.InSync.of_same {s s' : TextInSplitter δ} (h : s.InSync)
    (hex : s'.exConsoles = s.exConsoles) (htold : statesTold s'.log = statesTold s.log)
    (hphysical : s'.physicalKeyToggleState = s.physicalKeyToggleState) : s'.InSync := by
  unfold TextInSplitter.InSync
  rw [hex, htold, hphysical]
  exact h

/-- All keyboards are told the state the splitter has then. -/
theorem inSync_of_told {s s' : TextInSplitter δ} (hex : s'.exConsoles = s.exConsoles)
    (htold : statesTold s'.log
      = statesTold s.log
        ++ s.exConsoles.map fun textInEx => (textInEx, s'.physicalKeyToggleState)) :
    s'.InSync := by
  intro textInEx hmem
  rw [htold]
  exact lastTold_of_mem _ (hex ▸ hmem) _

omit [DecidableEq δ] in
theorem statesTold_eq_nil {events : List (TextInEvent δ)}
    (h : ∀ event ∈ events, event.told = none) : statesTold events = [] :=
  List.filterMap_eq_nil_iff.2 h

/-- A call that is not about keys, and after which as many keyboards are in sync. -/
theorem Answered.of_aside {t : TextInSession δ} {call : TextInCall δ} {s' : TextInSplitter δ}
    {told : List (δ × UInt8)} (h : Aside t.splitter s' told)
    (hsync : t.splitter.InSync → (s'.InSync ↔ call.Agreed t.splitter))
    (hknown : ∀ same, (∀ d, same d d) → (∀ d d', same d d') ∨ call.Undisturbed t.splitter →
      Known same t.splitter → Known same s') : Answered t call { t with splitter := s' } where
  fits := h.fits
  keys := ⟨[], [], by rw [h.keys, List.append_nil], (List.append_nil _).symm,
    by rw [h.waiting, List.append_nil]; rfl, fun _ fate hmem => by cases hmem⟩
  known := hknown
  sync := hsync
  exposed hexposed := by
    unfold TextInSplitter.Exposed
    rw [h.physical]
    exact hexposed

/-- A call that reads a key. -/
theorem Answered.of_taken {t : TextInSession δ} {call : TextInCall δ} {s' : TextInSplitter δ}
    {events : List (TextInEvent δ)} {status : StatusCode} {key : EfiInputKey}
    (h : t.splitter.Fits)
    (htaken : Taken t.splitter s' events (if status = efiSuccess then some key else none))
    (hagreed : call.Agreed t.splitter) : Answered t call (t.returning status key s') where
  fits := htaken.reads.fits h htaken.fewer
  keys := by
    refine ⟨wholeKeys events, _, ?_, rfl, ?_, fun _ fate hmem => ?_⟩
    · exact (congrArg wholeKeys htaken.reads.log).trans (wholeKeys_append _ _)
    · rw [htaken.keys, List.map_map]
      refine congrArg (· ++ s'.wholeWaiting) ?_
      split <;> exact (List.map_id _).symm
    · obtain ⟨key', -, rfl⟩ := List.mem_map.1 hmem
      rfl
  known same _ _ hknown := htaken.reads.known hknown
  sync hsync := by
    refine iff_of_true (hsync.of_same ?_ ?_ htaken.reads.physical) hagreed
    · show s'.textInExList.front s'.currentNumberOfExConsoles = _
      rw [htaken.reads.exList, htaken.reads.exConsoles]
      rfl
    · have hnone : statesTold events = [] := statesTold_eq_nil fun event hevent => by
        rcases htaken.reads.events event hevent with ⟨textIn, key, rfl⟩ | rfl | rfl <;> rfl
      show statesTold s'.log = _
      rw [htaken.reads.log, statesTold_append, hnone, List.append_nil]
  exposed hexposed := by
    show s'.physicalKeyToggleState &&& _ = _
    rw [htaken.reads.physical]
    exact hexposed

/-- **A call that resets the keyboards or tells them states.** It may throw away keys that wait. -/
theorem Answered.of_told {t : TextInSession δ} {call : TextInCall δ}
    {signal exported : Bool} {physical : UInt8} {number : ℕ} (events : List (TextInEvent δ))
    (fates : List (EfiInputKey × KeyFate)) {s' : TextInSplitter δ}
    (hs' : s' = { t.splitter with
      keyEventSignalState := signal
      log := t.splitter.log ++ events
      physicalKeyToggleState := physical
      virtualKeyStateExported := exported
      currentNumberOfKeys := number })
    (h : t.splitter.Fits) (hnumber : number ≤ t.splitter.currentNumberOfKeys)
    (hevents : ∀ event ∈ events, event.notification = false ∧ event.wholeKey = none)
    (hfates : t.splitter.wholeWaiting = fates.map Prod.fst ++ s'.wholeWaiting)
    (hreturned : call.resets = false → ∀ fate ∈ fates, fate.2 = .returned)
    (hsync : t.splitter.InSync → (s'.InSync ↔ call.Agreed t.splitter))
    (hexposed : t.splitter.Exposed → physical &&& efiKeyStateExposed = efiKeyStateExposed) :
    Answered t call ⟨s', t.fates ++ fates⟩ := by
  have hnone : wholeKeys events = [] :=
    List.filterMap_eq_nil_iff.2 fun event hevent => (hevents event hevent).2
  subst hs'
  refine ⟨⟨h.consoles, h.exConsoles, h.queue, hnumber.trans h.keys, h.handles⟩,
    ⟨[], fates, ?_, rfl, ?_, hreturned⟩, fun same _ _ hknown => ?_, hsync, hexposed⟩
  · rw [List.append_nil]
    refine (wholeKeys_append _ _).trans ?_
    rw [hnone, List.append_nil]
  · rw [List.append_nil]
    exact hfates
  · exact hknown.of_log events rfl rfl rfl rfl fun event hevent => (hevents event hevent).1

omit [DecidableEq δ] in
/-- What the keyboards are told is neither a notification nor a key. -/
theorem of_mem_setStates {list : List δ} {keyToggleState : UInt8} {event : TextInEvent δ}
    (h : event ∈ list.map fun textInEx => .setState textInEx keyToggleState) :
    event.notification = false ∧ event.wholeKey = none := by
  obtain ⟨textInEx, -, rfl⟩ := List.mem_map.1 h
  exact ⟨rfl, rfl⟩

/-- **A reset.** -/
theorem Answered.of_reset {t : TextInSession δ} (call : TextInCall δ) (around : Keyboards)
    (extendedVerification : Bool) {list : Block δ} {number : ℕ} (hnumber : number ≤ list.size)
    (h : t.splitter.Fits) (hcall : call.resets = true) (hagreed : call.Agreed t.splitter) :
    ∃ status s', resetKeyboards around extendedVerification list number t.splitter
        = some (status, s') ∧ Answered t call (t.resetting status s') := by
  let resets : List (TextInEvent δ) :=
    (list.front number).map fun textIn => .reset textIn extendedVerification
  have hresets : ∀ event ∈ resets, event.notification = false ∧ event.wholeKey = none
      ∧ event.told = none := fun event hevent => by
    obtain ⟨textIn, -, rfl⟩ := List.mem_map.1 hevent
    exact ⟨rfl, rfl, rfl⟩
  have htold : statesTold resets = [] :=
    statesTold_eq_nil fun event hevent => (hresets event hevent).2.2
  obtain ⟨status, ⟨hfails, hrun⟩ | ⟨hok, hrun⟩⟩ :=
    resetKeyboards_spec around extendedVerification hnumber h
  · refine ⟨status, _, hrun, ?_⟩
    unfold TextInSession.resetting
    rw [if_pos hfails, ← List.append_nil t.fates]
    refine .of_told resets [] rfl h (Nat.le_refl _)
      (fun event hevent => ⟨(hresets event hevent).1, (hresets event hevent).2.1⟩) rfl
      (fun _ fate hmem => by cases hmem)
      (fun hsync => iff_of_true (hsync.of_same rfl ?_ rfl) hagreed) id
    rw [statesTold_append, htold, List.append_nil]
  · refine ⟨status, _, hrun, ?_⟩
    unfold TextInSession.resetting
    rw [hok, if_neg Bool.false_ne_true]
    refine .of_told (resets ++ t.splitter.exConsoles.map fun textInEx =>
        .setState textInEx keyStateValidExposed)
      (t.splitter.wholeWaiting.map (·, .thrownAway)) (by rw [← List.append_assoc]) h (Nat.zero_le _)
      (fun event hevent => ?_) ?_ (fun hnot => absurd (hcall.symm.trans hnot) (by decide))
      (fun hsync => iff_of_true (inSync_of_told (s := t.splitter) rfl ?_) hagreed)
      (fun _ => by decide)
    · rcases List.mem_append.1 hevent with hreset | hset
      · exact ⟨(hresets event hreset).1, (hresets event hreset).2.1⟩
      · exact of_mem_setStates hset
    · rw [List.map_map]
      exact (List.map_id _).symm.trans (List.append_nil _).symm
    · rw [statesTold_append, statesTold_append, htold, List.append_nil, statesTold_setState]

/-- **A state that is set**: when a keyboard refuses it, those before have been told it for nothing,
and they are no longer in sync. -/
theorem Answered.of_setState {t : TextInSession δ} (around : Keyboards) (keyToggleState : UInt8)
    (h : t.splitter.Fits) :
    ∃ status s', textInSetState around keyToggleState t.splitter = some (status, s')
      ∧ Answered t (.setState around keyToggleState) { t with splitter := s' } := by
  have hexposed : ∀ state : UInt8, (state ||| efiKeyStateExposed) &&& efiKeyStateExposed
      = efiKeyStateExposed := fun state => by
    apply UInt8.toBitVec_inj.1
    ext i hi
    simp only [UInt8.toBitVec_and, UInt8.toBitVec_or, BitVec.getElem_and, BitVec.getElem_or]
    cases state.toBitVec[i] <;> cases efiKeyStateExposed.toBitVec[i] <;> rfl
  have hfates : t.fates = t.fates ++ [] := (List.append_nil _).symm
  obtain ⟨status, told, hiff, ⟨hfails, hne, hmem, hrun⟩ | ⟨hok, rfl, hrun⟩⟩ :=
    textInSetState_spec around keyToggleState h
  · refine ⟨_, _, hrun, ?_⟩
    rw [hfates]
    refine .of_told _ [] rfl h (Nat.le_refl _) (fun event => of_mem_setStates) rfl
      (fun _ fate hmem => by cases hmem) (fun hsync => ?_) id
    obtain ⟨index, hindex, hrefuses⟩ := hiff.1 hfails
    have hagreed : TextInCall.Agreed t.splitter (.setState around keyToggleState)
        ↔ keyToggleState ||| efiKeyStateExposed = t.splitter.physicalKeyToggleState :=
      or_iff_right fun hall => by
        rw [hall index hindex] at hrefuses
        cases hrefuses
    rw [hagreed]
    constructor
    · -- a keyboard that was told the state was last told that of the splitter
      intro hafter
      obtain ⟨textInEx, htextInEx⟩ := List.exists_mem_of_ne_nil told hne
      have hlast := hafter textInEx (hmem textInEx htextInEx)
      rw [statesTold_append, statesTold_setState] at hlast
      exact (lastTold_of_mem _ htextInEx _).unique hlast
    · intro heq textInEx htextInEx
      rw [statesTold_append, statesTold_setState]
      by_cases htold : textInEx ∈ told
      · exact heq ▸ lastTold_of_mem _ htold _
      · refine (hsync textInEx htextInEx).append _ fun state hstate => ?_
        obtain ⟨textInEx', hmem', hpair⟩ := List.mem_map.1 hstate
        cases hpair
        exact htold hmem'
  · refine ⟨_, _, hrun, ?_⟩
    rw [hfates]
    refine .of_told _ [] rfl h (Nat.le_refl _) (fun event => of_mem_setStates) rfl
      (fun _ fate hmem => by cases hmem) (fun _ => iff_of_true
        (inSync_of_told (s := t.splitter) rfl ?_) (Or.inl ?_)) (fun _ => hexposed _)
    · rw [statesTold_append, statesTold_setState]
    · intro index hindex
      refine Bool.eq_false_iff.2 fun hrefuses => ?_
      rw [hiff.2 ⟨index, hindex, hrefuses⟩] at hok
      cases hok

/-- A keyboard that reports a change of its toggle keys. -/
theorem Answered.of_toggleStateChange {t : TextInSession δ} (keyData : EfiKeyData)
    (h : t.splitter.Fits) :
    ∃ s', toggleStateSyncKeyNotify keyData t.splitter = some s'
      ∧ Answered t (.toggleStateChange keyData) { t with splitter := s' } := by
  have hfates : t.fates = t.fates ++ [] := (List.append_nil _).symm
  rcases toggleStateSyncKeyNotify_spec keyData h with hrun | ⟨hvalid, hrun⟩
  · refine ⟨_, hrun, .of_aside (.refl h) (fun hsync => iff_of_true hsync trivial) fun _ _ _ => id⟩
  · refine ⟨_, hrun, ?_⟩
    rw [hfates]
    refine .of_told _ [] rfl h (Nat.le_refl _) (fun event => of_mem_setStates) rfl
      (fun _ fate hmem => by cases hmem) (fun _ => iff_of_true
        (inSync_of_told (s := t.splitter) rfl ?_) trivial) (fun _ => ?_)
    · rw [statesTold_append, statesTold_setState]
    · have hbit : keyStateValidExposed &&& efiKeyStateExposed = efiKeyStateExposed := by decide
      rw [← hbit, ← UInt8.and_assoc, hvalid]

/-- **Every call comes back.** -/
theorem TextInSession.step_answered {t : TextInSession δ} (h : t.splitter.Fits)
    (call : TextInCall δ) : ∃ t', t.step call = some t' ∧ Answered t call t' := by
  cases call with
  | start around textIn extended =>
    obtain ⟨status, s', hrun, hcases, hknown⟩ :=
      conInDriverBindingStart_spec around textIn extended h
    refine ⟨_, (congrArg (Option.bind · _) hrun).trans rfl, ?_⟩
    rcases hcases with ⟨haside, hex⟩ | ⟨haside, hex⟩
    · exact .of_aside haside (fun hsync => iff_of_true (hsync.of_same hex
        (haside.told.trans (List.append_nil _)) haside.physical) trivial)
        fun same hrefl _ => hknown same hrefl
    · refine .of_aside haside (fun hsync => iff_of_true (fun textInEx hmem => ?_) trivial)
        fun same hrefl _ => hknown same hrefl
      -- the one that has come is told the state the others have
      rw [haside.told, haside.physical]
      by_cases hnew : textInEx = textIn
      · subst hnew
        exact ⟨_, [], rfl, fun _ hmem => by cases hmem⟩
      · rw [hex] at hmem
        have hold := (List.mem_append.1 hmem).resolve_right fun h => hnew (List.mem_singleton.1 h)
        refine (hsync textInEx hold).append _ fun state hstate => ?_
        exact hnew (Prod.ext_iff.1 (List.mem_singleton.1 hstate)).1
  | stop textIn extended =>
    obtain ⟨status, s', hrun, haside, hex, -, -, hknown⟩ :=
      conInDriverBindingStop_spec textIn extended h
    refine ⟨_, (congrArg (Option.bind · _) hrun).trans rfl, .of_aside haside (fun hsync =>
      iff_of_true (fun textInEx hmem => ?_) ?_) fun same hrefl hsame => hknown same hrefl ?_⟩
    · have hmem' : textInEx ∈ t.splitter.exConsoles := by
        rw [hex] at hmem
        split at hmem
        · exact List.mem_of_mem_erase hmem
        · exact hmem
      rw [haside.told, haside.physical, List.append_nil]
      exact hsync textInEx hmem'
    · cases extended <;> trivial
    · refine hsame.imp_right fun hundisturbed hextended => ?_
      subst hextended
      exact hundisturbed
  | reset around extendedVerification =>
    obtain ⟨status, s', hrun, hanswered⟩ := Answered.of_reset
      (.reset around extendedVerification) around extendedVerification h.consoles h rfl trivial
    exact ⟨_, (congrArg (Option.bind · _) hrun).trans rfl, hanswered⟩
  | resetEx around extendedVerification =>
    obtain ⟨status, s', hrun, hanswered⟩ := Answered.of_reset
      (.resetEx around extendedVerification) around extendedVerification h.exConsoles h rfl trivial
    exact ⟨_, (congrArg (Option.bind · _) hrun).trans rfl, hanswered⟩
  | readKeyStroke around =>
    obtain ⟨status, key, s', events, hrun, htaken, -⟩ := textInReadKeyStroke_spec around h
    exact ⟨_, (congrArg (Option.bind · _) hrun).trans rfl, .of_taken h htaken trivial⟩
  | readKeyStrokeEx around =>
    obtain ⟨status, keyData, s', events, hrun, htaken, -⟩ := textInReadKeyStrokeEx_spec around h
    exact ⟨_, (congrArg (Option.bind · _) hrun).trans rfl, .of_taken h htaken trivial⟩
  | waitForKey around =>
    obtain ⟨s', events, hrun, hreads, hkeys, hwaiting, hnumber, -⟩ := textInWaitForKey_spec around h
    have htaken : Taken t.splitter s' events none := by
      refine ⟨hreads, ?_, hnumber.trans_le h.keys⟩
      rw [hkeys, List.append_nil]
      unfold TextInSplitter.wholeWaiting
      rw [hwaiting]
      rfl
    have hanswered : Answered t (.waitForKey around) (t.returning efiNotReady ⟨0, 0⟩ s') :=
      .of_taken h htaken trivial
    have hfates : t.fates ++ [] = t.fates := List.append_nil _
    refine ⟨_, (congrArg (Option.bind · _) hrun).trans rfl, ?_⟩
    exact hfates ▸ hanswered
  | setState around keyToggleState =>
    obtain ⟨status, s', hrun, hanswered⟩ := Answered.of_setState around keyToggleState h
    exact ⟨_, (congrArg (Option.bind · _) hrun).trans rfl, hanswered⟩
  | registerKeyNotify around keyData function =>
    obtain ⟨status, handle, s', hrun, haside, hex, hknown⟩ :=
      textInRegisterKeyNotify_spec around keyData function h
    refine ⟨_, (congrArg (Option.bind · _) hrun).trans rfl, .of_aside haside (fun hsync =>
      iff_of_true (hsync.of_same hex (haside.told.trans (List.append_nil _)) haside.physical)
        trivial)
      fun same hrefl _ => hknown same hrefl⟩
  | unregisterKeyNotify notificationHandle =>
    obtain ⟨status, s', hrun, haside, hex, hknown⟩ :=
      textInUnregisterKeyNotify_keeps notificationHandle h
    refine ⟨_, (congrArg (Option.bind · _) hrun).trans rfl, .of_aside haside (fun hsync =>
      iff_of_true (hsync.of_same hex (haside.told.trans (List.append_nil _)) haside.physical)
        trivial)
      fun same hrefl _ => hknown same hrefl⟩
  | toggleStateChange keyData =>
    obtain ⟨s', hrun, hanswered⟩ := Answered.of_toggleStateChange keyData h
    exact ⟨_, (congrArg (Option.bind · _) hrun).trans rfl, hanswered⟩

/-! ## Two keyboards -/

/-- What calls meet with where a key is pressed at either of two keyboards, of which each gives its
own handles. -/
def pressed (textIn : Bool) : Keyboards where
  granted _ _ := true
  address := 0x1000
  reset _ := efiSuccess
  setState _ := efiSuccess
  checkEvent _ := efiNotReady
  registerKeyNotify turn := (efiSuccess, 2 * turn + textIn.toNat)
  readKeyStroke _ := []
  readKeyStrokeEx index := (efiSuccess, ⟨⟨0, if index = 0 then 0x61 else 0x62⟩, ⟨0, 0⟩⟩)
  pcdConInConnectOnDemand := false

/-- A splitter that has been built for them. -/
def forBoth : TextInSplitter Bool :=
  ((textInConstructor (pressed false) (fun _ => false) (fun _ => false)
    fun _ => ⟨⟨0, 0⟩, ⟨0, 0⟩⟩).get rfl).2

theorem forBoth_built : forBoth.Built := ⟨pressed false, _, _, _, rfl⟩

/-- Both keyboards come. -/
def bothCome : List (TextInCall Bool) :=
  [.start (pressed false) false true, .start (pressed true) true true]

/-- Both keyboards are in the list then, and the splitter's own notification is with both. -/
theorem bothCome_reached : ∃ t, runOption TextInSession.step ⟨forBoth, []⟩ bothCome = some t
    ∧ AlongOption TextInSession.step (fun t call _ => call.Undisturbed t.splitter)
      ⟨forBoth, []⟩ bothCome
    ∧ AlongOption TextInSession.step (fun t call _ => call.Agreed t.splitter) ⟨forBoth, []⟩ bothCome
    ∧ t.splitter.currentNumberOfExConsoles = 2 ∧ t.splitter.currentNumberOfKeys = 0
    ∧ t.splitter.exConsoles = [false, true]
    ∧ t.splitter.physicalKeyToggleState = keyStateValidExposed
    ∧ t.splitter.notifyList.map Notify.address = [0x1000]
    ∧ t.splitter.log
      = [.registerKeyNotify false ⟨⟨0, 0⟩, ⟨0, 0⟩⟩ .toggleStateSyncKeyNotify 0,
        .setState false 0xC0,
        .registerKeyNotify true ⟨⟨0, 0⟩, ⟨0, 0⟩⟩ .toggleStateSyncKeyNotify 1,
        .setState true 0xC0] :=
  ⟨_, rfl, ⟨_, rfl, trivial, _, rfl, trivial, trivial⟩, ⟨_, rfl, trivial, _, rfl, trivial, trivial⟩,
    rfl, rfl, rfl, rfl, rfl, rfl⟩

/-! ## Runs -/

/-- What holds in every run: the lists fit, and no whole key got lost or came twice. -/
structure TextInSession.Sound (t : TextInSession δ) : Prop where
  fits : t.splitter.Fits
  keys : wholeKeys t.splitter.log = t.fates.map Prod.fst ++ t.splitter.wholeWaiting
  known : Known (fun _ _ => True) t.splitter

omit [DecidableEq δ] in
theorem TextInSplitter.Built.sound {s : TextInSplitter δ} (hbuilt : s.Built) :
    TextInSession.Sound ⟨s, []⟩ := by
  obtain ⟨around, textIn, textInEx, keyQueue, hrun⟩ := hbuilt
  obtain ⟨hfits, hknown, -, hwaiting, hkeys, -⟩ := textInConstructor_spec around hrun
  exact ⟨hfits, hkeys.trans hwaiting.symm, hknown _ fun _ => trivial⟩

theorem Answered.sound {t t' : TextInSession δ} {call : TextInCall δ} (h : Answered t call t')
    (hsound : t.Sound) : t'.Sound where
  fits := h.fits
  keys := by
    obtain ⟨keys, fates, hkeys, hfates, htaken, -⟩ := h.keys
    rw [hkeys, hsound.keys, List.append_assoc, htaken, hfates, List.map_append, List.append_assoc]
  known := h.known _ (fun _ => trivial) (Or.inl fun _ _ => trivial) hsound.known

/-- A run that comes back is of calls that do what they do. -/
theorem TextInSession.Sound.answered {t t' : TextInSession δ} (h : t.Sound) {call : TextInCall δ}
    (hstep : t.step call = some t') : Answered t call t' := by
  obtain ⟨t₁, hstep₁, hanswered⟩ := step_answered h.fits call
  rw [hstep] at hstep₁
  exact Option.some.inj hstep₁ ▸ hanswered

/-- Every run comes back. -/
theorem TextInSplitter.Built.run {s : TextInSplitter δ} (hbuilt : s.Built)
    (calls : List (TextInCall δ)) :
    ∃ t, runOption TextInSession.step ⟨s, []⟩ calls = some t ∧ t.Sound :=
  runOption_inv (fun t call _ ht => by
    obtain ⟨t₁, hstep, hanswered⟩ := TextInSession.step_answered ht.fits call
    exact ⟨t₁, hstep, hanswered.sound ht⟩) hbuilt.sound

/-- **Every key once.** In every run every call comes back, and the whole keys that were got from
the keyboards are those that were returned or thrown away, in that order, and those that wait. None
is thrown away without a reset. -/
theorem keys_once {s : TextInSplitter δ} (hbuilt : s.Built) (calls : List (TextInCall δ)) :
    ∃ t, runOption TextInSession.step ⟨s, []⟩ calls = some t
      ∧ wholeKeys t.splitter.log = t.fates.map Prod.fst ++ t.splitter.wholeWaiting
      ∧ ((∀ call ∈ calls, call.resets = false) → ∀ fate ∈ t.fates, fate.2 = .returned) := by
  obtain ⟨t, hrun, hsound, hreturned⟩ := runOption_inv (l := calls)
    (I := fun t : TextInSession δ => t.Sound
      ∧ ((∀ call ∈ calls, call.resets = false) → ∀ fate ∈ t.fates, fate.2 = .returned))
    (fun t call hcall ⟨hsound, hreturned⟩ => by
      obtain ⟨t', hstep, hanswered⟩ := TextInSession.step_answered hsound.fits call
      refine ⟨t', hstep, hanswered.sound hsound, fun hnone fate hmem => ?_⟩
      obtain ⟨keys, fates, -, hfates, -, hnew⟩ := hanswered.keys
      rw [hfates] at hmem
      rcases List.mem_append.1 hmem with hold | hmem
      · exact hreturned hnone fate hold
      · exact hnew (hnone call hcall) fate hmem)
    ⟨hbuilt.sound, fun _ fate hmem => by cases hmem⟩
  exact ⟨t, hrun, hsound.keys, hreturned⟩

/-- A key is pressed at both keyboards, and one of them is read: the other waits. -/
theorem keys_once_twoKeys : ∃ t, runOption TextInSession.step ⟨forBoth, []⟩
      (bothCome ++ [.readKeyStrokeEx (pressed false)]) = some t
    ∧ wholeKeys t.splitter.log = [⟨0, 0x61⟩, ⟨0, 0x62⟩]
    ∧ t.fates = [(⟨0, 0x61⟩, .returned)] ∧ t.splitter.wholeWaiting = [⟨0, 0x62⟩] := by
  obtain ⟨t, hrun, hkeys, -⟩ :=
    keys_once forBoth_built (bothCome ++ [.readKeyStrokeEx (pressed false)])
  have hreached : (runOption TextInSession.step ⟨forBoth, []⟩
      (bothCome ++ [.readKeyStrokeEx (pressed false)])).map
        (fun t => (t.fates, t.splitter.wholeWaiting))
      = some ([(⟨0, 0x61⟩, .returned)], [⟨0, 0x62⟩]) := by decide
  rw [hrun] at hreached
  obtain ⟨hfates, hwaiting⟩ := Prod.ext_iff.1 (Option.some.inj hreached)
  dsimp only at hfates hwaiting
  refine ⟨t, hrun, ?_, hfates, hwaiting⟩
  rw [hkeys, hfates, hwaiting]
  rfl

/-- **In sync.** In every run in which the keyboards agree on each state they are told, each of them
was last told the state the splitter has, in which partial keystrokes are exposed. After one more
call it is so if and only if they agree on that too. -/
theorem inSync_iff {s : TextInSplitter δ} (hbuilt : s.Built) {calls : List (TextInCall δ)}
    (hagreed : AlongOption TextInSession.step (fun t call _ => call.Agreed t.splitter)
      ⟨s, []⟩ calls) :
    ∃ t, runOption TextInSession.step ⟨s, []⟩ calls = some t ∧ t.splitter.InSync
      ∧ t.splitter.Exposed
      ∧ ∀ call, ∃ t', t.step call = some t' ∧ (t'.splitter.InSync ↔ call.Agreed t.splitter) := by
  obtain ⟨t, hrun, hsound⟩ := hbuilt.run calls
  have hstart : (⟨s, []⟩ : TextInSession δ).splitter.InSync ∧ s.Exposed := by
    obtain ⟨around, textIn, textInEx, keyQueue, hrun⟩ := hbuilt
    obtain ⟨-, -, hex, -, -, hphysical⟩ := textInConstructor_spec around hrun
    refine ⟨fun textInEx hmem => ?_, ?_⟩
    · rw [hex] at hmem
      cases hmem
    · unfold TextInSplitter.Exposed
      rw [hphysical]
      decide
  obtain ⟨-, hsync, hexposed⟩ := hagreed.inv (I := fun t : TextInSession δ => t.Sound
      ∧ t.splitter.InSync ∧ t.splitter.Exposed)
    (fun t call t' ⟨hsound, hsync, hexposed⟩ hstep hcall =>
      have hanswered := hsound.answered hstep
      ⟨hanswered.sound hsound, (hanswered.sync hsync).2 hcall, hanswered.exposed hexposed⟩)
    ⟨hbuilt.sound, hstart⟩ hrun
  refine ⟨t, hrun, hsync, hexposed, fun call => ?_⟩
  obtain ⟨t', hstep, hanswered⟩ := TextInSession.step_answered hsound.fits call
  exact ⟨t', hstep, hanswered.sync hsync⟩

/-- A state that the second of two keyboards refuses. -/
def refused : TextInCall Bool :=
  .setState { pressed false with
    setState := fun index => if index = 0 then efiSuccess else efiDeviceError } 1

/-- The first has been told it. -/
theorem inSync_iff_refused : ∃ t t', runOption TextInSession.step ⟨forBoth, []⟩ bothCome = some t
    ∧ t.splitter.InSync ∧ t.step refused = some t' ∧ ¬ t'.splitter.InSync := by
  obtain ⟨t₀, hrun₀, -, hagreed, hnumber, -, -, hphysical, -⟩ := bothCome_reached
  obtain ⟨t, hrun, hsync, -, hnext⟩ := inSync_iff forBoth_built hagreed
  obtain rfl : t₀ = t := Option.some.inj (hrun₀.symm.trans hrun)
  obtain ⟨t', hstep, hiff⟩ := hnext refused
  refine ⟨t₀, t', hrun, hsync, hstep, fun hafter => ?_⟩
  rcases hiff.1 hafter with hall | hsame
  · exact absurd (hall 1 (hnumber ▸ Nat.lt_succ_self 1)) (by decide)
  · rw [hphysical] at hsame
    exact absurd hsame (by decide)

/-- What is known of the handles in a run in which the others stay where they are. -/
theorem known_of_undisturbed {s : TextInSplitter δ} (hbuilt : s.Built) {calls : List (TextInCall δ)}
    (hundisturbed : AlongOption TextInSession.step (fun t call _ => call.Undisturbed t.splitter)
      ⟨s, []⟩ calls) {t : TextInSession δ}
    (hrun : runOption TextInSession.step ⟨s, []⟩ calls = some t) : Known Eq t.splitter := by
  have hstart : Known Eq s := by
    obtain ⟨around, textIn, textInEx, keyQueue, hrun⟩ := hbuilt
    obtain ⟨-, hknown, -⟩ := textInConstructor_spec around hrun
    exact hknown _ fun _ => rfl
  have hboth := hundisturbed.inv (I := fun t : TextInSession δ => t.Sound ∧ Known Eq t.splitter)
    (fun t call t' ⟨hsound, hknown⟩ hstep hcall =>
      have hanswered := hsound.answered hstep
      ⟨hanswered.sound hsound, hanswered.known _ (fun _ => rfl) (Or.inr hcall) hknown⟩)
    ⟨hbuilt.sound, hstart⟩ hrun
  exact hboth.2

/-- **Handles that were given.** In every run a keyboard is asked to take a notification back for a
handle only that some keyboard has given. In every run in which the keyboards that go leave the
others where they are, it is one it has given itself. -/
theorem handles_given {s : TextInSplitter δ} (hbuilt : s.Built) (calls : List (TextInCall δ)) :
    ∃ t, runOption TextInSession.step ⟨s, []⟩ calls = some t
      ∧ Recorded (AsksGiven fun _ _ => True) t.splitter.log
      ∧ (AlongOption TextInSession.step (fun t call _ => call.Undisturbed t.splitter)
          ⟨s, []⟩ calls → Recorded (AsksGiven Eq) t.splitter.log) := by
  obtain ⟨t, hrun, hsound⟩ := hbuilt.run calls
  exact ⟨t, hrun, hsound.known.asked,
    fun hundisturbed => (known_of_undisturbed hbuilt hundisturbed hrun).asked⟩

/-- The second keyboard goes, and the splitter's own notification is taken back from the first. -/
theorem handles_given_twoKeys : ∃ t, runOption TextInSession.step ⟨forBoth, []⟩
      (bothCome ++ [.stop true true, .unregisterKeyNotify 0x1000]) = some t
    ∧ Recorded (AsksGiven fun _ _ => True) t.splitter.log
    ∧ .unregisterKeyNotify false 0 ∈ t.splitter.log := by
  obtain ⟨t, hrun, hgiven, -⟩ := handles_given forBoth_built
    (bothCome ++ [.stop true true, .unregisterKeyNotify 0x1000])
  have hreached : (runOption TextInSession.step ⟨forBoth, []⟩
      (bothCome ++ [.stop true true, .unregisterKeyNotify 0x1000])).map
        (fun t => t.splitter.log.contains (.unregisterKeyNotify false 0)) = some true := by decide
  rw [hrun] at hreached
  exact ⟨t, hrun, hgiven, List.contains_iff_mem.1 (Option.some.inj hreached)⟩

/-- **Whose handles are asked for.** When an extended keyboard goes, and then a notification that is
there is taken back, each keyboard left is asked for a handle it has given itself if and only if the
keyboards left are the first ones of those there were. No two keyboards give the same handle. -/
theorem own_handles_iff {s : TextInSplitter δ} (hbuilt : s.Built) {calls : List (TextInCall δ)}
    (hundisturbed : AlongOption TextInSession.step (fun t call _ => call.Undisturbed t.splitter)
      ⟨s, []⟩ calls) {t : TextInSession δ}
    (hrun : runOption TextInSession.step ⟨s, []⟩ calls = some t)
    (hdistinct : ∀ d d' notifyHandle, GaveHandle t.splitter.log d notifyHandle →
      GaveHandle t.splitter.log d' notifyHandle → d = d')
    (textIn : δ) {notificationHandle : ℕ}
    (hthere : ∃ notify ∈ t.splitter.notifyList, notify.address = notificationHandle) :
    ∃ t', runOption TextInSession.step t
        [.stop textIn true, .unregisterKeyNotify notificationHandle] = some t'
      ∧ (Recorded (AsksGiven Eq) t'.splitter.log
        ↔ t.splitter.exConsoles.erase textIn <+: t.splitter.exConsoles) := by
  obtain ⟨t₁, hrun₁, hsound⟩ := hbuilt.run calls
  obtain rfl : t₁ = t := Option.some.inj (hrun₁.symm.trans hrun)
  have hknown := known_of_undisturbed hbuilt hundisturbed hrun
  obtain ⟨status, s', hstop, haside, hex, hlist, hlog, hkeeps⟩ :=
    conInDriverBindingStop_spec textIn true hsound.fits
  rw [if_pos rfl] at hex
  obtain ⟨notify₀, hnotify₀, haddress⟩ := hthere
  rcases textInUnregisterKeyNotify_spec notificationHandle haside.fits with
    ⟨hnone, -⟩ | ⟨notify, hfind, hunregister⟩
  · rw [hlist] at hnone
    exact absurd (decide_eq_true haddress) (List.find?_eq_none.1 hnone notify₀ hnotify₀)
  have hnotify := List.mem_of_find?_eq_some hfind
  refine ⟨_, (congrArg (Option.bind · _) ((congrArg (Option.bind · _) hstop).trans rfl)).trans
    ((congrArg (Option.bind · _) ((congrArg (Option.bind · _) hunregister).trans rfl)).trans rfl),
      ?_⟩
  show Recorded (AsksGiven Eq) (s'.log ++ unregistering s' notify) ↔ _
  constructor
  · intro hasked
    have hle : s'.currentNumberOfExConsoles ≤ t₁.splitter.currentNumberOfExConsoles := by
      have hlength := (List.erase_sublist (a := textIn) (l := t₁.splitter.exConsoles)).length_le
      rw [← hex] at hlength
      unfold TextInSplitter.exConsoles at hlength
      rwa [length_front, length_front] at hlength
    rw [← hex]
    refine (front_prefix_iff hle).2 fun i hi => ?_
    -- the keyboard at this place has given the handle it is asked for, and so has the one before
    obtain ⟨before, hbefore, hasks⟩ := hasked.of_mem (List.mem_append_right _
      (List.mem_map.2 ⟨i, List.mem_range.2 hi, rfl⟩))
    obtain ⟨giver, rfl, keyData, function, hgave⟩ := hasks _ _ rfl
    obtain ⟨giver, rfl, hown⟩ := hknown.handles notify (hlist ▸ hnotify) i (hi.trans_le hle)
    refine hdistinct _ _ _ ⟨keyData, function, ?_⟩ ⟨_, _, hown⟩
    rcases List.mem_append.1 (hbefore hgave) with hlogged | hasked'
    · exact hlog ▸ hlogged
    · obtain ⟨_, -, heq⟩ := List.mem_map.1 hasked'
      cases heq
  · intro hprefix
    exact (hkeeps _ (fun _ => rfl) (Or.inr fun _ => hprefix) hknown).unregistering hnotify

/-- The first of two keyboards goes, and the second is asked for a handle the first has given. -/
theorem own_handles_iff_twoKeys : ∃ t t',
    runOption TextInSession.step ⟨forBoth, []⟩ bothCome = some t
    ∧ runOption TextInSession.step t [.stop false true, .unregisterKeyNotify 0x1000] = some t'
    ∧ ¬ Recorded (AsksGiven Eq) t'.splitter.log := by
  obtain ⟨t, hrun, hundisturbed, -, -, -, hconsoles, -, haddresses, hlog⟩ := bothCome_reached
  have hgave : ∀ d notifyHandle,
      GaveHandle t.splitter.log d notifyHandle → notifyHandle = d.toNat := by
    rintro d notifyHandle ⟨keyData, function, hmem⟩
    rw [hlog] at hmem
    simp only [List.mem_cons, TextInEvent.registerKeyNotify.injEq, reduceCtorEq, List.not_mem_nil,
      or_false, false_or] at hmem
    rcases hmem with ⟨rfl, -, -, rfl⟩ | ⟨rfl, -, -, rfl⟩ <;> rfl
  have hdistinct : ∀ d d' notifyHandle, GaveHandle t.splitter.log d notifyHandle →
      GaveHandle t.splitter.log d' notifyHandle → d = d' := fun d d' notifyHandle h h' => by
    have heq := (hgave d _ h).symm.trans (hgave d' _ h')
    cases d <;> cases d' <;> first | rfl | cases heq
  have hthere : ∃ notify ∈ t.splitter.notifyList, notify.address = 0x1000 :=
    List.mem_map.1 (haddresses ▸ List.mem_cons_self)
  obtain ⟨t', hrun', hiff⟩ := own_handles_iff forBoth_built hundisturbed hrun hdistinct false hthere
  refine ⟨t, t', hrun, hrun', fun hown => ?_⟩
  have hprefix := hiff.1 hown
  rw [hconsoles] at hprefix
  exact absurd hprefix (by decide)

/-- **A key that waits unheard**, in any run: after a call that has returned a key, and with no
keyboard signalling, the event of the splitter stays silent, and a key waits all the same if and
only if more than one was queued in that call or waited before it. -/
theorem waits_unheard_iff {s : TextInSplitter δ} (hbuilt : s.Built) {calls : List (TextInCall δ)}
    {t : TextInSession δ} (hrun : runOption TextInSession.step ⟨s, []⟩ calls = some t)
    {around : Keyboards} {keyData : EfiKeyData} {s' : TextInSplitter δ}
    (hread : textInReadKeyStrokeEx around t.splitter = some (efiSuccess, keyData, s'))
    (around' : Keyboards) (hsilent : ∀ index, efiError (around'.checkEvent index) = true) :
    ∃ s'' events, textInWaitForKey around' s' = some s'' ∧ s''.log = s'.log ++ events
      ∧ .signalEvent ∉ events
      ∧ ((∀ around'' : Keyboards, ∃ keyData s₃, textInReadKeyStrokeEx around'' s''
          = some (efiSuccess, keyData, s₃))
        ↔ if t.splitter.currentNumberOfKeys = 0 then 2 ≤ around.numberQueued t.splitter
          else 2 ≤ t.splitter.currentNumberOfKeys) := by
  obtain ⟨t₁, hrun₁, hsound⟩ := hbuilt.run calls
  obtain rfl : t₁ = t := Option.some.inj (hrun₁.symm.trans hrun)
  exact key_waits_unheard_iff hsound.fits hread around' hsilent

/-- A key is pressed at both keyboards, and no event tells of the second. -/
theorem waits_unheard_iff_twoKeys : ∃ t s' s'' events,
    runOption TextInSession.step ⟨forBoth, []⟩ bothCome = some t
    ∧ textInReadKeyStrokeEx (pressed false) t.splitter
      = some (efiSuccess, ⟨⟨0, 0x61⟩, ⟨0, 0⟩⟩, s')
    ∧ textInWaitForKey (pressed false) s' = some s'' ∧ s''.log = s'.log ++ events
    ∧ .signalEvent ∉ events
    ∧ ∃ keyData s₃, textInReadKeyStrokeEx (pressed false) s'' = some (efiSuccess, keyData, s₃) := by
  obtain ⟨t, s', hrun, hread, hnumber, hqueued⟩ : ∃ t s',
      runOption TextInSession.step ⟨forBoth, []⟩ bothCome = some t
        ∧ textInReadKeyStrokeEx (pressed false) t.splitter
          = some (efiSuccess, ⟨⟨0, 0x61⟩, ⟨0, 0⟩⟩, s')
        ∧ t.splitter.currentNumberOfKeys = 0 ∧ (pressed false).numberQueued t.splitter = 2 :=
    ⟨_, _, rfl, rfl, rfl, rfl⟩
  obtain ⟨s'', events, hwait, hlog, hsilent, hiff⟩ :=
    waits_unheard_iff forBoth_built hrun hread (pressed false) fun _ =>
      (by decide : efiError efiNotReady = true)
  have hwaits : if t.splitter.currentNumberOfKeys = 0
      then 2 ≤ (pressed false).numberQueued t.splitter
      else 2 ≤ t.splitter.currentNumberOfKeys := by
    rw [if_pos hnumber, hqueued]
  exact ⟨t, s', s'', events, hrun, hread, hwait, hlog, hsilent, hiff.2 hwaits (pressed false)⟩

end

end

end ConSplitter
