import HtcLeo.ConSplitter.KeyQueue

/-!
# The state of the toggle keys

The splitter keeps one state of the toggle keys for all keyboards. It tells it to a
keyboard that comes, and to all of them whenever it changes, so that each keyboard was
last told the state the splitter has (`InSync`), in which partial keystrokes are always
exposed.

`ConSplitterTextInSetState` is the exception: it stops at the first keyboard that refuses,
and keeps the state it had, though the keyboards before have been told the new one
(`textInSetState_spec`).
-/

namespace ConSplitter

open StatusCode Block

variable {δ : Type}

/-- The state a keyboard is told. -/
def TextInEvent.told : TextInEvent δ → Option (δ × UInt8)
  | .setState textInEx keyToggleState => some (textInEx, keyToggleState)
  | _ => none

/-- The states the keyboards were told. -/
def statesTold (log : List (TextInEvent δ)) : List (δ × UInt8) := log.filterMap TextInEvent.told

@[simp] theorem statesTold_append (log log' : List (TextInEvent δ)) :
    statesTold (log ++ log') = statesTold log ++ statesTold log' :=
  List.filterMap_append

theorem statesTold_setState (list : List δ) (keyToggleState : UInt8) :
    statesTold (list.map fun textInEx => .setState textInEx keyToggleState)
      = list.map fun textInEx => (textInEx, keyToggleState) := by
  unfold statesTold
  rw [List.filterMap_map]
  exact congrFun List.filterMap_eq_map list

/-- **The state a keyboard was last told.** -/
def LastTold (told : List (δ × UInt8)) (textInEx : δ) (keyToggleState : UInt8) : Prop :=
  ∃ before after, told = before ++ (textInEx, keyToggleState) :: after
    ∧ ∀ state, (textInEx, state) ∉ after

/-- **The keyboards are in sync**: each of them was last told the state the splitter has. -/
def TextInSplitter.InSync (s : TextInSplitter δ) : Prop :=
  ∀ textInEx ∈ s.exConsoles, LastTold (statesTold s.log) textInEx s.physicalKeyToggleState

/-- What was last told stays so while no other state is told. -/
theorem LastTold.append {told : List (δ × UInt8)} {textInEx : δ} {keyToggleState : UInt8}
    (h : LastTold told textInEx keyToggleState) (more : List (δ × UInt8))
    (hmore : ∀ state, (textInEx, state) ∉ more) :
    LastTold (told ++ more) textInEx keyToggleState := by
  obtain ⟨before, after, rfl, hafter⟩ := h
  refine ⟨before, after ++ more, by rw [List.append_assoc, List.cons_append], fun state hmem => ?_⟩
  rcases List.mem_append.1 hmem with hfirst | hsecond
  · exact hafter state hfirst
  · exact hmore state hsecond

/-- Keyboards that are told a state were last told it. -/
theorem lastTold_of_mem [DecidableEq δ] (told : List (δ × UInt8)) {list : List δ} {textInEx : δ}
    (hmem : textInEx ∈ list) (keyToggleState : UInt8) :
    LastTold (told ++ list.map fun textInEx => (textInEx, keyToggleState)) textInEx
      keyToggleState := by
  induction list using List.reverseRecOn with
  | nil => cases hmem
  | append_singleton list last ih =>
    rw [List.map_append, ← List.append_assoc]
    by_cases hlast : textInEx = last
    · subst hlast
      exact ⟨_, [], rfl, fun _ hmem => by cases hmem⟩
    · refine (ih ((List.mem_append.1 hmem).resolve_right fun h =>
        hlast (List.mem_singleton.1 h))).append _ fun state hstate => ?_
      exact hlast (Prod.ext_iff.1 (List.mem_singleton.1 hstate)).1

/-- A keyboard was last told one state. -/
theorem LastTold.unique {told : List (δ × UInt8)} {textInEx : δ} {state state' : UInt8}
    (h : LastTold told textInEx state) (h' : LastTold told textInEx state') : state = state' := by
  obtain ⟨before, after, rfl, hafter⟩ := h
  obtain ⟨before', after', heq, hafter'⟩ := h'
  rcases List.append_eq_append_iff.1 heq with ⟨mid, hbefore, hrest⟩ | ⟨mid, hbefore, hrest⟩
  · cases mid with
    | nil => exact (Prod.ext_iff.1 (List.cons.inj hrest).1).2
    | cons first mid =>
      obtain ⟨-, hafter₁⟩ := List.cons.inj hrest
      exact absurd (hafter₁ ▸ List.mem_append_right mid List.mem_cons_self) (hafter state')
  · cases mid with
    | nil => exact (Prod.ext_iff.1 (List.cons.inj hrest).1).2.symm
    | cons first mid =>
      obtain ⟨-, hafter₁⟩ := List.cons.inj hrest
      exact absurd (hafter₁ ▸ List.mem_append_right mid List.mem_cons_self) (hafter' state)

/-! ## States that are set -/

section

variable {s : TextInSplitter δ}

/-- Every keyboard is told the state. -/
theorem setStateOfEach_spec (keyToggleState : UInt8) (h : s.Fits) :
    setStateOfEach keyToggleState s = some { s with
      log := s.log ++ s.exConsoles.map fun textInEx => .setState textInEx keyToggleState } := by
  obtain ⟨log, hrun, hlog⟩ := foldlM_range_inv
    (f := fun (log : List (TextInEvent δ)) index => do
      let textInEx ← s.textInExList.read index
      some (log ++ [TextInEvent.setState textInEx keyToggleState]))
    (n := s.currentNumberOfExConsoles) (b := s.log)
    (fun k t => t = s.log
      ++ (s.textInExList.front k).map fun textInEx => .setState textInEx keyToggleState)
    (List.append_nil _).symm fun k hk t ht => by
      rw [read_of_lt (Nat.lt_of_lt_of_le hk h.exConsoles)]
      refine ⟨_, rfl, ?_⟩
      rw [front_succ, List.map_append, ← List.append_assoc, ← ht]
      rfl
  subst hlog
  exact (congrArg (Option.bind · _) hrun).trans rfl

/-- The state is made anew. -/
theorem toggleStateSyncReInitialization_spec (h : s.Fits) :
    toggleStateSyncReInitialization s = some { s with
      log := s.log ++ s.exConsoles.map fun textInEx => .setState textInEx keyStateValidExposed
      physicalKeyToggleState := keyStateValidExposed
      virtualKeyStateExported := false } := by
  let s₁ : TextInSplitter δ :=
    { s with physicalKeyToggleState := keyStateValidExposed, virtualKeyStateExported := false }
  have hfits : s₁.Fits := ⟨h.consoles, h.exConsoles, h.queue, h.keys, h.handles⟩
  exact setStateOfEach_spec keyStateValidExposed hfits

/-- A change of the state that a keyboard reports is handed on. -/
theorem toggleStateSyncKeyNotify_spec (keyData : EfiKeyData) (h : s.Fits) :
    toggleStateSyncKeyNotify keyData s = some s
      ∨ keyData.keyState.keyToggleState &&& keyStateValidExposed = keyStateValidExposed
        ∧ toggleStateSyncKeyNotify keyData s = some { s with
          log := s.log ++ s.exConsoles.map fun textInEx =>
            .setState textInEx keyData.keyState.keyToggleState
          physicalKeyToggleState := keyData.keyState.keyToggleState } := by
  unfold toggleStateSyncKeyNotify
  split
  · rename_i hchange
    refine Or.inr ⟨hchange.1, ?_⟩
    rw [setStateOfEach_spec _ h]
    rfl
  · exact Or.inl rfl

/-- **The keyboards told a state one by one**: those up to the first that refuses. -/
theorem setStateTurns_spec (around : Keyboards) (list : Block δ) (keyToggleState : UInt8) :
    ∀ (n start : ℕ) (log : List (TextInEvent δ)), start + n ≤ list.size →
      ∃ status told, setStateTurns around list keyToggleState (List.range' start n) log
          = some (status, log ++ told.map fun textInEx => .setState textInEx keyToggleState)
        ∧ (efiError status = false → told = (List.range' start n).map list.cell)
        ∧ (efiError status = true → 0 < n ∧ told ≠ []
          ∧ told.Sublist ((List.range' start n).map list.cell))
        ∧ (efiError status = true ↔ ∃ index, start ≤ index ∧ index < start + n
          ∧ efiError (around.setState index) = true)
  | 0, start, log, _ => ⟨efiSuccess, [], by rw [List.map_nil, List.append_nil]; rfl, fun _ => rfl,
      (fun h => by cases h), iff_of_false (by decide) fun ⟨index, hle, hlt, _⟩ => by omega⟩
  | n + 1, start, log, hlist => by
    rw [List.range'_succ]
    unfold setStateTurns
    rw [read_of_lt (show start < list.size by omega)]
    dsimp only [Option.bind_eq_bind, Option.bind_some]
    cases herror : efiError (around.setState start) with
    | true =>
      refine ⟨around.setState start, [list.cell start], rfl, fun hok => ?_, fun _ => ?_,
        iff_of_true herror ⟨start, Nat.le_refl _, by omega, herror⟩⟩
      · rw [herror] at hok
        cases hok
      · refine ⟨Nat.succ_pos n, List.cons_ne_nil _ _, ?_⟩
        rw [List.map_cons]
        exact List.Sublist.cons_cons _ (List.nil_sublist _)
    | false =>
      obtain ⟨status, told, hrest, hall, hsome, hiff⟩ := setStateTurns_spec around list
        keyToggleState n (start + 1) (log ++ [.setState (list.cell start) keyToggleState])
          (by omega)
      refine ⟨status, list.cell start :: told, ?_, fun hok => ?_, fun hfails => ?_, hiff.trans ?_⟩
      · rw [if_neg Bool.false_ne_true, hrest, List.map_cons, List.append_assoc]
        rfl
      · rw [List.map_cons, hall hok]
      · refine ⟨Nat.succ_pos n, List.cons_ne_nil _ _, ?_⟩
        rw [List.map_cons]
        exact (hsome hfails).2.2.cons_cons _
      · refine exists_congr fun index => ⟨fun ⟨hle, hlt, hfails⟩ => ⟨by omega, by omega, hfails⟩,
          fun ⟨hle, hlt, hfails⟩ => ⟨?_, by omega, hfails⟩⟩
        rcases Nat.lt_or_eq_of_le hle with hgt | rfl
        · exact hgt
        · rw [herror] at hfails
          cases hfails

/-- **The state that is set**: all keyboards have it and it is recorded; or one refuses, and those
up to it have been told it for nothing. -/
theorem textInSetState_spec (around : Keyboards) (keyToggleState : UInt8) (h : s.Fits) :
    ∃ status told, (efiError status = true
        ↔ ∃ index < s.currentNumberOfExConsoles, efiError (around.setState index) = true)
      ∧ (efiError status = true ∧ told ≠ [] ∧ (∀ textInEx ∈ told, textInEx ∈ s.exConsoles)
          ∧ textInSetState around keyToggleState s = some (status, { s with
            log := s.log ++ told.map fun textInEx =>
              .setState textInEx (keyToggleState ||| efiKeyStateExposed) })
        ∨ efiError status = false ∧ told = s.exConsoles
          ∧ textInSetState around keyToggleState s = some (efiSuccess, { s with
            log := s.log ++ told.map fun textInEx =>
              .setState textInEx (keyToggleState ||| efiKeyStateExposed)
            physicalKeyToggleState := keyToggleState ||| efiKeyStateExposed
            virtualKeyStateExported := decide (keyToggleState &&& efiKeyStateExposed ≠ 0) })) := by
  obtain ⟨status, told, hturns, hall, hsome, hiff⟩ := setStateTurns_spec around s.textInExList
    (keyToggleState ||| efiKeyStateExposed) s.currentNumberOfExConsoles 0 s.log
    (by rw [Nat.zero_add]; exact h.exConsoles)
  rw [← List.range_eq_range'] at hturns hall hsome
  refine ⟨status, told, hiff.trans (exists_congr fun index => ?_), ?_⟩
  · rw [Nat.zero_add]
    exact ⟨fun ⟨_, hlt, hfails⟩ => ⟨hlt, hfails⟩, fun ⟨hlt, hfails⟩ => ⟨Nat.zero_le _, hlt, hfails⟩⟩
  · unfold textInSetState
    dsimp only
    rw [hturns]
    dsimp only [Option.bind_eq_bind, Option.bind_some]
    cases herror : efiError status with
    | true =>
      obtain ⟨-, hne, hsub⟩ := hsome herror
      exact Or.inl ⟨rfl, hne, fun textInEx hmem => hsub.subset hmem, rfl⟩
    | false => exact Or.inr ⟨rfl, hall herror, rfl⟩

/-- **Keyboards that are reset**: they have the state made anew if none of them fails, and no key
waits then. -/
theorem resetKeyboards_spec (around : Keyboards) (extendedVerification : Bool) {list : Block δ}
    {number : ℕ} (hnumber : number ≤ list.size) (h : s.Fits) :
    ∃ status, efiError status = true
        ∧ resetKeyboards around extendedVerification list number s = some (status, { s with
          keyEventSignalState := false
          log := s.log
            ++ (list.front number).map fun textIn => .reset textIn extendedVerification })
      ∨ efiError status = false
        ∧ resetKeyboards around extendedVerification list number s = some (status, { s with
          keyEventSignalState := false
          log := (s.log ++ (list.front number).map fun textIn => .reset textIn extendedVerification)
            ++ s.exConsoles.map fun textInEx => .setState textInEx keyStateValidExposed
          physicalKeyToggleState := keyStateValidExposed
          virtualKeyStateExported := false
          currentNumberOfKeys := 0 }) := by
  obtain ⟨⟨status, log⟩, hrun, hlog⟩ := foldlM_range_inv
    (f := fun (t : StatusCode × List (TextInEvent δ)) index => do
      let textIn ← list.read index
      let status := around.reset index
      some (if efiError status then status else t.1,
        t.2 ++ [TextInEvent.reset textIn extendedVerification]))
    (n := number) (b := (efiSuccess, s.log))
    (fun k t => t.2 = s.log
      ++ (list.front k).map fun textIn => .reset textIn extendedVerification)
    (List.append_nil _).symm fun k hk t ht => by
      rw [read_of_lt (Nat.lt_of_lt_of_le hk hnumber)]
      refine ⟨_, rfl, ?_⟩
      rw [front_succ, List.map_append, ← List.append_assoc, ← ht]
      rfl
  dsimp only at hlog
  subst hlog
  refine ⟨status, ?_⟩
  cases herror : efiError status with
  | true =>
    refine Or.inl ⟨rfl, (congrArg (Option.bind · _) hrun).trans ?_⟩
    show (if efiError status = true then _ else _) = _
    rw [if_pos herror]
  | false =>
    refine Or.inr ⟨rfl, (congrArg (Option.bind · _) hrun).trans ?_⟩
    show (if efiError status = true then _ else _) = _
    rw [if_neg (Bool.eq_false_iff.1 herror)]
    let s₁ : TextInSplitter δ := { s with
      keyEventSignalState := false
      log := s.log ++ (list.front number).map fun textIn => .reset textIn extendedVerification }
    have hfits : s₁.Fits := ⟨h.consoles, h.exConsoles, h.queue, h.keys, h.handles⟩
    show (toggleStateSyncReInitialization s₁).bind _ = _
    rw [toggleStateSyncReInitialization_spec hfits]
    rfl

end

end ConSplitter
