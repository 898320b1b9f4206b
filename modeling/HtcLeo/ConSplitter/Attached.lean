import HtcLeo.ConSplitter.Sharing
import HtcLeo.Lib.Run

/-!
# Devices that come and go

A device that comes is written behind the others in the list, and the modes are narrowed
to those it has too (`textOutAddDevice_spec`). When one goes, the others move up, and the
modes are made anew from the first of them, one further device at a time
(`textOutDeleteDevice_spec`). What each of these takes along into the tables is said once,
in the rule for it (`syncAll_spec`, `remakeModes_spec`).

Where a splitter is left without devices it goes back to the one mode it has of its own.
-/

namespace ConSplitter

open StatusCode Block

variable {δ : Type}

/-! ## A device comes -/

section

variable {device : δ → TextOutDevice} {around : Surroundings δ}

/-- The list with one more device. -/
theorem consoles_update {s : TextOutSplitter δ} {list : Block δ} {n : ℕ} {textOut : δ}
    (hlist : s.textOutList.cell = Function.update list.cell n textOut)
    (hcount : s.currentNumberOfConsoles = n + 1) :
    s.consoles = list.front n ++ [textOut] := by
  unfold TextOutSplitter.consoles
  rw [hcount, ← front_write list s.textOutList.size]
  exact front_congr fun i _ => congrFun hlist i

/-- **The modes with one more device**, before the other splitter is looked at. -/
theorem addModes_spec (hgranted : ∀ n, around.granted n = true) (hlawful : ∀ d, (device d).Lawful)
    (s : TextOutSplitter δ) (hroom : s.currentNumberOfConsoles < s.textOutList.size)
    (hquery : consoleSplitterAllocUnit ≤ s.textOutQueryData.size)
    (hmapped : 0 < s.currentNumberOfConsoles → ∃ map,
      Mapped (fun k => device (s.textOutList.cell k)) s.currentNumberOfConsoles s map) :
    ∃ s', addModes around.granted (device (s.textOutList.cell s.currentNumberOfConsoles)) s
      = some s'
      ∧ s'.currentNumberOfConsoles = s.currentNumberOfConsoles ∧ s'.textOutList = s.textOutList
      ∧ ∃ map, Mapped (fun k => device (s.textOutList.cell k)) (s.currentNumberOfConsoles + 1)
        s' map := by
  unfold addModes
  rcases Nat.eq_zero_or_pos s.currentNumberOfConsoles with hzero | hpos
  · obtain ⟨queryData, map, hadd, hmapped, -⟩ := addOutputMode_spec hgranted
      (hlawful (s.textOutList.cell s.currentNumberOfConsoles)) s (Or.inr hzero)
      (Nat.lt_of_le_of_lt (Nat.zero_le _) hroom) hquery (fun k => device (s.textOutList.cell k))
      (by rw [hzero])
    rw [if_pos hzero, hadd]
    refine ⟨_, rfl, rfl, rfl, map, ?_⟩
    rw [show s.currentNumberOfConsoles + 1 = 1 by rw [hzero]]
    exact hmapped
  · obtain ⟨map, hmapped⟩ := hmapped hpos
    obtain ⟨queryData, map', maxMode, mode, keep, hsync, hmapped', -⟩ :=
      syncOutputMode_spec hmapped hroom (hlawful _) (hlawful _)
    rw [if_neg (Nat.ne_of_gt hpos), hsync]
    exact ⟨_, rfl, rfl, rfl, map', hmapped'⟩

/-- Tables of some devices. -/
theorem tables_of_mapped {s : TextOutSplitter δ} {n : ℕ} (map : Block ℤ)
    (hcount : s.currentNumberOfConsoles = n + 1) (hlist : n < s.textOutList.size)
    (hroom : consoleSplitterAllocUnit ≤ s.textOutList.size)
    (h : Mapped (fun k => device (s.textOutList.cell k)) (n + 1) s map) : Tables device s := by
  refine ⟨hcount ▸ hlist, hroom, h.room, fun hzero => ?_, fun _ => ⟨map, hcount ▸ h⟩⟩
  rw [hcount] at hzero
  cases hzero

variable [DecidableEq δ]

/-- **A device comes**: it is the last of the list, and one of the modes of all is set. -/
theorem textOutAddDevice_spec (hgranted : ∀ n, around.granted n = true)
    (hlawful : ∀ d, (device d).Lawful) {sys : Splitters δ} {which : Which}
    (h : ∀ w, Tables device (sys.get w)) (textOut : δ)
    (hproduct : ∀ sys' : Splitters δ, (sys'.get which).currentNumberOfConsoles
        = (sys.get which).currentNumberOfConsoles + 1 →
      (∀ w ≠ which, (sys'.get w).currentNumberOfConsoles = (sys.get w).currentNumberOfConsoles) →
      sys'.mConOut.currentNumberOfConsoles * sys'.mStdErr.currentNumberOfConsoles
        ≤ consoleSplitterAllocUnit) :
    ∃ sys', textOutAddDevice device around which textOut sys = some sys'
      ∧ (sys'.get which).consoles = (sys.get which).consoles ++ [textOut]
      ∧ Tables device (sys'.get which) ∧ (sys'.get which).ModeValid
      ∧ ∀ w ≠ which, Cut device (sys.get w) (sys'.get w) := by
  obtain ⟨size, modeMap, hgrow, hlt, hroom, -, hmapped⟩ := growTextOutList_spec hgranted (h which)
  -- the list has the device, and the tables are as they were
  let s₁ : TextOutSplitter δ := { sys.get which with
    textOutList := ⟨size, Function.update (sys.get which).textOutList.cell
      (sys.get which).currentNumberOfConsoles textOut⟩
    textOutModeMap := modeMap }
  have hself : s₁.textOutList.cell s₁.currentNumberOfConsoles = textOut :=
    Function.update_self _ _ _
  have hmapped₁ : 0 < s₁.currentNumberOfConsoles → ∃ map,
      Mapped (fun k => device (s₁.textOutList.cell k)) s₁.currentNumberOfConsoles s₁ map := by
    intro hpos
    obtain ⟨map, hmapped⟩ := hmapped hpos
    have hcongr := hmapped.congr (fun k => device (s₁.textOutList.cell k))
      fun k hk => congrArg device (Function.update_of_ne (Nat.ne_of_lt hk) _ _)
    exact ⟨map, hcongr.map_eq, hcongr.size, hcongr.fits, hcongr.room, hcongr.agrees⟩
  obtain ⟨s₂, hadd, hcount₂, hlist₂, map, hmap₂⟩ :=
    addModes_spec hgranted hlawful s₁ hlt (h which).query_room hmapped₁
  -- it is counted
  let s₃ : TextOutSplitter δ :=
    { s₂ with currentNumberOfConsoles := s₂.currentNumberOfConsoles + 1 }
  have hcount₃ : s₃.currentNumberOfConsoles = (sys.get which).currentNumberOfConsoles + 1 :=
    congrArg (· + 1) hcount₂
  have hlist₃ : s₃.textOutList = s₁.textOutList := hlist₂
  have htables₃ : Tables device s₃ := by
    refine tables_of_mapped map hcount₃ (hlist₃.symm ▸ hlt) (hlist₃.symm ▸ hroom) ?_
    rw [hlist₃]
    exact ⟨hmap₂.map_eq, hmap₂.size, hmap₂.fits, hmap₂.room, hmap₂.agrees⟩
  have hconsoles₃ : s₃.consoles = (sys.get which).consoles ++ [textOut] :=
    consoles_update (congrArg Block.cell hlist₃) hcount₃
  have htables : ∀ w, Tables device ((sys.set which s₃).get w) := fun w => by
    by_cases hw : w = which
    · rw [hw, Splitters.get_set]
      exact htables₃
    · rw [Splitters.get_set_of_ne sys hw]
      exact h w
  obtain ⟨sys₄, hbetween, hcut⟩ := getIntersectionBetweenConOutAndStrErr_spec hgranted
    (htables .conOut) (htables .stdErr) (Nat.le_trans (hproduct (sys.set which s₃)
      (by rw [Splitters.get_set]; exact hcount₃)
      fun w hw => by rw [Splitters.get_set_of_ne sys hw]) (htables .stdErr).list_room)
  have hwhich := hcut which
  rw [Splitters.get_set] at hwhich
  obtain ⟨s', column, row, hset, hkept, hvalid⟩ := setConsoleOutMode_spec hlawful around
    which sys₄ (hwhich.tables htables₃)
    (by rw [hwhich.count, hcount₃]; exact Nat.succ_pos _)
  have hget : ∀ w, ({ sys₄.set which s' with pcdConOutColumn := column, pcdConOutRow := row } :
      Splitters δ).get w = (sys₄.set which s').get w := fun w => by cases w <;> rfl
  refine ⟨{ sys₄.set which s' with pcdConOutColumn := column, pcdConOutRow := row },
    ?_, ?_, ?_, ?_, fun w hw => ?_⟩
  · have hwrite : Block.write ⟨size, (sys.get which).textOutList.cell⟩
        (sys.get which).currentNumberOfConsoles textOut = some s₁.textOutList := write_of_lt hlt _
    unfold textOutAddDevice
    dsimp only
    rw [hgrow]
    dsimp only [Option.bind_eq_bind, Option.bind_some]
    rw [if_neg (by decide), hwrite]
    dsimp only [Option.bind_some]
    show (addModes around.granted (device textOut) s₁).bind _ = _
    rw [← hself, hadd]
    show (getIntersectionBetweenConOutAndStrErr around (sys.set which s₃)).bind _ = _
    rw [hbetween]
    exact hset
  · rw [hget, Splitters.get_set, hkept.consoles_eq, hwhich.consoles_eq, hconsoles₃]
  · rw [hget, Splitters.get_set]
    exact hkept.tables (hwhich.tables htables₃)
  · rw [hget, Splitters.get_set]
    exact hvalid
  · have hother := hcut w
    rw [Splitters.get_set_of_ne sys hw] at hother
    rw [hget, Splitters.get_set_of_ne sys₄ hw]
    exact hother

end

/-! ## A device goes -/

section

variable {device : δ → TextOutDevice} {around : Surroundings δ}

/-- What is kept when a further device, of the first `left`, is taken in. -/
def KeptBySync (device : δ → TextOutDevice) (left : ℕ) (P : TextOutSplitter δ → Block ℤ → Prop) :
    Prop :=
  ∀ (s : TextOutSplitter δ) map queryData map' maxMode mode keep,
    s.currentNumberOfConsoles < left →
    Mapped (fun k => device (s.textOutList.cell k)) s.currentNumberOfConsoles s map → P s map →
    let s' := { s with
      textOutQueryData := queryData
      textOutModeMap := some map'
      maxMode := maxMode
      mode := mode }
    Narrowed keep s map s' map' →
    Synchronised (device (s.textOutList.cell s.currentNumberOfConsoles)) s map s' map' →
    P { s' with currentNumberOfConsoles := s.currentNumberOfConsoles + 1 } map'

/-- **The rule for the devices taken in one by one**: what each of them keeps holds in the end. -/
theorem syncAll_spec (hlawful : ∀ d, (device d).Lawful) {P : TextOutSplitter δ → Block ℤ → Prop}
    {left : ℕ} (keeps : KeptBySync device left P) :
    ∀ (more : ℕ) (s : TextOutSplitter δ) (map : Block ℤ), s.currentNumberOfConsoles + more = left →
      left ≤ s.textOutList.size →
      Mapped (fun k => device (s.textOutList.cell k)) s.currentNumberOfConsoles s map → P s map →
      ∃ s' map', syncAll device (List.range' s.currentNumberOfConsoles more) s = some s'
        ∧ s'.currentNumberOfConsoles = left ∧ s'.textOutList = s.textOutList
        ∧ Mapped (fun k => device (s'.textOutList.cell k)) left s' map' ∧ P s' map'
  | 0, s, map, hleft, _, hmapped, hP => ⟨s, map, rfl, hleft, rfl, hleft ▸ hmapped, hP⟩
  | more + 1, s, map, hleft, hlist, hmapped, hP => by
    obtain ⟨queryData, map', maxMode, mode, keep, hsync, hmapped', hnarrowed, hsynced⟩ :=
      syncOutputMode_spec hmapped (by omega) (hlawful _) (hlawful _)
    let s₁ : TextOutSplitter δ := { s with
      textOutQueryData := queryData
      textOutModeMap := some map'
      maxMode := maxMode
      mode := mode
      currentNumberOfConsoles := s.currentNumberOfConsoles + 1 }
    obtain ⟨s', map'', hrest, hcount, hlist', hmapped'', hP'⟩ := syncAll_spec hlawful keeps more s₁
      map' (show s.currentNumberOfConsoles + 1 + more = left by omega) hlist
      ⟨hmapped'.map_eq, hmapped'.size, hmapped'.fits, hmapped'.room, hmapped'.agrees⟩
      (keeps s map queryData map' maxMode mode keep (by omega) hmapped hP hnarrowed hsynced)
    refine ⟨s', map'', ?_, hcount, hlist', hmapped'', hP'⟩
    rw [List.range'_succ]
    unfold syncAll
    rw [read_of_lt (show s.currentNumberOfConsoles < s.textOutList.size by omega)]
    dsimp only [Option.bind_eq_bind, Option.bind_some]
    rw [hsync]
    exact hrest

/-- **The modes made anew**: those of the first device that are kept by the others. -/
theorem remakeModes_spec {granted : ℕ → Bool} (hgranted : ∀ n, granted n = true)
    (hlawful : ∀ d, (device d).Lawful) (P : TextOutSplitter δ → Block ℤ → Prop)
    (s : TextOutSplitter δ) {left : ℕ} (hpos : 0 < left) (hlist : left ≤ s.textOutList.size)
    (hroom : consoleSplitterAllocUnit ≤ s.textOutQueryData.size)
    (first : ∀ queryData (map : Block ℤ),
      (∀ i < (device (s.textOutList.cell 0)).maxMode, map.cell (s.textOutList.size * i) = i) →
      (1 < (device (s.textOutList.cell 0)).maxMode →
        queryData.cell 1 = ((device (s.textOutList.cell 0)).queryMode 1).getD ⟨0, 0⟩) →
      Mapped (fun k => device (s.textOutList.cell k)) 1 { s with
        maxMode := (device (s.textOutList.cell 0)).maxMode
        textOutQueryData := queryData
        textOutModeMap := some map } map →
      P { s with
        maxMode := (device (s.textOutList.cell 0)).maxMode
        textOutQueryData := queryData
        textOutModeMap := some map
        currentNumberOfConsoles := 1 } map)
    (keeps : KeptBySync device left P) :
    ∃ s' map', remakeModes device granted left s = some (efiSuccess, s')
      ∧ s'.currentNumberOfConsoles = left ∧ s'.textOutList = s.textOutList
      ∧ Mapped (fun k => device (s'.textOutList.cell k)) left s' map' ∧ P s' map' := by
  let s₁ : TextOutSplitter δ := { s with
    textOutQueryData := { s.textOutQueryData with
      cell := fun i => if i < s.textOutQueryData.size then ⟨0, 0⟩ else s.textOutQueryData.cell i }
    textOutModeMap := none }
  obtain ⟨queryData, map, hadd, hmapped, hnumber, hmode1⟩ := addOutputMode_spec hgranted
    (hlawful (s.textOutList.cell 0)) s₁ (Or.inl rfl) (hpos.trans_le hlist) hroom
    (fun k => device (s.textOutList.cell k)) rfl
  let s₂ : TextOutSplitter δ := { s with
    maxMode := (device (s.textOutList.cell 0)).maxMode
    textOutQueryData := queryData
    textOutModeMap := some map
    currentNumberOfConsoles := 1 }
  have hmapped₂ :
      Mapped (fun k => device (s₂.textOutList.cell k)) s₂.currentNumberOfConsoles s₂ map :=
    ⟨hmapped.map_eq, hmapped.size, hmapped.fits, hmapped.room, hmapped.agrees⟩
  obtain ⟨s', map', hsync, hcount, hlist', hmapped', hP⟩ := syncAll_spec hlawful keeps (left - 1) s₂
    map (show 1 + (left - 1) = left by omega) hlist hmapped₂
    (first queryData map hnumber hmode1
      ⟨hmapped.map_eq, hmapped.size, hmapped.fits, hmapped.room, hmapped.agrees⟩)
  refine ⟨s', map', ?_, hcount, hlist', hmapped', hP⟩
  unfold remakeModes
  dsimp only
  rw [read_of_lt (hpos.trans_le hlist)]
  show (addOutputMode granted (device (s.textOutList.cell 0)) s₁).bind _ = _
  rw [hadd]
  show (syncAll device (List.range' 1 (left - 1)) s₂).bind _ = _
  rw [show (1 : ℕ) = s₂.currentNumberOfConsoles from rfl, hsync]
  rfl

variable [DecidableEq δ]

variable (around) in
/-- **What a deletion does**: it finds no such device; or it takes the last one out of the list;
or it makes the modes anew from the list without the device. -/
theorem textOutDeleteDevice_cases {sys : Splitters δ} {which : Which}
    (h : Tables device (sys.get which)) (textOut : δ) :
    (textOut ∉ (sys.get which).consoles
        ∧ textOutDeleteDevice device around which textOut sys = some (efiNotFound, sys))
      ∨ ∃ list : Block δ, list.size = (sys.get which).textOutList.size
        ∧ 0 < (sys.get which).currentNumberOfConsoles
        ∧ list.front ((sys.get which).currentNumberOfConsoles - 1)
          = (sys.get which).consoles.erase textOut
        ∧ ((sys.get which).currentNumberOfConsoles - 1 = 0
              ∧ textOutDeleteDevice device around which textOut sys
                = some (efiSuccess, sys.set which
                (TextOutSplitter.textOutSetMode { sys.get which with
                  textOutList := list
                  currentNumberOfConsoles := 0
                  maxMode := 1
                  textOutQueryData := { (sys.get which).textOutQueryData with
                    cell := Function.update (sys.get which).textOutQueryData.cell 0 ⟨40, 12⟩ } } 0))
            ∨ (sys.get which).currentNumberOfConsoles - 1 ≠ 0
              ∧ textOutDeleteDevice device around which textOut sys
                = (remakeModes device around.granted ((sys.get which).currentNumberOfConsoles - 1)
                    { sys.get which with textOutList := list }).bind fun r =>
                  (getIntersectionBetweenConOutAndStrErr around (sys.set which r.2)).bind fun r' =>
                    some (r.1, r'.2)) := by
  unfold textOutDeleteDevice
  dsimp only
  rcases findDevice_spec textOut (sys.get which).textOutList h.list with
    ⟨hnone, hnot⟩ | ⟨index, hlt, hfind, hfound, hfirst⟩
  · rw [hnone]
    exact Or.inl ⟨hnot, rfl⟩
  · rw [hfind]
    dsimp only [Option.bind_eq_bind, Option.bind_some]
    have hle := h.list
    have hquery : 0 < (sys.get which).textOutQueryData.size :=
      Nat.lt_of_lt_of_le (by decide) h.query_room
    let list : Block δ := { (sys.get which).textOutList with
      cell := fun i =>
        if index ≤ i ∧ i < index + ((sys.get which).currentNumberOfConsoles - 1 - index) then
          (sys.get which).textOutList.cell (index + 1 + (i - index))
        else (sys.get which).textOutList.cell i }
    have hmove : (sys.get which).textOutList.move index (index + 1)
        ((sys.get which).currentNumberOfConsoles - 1 - index) = some list :=
      copy_of_le (by omega) (by omega)
    refine Or.inr ⟨list, rfl, Nat.zero_lt_of_lt hlt, front_erase hlt hfound hfirst
      (fun j hj => if_neg (by omega)) (fun j hj hj' => ?_), ?_⟩
    · refine (if_pos ⟨hj, by omega⟩).trans (congrArg _ ?_)
      omega
    · rw [hmove]
      dsimp only [Option.bind_some]
      by_cases hleft : (sys.get which).currentNumberOfConsoles - 1 = 0
      · rw [if_pos hleft, write_of_lt hquery]
        exact Or.inl ⟨hleft, rfl⟩
      · rw [if_neg hleft]
        exact Or.inr ⟨hleft, rfl⟩

/-- **A device goes**: it is no longer in the list, and the modes are those of the others. -/
theorem textOutDeleteDevice_spec (hgranted : ∀ n, around.granted n = true)
    (hlawful : ∀ d, (device d).Lawful) {sys : Splitters δ} {which : Which}
    (h : ∀ w, Tables device (sys.get w)) (textOut : δ)
    (hproduct : ∀ sys' : Splitters δ,
      (sys'.get which).consoles = (sys.get which).consoles.erase textOut →
      (∀ w ≠ which, (sys'.get w).currentNumberOfConsoles = (sys.get w).currentNumberOfConsoles) →
      sys'.mConOut.currentNumberOfConsoles * sys'.mStdErr.currentNumberOfConsoles
        ≤ consoleSplitterAllocUnit) :
    ∃ status sys', textOutDeleteDevice device around which textOut sys = some (status, sys')
      ∧ (sys'.get which).consoles = (sys.get which).consoles.erase textOut
      ∧ Tables device (sys'.get which)
      ∧ ((sys.get which).Virtual → (sys'.get which).Virtual)
      ∧ ∀ w ≠ which, Cut device (sys.get w) (sys'.get w) := by
  rcases textOutDeleteDevice_cases around (h which) textOut with
    ⟨hnot, hdelete⟩ | ⟨list, hsize, hpos, herase, ⟨hleft, hdelete⟩ | ⟨hleft, hdelete⟩⟩
  · exact ⟨_, sys, hdelete, (List.erase_of_not_mem hnot).symm, h which, id, fun w _ => Cut.refl _⟩
  · refine ⟨_, _, hdelete, ?_, ?_, ?_, fun w hw => ?_⟩
    · rw [Splitters.get_set, ← herase, hleft]
      rfl
    · obtain ⟨map, hmapped⟩ := (h which).mapped hpos
      rw [Splitters.get_set]
      refine ⟨Nat.zero_le _, hsize.symm ▸ (h which).list_room, (h which).query_room,
        fun _ => ⟨rfl, rfl, fun map' hmap' => ?_⟩, fun hzero => absurd hzero (Nat.lt_irrefl 0)⟩
      obtain rfl : map = map' := Option.some.inj (hmapped.map_eq.symm.trans hmap')
      have hlow := hmapped.agrees.low 0 hmapped.agrees.modes Nat.two_pos
      exact ⟨hlow, (hmapped.agrees.hasNumber hmapped.agrees.modes).1⟩
    · rw [Splitters.get_set]
      exact fun _ _ => ⟨rfl, home_inside⟩
    · rw [Splitters.get_set_of_ne sys hw]
      exact Cut.refl _
  · have hle := (h which).list
    obtain ⟨s', map', hremake, hcount, hlist, hmapped', -⟩ := remakeModes_spec hgranted hlawful
      (fun _ _ => True) { sys.get which with textOutList := list } (Nat.pos_of_ne_zero hleft)
      (show _ ≤ list.size by omega) (h which).query_room (fun _ _ _ _ _ => trivial)
      fun _ _ _ _ _ _ _ _ _ _ _ _ => trivial
    have hconsoles : s'.consoles = (sys.get which).consoles.erase textOut := by
      rw [← herase]
      unfold TextOutSplitter.consoles
      rw [hcount, hlist]
    have htables' : Tables device s' := by
      refine ⟨?_, ?_, hmapped'.room, fun hzero => absurd (hcount.symm.trans hzero) hleft,
        fun _ => ⟨map', hcount.symm ▸ hmapped'⟩⟩
      · rw [hcount, hlist]
        show _ ≤ list.size
        omega
      · rw [hlist]
        exact hsize.symm ▸ (h which).list_room
    have htables : ∀ w, Tables device ((sys.set which s').get w) := fun w => by
      by_cases hw : w = which
      · rw [hw, Splitters.get_set]
        exact htables'
      · rw [Splitters.get_set_of_ne sys hw]
        exact h w
    obtain ⟨sys', hbetween, hcut⟩ := getIntersectionBetweenConOutAndStrErr_spec hgranted
      (htables .conOut) (htables .stdErr) (Nat.le_trans (hproduct (sys.set which s')
        (by rw [Splitters.get_set]; exact hconsoles)
        fun w hw => by rw [Splitters.get_set_of_ne sys hw]) (htables .stdErr).list_room)
    have hwhich := hcut which
    rw [Splitters.get_set] at hwhich
    refine ⟨efiSuccess, sys', ?_, hwhich.consoles_eq.trans hconsoles, hwhich.tables htables',
      fun _ hzero => absurd ((hwhich.count.trans hcount).symm.trans hzero) hleft, fun w hw => ?_⟩
    · rw [hdelete, hremake, Option.bind_some, hbetween, Option.bind_some]
    · have hother := hcut w
      rwa [Splitters.get_set_of_ne sys hw] at hother

end

end ConSplitter
