import HtcLeo.ConSplitter.Devices
import Mathlib.Data.List.Basic

/-!
# Calls to a splitter

A call to a splitter asks every attached device in turn. Each of them comes back, with
the tables as they were (`Kept`): `textOutSetMode_spec` is the one that reads them, and
asks every device for its own number of the mode. Without a device the splitter keeps
a cursor of its own, which stays in the window (`Virtual`).
-/

namespace ConSplitter

open StatusCode Block

variable {δ : Type}

/-! ## What is kept -/

/-- The devices that are attached. -/
def TextOutSplitter.consoles (s : TextOutSplitter δ) : List δ :=
  s.textOutList.front s.currentNumberOfConsoles

@[simp] theorem TextOutSplitter.length_consoles (s : TextOutSplitter δ) :
    s.consoles.length = s.currentNumberOfConsoles :=
  length_front _ _

/-- The current mode is one of those offered. -/
def TextOutSplitter.ModeValid (s : TextOutSplitter δ) : Prop := 0 ≤ s.mode ∧ s.mode < s.maxMode

/-- **Without a device** the mode is 0 and the cursor is in its window. -/
def TextOutSplitter.Virtual (s : TextOutSplitter δ) : Prop :=
  s.currentNumberOfConsoles = 0 → s.mode = 0 ∧ (0 ≤ s.cursorColumn ∧ s.cursorColumn < 40)
    ∧ 0 ≤ s.cursorRow ∧ s.cursorRow < 12

/-- **The tables of a splitter**: those of its devices, or of none. -/
structure Tables (device : δ → TextOutDevice) (s : TextOutSplitter δ) : Prop where
  list : s.currentNumberOfConsoles ≤ s.textOutList.size
  list_room : consoleSplitterAllocUnit ≤ s.textOutList.size
  query_room : consoleSplitterAllocUnit ≤ s.textOutQueryData.size
  bare : s.currentNumberOfConsoles = 0 → s.maxMode = 1 ∧ s.textOutQueryData.cell 0 = ⟨40, 12⟩
    ∧ ∀ map, s.textOutModeMap = some map → map.cell 0 = 0 ∧ 0 < map.size
  mapped : 0 < s.currentNumberOfConsoles → ∃ map,
    Mapped (fun k => device (s.textOutList.cell k)) s.currentNumberOfConsoles s map

/-- **What a call keeps**: the tables, a cursor in the window, and a mode that is offered. -/
structure Kept (s s' : TextOutSplitter δ) : Prop where
  maxMode : s'.maxMode = s.maxMode
  count : s'.currentNumberOfConsoles = s.currentNumberOfConsoles
  list : s'.textOutList = s.textOutList
  query : s'.textOutQueryData = s.textOutQueryData
  map : s'.textOutModeMap = s.textOutModeMap
  window : s.Virtual → s'.Virtual
  valid : s.ModeValid → s'.ModeValid

namespace Kept

variable {s s' s'' : TextOutSplitter δ}

theorem refl (s : TextOutSplitter δ) : Kept s s := ⟨rfl, rfl, rfl, rfl, rfl, id, id⟩

theorem trans (h : Kept s s') (h' : Kept s' s'') : Kept s s'' :=
  ⟨h'.maxMode.trans h.maxMode, h'.count.trans h.count, h'.list.trans h.list,
    h'.query.trans h.query, h'.map.trans h.map, h'.window ∘ h.window, h'.valid ∘ h.valid⟩

theorem consoles_eq (h : Kept s s') : s'.consoles = s.consoles := by
  unfold TextOutSplitter.consoles
  rw [h.count, h.list]

theorem mapped (h : Kept s s') {devices : ℕ → TextOutDevice} {n : ℕ} {map : Block ℤ}
    (hmapped : Mapped devices n s map) : Mapped devices n s' map where
  map_eq := h.map.trans hmapped.map_eq
  size := by rw [h.list, h.query, hmapped.size]
  fits := by rw [h.maxMode, h.query]; exact hmapped.fits
  room := by rw [h.query]; exact hmapped.room
  agrees := by rw [h.list, h.query, h.maxMode]; exact hmapped.agrees

theorem tables (h : Kept s s') {device : δ → TextOutDevice} (htables : Tables device s) :
    Tables device s' where
  list := by rw [h.count, h.list]; exact htables.list
  list_room := by rw [h.list]; exact htables.list_room
  query_room := by rw [h.query]; exact htables.query_room
  bare := by rw [h.count, h.maxMode, h.query, h.map]; exact htables.bare
  mapped hpos := by
    rw [h.count] at hpos ⊢
    obtain ⟨map, hmapped⟩ := htables.mapped hpos
    exact ⟨map, h.list ▸ h.mapped hmapped⟩

end Kept

/-! ## Requests -/

section

variable {s : TextOutSplitter δ} (replies : δ → TextOutRequest → StatusCode)

/-- **Every device is asked**, in its turn and for what is its own. -/
theorem askEach_spec (hlist : s.currentNumberOfConsoles ≤ s.textOutList.size)
    (request : ℕ → Option TextOutRequest) (requests : ℕ → TextOutRequest)
    (hrequest : ∀ i < s.currentNumberOfConsoles, request i = some (requests i)) :
    ∃ status, askEach replies request s = some (status, { s with
      asked := s.asked ++ (List.range s.currentNumberOfConsoles).map fun i =>
        (s.textOutList.cell i, requests i) }) := by
  obtain ⟨⟨status, asked⟩, hrun, hasked⟩ := foldlM_range_inv
    (f := fun (t : StatusCode × List (δ × TextOutRequest)) index => do
      let textOut ← s.textOutList.read index
      let request ← request index
      let status := replies textOut request
      some (if efiError status then status else t.1, t.2 ++ [(textOut, request)]))
    (n := s.currentNumberOfConsoles) (b := (efiSuccess, s.asked))
    (fun k t => t.2 = s.asked ++ (List.range k).map fun i => (s.textOutList.cell i, requests i))
    (List.append_nil _).symm fun k hk t ht => by
      rw [read_of_lt (Nat.lt_of_lt_of_le hk hlist), hrequest k hk]
      refine ⟨_, rfl, ?_⟩
      rw [List.range_succ, List.map_append, ← List.append_assoc, ← ht]
      rfl
  refine ⟨status, ?_⟩
  unfold askEach
  dsimp only at hasked
  rw [← hasked]
  exact (congrArg (Option.bind · _) hrun).trans rfl

/-- Every device is asked for the same. -/
theorem askEach_all (hlist : s.currentNumberOfConsoles ≤ s.textOutList.size)
    (request : TextOutRequest) :
    ∃ status asked, askEach replies (fun _ => some request) s
      = some (status, { s with asked := asked }) := by
  obtain ⟨status, hask⟩ := askEach_spec replies hlist (fun _ => some request)
    (fun _ => request) fun _ _ => rfl
  exact ⟨status, _, hask⟩

end

section

variable {device : δ → TextOutDevice} {s : TextOutSplitter δ} (around : Surroundings δ)

theorem kept_asked (s : TextOutSplitter δ) (asked : List (δ × TextOutRequest)) (value : ℕ)
    (visible : Bool) :
    Kept s { s with asked := asked, attr := value, cursorVisible := visible } :=
  ⟨rfl, rfl, rfl, rfl, rfl, id, id⟩

/-- The head of the window is in it. -/
theorem home_inside : ((0 : ℤ) ≤ 0 ∧ (0 : ℤ) < 40) ∧ (0 : ℤ) ≤ 0 ∧ (0 : ℤ) < 12 := by decide

/-- The cursor put at the head of the window. -/
theorem kept_home (s : TextOutSplitter δ) (asked : List (δ × TextOutRequest)) :
    Kept s { s with asked := asked, cursorColumn := 0, cursorRow := 0, cursorVisible := true } :=
  ⟨rfl, rfl, rfl, rfl, rfl, fun h hzero => ⟨(h hzero).1, home_inside⟩, id⟩

/-- A mode that is offered. -/
theorem kept_textOutSetMode {modeNumber : ℕ} (hmode : modeNumber < s.maxMode)
    (hone : s.currentNumberOfConsoles = 0 → s.maxMode = 1) (asked : List (δ × TextOutRequest)) :
    Kept s (TextOutSplitter.textOutSetMode { s with asked := asked } modeNumber) := by
  refine ⟨rfl, rfl, rfl, rfl, rfl, fun _ hzero => ⟨?_, home_inside⟩, fun _ => ?_⟩
  · have hmax := hone hzero
    show (modeNumber : ℤ) = 0
    omega
  · exact ⟨Int.natCast_nonneg _, Int.ofNat_lt.2 hmode⟩

theorem textOutClearScreen_spec (h : Tables device s) :
    ∃ status s', textOutClearScreen around s = some (status, s')
      ∧ Kept s s' ∧ s'.mode = s.mode := by
  obtain ⟨status, asked, hask⟩ := askEach_all around.replies h.list .clearScreen
  unfold textOutClearScreen
  rw [hask]
  exact ⟨_, _, rfl, kept_home s asked, rfl⟩

theorem textOutSetAttribute_spec (h : Tables device s) (value : ℕ) :
    ∃ status s', textOutSetAttribute around value s = some (status, s') ∧ Kept s s'
      ∧ s'.mode = s.mode ∧ s'.cursorColumn = s.cursorColumn ∧ s'.cursorRow = s.cursorRow := by
  unfold textOutSetAttribute
  split
  · exact ⟨_, _, rfl, Kept.refl s, rfl, rfl, rfl⟩
  · obtain ⟨status, asked, hask⟩ := askEach_all around.replies h.list (.setAttribute value)
    rw [hask]
    exact ⟨_, _, rfl, kept_asked s asked value s.cursorVisible, rfl, rfl, rfl⟩

/-- **A mode is set**: where it is not the current one, every device is asked for the number it
has for it. -/
theorem textOutSetMode_spec (h : Tables device s) (modeNumber : ℕ) (hmode : modeNumber < s.maxMode)
    (hint : modeNumber ≤ 0x7FFFFFFF) :
    ∃ status s', textOutSetMode around modeNumber s = some (status, s') ∧ Kept s s'
      ∧ s'.mode = modeNumber ∧ (s.mode ≠ modeNumber → ∀ map,
        Mapped (fun k => device (s.textOutList.cell k)) s.currentNumberOfConsoles s map →
          s'.asked = s.asked ++ (List.range s.currentNumberOfConsoles).map fun i =>
            (s.textOutList.cell i, .setMode (map.cell (s.textOutList.size * modeNumber + i)))) := by
  have hone : s.currentNumberOfConsoles = 0 → s.maxMode = 1 := fun hzero => (h.bare hzero).1
  unfold textOutSetMode
  rw [if_neg (by omega)]
  by_cases hsame : s.mode = modeNumber
  · obtain ⟨status, s', hclear, hkept, hmode'⟩ := textOutClearScreen_spec around h
    rw [if_pos hsame, hclear]
    exact ⟨status, s', rfl, hkept, hmode'.trans hsame, fun hne => absurd hsame hne⟩
  · rw [if_neg hsame]
    rcases Nat.eq_zero_or_pos s.currentNumberOfConsoles with hzero | hpos
    · obtain ⟨status, hask⟩ := askEach_spec around.replies h.list
        (fun index => do
          let map ← s.textOutModeMap
          let number ← map.read (s.textOutList.size * modeNumber + index)
          some (.setMode number))
        (fun _ => .clearScreen) fun i hi => absurd hi (by omega)
      rw [hask]
      refine ⟨_, _, rfl, kept_textOutSetMode hmode hone _, rfl, fun _ map _ => ?_⟩
      rw [hzero]
      rfl
    · obtain ⟨map, hmapped⟩ := h.mapped hpos
      obtain ⟨status, hask⟩ := askEach_spec around.replies h.list
        (fun index => do
          let map ← s.textOutModeMap
          let number ← map.read (s.textOutList.size * modeNumber + index)
          some (.setMode number))
        (fun i => .setMode (map.cell (s.textOutList.size * modeNumber + i)))
        fun i hi => by
          have hinside := Nat.lt_of_lt_of_le (row_lt hmode (Nat.lt_of_lt_of_le hi h.list))
            hmapped.agrees.inside
          rw [hmapped.map_eq]
          dsimp only [Option.bind_eq_bind, Option.bind_some]
          rw [read_of_lt hinside]
          rfl
      rw [hask]
      refine ⟨_, _, rfl, kept_textOutSetMode hmode hone _, rfl, fun _ map' hmapped' => ?_⟩
      obtain rfl : map' = map := Option.some.inj (hmapped'.map_eq.symm.trans hmapped.map_eq)
      rfl

theorem textOutReset_spec (h : Tables device s) (extendedVerification : Bool) :
    ∃ status s', textOutReset around extendedVerification s = some (status, s') ∧ Kept s s' := by
  have hone : s.currentNumberOfConsoles = 0 → s.maxMode = 1 := fun hzero => (h.bare hzero).1
  have hmodes : 0 < s.maxMode := by
    rcases Nat.eq_zero_or_pos s.currentNumberOfConsoles with hzero | hpos
    · rw [hone hzero]
      exact Nat.one_pos
    · obtain ⟨map, hmapped⟩ := h.mapped hpos
      exact hmapped.agrees.modes
  obtain ⟨status, asked, hask⟩ := askEach_all around.replies h.list (.reset extendedVerification)
  have hkept := kept_asked s asked s.attr s.cursorVisible
  obtain ⟨status', s', hattr, hkept', -⟩ :=
    textOutSetAttribute_spec around (hkept.tables h) (s.attr &&& 0x0F)
  have hmodes' : 0 < s'.maxMode := by rwa [hkept'.maxMode, hkept.maxMode]
  unfold textOutReset
  rw [hask]
  dsimp only [Option.bind_eq_bind, Option.bind_some] at hattr ⊢
  rw [hattr]
  refine ⟨_, _, rfl, (hkept.trans hkept').trans (kept_textOutSetMode hmodes' ?_ s'.asked)⟩
  rw [hkept'.count, hkept'.maxMode]
  exact hone

theorem textOutEnableCursor_spec (h : Tables device s) (visible : Bool) :
    ∃ status s', textOutEnableCursor around visible s = some (status, s') ∧ Kept s s' := by
  obtain ⟨status, asked, hask⟩ := askEach_all around.replies h.list (.enableCursor visible)
  unfold textOutEnableCursor
  rw [hask]
  exact ⟨_, _, rfl, kept_asked s asked s.attr visible⟩

theorem textOutTestString_spec (h : Tables device s) (string : List UInt16) :
    ∃ status s', textOutTestString around string s = some (status, s') ∧ Kept s s' := by
  obtain ⟨status, asked, hask⟩ := askEach_all around.replies h.list (.testString string)
  exact ⟨_, _, hask, kept_asked s asked s.attr s.cursorVisible⟩

/-! ## The virtual cursor -/

/-- A character leaves the cursor in the window. -/
theorem virtualCursor_inside {cursor : ℤ × ℤ} (char : UInt16)
    (h : (0 ≤ cursor.1 ∧ cursor.1 < 40) ∧ 0 ≤ cursor.2 ∧ cursor.2 < 12) :
    (0 ≤ (virtualCursor ⟨40, 12⟩ cursor char).1 ∧ (virtualCursor ⟨40, 12⟩ cursor char).1 < 40)
      ∧ 0 ≤ (virtualCursor ⟨40, 12⟩ cursor char).2
      ∧ (virtualCursor ⟨40, 12⟩ cursor char).2 < 12 := by
  obtain ⟨column, row⟩ := cursor
  unfold virtualCursor
  dsimp only at h ⊢
  split_ifs <;> dsimp only <;> omega

theorem virtualCursor_foldl {cursor : ℤ × ℤ} (string : List UInt16)
    (h : (0 ≤ cursor.1 ∧ cursor.1 < 40) ∧ 0 ≤ cursor.2 ∧ cursor.2 < 12) :
    (0 ≤ (string.foldl (virtualCursor ⟨40, 12⟩) cursor).1
        ∧ (string.foldl (virtualCursor ⟨40, 12⟩) cursor).1 < 40)
      ∧ 0 ≤ (string.foldl (virtualCursor ⟨40, 12⟩) cursor).2
      ∧ (string.foldl (virtualCursor ⟨40, 12⟩) cursor).2 < 12 := by
  induction string generalizing cursor with
  | nil => exact h
  | cons char string ih => exact ih (virtualCursor_inside char h)

/-- Without a device the one mode is that of forty columns and twelve rows. -/
theorem textOutQueryMode_virtual (h : Tables device s) (hzero : s.currentNumberOfConsoles = 0) :
    textOutQueryMode s 0 = some (efiSuccess, some ⟨40, 12⟩) := by
  obtain ⟨hmodes, hbase, hmap⟩ := h.bare hzero
  have hroom : 0 < s.textOutQueryData.size := Nat.lt_of_lt_of_le (by decide) h.query_room
  unfold textOutQueryMode
  rw [if_neg (by omega)]
  cases heq : s.textOutModeMap with
  | none =>
    dsimp only
    rw [read_of_lt hroom, hbase]
    rfl
  | some map =>
    obtain ⟨hcell, hsize⟩ := hmap map heq
    have hquery : s.textOutQueryData.readInt 0 = some ⟨40, 12⟩ := by
      rw [show (0 : ℤ) = ((0 : ℕ) : ℤ) from rfl, readInt_natCast, read_of_lt hroom, hbase]
    dsimp only
    rw [Nat.mul_zero, read_of_lt hsize, hcell]
    dsimp only [Option.bind_eq_bind, Option.bind_some]
    rw [hquery]
    rfl

theorem textOutOutputString_spec (h : Tables device s) (hvirtual : s.Virtual)
    (string : List UInt16) :
    ∃ status s', textOutOutputString around string s = some (status, s') ∧ Kept s s' := by
  obtain ⟨_, s₁, hattr, hkept₁, hmode₁, hcolumn₁, hrow₁⟩ :=
    textOutSetAttribute_spec around h s.attr
  obtain ⟨status, asked, hask⟩ := askEach_all around.replies (hkept₁.tables h).list
    (.outputString string)
  have hkept := hkept₁.trans (kept_asked s₁ asked s₁.attr s₁.cursorVisible)
  unfold textOutOutputString
  rw [hattr]
  dsimp only [Option.bind_eq_bind, Option.bind_some]
  rw [hask]
  dsimp only [Option.bind_eq_bind, Option.bind_some]
  rcases Nat.eq_zero_or_pos s.currentNumberOfConsoles with hzero | hpos
  · obtain ⟨hmode, hwindow⟩ := hvirtual hzero
    have hquery := textOutQueryMode_virtual (hkept.tables h) (hkept.count.trans hzero)
    have hzero' : (s₁.mode % 0x100000000).toNat = 0 := by
      rw [hmode₁, hmode]
      rfl
    rw [if_neg (by rw [hkept₁.count, hzero]; exact Nat.lt_irrefl 0), hzero', hquery]
    refine ⟨_, _, rfl, ⟨hkept.maxMode, hkept.count, hkept.list, hkept.query, hkept.map,
      fun _ _ => ⟨hmode₁.trans hmode, virtualCursor_foldl string ?_⟩, hkept.valid⟩⟩
    dsimp only
    rw [hcolumn₁, hrow₁]
    exact hwindow
  · have hlist : 0 < s₁.textOutList.size :=
      Nat.lt_of_lt_of_le (hkept₁.count.symm ▸ hpos) (hkept₁.tables h).list
    rw [if_pos (hkept₁.count.symm ▸ hpos), read_of_lt hlist]
    refine ⟨_, _, rfl, ⟨hkept.maxMode, hkept.count, hkept.list, hkept.query, hkept.map,
      fun _ hzero => ?_, hkept.valid⟩⟩
    dsimp only at hzero
    rw [hkept₁.count] at hzero
    omega

/-- The cursor is set where the current mode is one that is offered. -/
theorem textOutSetCursorPosition_spec (h : Tables device s) (hvalid : s.ModeValid)
    (hvirtual : s.Virtual) (column row : ℕ) :
    ∃ status s', textOutSetCursorPosition around column row s = some (status, s') ∧ Kept s s' := by
  obtain ⟨status, asked, hask⟩ := askEach_all around.replies h.list
    (.setCursorPosition column row)
  obtain ⟨mode, hmode⟩ := Int.eq_ofNat_of_zero_le hvalid.1
  have hlt : mode < s.maxMode := by
    have hlt := hvalid.2
    omega
  have hsize : ∃ currentMode size, s.currentMode = some currentMode
      ∧ s.textOutQueryData.readInt currentMode = some size
      ∧ (s.currentNumberOfConsoles = 0 → size = ⟨40, 12⟩) := by
    unfold TextOutSplitter.currentMode
    rw [hmode]
    rcases Nat.eq_zero_or_pos s.currentNumberOfConsoles with hzero | hpos
    · obtain ⟨hmodes, hbase, hmap⟩ := h.bare hzero
      have hroom : 0 < s.textOutQueryData.size := Nat.lt_of_lt_of_le (by decide) h.query_room
      obtain rfl : mode = 0 := by omega
      refine ⟨(0 : ℕ), ⟨40, 12⟩, ?_, ?_, fun _ => rfl⟩
      · cases heq : s.textOutModeMap with
        | none => rfl
        | some map =>
          obtain ⟨hcell, hinside⟩ := hmap map heq
          dsimp only
          rw [← Int.natCast_mul, readInt_natCast, Nat.mul_zero, read_of_lt hinside, hcell]
          rfl
      · rw [readInt_natCast, read_of_lt hroom, hbase]
    · obtain ⟨map, hmapped⟩ := h.mapped hpos
      have hnumber := hmapped.agrees.hasNumber hlt
      refine ⟨_, _, ?_, hnumber.readInt, fun hzero => absurd hzero (by omega)⟩
      rw [hmapped.map_eq]
      dsimp only
      rw [← Int.natCast_mul, readInt_natCast, hnumber.read]
  obtain ⟨currentMode, size, hcurrent, hread, hbare⟩ := hsize
  unfold textOutSetCursorPosition
  rw [hcurrent]
  dsimp only [Option.bind_eq_bind, Option.bind_some]
  rw [hread]
  dsimp only [Option.bind_some]
  split
  · exact ⟨_, _, rfl, Kept.refl s⟩
  · rename_i hinside
    rw [hask]
    refine ⟨_, _, rfl, ⟨rfl, rfl, rfl, rfl, rfl, fun _ hzero => ⟨(hvirtual hzero).1, ?_⟩, id⟩⟩
    have hwindow := hbare hzero
    subst hwindow
    dsimp only at hinside ⊢
    omega

end

end ConSplitter
