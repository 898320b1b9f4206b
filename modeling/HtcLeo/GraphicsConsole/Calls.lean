import HtcLeo.GraphicsConsole.Writing
import HtcLeo.Lib.History

/-!
# The calls of the graphics console

What an application calls of `SIMPLE_TEXT_OUTPUT`, and what the console keeps
over any sequence of such calls: the cursor is in the window of the mode, the
mode is one of the table, and the attribute has no bit but those of its colours.
Every call comes back.

A change of mode frees the line buffer before it allocates another. Where there
is no memory for it the console stays in its mode, and keeps the pointer to what
it freed: the next change frees that once more.
-/

namespace GraphicsConsole

open FrameBufferBlt StatusCode

/-! ## The calls -/

section

variable {σ : Type} (dev : GraphicsConsoleDev) (maxMode : UInt32) (display : Display σ)

/-- `GraphicsConsoleConOutQueryMode`: the status, and the columns and rows that are
written. -/
def queryMode (modeNumber : UInt32) : StatusCode × Option (UInt32 × UInt32) :=
  if modeNumber ≥ maxMode then (efiUnsupported, none)
  else
    let data := dev.modeData modeNumber.toInt32
    (if data.columns = 0 ∨ data.rows = 0 then efiUnsupported else efiSuccess,
      some (data.columns, data.rows))

/-- `GraphicsConsoleConOutClearScreen`. -/
def clearScreen (c : Console σ) : StatusCode × Console σ :=
  if c.current.mode = -1 then (efiUnsupported, c)
  else
    let data := dev.modeData c.current.mode
    let filled := display.videoFill (getTextColors c.current).2 (0, 0) data.gopWidth data.gopHeight
      0 c.screen
    (filled.1, ({ c with screen := filled.2 }.moveTo 0 0).flush display)

/-- `FreePool (Private->LineBuffer)`. -/
def Console.freeLineBuffer (c : Console σ) : Console σ :=
  { c with lineBuffer := .freed, freedTwice := c.freedTwice || c.lineBuffer == .freed }

/-- `Mode`, `CursorColumn` and `CursorRow` are assigned to. -/
def Console.enterMode (mode : Int32) (c : Console σ) : Console σ :=
  { c with current := { c.current with mode := mode, cursorColumn := 0, cursorRow := 0 } }

/-- The graphics mode is set, or the display cleared. The status is that of `SetMode`;
that of the block transfer is not looked at. -/
def setGraphicsMode (data : GraphicsConsoleModeData) (screen : σ) : StatusCode × σ :=
  if data.gopModeNumber ≠ display.mode screen then display.setMode data.gopModeNumber screen
  else
    (efiSuccess, (display.videoFill (mGraphicsEfiColors.getD 0 default) (0, 0) data.gopWidth
      data.gopHeight 0 screen).2)

/-- The second half of `SetMode`, for a mode that is another one or the first.
`granted` tells whether there is memory for its line buffer. -/
def changeMode (granted : Bool) (modeNumber : UInt32) (c : Console σ) : StatusCode × Console σ :=
  let data := dev.modeData modeNumber.toInt32
  let c := if c.lineBuffer = .null then c else (c.flush display).freeLineBuffer
  if !granted then (efiOutOfResources, c)
  else
    let set := setGraphicsMode display data c.screen
    let c := { c with lineBuffer := .allocated, screen := set.2 }
    if set.1.efiError then (set.1, c)
    else (efiSuccess, (c.enterMode modeNumber.toInt32).flush display)

/-- The second mode, on a screen that has no room for it. -/
def GraphicsConsoleModeData.IsBlank (data : GraphicsConsoleModeData) : Prop :=
  data.columns = 0 ∧ data.rows = 0

instance (data : GraphicsConsoleModeData) : Decidable data.IsBlank :=
  inferInstanceAs (Decidable (_ ∧ _))

/-- `GraphicsConsoleConOutSetMode`. -/
def setMode (granted : Bool) (modeNumber : UInt32) (c : Console σ) : StatusCode × Console σ :=
  if modeNumber ≥ maxMode then (efiUnsupported, c)
  else if (dev.modeData modeNumber.toInt32).IsBlank then (efiUnsupported, c)
  else if c.lineBuffer ≠ .null ∧ modeNumber.toInt32 = c.current.mode then
    (efiSuccess, (clearScreen dev display c).2)
  else changeMode dev display granted modeNumber c

/-- `GraphicsConsoleConOutSetAttribute`. -/
def setAttribute (textAttribute : UInt32) (c : Console σ) : StatusCode × Console σ :=
  if textAttribute ||| 0x7F ≠ 0x7F then (efiUnsupported, c)
  else if textAttribute.toInt32 = c.current.textAttribute then (efiSuccess, c)
  else (efiSuccess, ((c.flush display).paint textAttribute.toInt32).flush display)

/-- `GraphicsConsoleConOutReset`. -/
def reset (granted : Bool) (c : Console σ) : StatusCode × Console σ :=
  let set := setMode dev maxMode display granted 0 c
  if set.1.efiError then set
  else setAttribute display (set.2.current.textAttribute &&& 0x0F).toUInt32 set.2

/-- `GraphicsConsoleConOutSetCursorPosition`. -/
def setCursorPosition (column row : UInt32) (c : Console σ) : StatusCode × Console σ :=
  if c.current.mode = -1 then (efiUnsupported, c)
  else
    let data := dev.modeData c.current.mode
    if column ≥ data.columns ∨ row ≥ data.rows then (efiUnsupported, c)
    else if c.current.cursorColumn = column.toInt32 ∧ c.current.cursorRow = row.toInt32 then
      (efiSuccess, c)
    else (efiSuccess, ((c.flush display).moveTo column.toInt32 row.toInt32).flush display)

/-- `CursorVisible` is assigned to. -/
def Console.showCursor (visible : Bool) (c : Console σ) : Console σ :=
  { c with current := { c.current with cursorVisible := visible } }

/-- `GraphicsConsoleConOutEnableCursor`. -/
def enableCursor (visible : Bool) (c : Console σ) : StatusCode × Console σ :=
  if c.current.mode = -1 then (efiUnsupported, c)
  else (efiSuccess, ((c.flush display).showCursor visible).flush display)

/-- What is called of the console, with what the allocation of a line buffer comes to. -/
inductive Call where
  | reset (granted : Bool)
  | outputString (wString : List UInt16)
  | setMode (modeNumber : UInt32) (granted : Bool)
  | setAttribute (textAttribute : UInt32)
  | clearScreen
  | setCursorPosition (column row : UInt32)
  | enableCursor (visible : Bool)
  deriving DecidableEq, Repr

/-- **The answer to a call**: the status, and what it leaves. A string may take as many
turns as `outputString_eq_written` allows it. -/
def answer (c : Console σ) : Call → Option (StatusCode × Console σ)
  | .reset granted => some (reset dev maxMode display granted c)
  | .outputString wString => outputString dev display (2 * wString.length + 2) 3 wString c
  | .setMode modeNumber granted => some (setMode dev maxMode display granted modeNumber c)
  | .setAttribute textAttribute => some (setAttribute display textAttribute c)
  | .clearScreen => some (clearScreen dev display c)
  | .setCursorPosition column row => some (setCursorPosition dev display column row c)
  | .enableCursor visible => some (enableCursor display visible c)

/-- What a call leaves, if it comes back. -/
def callStep (c : Console σ) (call : Call) : Option (Console σ) :=
  (answer dev maxMode display c call).map Prod.snd

/-- The answer to a call without those the console makes to itself. -/
def answered (c : Console σ) : Call → StatusCode × Console σ
  | .reset granted => reset dev maxMode display granted c
  | .outputString wString => written dev display wString c
  | .setMode modeNumber granted => setMode dev maxMode display granted modeNumber c
  | .setAttribute textAttribute => setAttribute display textAttribute c
  | .clearScreen => clearScreen dev display c
  | .setCursorPosition column row => setCursorPosition dev display column row c
  | .enableCursor visible => enableCursor display visible c

/-- `mGraphicsConsoleDevTemplate`, over what is on the screen. -/
def startedConsole (screen : σ) : Console σ where
  current :=
    { mode := -1
      textAttribute := 0x07
      cursorColumn := 0
      cursorRow := 0
      cursorVisible := true }
  lineBuffer := .null
  freedTwice := false
  screen := screen

end

/-! ## What every call keeps -/

/-- **A table the console can use**: every mode of it that is not blank is one the
console can write in. -/
def GraphicsConsoleDev.UsableModes (dev : GraphicsConsoleDev) (maxMode : UInt32) : Prop :=
  ∀ n < maxMode, ¬ (dev.modeData n.toInt32).IsBlank → (dev.modeData n.toInt32).Usable

section

variable {σ : Type}

/-- **A sound console**: in no mode, or in one of the table with the cursor in its
window; and with the bits of two colours for an attribute. -/
structure Console.Sound (dev : GraphicsConsoleDev) (maxMode : UInt32) (c : Console σ) : Prop where
  inMode : c.current.mode ≠ -1 → ∃ n < maxMode, c.current.mode = n.toInt32
    ∧ (dev.modeData c.current.mode).Usable ∧ c.current.InWindow (dev.modeData c.current.mode)
  colors : c.current.textAttribute &&& 0x7F = c.current.textAttribute

variable {dev : GraphicsConsoleDev} {maxMode : UInt32} {display : Display σ} {c : Console σ}

theorem sound_startedConsole (screen : σ) : (startedConsole screen).Sound dev maxMode :=
  ⟨fun h => absurd rfl h, show (0x07 : Int32) &&& 0x7F = 0x07 by decide⟩

/-- The first cell is in the window of any mode the console can write in. -/
theorem inWindow_first {current : SimpleTextOutputMode} {data : GraphicsConsoleModeData}
    (husable : data.Usable) (hat : current.At 0 0) : current.InWindow data :=
  ⟨0, 0, hat, Nat.lt_of_lt_of_le Nat.zero_lt_two husable.columns_ge, husable.rows_pos⟩

/-- The window is a matter of the place of the cursor only. -/
theorem InWindow.congr {current current' : SimpleTextOutputMode} {data : GraphicsConsoleModeData}
    (h : current.InWindow data) (hcolumn : current'.cursorColumn = current.cursorColumn)
    (hrow : current'.cursorRow = current.cursorRow) : current'.InWindow data := by
  obtain ⟨column, row, hat, hin⟩ := h
  exact ⟨column, row, ⟨hcolumn.trans hat.column, hrow.trans hat.row⟩, hin⟩

/-- The console is where it was, but for the cursor. -/
theorem Console.Sound.of_inWindow {c' : Console σ} (h : c.Sound dev maxMode)
    (hmode : c'.current.mode = c.current.mode)
    (hattribute : c'.current.textAttribute = c.current.textAttribute)
    (hwindow : c.current.mode ≠ -1 → (dev.modeData c.current.mode).Usable →
      c.current.InWindow (dev.modeData c.current.mode) →
      c'.current.InWindow (dev.modeData c.current.mode)) : c'.Sound dev maxMode where
  inMode hne := by
    rw [hmode] at hne ⊢
    obtain ⟨n, hn, heq, husable, hin⟩ := h.inMode hne
    exact ⟨n, hn, heq, husable, hwindow hne husable hin⟩
  colors := by rw [hattribute, h.colors]

theorem Console.Sound.flush (h : c.Sound dev maxMode) : (c.flush display).Sound dev maxMode :=
  h.of_inWindow rfl rfl fun _ _ hin => hin

theorem Console.Sound.clearScreen (h : c.Sound dev maxMode) :
    (clearScreen dev display c).2.Sound dev maxMode := by
  unfold GraphicsConsole.clearScreen
  split
  · exact h
  · exact h.of_inWindow rfl rfl fun _ husable _ => inWindow_first husable ⟨rfl, rfl⟩

/-- **A change of mode**, case by case: what was freed, and what was set. -/
theorem changeMode_cases (granted : Bool) (modeNumber : UInt32) (c : Console σ) :
    ∃ freed : Console σ, (freed = c ∧ c.lineBuffer = .null
        ∨ freed = (c.flush display).freeLineBuffer ∧ c.lineBuffer ≠ .null)
      ∧ ((granted = false
          ∧ changeMode dev display granted modeNumber c = (efiOutOfResources, freed))
        ∨ granted = true ∧ ∃ set, set = setGraphicsMode display (dev.modeData modeNumber.toInt32)
              freed.screen
          ∧ (set.1.efiError = true ∧ changeMode dev display granted modeNumber c
              = (set.1, { freed with lineBuffer := .allocated, screen := set.2 })
            ∨ set.1.efiError = false ∧ changeMode dev display granted modeNumber c
              = (efiSuccess, ({ freed with
                  lineBuffer := .allocated
                  screen := set.2 }.enterMode modeNumber.toInt32).flush display))) := by
  refine ⟨if c.lineBuffer = .null then c else (c.flush display).freeLineBuffer, ?_, ?_⟩
  · split
    · rename_i hnull
      exact Or.inl ⟨rfl, hnull⟩
    · rename_i hnull
      exact Or.inr ⟨rfl, hnull⟩
  · unfold changeMode
    generalize (if c.lineBuffer = .null then c else (c.flush display).freeLineBuffer) = freed
    cases granted with
    | false => exact Or.inl ⟨rfl, rfl⟩
    | true =>
      refine Or.inr ⟨rfl, _, rfl, ?_⟩
      simp only [Bool.not_true, Bool.false_eq_true, if_false]
      generalize setGraphicsMode display (dev.modeData modeNumber.toInt32) freed.screen = set
      cases herror : set.1.efiError with
      | true => exact Or.inl ⟨rfl, if_pos rfl⟩
      | false => exact Or.inr ⟨rfl, if_neg Bool.false_ne_true⟩

/-- **What `SetMode` does**: it refuses, clears the screen, or changes the mode. -/
theorem setMode_cases (granted : Bool) (modeNumber : UInt32) (c : Console σ) :
    ((modeNumber ≥ maxMode ∨ (dev.modeData modeNumber.toInt32).IsBlank)
      ∧ setMode dev maxMode display granted modeNumber c = (efiUnsupported, c))
    ∨ (modeNumber < maxMode ∧ ¬ (dev.modeData modeNumber.toInt32).IsBlank)
      ∧ ((c.lineBuffer ≠ .null ∧ modeNumber.toInt32 = c.current.mode)
          ∧ setMode dev maxMode display granted modeNumber c
            = (efiSuccess, (clearScreen dev display c).2)
        ∨ ¬ (c.lineBuffer ≠ .null ∧ modeNumber.toInt32 = c.current.mode)
          ∧ setMode dev maxMode display granted modeNumber c
            = changeMode dev display granted modeNumber c) := by
  unfold setMode
  split
  · rename_i hge
    exact Or.inl ⟨Or.inl hge, rfl⟩
  · rename_i hlt
    split
    · rename_i hblank
      exact Or.inl ⟨Or.inr hblank, rfl⟩
    · rename_i hblank
      refine Or.inr ⟨⟨UInt32.not_le.mp hlt, hblank⟩, ?_⟩
      split
      · rename_i hsame
        exact Or.inl ⟨hsame, rfl⟩
      · rename_i hother
        exact Or.inr ⟨hother, rfl⟩

theorem Console.Sound.changeMode (h : c.Sound dev maxMode) (husable : dev.UsableModes maxMode)
    (granted : Bool) {modeNumber : UInt32} (hlt : modeNumber < maxMode)
    (hblank : ¬ (dev.modeData modeNumber.toInt32).IsBlank) :
    (changeMode dev display granted modeNumber c).2.Sound dev maxMode := by
  obtain ⟨freed, hfreed, hcases⟩ := @changeMode_cases σ dev display granted modeNumber c
  have hsound : freed.Sound dev maxMode := by
    rcases hfreed with ⟨rfl, -⟩ | ⟨rfl, -⟩
    · exact h
    · exact h.of_inWindow rfl rfl fun _ _ hin => hin
  rcases hcases with ⟨-, heq⟩ | ⟨-, set, -, ⟨-, heq⟩ | ⟨-, heq⟩⟩
  · rwa [heq]
  · rw [heq]
    exact hsound.of_inWindow rfl rfl fun _ _ hin => hin
  · rw [heq]
    have hmode := husable modeNumber hlt hblank
    exact ⟨fun _ => ⟨modeNumber, hlt, rfl, hmode, inWindow_first hmode ⟨rfl, rfl⟩⟩,
      hsound.colors⟩

theorem Console.Sound.setMode (h : c.Sound dev maxMode) (husable : dev.UsableModes maxMode)
    (granted : Bool) (modeNumber : UInt32) :
    (setMode dev maxMode display granted modeNumber c).2.Sound dev maxMode := by
  rcases @setMode_cases σ dev maxMode display granted modeNumber c with
    ⟨-, heq⟩ | ⟨⟨hlt, hblank⟩, ⟨-, heq⟩ | ⟨-, heq⟩⟩
  · rwa [heq]
  · rw [heq]
    exact h.clearScreen
  · rw [heq]
    exact h.changeMode husable granted hlt hblank

/-- An attribute that passes the check has no bit but those of its colours. -/
theorem and_of_or_eq {a : UInt32} (h : a ||| 0x7F = 0x7F) :
    a.toInt32 &&& 0x7F = a.toInt32 := by
  apply Int32.toBitVec_inj.1
  have hbits : a.toBitVec ||| (0x7F : UInt32).toBitVec = (0x7F : UInt32).toBitVec :=
    congrArg UInt32.toBitVec h
  show a.toBitVec &&& (0x7F : Int32).toBitVec = a.toBitVec
  rw [show (0x7F : Int32).toBitVec = (0x7F : UInt32).toBitVec from rfl, ← hbits]
  ext i hi
  simp only [BitVec.getElem_and, BitVec.getElem_or, Bool.and_or_distrib_left, Bool.and_self]
  exact Bool.or_eq_left_iff_imp.mpr fun hand => (Bool.and_eq_true _ _ ▸ hand).1

theorem Console.Sound.setAttribute (h : c.Sound dev maxMode) (textAttribute : UInt32) :
    (setAttribute display textAttribute c).2.Sound dev maxMode := by
  unfold GraphicsConsole.setAttribute
  split
  · exact h
  · rename_i hbits
    split
    · exact h
    · refine ⟨fun hne => ?_, and_of_or_eq (not_not.mp hbits)⟩
      obtain ⟨n, hn, heq, husable, hin⟩ := h.inMode hne
      exact ⟨n, hn, heq, husable, InWindow.congr hin rfl rfl⟩

theorem Console.Sound.setCursorPosition (h : c.Sound dev maxMode) (column row : UInt32) :
    (setCursorPosition dev display column row c).2.Sound dev maxMode := by
  unfold GraphicsConsole.setCursorPosition
  split
  · exact h
  · simp only
    split
    · exact h
    · rename_i hin
      split
      · exact h
      · rw [not_or, ge_iff_le, ge_iff_le, UInt32.not_le, UInt32.not_le, UInt32.lt_iff_toNat_lt,
          UInt32.lt_iff_toNat_lt] at hin
        exact h.of_inWindow rfl rfl fun _ _ _ => ⟨column.toNat, row.toNat,
          ⟨toInt32_eq_ofNat column, toInt32_eq_ofNat row⟩, hin⟩

/-- A string leaves a sound console, and comes back. -/
theorem Console.Sound.outputString (h : c.Sound dev maxMode) (wString : List UInt16) :
    outputString dev display (2 * wString.length + 2) 3 wString c
        = some (written dev display wString c)
      ∧ (written dev display wString c).2.Sound dev maxMode := by
  by_cases hmode : c.current.mode = -1
  · unfold GraphicsConsole.outputString written
    rw [if_pos hmode, if_pos hmode]
    exact ⟨rfl, h⟩
  · obtain ⟨n, hn, heq, husable, hin⟩ := h.inMode hmode
    obtain ⟨hkeeps, hattribute, hwindow⟩ := written_keeps dev display husable hin wString
    exact ⟨outputString_eq_written dev display husable hin wString (Nat.le_refl _) (Nat.le_refl _),
      h.of_inWindow hkeeps.mode hattribute fun _ _ _ => hwindow⟩

variable (display) in
/-- **One call** comes back, and leaves a sound console. -/
theorem Console.Sound.answer (h : c.Sound dev maxMode) (husable : dev.UsableModes maxMode)
    (call : Call) :
    answer dev maxMode display c call = some (answered dev maxMode display c call)
      ∧ (answered dev maxMode display c call).2.Sound dev maxMode := by
  cases call with
  | reset granted =>
    refine ⟨rfl, ?_⟩
    show (GraphicsConsole.reset dev maxMode display granted c).2.Sound dev maxMode
    unfold GraphicsConsole.reset
    simp only
    split
    · exact h.setMode husable granted 0
    · exact (h.setMode husable granted 0).setAttribute _
  | outputString wString => exact h.outputString wString
  | setMode modeNumber granted => exact ⟨rfl, h.setMode husable granted modeNumber⟩
  | setAttribute textAttribute => exact ⟨rfl, h.setAttribute textAttribute⟩
  | clearScreen => exact ⟨rfl, h.clearScreen⟩
  | setCursorPosition column row => exact ⟨rfl, h.setCursorPosition column row⟩
  | enableCursor visible =>
    refine ⟨rfl, ?_⟩
    show (GraphicsConsole.enableCursor display visible c).2.Sound dev maxMode
    unfold GraphicsConsole.enableCursor
    split
    · exact h
    · exact h.of_inWindow rfl rfl fun _ _ hin => InWindow.congr hin rfl rfl

variable (display) in
/-- **A sequence of calls** comes back, and leaves a sound console. -/
theorem Console.Sound.calls (h : c.Sound dev maxMode) (husable : dev.UsableModes maxMode)
    (calls : List Call) :
    Run.runOption (callStep dev maxMode display) c calls
        = some (Run.run (Run.next (answered dev maxMode display)) c calls)
      ∧ (Run.run (Run.next (answered dev maxMode display)) c calls).Sound dev maxMode := by
  induction calls generalizing c with
  | nil => exact ⟨rfl, h⟩
  | cons call calls ih =>
    obtain ⟨heq, hsound⟩ := h.answer display husable call
    have hstep : callStep dev maxMode display c call
        = some (answered dev maxMode display c call).2 := congrArg (Option.map Prod.snd) heq
    rw [Run.runOption_cons, hstep]
    exact ih hsound

end

end GraphicsConsole
