import HtcLeo.GraphicsConsole.Output

/-!
# What a string leaves on the graphics console

`OutputString` calls itself for a space and for a new line, and goes round its
loop once or twice for a character. Here the calls are carried out: `turned` is
a turn of the loop without them, `written` a whole call, and
`outputString_eq_written` says that the call ends and leaves that.

What carries the induction is `Console.Writes`: the cursor is at a column and a
row of the window, counted by numbers. A turn that draws nothing – a wide
character in the last column – moves to another line, where there is room.
-/

namespace GraphicsConsole

open FrameBufferBlt StatusCode

/-! ## The calls of the console to itself -/

section

variable {σ : Type} (dev : GraphicsConsoleDev) (display : Display σ)

/-- The characters that turn the wide attribute on and off leave the colours. -/
theorem getTextColors_congr {current current' : SimpleTextOutputMode}
    (h : current'.textAttribute &&& 0x7F = current.textAttribute &&& 0x7F) :
    getTextColors current' = getTextColors current := by
  unfold getTextColors
  rw [h]

theorem and_not_wide (a : Int32) : (a &&& ~~~efiWideAttribute) &&& 0x7F = a &&& 0x7F := by
  rw [Int32.and_assoc]
  rfl

theorem or_wide (a : Int32) : (a ||| efiWideAttribute) &&& 0x7F = a &&& 0x7F := by
  apply Int32.toBitVec_inj.1
  show (a.toBitVec ||| efiWideAttribute.toBitVec) &&& (0x7F : Int32).toBitVec = _
  rw [BitVec.and_or_distrib_right]
  exact BitVec.or_zero

/-- A carriage return and a line feed. -/
def newLine (data : GraphicsConsoleModeData) (background : BltPixel) (c : Console σ) : Console σ :=
  lineFeed display data background (c.moveTo 0 c.current.cursorRow)

/-- What is left of a console that wrote `mCrLfString`. -/
def crLfWritten (data : GraphicsConsoleModeData) (background : BltPixel) (c : Console σ) :
    Console σ :=
  (newLine display data background (c.flush display)).flush display

/-- A line that is full is ended. -/
def lineEnded (data : GraphicsConsoleModeData) (background : BltPixel) (c : Console σ) :
    Console σ :=
  if c.current.cursorColumn ≥ data.columns.toInt32 then
    (crLfWritten display data background (c.flush display)).flush display
  else c

/-- Some characters are drawn, and the cursor moves past them. -/
def textDrawn (wString : List UInt16) (fits : ℕ × UInt32) (c : Console σ) : Console σ :=
  { c with
    screen := (drawUnicodeWeightAtCursorN dev display c.current wString fits.1 c.screen).2 }.moveTo
      (c.current.cursorColumn + fits.2.toInt32) c.current.cursorRow

/-- What is left of a console that wrote `SpaceStr`. -/
def spaceWritten (data : GraphicsConsoleModeData) (background : BltPixel) (c : Console σ) :
    Console σ :=
  let narrow := (c.flush display).paint (c.current.textAttribute &&& ~~~efiWideAttribute)
  let drawn := textDrawn dev display [0x0020] (1, 1) narrow
  ((lineEnded display data background drawn).paint c.current.textAttribute).flush display

/-- A line feed changes the row and the screen. -/
theorem lineFeed_cases (data : GraphicsConsoleModeData) (background : BltPixel) (c : Console σ) :
    (c.current.cursorRow = (data.rows - 1).toInt32
      ∧ lineFeed display data background c
        = { c with screen := scrollUp display data background c.screen })
    ∨ c.current.cursorRow ≠ (data.rows - 1).toInt32
      ∧ lineFeed display data background c
        = c.moveTo c.current.cursorColumn (c.current.cursorRow + 1) := by
  unfold lineFeed
  split
  · rename_i hlast
    exact Or.inl ⟨hlast, rfl⟩
  · rename_i hlast
    exact Or.inr ⟨hlast, rfl⟩

end

section

variable {σ : Type} (dev : GraphicsConsoleDev) (display : Display σ) {c : Console σ}
  (call : List UInt16 → Console σ → Option (Console σ)) (data : GraphicsConsoleModeData)
  (background : BltPixel)

/-! The turns of the loop, one for each kind of character. -/

@[simp] theorem outputLoop_nil (turns : ℕ) (out : Output σ) :
    outputLoop dev display call data background turns [] out = some out := by
  cases turns <;> rfl

theorem outputLoop_cons (turns : ℕ) (char : UInt16) (rest : List UInt16) (out : Output σ) :
    outputLoop dev display call data background (turns + 1) (char :: rest) out
      = (outputTurn dev display call data background char rest out).bind fun next =>
          outputLoop dev display call data background turns next.1 next.2 :=
  rfl

theorem outputTurn_linefeed (rest : List UInt16) (out : Output σ) :
    outputTurn dev display call data background charLinefeed rest out
      = some (rest, { out with console := lineFeed display data background out.console }) :=
  rfl

theorem outputTurn_carriageReturn (rest : List UInt16) (out : Output σ) :
    outputTurn dev display call data background charCarriageReturn rest out
      = some (rest, { out with
          console := out.console.moveTo 0 out.console.current.cursorRow }) :=
  rfl

theorem outputTurn_narrow (rest : List UInt16) (out : Output σ) :
    outputTurn dev display call data background narrowChar rest out
      = some (rest, { out with
          console :=
            out.console.paint (out.console.current.textAttribute &&& ~~~efiWideAttribute) }) :=
  rfl

theorem outputTurn_text {char : UInt16} (hchar : ¬ IsControl char) (rest : List UInt16)
    (out : Output σ) :
    outputTurn dev display call data background char rest out
      = printText dev display call data (char :: rest) out := by
  unfold IsControl at hchar
  push Not at hchar
  obtain ⟨hbackspace, hlinefeed, hreturn, hwide, hnarrow⟩ := hchar
  unfold outputTurn
  rw [if_neg hbackspace, if_neg hlinefeed, if_neg hreturn, if_neg hwide, if_neg hnarrow]

theorem printText_of_fitting {wString : List UInt16} {out : Output σ} {fits : ℕ × UInt32}
    (hfits : fitting out.console.current.cursorColumn.toUInt32 data.columns
      out.console.current.isWide wString 0 0 = fits) :
    printText dev display call data wString out
      = (endLine display call data (textDrawn dev display wString fits out.console)).map fun c =>
          let status := (drawUnicodeWeightAtCursorN dev display out.console.current wString fits.1
            out.console.screen).1
          (wString.drop fits.1, ⟨c, status, out.warning || status.efiError⟩) := by
  unfold printText
  simp only [hfits]
  exact (Option.map_eq_bind ..).symm

/-- The console writes `mCrLfString`. -/
theorem outputString_mCrLfString (hmode : c.current.mode ≠ -1) (turns depth : ℕ) :
    (outputString dev display (turns + 2) (depth + 1) mCrLfString c).map Prod.snd
      = some (crLfWritten display (dev.modeData c.current.mode) (getTextColors c.current).2 c) := by
  have hattribute : (newLine display (dev.modeData c.current.mode) (getTextColors c.current).2
      (c.flush display)).current.textAttribute = c.current.textAttribute := by
    unfold newLine
    rcases lineFeed_cases display (dev.modeData c.current.mode) (getTextColors c.current).2
      ((c.flush display).moveTo 0 (c.flush display).current.cursorRow) with ⟨-, h⟩ | ⟨-, h⟩ <;>
    · rw [h]
      rfl
  unfold outputString
  rw [if_neg hmode]
  unfold mCrLfString
  rw [outputLoop_cons, outputTurn_carriageReturn, Option.bind_some, outputLoop_cons,
    outputTurn_linefeed, Option.bind_some, outputLoop_nil]
  unfold crLfWritten
  rw [show c.current.textAttribute = _ from hattribute.symm]
  rfl

theorem isWide_and_not_wide {current : SimpleTextOutputMode} {a : Int32}
    (h : current.textAttribute = a &&& ~~~efiWideAttribute) : current.isWide = false := by
  unfold SimpleTextOutputMode.isWide
  rw [h, Int32.and_assoc]
  show decide (a &&& 0 ≠ 0) = false
  rw [Int32.and_zero]
  rfl

variable {data background}

/-- The second half of what is done at the end of a line. -/
theorem lineEnded_eq (hmode : c.current.mode ≠ -1) (hdata : data = dev.modeData c.current.mode)
    (hbackground : background = (getTextColors c.current).2) (turns depth : ℕ) :
    (if c.current.cursorColumn ≥ data.columns.toInt32 then do
        let c ← (outputString dev display (turns + 2) (depth + 1) mCrLfString
          (c.flush display)).map Prod.snd
        some (c.flush display)
      else some c)
      = some (lineEnded display data background c) := by
  unfold lineEnded
  split
  · have hcall := outputString_mCrLfString dev display (c := c.flush display) hmode turns depth
    rw [hcall, hdata, hbackground]
    rfl
  · rfl

/-- The call that ends a line. -/
theorem endLine_eq (hmode : c.current.mode ≠ -1) (hdata : data = dev.modeData c.current.mode)
    (hbackground : background = (getTextColors c.current).2) (turns depth : ℕ)
    (hends : ¬ c.current.cursorColumn > data.columns.toInt32) :
    endLine display (fun wString c =>
        (outputString dev display (turns + 2) (depth + 1) wString c).map Prod.snd) data c
      = some (lineEnded display data background c) := by
  unfold endLine
  rw [if_neg hends]
  exact lineEnded_eq dev display hmode hdata hbackground turns depth

/-- **The console writes `SpaceStr`**: a narrow space, and the end of the line it may be. -/
theorem outputString_spaceStr (hmode : c.current.mode ≠ -1)
    (hdata : data = dev.modeData c.current.mode)
    (hbackground : background = (getTextColors c.current).2) (husable : data.Usable)
    {column row : ℕ} (hat : c.current.At column row) (hcolumn : column < data.columns.toNat)
    (turns depth : ℕ) :
    (outputString dev display (turns + 2) (depth + 2) spaceStr c).map Prod.snd
      = some (spaceWritten dev display data background c) := by
  have hcolumns := husable.columns_lt
  have hfits : fitting c.current.cursorColumn.toUInt32 data.columns false [0x0020] 0 0
      = (1, 1) := by
    rw [hat.column, ← UInt32.ofNat_toNat (x := data.columns)]
    exact fitting_narrow hcolumns (by decide) hcolumn
  set narrow := (c.flush display).paint (c.current.textAttribute &&& ~~~efiWideAttribute)
    with hnarrow
  have hwide : narrow.current.isWide = false :=
    isWide_and_not_wide (a := c.current.textAttribute) rfl
  have hends : ¬ (textDrawn dev display [0x0020] (1, 1) narrow).current.cursorColumn
      > data.columns.toInt32 := by
    show ¬ c.current.cursorColumn + 1 > data.columns.toInt32
    rw [hat.column, ofNat_add_one, toInt32_eq_ofNat, gt_iff_lt,
      ofNat_lt_ofNat (by omega) (by omega)]
    omega
  have hcolors : getTextColors (textDrawn dev display [0x0020] (1, 1) narrow).current
      = getTextColors c.current :=
    getTextColors_congr (and_not_wide _)
  have hended := endLine_eq dev display (c := textDrawn dev display [0x0020] (1, 1) narrow) hmode
    hdata (hbackground.trans (congrArg Prod.snd hcolors.symm)) turns depth hends
  have hone : fitting narrow.current.cursorColumn.toUInt32 data.columns narrow.current.isWide
      [0x0020] 0 0 = (1, 1) := by
    rw [hwide]
    exact hfits
  have hprint := @printText_of_fitting σ dev display
    (fun wString c => (outputString dev display (turns + 2) (depth + 1) wString c).map Prod.snd)
    data [0x0020] ⟨narrow, efiSuccess, false⟩ (1, 1) hone
  rw [hended] at hprint
  unfold outputString
  rw [if_neg hmode]
  unfold spaceStr
  rw [outputLoop_cons, outputTurn_narrow, Option.bind_some, outputLoop_cons,
    outputTurn_text dev display _ _ _ (by decide), ← hdata]
  show Option.map Prod.snd (((printText dev display _ data [0x0020]
    ⟨narrow, efiSuccess, false⟩).bind _).bind _) = _
  rw [hprint, Option.map_some, Option.bind_some]
  dsimp only [List.drop]
  rw [outputLoop_nil]
  rfl

end

/-! ## One turn without the calls -/

/-- **What a console keeps** while it writes: all but the cursor, the wide attribute and
the screen. -/
structure Console.Keeps {σ : Type} (c c' : Console σ) : Prop where
  mode : c'.current.mode = c.current.mode
  colors : c'.current.textAttribute &&& 0x7F = c.current.textAttribute &&& 0x7F
  visible : c'.current.cursorVisible = c.current.cursorVisible
  lineBuffer : c'.lineBuffer = c.lineBuffer
  freedTwice : c'.freedTwice = c.freedTwice

theorem Console.Keeps.trans {σ : Type} {c c' c'' : Console σ} (h : c.Keeps c')
    (h' : c'.Keeps c'') : c.Keeps c'' where
  mode := h'.mode.trans h.mode
  colors := h'.colors.trans h.colors
  visible := h'.visible.trans h.visible
  lineBuffer := h'.lineBuffer.trans h.lineBuffer
  freedTwice := h'.freedTwice.trans h.freedTwice

theorem Console.keeps_moveTo {σ : Type} (column row : Int32) (c : Console σ) :
    c.Keeps (c.moveTo column row) :=
  ⟨rfl, rfl, rfl, rfl, rfl⟩

/-- The row below, or the last one again. -/
def nextRow (rows row : ℕ) : ℕ := if row + 1 = rows then row else row + 1

theorem nextRow_lt {rows row : ℕ} (h : row < rows) : nextRow rows row < rows := by
  unfold nextRow
  split <;> omega

section

variable {σ : Type} (dev : GraphicsConsoleDev) (display : Display σ)
  {data : GraphicsConsoleModeData} (background : BltPixel) {c : Console σ} {column row : ℕ}

variable (data) in
theorem keeps_lineFeed (c : Console σ) : c.Keeps (lineFeed display data background c) := by
  rcases lineFeed_cases display data background c with ⟨-, h⟩ | ⟨-, h⟩ <;>
  · rw [h]
    exact ⟨rfl, rfl, rfl, rfl, rfl⟩

theorem textAttribute_lineFeed (c : Console σ) :
    (lineFeed display data background c).current.textAttribute = c.current.textAttribute := by
  unfold lineFeed
  split <;> rfl

theorem at_lineFeed (husable : data.Usable) (hat : c.current.At column row)
    (hrow : row < data.rows.toNat) :
    (lineFeed display data background c).current.At column (nextRow data.rows.toNat row) := by
  have hpos := husable.rows_pos
  have hlt := husable.rows_lt
  have hlast : (data.rows - 1).toInt32 = Int32.ofNat (data.rows.toNat - 1) := by
    rw [UInt32.toInt32_sub, toInt32_eq_ofNat]
    exact ofNat_sub_one hpos
  have hiff : c.current.cursorRow = (data.rows - 1).toInt32 ↔ row + 1 = data.rows.toNat := by
    rw [hat.row, hlast, ofNat_inj (by omega) (by omega)]
    omega
  unfold nextRow
  rcases lineFeed_cases display data background c with ⟨hrow, h⟩ | ⟨hrow, h⟩
  · rw [h, if_pos (hiff.mp hrow)]
    exact hat
  · rw [h, if_neg (mt hiff.mpr hrow)]
    exact ⟨hat.column, by rw [← ofNat_add_one, ← hat.row]; rfl⟩

variable (data) in
theorem keeps_lineEnded (c : Console σ) : c.Keeps (lineEnded display data background c) := by
  unfold lineEnded
  split
  · have h := keeps_lineFeed display data background
      (((c.flush display).flush display).moveTo 0 c.current.cursorRow)
    exact ⟨h.mode, h.colors, h.visible, h.lineBuffer, h.freedTwice⟩
  · exact ⟨rfl, rfl, rfl, rfl, rfl⟩

theorem textAttribute_lineEnded (c : Console σ) :
    (lineEnded display data background c).current.textAttribute = c.current.textAttribute := by
  unfold lineEnded
  split
  · exact textAttribute_lineFeed display background _
  · rfl

/-- A line that is not full stays as it is. -/
theorem lineEnded_of_lt (husable : data.Usable) (hat : c.current.At column row)
    (hcolumn : column < data.columns.toNat) : lineEnded display data background c = c := by
  have hlt := husable.columns_lt
  unfold lineEnded
  refine if_neg ?_
  rw [hat.column, toInt32_eq_ofNat, ge_iff_le, ofNat_le_ofNat (by omega) (by omega)]
  omega

/-- A line that is full is ended with a carriage return and a line feed. -/
theorem lineEnded_of_eq (hat : c.current.At data.columns.toNat row) :
    lineEnded display data background c
      = (crLfWritten display data background (c.flush display)).flush display := by
  unfold lineEnded
  refine if_pos ?_
  rw [hat.column, toInt32_eq_ofNat]
  exact Int32.le_refl _

theorem at_lineEnded_of_eq (husable : data.Usable) (hat : c.current.At data.columns.toNat row)
    (hrow : row < data.rows.toNat) :
    (lineEnded display data background c).current.At 0 (nextRow data.rows.toNat row) := by
  rw [lineEnded_of_eq display background hat]
  have h := at_lineFeed display background
    (c := ((c.flush display).flush display).moveTo 0 c.current.cursorRow) husable
    ⟨rfl, hat.row⟩ hrow
  exact ⟨h.column, h.row⟩

theorem keeps_textDrawn (wString : List UInt16) (fits : ℕ × UInt32) (c : Console σ) :
    c.Keeps (textDrawn dev display wString fits c) :=
  ⟨rfl, rfl, rfl, rfl, rfl⟩

theorem at_textDrawn (wString : List UInt16) (count index : ℕ)
    (hat : c.current.At column row) :
    (textDrawn dev display wString (count, UInt32.ofNat index) c).current.At (column + index)
      row := by
  refine ⟨?_, hat.row⟩
  show c.current.cursorColumn + (UInt32.ofNat index).toInt32 = _
  rw [hat.column, UInt32.toInt32_ofNat', Int32.ofNat_add]

variable (data) in
theorem keeps_spaceWritten (c : Console σ) :
    c.Keeps (spaceWritten dev display data background c) := by
  have h := keeps_lineEnded display data background
    (textDrawn dev display [0x0020] (1, 1)
      ((c.flush display).paint (c.current.textAttribute &&& ~~~efiWideAttribute)))
  exact ⟨h.mode, rfl, h.visible, h.lineBuffer, h.freedTwice⟩

/-- Where the cursor is after a space. -/
theorem at_spaceWritten (husable : data.Usable) (hat : c.current.At column row)
    (hcolumn : column < data.columns.toNat) (hrow : row < data.rows.toNat) :
    (column + 1 < data.columns.toNat
        ∧ (spaceWritten dev display data background c).current.At (column + 1) row)
      ∨ column + 1 = data.columns.toNat
        ∧ (spaceWritten dev display data background c).current.At 0
            (nextRow data.rows.toNat row) := by
  have hdrawn : (textDrawn dev display [0x0020] (1, 1)
      ((c.flush display).paint (c.current.textAttribute &&& ~~~efiWideAttribute))).current.At
        (column + 1) row :=
    at_textDrawn dev display (c := (c.flush display).paint _) [0x0020] 1 1
      ⟨hat.column, hat.row⟩
  rcases Nat.lt_or_ge (column + 1) data.columns.toNat with hlt | hge
  · have hsame := lineEnded_of_lt display background husable hdrawn hlt
    refine Or.inl ⟨hlt, ?_⟩
    unfold spaceWritten
    simp only
    rw [hsame]
    exact ⟨hdrawn.column, hdrawn.row⟩
  · have heq : column + 1 = data.columns.toNat := by omega
    rw [heq] at hdrawn
    have hended := at_lineEnded_of_eq display background husable hdrawn hrow
    exact Or.inr ⟨heq, hended.column, hended.row⟩

end

section

variable {σ : Type} (dev : GraphicsConsoleDev) (display : Display σ)

/-- What a backspace leaves. -/
def backspaced (data : GraphicsConsoleModeData) (background : BltPixel) (c : Console σ) :
    Console σ :=
  if c.current.cursorColumn = 0 ∧ c.current.cursorRow > 0 then
    let written := spaceWritten dev display data background
      (c.moveTo (data.columns - 1).toInt32 (c.current.cursorRow - 1))
    (written.flush display).moveTo (data.columns - 1).toInt32 (written.current.cursorRow - 1)
  else if c.current.cursorColumn > 0 then
    let written := spaceWritten dev display data background
      (c.moveTo (c.current.cursorColumn - 1) c.current.cursorRow)
    (written.flush display).moveTo (written.current.cursorColumn - 1) written.current.cursorRow
  else c

/-- A wide character that the line has no room for is put off. -/
def putOff (data : GraphicsConsoleModeData) (background : BltPixel) (c : Console σ) : Console σ :=
  if c.current.cursorColumn > data.columns.toInt32 then
    spaceWritten dev display data background
      (c.moveTo (c.current.cursorColumn - 2) c.current.cursorRow)
  else c

/-- What is drawn at once, for a console that begins a turn. -/
def textFits (data : GraphicsConsoleModeData) (wString : List UInt16) (c : Console σ) :
    ℕ × UInt32 :=
  fitting c.current.cursorColumn.toUInt32 data.columns c.current.isWide wString 0 0

/-- What the turn of a character that is drawn leaves. -/
def textPrinted (data : GraphicsConsoleModeData) (background : BltPixel) (wString : List UInt16)
    (out : Output σ) : List UInt16 × Output σ :=
  let fits := textFits data wString out.console
  let status := (drawUnicodeWeightAtCursorN dev display out.console.current wString fits.1
    out.console.screen).1
  (wString.drop fits.1,
    { console := lineEnded display data background
        (putOff dev display data background (textDrawn dev display wString fits out.console))
      status := status
      warning := out.warning || status.efiError })

/-- **What one turn leaves**, the calls of the console to itself being carried out. -/
def turned (data : GraphicsConsoleModeData) (background : BltPixel) (char : UInt16)
    (rest : List UInt16) (out : Output σ) : List UInt16 × Output σ :=
  if char = charBackspace then
    (rest, { out with console := backspaced dev display data background out.console })
  else if char = charLinefeed then
    (rest, { out with console := lineFeed display data background out.console })
  else if char = charCarriageReturn then
    (rest, { out with console := out.console.moveTo 0 out.console.current.cursorRow })
  else if char = wideChar then
    (rest, { out with
      console := out.console.paint (out.console.current.textAttribute ||| efiWideAttribute) })
  else if char = narrowChar then
    (rest, { out with
      console := out.console.paint (out.console.current.textAttribute &&& ~~~efiWideAttribute) })
  else textPrinted dev display data background (char :: rest) out

/-- **The console as it begins a turn**: in a mode it can write in, with the colours
it was called with and the cursor at a place of the window. -/
structure Console.Writes (dev : GraphicsConsoleDev) (data : GraphicsConsoleModeData)
    (background : BltPixel) (c : Console σ) (column row : ℕ) : Prop where
  mode : c.current.mode ≠ -1
  ofMode : data = dev.modeData c.current.mode
  behind : background = (getTextColors c.current).2
  usable : data.Usable
  place : c.current.At column row
  columnLt : column < data.columns.toNat
  rowLt : row < data.rows.toNat

variable {data : GraphicsConsoleModeData} {background : BltPixel} {c : Console σ} {column row : ℕ}

/-- What a console keeps lets it write on. -/
theorem Console.Writes.of_keeps {c' : Console σ} {column' row' : ℕ}
    (h : c.Writes dev data background column row) (hkeeps : c.Keeps c')
    (hplace : c'.current.At column' row') (hcolumn : column' < data.columns.toNat)
    (hrow : row' < data.rows.toNat) : c'.Writes dev data background column' row' where
  mode := hkeeps.mode ▸ h.mode
  ofMode := hkeeps.mode ▸ h.ofMode
  behind := h.behind.trans (congrArg Prod.snd (getTextColors_congr hkeeps.colors)).symm
  usable := h.usable
  place := hplace
  columnLt := hcolumn
  rowLt := hrow

/-- The cursor is put at a place of the window. -/
theorem Console.Writes.moveTo (h : c.Writes dev data background column row) (column' row' : ℕ)
    (hcolumn : column' < data.columns.toNat) (hrow : row' < data.rows.toNat) :
    (c.moveTo (Int32.ofNat column') (Int32.ofNat row')).Writes dev data background column' row' :=
  h.of_keeps dev (c.keeps_moveTo _ _) ⟨rfl, rfl⟩ hcolumn hrow

theorem Console.Writes.writeSpace (h : c.Writes dev data background column row) (turns depth : ℕ) :
    (outputString dev display (turns + 2) (depth + 2) spaceStr c).map Prod.snd
      = some (spaceWritten dev display data background c) :=
  outputString_spaceStr dev display h.mode h.ofMode h.behind h.usable h.place h.columnLt turns depth

/-- The cell a backspace goes back to. -/
def previousCell (columns : ℕ) : ℕ × ℕ → ℕ × ℕ
  | (0, row) => (columns - 1, row - 1)
  | (column + 1, row) => (column, row)

/-- Where the cursor is after a space in the cell before. -/
theorem Console.Writes.at_spaceWritten_previous (h : c.Writes dev data background column row)
    {column' row' : ℕ} (hprevious : previousCell data.columns.toNat (column, row) = (column', row'))
    (hback : column ≠ 0 ∨ row ≠ 0) :
    (spaceWritten dev display data background
      (c.moveTo (Int32.ofNat column') (Int32.ofNat row'))).current.At column row
    ∧ column' < data.columns.toNat ∧ row' < data.rows.toNat := by
  have hpos := h.usable.columns_ge
  have hcolumn := h.columnLt
  have hrow := h.rowLt
  cases column with
  | zero =>
    obtain ⟨rfl, rfl⟩ : data.columns.toNat - 1 = column' ∧ row - 1 = row' := by
      simpa [previousCell] using hprevious
    have hrow0 : row ≠ 0 := hback.resolve_left (fun hne => hne rfl)
    refine ⟨?_, by omega, by omega⟩
    have hmoved : (c.moveTo (Int32.ofNat (data.columns.toNat - 1))
        (Int32.ofNat (row - 1))).current.At (data.columns.toNat - 1) (row - 1) := ⟨rfl, rfl⟩
    rcases at_spaceWritten dev display background h.usable hmoved (by omega) (by omega) with
      ⟨hlt, -⟩ | ⟨-, hat⟩
    · omega
    · rwa [nextRow, if_neg (by omega), show row - 1 + 1 = row by omega] at hat
  | succ column =>
    obtain ⟨rfl, rfl⟩ : column = column' ∧ row = row' := by
      simpa [previousCell] using hprevious
    refine ⟨?_, by omega, hrow⟩
    have hmoved : (c.moveTo (Int32.ofNat column) (Int32.ofNat row)).current.At column row :=
      ⟨rfl, rfl⟩
    rcases at_spaceWritten dev display background h.usable hmoved (by omega) hrow with
      ⟨-, hat⟩ | ⟨heq, -⟩
    · exact hat
    · omega

/-- The last column, as the code has it. -/
theorem toInt32_columns_sub_one (husable : data.Usable) :
    (data.columns - 1).toInt32 = Int32.ofNat (data.columns.toNat - 1) := by
  rw [UInt32.toInt32_sub, toInt32_eq_ofNat]
  exact ofNat_sub_one (Nat.lt_of_lt_of_le (Nat.zero_lt_two) husable.columns_ge)

/-- The tests a backspace makes of the place of the cursor. -/
theorem Console.Writes.place_tests (h : c.Writes dev data background column row) :
    (c.current.cursorColumn = 0 ↔ column = 0) ∧ (c.current.cursorRow > 0 ↔ 0 < row)
      ∧ (c.current.cursorColumn > 0 ↔ 0 < column) := by
  have hcolumnsLt := h.usable.columns_lt
  have hrowsLt := h.usable.rows_lt
  have hcolumn := h.columnLt
  have hrow := h.rowLt
  rw [h.place.column, h.place.row]
  exact ⟨ofNat_eq_zero (by omega), ofNat_pos (by omega), ofNat_pos (by omega)⟩

/-- **A backspace** writes a space in the cell before and goes there, and in the corner
of the window does nothing. -/
theorem backspaced_cases (h : c.Writes dev data background column row) :
    (column = 0 ∧ row = 0 ∧ backspaced dev display data background c = c)
    ∨ (column ≠ 0 ∨ row ≠ 0) ∧ ∃ column' row',
        previousCell data.columns.toNat (column, row) = (column', row')
        ∧ backspaced dev display data background c
          = ((spaceWritten dev display data background
              (c.moveTo (Int32.ofNat column') (Int32.ofNat row'))).flush display).moveTo
                (Int32.ofNat column') (Int32.ofNat row') := by
  obtain ⟨hcolumn0, hrowPos, hcolumnPos⟩ := h.place_tests dev
  unfold backspaced
  rw [toInt32_columns_sub_one h.usable]
  split
  · rename_i hfirst
    rw [hcolumn0, hrowPos] at hfirst
    obtain ⟨rfl, hpos⟩ := hfirst
    have hprevious : previousCell data.columns.toNat (0, row) = (data.columns.toNat - 1, row - 1) :=
      rfl
    obtain ⟨hat, -, -⟩ := h.at_spaceWritten_previous dev display hprevious (Or.inr (by omega))
    have hup : c.current.cursorRow - 1 = Int32.ofNat (row - 1) := by
      rw [h.place.row, ofNat_sub_one hpos]
    refine Or.inr ⟨Or.inr (by omega), _, _, hprevious, ?_⟩
    simp only
    rw [hup, hat.row, ofNat_sub_one hpos]
  · rename_i hfirst
    rw [hcolumn0, hrowPos] at hfirst
    split
    · rename_i hpos
      rw [hcolumnPos] at hpos
      obtain ⟨k, rfl⟩ : ∃ k, column = k + 1 := ⟨column - 1, by omega⟩
      have hprevious : previousCell data.columns.toNat (k + 1, row) = (k, row) := rfl
      obtain ⟨hat, -, -⟩ := h.at_spaceWritten_previous dev display hprevious (Or.inl (by omega))
      have hback : c.current.cursorColumn - 1 = Int32.ofNat k := by
        rw [h.place.column, ofNat_sub_one hpos, Nat.add_sub_cancel]
      refine Or.inr ⟨Or.inl (by omega), _, _, hprevious, ?_⟩
      simp only
      rw [hback, h.place.row, hat.column, hat.row, ofNat_sub_one hpos, Nat.add_sub_cancel]
    · rename_i hnone
      rw [hcolumnPos] at hnone
      exact Or.inl ⟨by omega, by omega, rfl⟩

/-- The calls of a backspace. -/
theorem backspace_eq (h : c.Writes dev data background column row) (turns depth : ℕ) :
    backspace display (fun wString c =>
        (outputString dev display (turns + 2) (depth + 2) wString c).map Prod.snd) data c
      = some (backspaced dev display data background c) := by
  have hcolumns := h.usable.columns_ge
  obtain ⟨hcolumn0, hrowPos, hcolumnPos⟩ := h.place_tests dev
  unfold backspace backspaced
  split
  · rename_i hfirst
    rw [hcolumn0, hrowPos] at hfirst
    have hwrites := h.moveTo dev (data.columns.toNat - 1) (row - 1) (by omega)
      (by have := h.rowLt; omega)
    rw [← toInt32_columns_sub_one h.usable, ← ofNat_sub_one hfirst.2, ← h.place.row] at hwrites
    show ((outputString dev display (turns + 2) (depth + 2) spaceStr _).map
      Prod.snd).bind _ = _
    rw [hwrites.writeSpace dev display turns depth]
    rfl
  · split
    · rename_i hpos
      rw [hcolumnPos] at hpos
      have hwrites := h.moveTo dev (column - 1) row
        (by have := h.columnLt; omega) h.rowLt
      rw [← ofNat_sub_one hpos, ← h.place.column, ← h.place.row] at hwrites
      show ((outputString dev display (turns + 2) (depth + 2) spaceStr _).map
        Prod.snd).bind _ = _
      rw [hwrites.writeSpace dev display turns depth]
      rfl
    · rfl

theorem keeps_backspaced (h : c.Writes dev data background column row) :
    c.Keeps (backspaced dev display data background c) := by
  rcases backspaced_cases dev display h with ⟨-, -, heq⟩ | ⟨-, column', row', -, heq⟩
  · rw [heq]
    exact ⟨rfl, rfl, rfl, rfl, rfl⟩
  · have hkeeps := keeps_spaceWritten dev display data background
      (c.moveTo (Int32.ofNat column') (Int32.ofNat row'))
    rw [heq]
    exact ⟨hkeeps.mode, hkeeps.colors, hkeeps.visible, hkeeps.lineBuffer, hkeeps.freedTwice⟩

/-- Where the cursor is when a line that may be full is ended. -/
def wrap (columns rows : ℕ) (column row : ℕ) : ℕ × ℕ :=
  if column < columns then (column, row) else (0, nextRow rows row)

/-- **The end of a line**: a wide character that does not fit is put off with a space,
which ends the line as drawing up to its last column does. -/
theorem endLine_putOff (h : c.Writes dev data background column row) {c' : Console σ}
    (hkeeps : c.Keeps c') {column' : ℕ} (hat : c'.current.At column' row)
    (hle : column' ≤ data.columns.toNat + 1) (turns depth : ℕ) :
    endLine display (fun wString c =>
        (outputString dev display (turns + 2) (depth + 2) wString c).map Prod.snd) data c'
      = some (lineEnded display data background (putOff dev display data background c')) := by
  have hcolumns := h.usable.columns_ge
  have hcolumnsLt := h.usable.columns_lt
  have hmode : c'.current.mode ≠ -1 := hkeeps.mode ▸ h.mode
  have hdata : data = dev.modeData c'.current.mode := hkeeps.mode ▸ h.ofMode
  have hbehind : background = (getTextColors c'.current).2 :=
    h.behind.trans (congrArg Prod.snd (getTextColors_congr hkeeps.colors)).symm
  have hpast : c'.current.cursorColumn > data.columns.toInt32 ↔ data.columns.toNat < column' := by
    rw [hat.column, toInt32_eq_ofNat]
    exact ofNat_lt_ofNat (by omega) (by omega)
  unfold putOff
  split
  · rename_i hgt
    have heq : column' = data.columns.toNat - 1 + 2 := by
      rw [hpast] at hgt
      omega
    have hback : c'.current.cursorColumn - 2 = Int32.ofNat (data.columns.toNat - 1) := by
      rw [hat.column, heq, Int32.ofNat_add]
      exact Int32.add_sub_cancel _ _
    have hwrites : (c'.moveTo (c'.current.cursorColumn - 2) c'.current.cursorRow).Writes dev data
        background (data.columns.toNat - 1) row := by
      rw [hback, hat.row]
      exact h.of_keeps dev (hkeeps.trans (c'.keeps_moveTo _ _)) ⟨rfl, rfl⟩ (by omega) h.rowLt
    have hwritten := hkeeps.trans ((c'.keeps_moveTo _ _).trans (keeps_spaceWritten dev display
      data background
      (c'.moveTo (c'.current.cursorColumn - 2) c'.current.cursorRow)))
    unfold endLine
    rw [if_pos hgt]
    show ((outputString dev display (turns + 2) (depth + 2) spaceStr _).map Prod.snd).bind _ = _
    rw [hwrites.writeSpace dev display turns depth]
    exact lineEnded_eq dev display (hwritten.mode ▸ h.mode) (hwritten.mode ▸ h.ofMode)
      (h.behind.trans (congrArg Prod.snd (getTextColors_congr hwritten.colors)).symm) turns
      (depth + 1)
  · rename_i hends
    exact endLine_eq dev display hmode hdata hbehind turns (depth + 1) hends

theorem keeps_putOff (c : Console σ) : c.Keeps (putOff dev display data background c) := by
  unfold putOff
  split
  · exact (c.keeps_moveTo _ _).trans (keeps_spaceWritten dev display data background _)
  · exact ⟨rfl, rfl, rfl, rfl, rfl⟩

/-- The column a wide character is put off from. -/
theorem putOff_back (husable : data.Usable) {c' : Console σ}
    (hat : c'.current.At (data.columns.toNat + 1) row) :
    c'.current.cursorColumn - 2 = Int32.ofNat (data.columns.toNat - 1) := by
  have hcolumns := husable.columns_ge
  rw [hat.column, show data.columns.toNat + 1 = data.columns.toNat - 1 + 2 by omega,
    Int32.ofNat_add]
  exact Int32.add_sub_cancel _ _

variable (data background) in
/-- **A character is put off** just when the line is past: the space that is written for
it ends the line. -/
theorem putOff_cases (husable : data.Usable) {c' : Console σ} {column' : ℕ}
    (hat : c'.current.At column' row) (hle : column' ≤ data.columns.toNat + 1)
    (hrow : row < data.rows.toNat) :
    (column' ≤ data.columns.toNat ∧ putOff dev display data background c' = c')
    ∨ column' = data.columns.toNat + 1
      ∧ putOff dev display data background c' = spaceWritten dev display data background
          (c'.moveTo (Int32.ofNat (data.columns.toNat - 1)) (Int32.ofNat row))
      ∧ (putOff dev display data background c').current.At 0 (nextRow data.rows.toNat row) := by
  have hcolumns := husable.columns_ge
  have hcolumnsLt := husable.columns_lt
  have hpast : c'.current.cursorColumn > data.columns.toInt32 ↔ data.columns.toNat < column' := by
    rw [hat.column, toInt32_eq_ofNat]
    exact ofNat_lt_ofNat (by omega) (by omega)
  rcases Nat.lt_or_ge data.columns.toNat column' with hlt | hends
  · obtain rfl : column' = data.columns.toNat + 1 := by omega
    have heq : putOff dev display data background c' = spaceWritten dev display data background
        (c'.moveTo (Int32.ofNat (data.columns.toNat - 1)) (Int32.ofNat row)) := by
      unfold putOff
      rw [if_pos (hpast.mpr hlt), putOff_back husable hat, hat.row]
    have hmoved : (c'.moveTo (Int32.ofNat (data.columns.toNat - 1))
        (Int32.ofNat row)).current.At (data.columns.toNat - 1) row := ⟨rfl, rfl⟩
    refine Or.inr ⟨rfl, heq, ?_⟩
    rw [heq]
    rcases at_spaceWritten dev display background husable hmoved (by omega) hrow with
      ⟨hlt, -⟩ | ⟨-, hwrapped⟩
    · omega
    · exact hwrapped
  · exact Or.inl ⟨hends, if_neg fun hgt => absurd (hpast.mp hgt) (by omega)⟩

variable (background) in
/-- Where the cursor is once the line is ended. -/
theorem at_lineEnded_putOff (husable : data.Usable) {c' : Console σ} {column' : ℕ}
    (hat : c'.current.At column' row) (hle : column' ≤ data.columns.toNat + 1)
    (hrow : row < data.rows.toNat) :
    (lineEnded display data background (putOff dev display data background c')).current.At
      (wrap data.columns.toNat data.rows.toNat column' row).1
      (wrap data.columns.toNat data.rows.toNat column' row).2 := by
  have hcolumns := husable.columns_ge
  unfold wrap
  rcases putOff_cases dev display data background husable hat hle hrow with
    ⟨hends, heq⟩ | ⟨rfl, -, hwrapped⟩
  · rw [heq]
    split
    · rename_i hlt
      rw [lineEnded_of_lt display background husable hat hlt]
      exact hat
    · rename_i hge
      obtain rfl : column' = data.columns.toNat := by omega
      exact at_lineEnded_of_eq display background husable hat hrow
  · rw [if_neg (by omega), lineEnded_of_lt display background husable hwrapped (by omega)]
    exact hwrapped

/-- The characters drawn at once, for a console that begins a turn. -/
theorem textFits_cases (h : c.Writes dev data background column row) {char : UInt16}
    (rest : List UInt16) (hchar : ¬ IsControl char) :
    (∃ n m, textFits data (char :: rest) c = (n + 1, UInt32.ofNat m) ∧ n ≤ rest.length
        ∧ (column + m ≤ data.columns.toNat ∨ c.current.isWide = true
            ∧ column + m = data.columns.toNat + 1
            ∧ ∃ next after, rest.drop n = next :: after ∧ ¬ IsControl next))
      ∨ c.current.isWide = true ∧ column + 1 = data.columns.toNat
        ∧ textFits data (char :: rest) c = (0, 2) := by
  unfold textFits
  rw [h.place.column, ← UInt32.ofNat_toNat (x := data.columns)]
  have hfirst := fitting_first h.usable.columns_lt c.current.isWide rest hchar h.columnLt
  rw [UInt32.ofNat_toNat] at hfirst ⊢
  exact hfirst

theorem turned_text {char : UInt16} (hchar : ¬ IsControl char) (rest : List UInt16)
    (out : Output σ) :
    turned dev display data background char rest out
      = textPrinted dev display data background (char :: rest) out := by
  unfold IsControl at hchar
  push Not at hchar
  obtain ⟨hbackspace, hlinefeed, hreturn, hwide, hnarrow⟩ := hchar
  unfold turned
  rw [if_neg hbackspace, if_neg hlinefeed, if_neg hreturn, if_neg hwide, if_neg hnarrow]

/-- **A turn without the calls**: they all return, and leave what is computed without
them. -/
theorem outputTurn_eq {out : Output σ} (h : out.console.Writes dev data background column row)
    (turns depth : ℕ) (char : UInt16) (rest : List UInt16) :
    outputTurn dev display (fun wString c =>
        (outputString dev display (turns + 2) (depth + 2) wString c).map Prod.snd) data background
        char rest out
      = some (turned dev display data background char rest out) := by
  have hcolumn := h.columnLt
  by_cases hchar : IsControl char
  · unfold turned
    rcases hchar with rfl | rfl | rfl | rfl | rfl
    · show (backspace display _ data out.console).bind _ = _
      rw [backspace_eq dev display h turns depth]
      rfl
    all_goals rfl
  · have hdrawn : ∃ column' ≤ data.columns.toNat + 1, (textDrawn dev display (char :: rest)
        (textFits data (char :: rest) out.console) out.console).current.At column' row := by
      rcases textFits_cases dev h rest hchar with ⟨n, m, hfits, -, hm⟩ | ⟨-, hlast, hfits⟩
      · rw [hfits]
        exact ⟨column + m, by omega, at_textDrawn dev display _ _ _ h.place⟩
      · rw [hfits]
        exact ⟨column + 2, by omega, at_textDrawn dev display _ _ _ h.place⟩
    obtain ⟨column', hle, hat⟩ := hdrawn
    rw [outputTurn_text dev display _ _ _ hchar, printText_of_fitting dev display _ data rfl]
    have hend := endLine_putOff dev display h (keeps_textDrawn dev display (char :: rest)
      (textFits data (char :: rest) out.console) out.console) hat hle turns depth
    unfold textFits at hend
    rw [hend, turned_text dev display hchar]
    rfl

/-! ## The loop without the calls -/

/-- The turns a string may take: one for a character, and one more where a wide one may
have to be put off. -/
def turnsLeft (columns column : ℕ) (wString : List UInt16) : ℕ :=
  2 * wString.length + if column + 1 = columns then 1 else 0

theorem turnsLeft_le (columns column : ℕ) (wString : List UInt16) :
    turnsLeft columns column wString ≤ 2 * wString.length + 1 := by
  unfold turnsLeft
  split <;> omega

theorem turnsLeft_cons (columns column column' : ℕ) (char : UInt16) (rest : List UInt16) :
    turnsLeft columns column' rest < turnsLeft columns column (char :: rest) := by
  have h := turnsLeft_le columns column' rest
  unfold turnsLeft at h ⊢
  rw [List.length_cons]
  omega

theorem turnsLeft_drop {columns column column' n : ℕ} (char : UInt16) (rest : List UInt16) :
    turnsLeft columns column' (rest.drop n) < turnsLeft columns column (char :: rest) := by
  have h := turnsLeft_le columns column' (rest.drop n)
  have hlength : (rest.drop n).length ≤ rest.length := by
    rw [List.length_drop]
    omega
  unfold turnsLeft at h ⊢
  rw [List.length_cons]
  omega

theorem wrap_in {columns rows : ℕ} (column : ℕ) {row : ℕ} (hcolumns : 0 < columns)
    (hrow : row < rows) :
    (wrap columns rows column row).1 < columns ∧ (wrap columns rows column row).2 < rows := by
  unfold wrap
  split
  · rename_i hlt
    exact ⟨hlt, hrow⟩
  · exact ⟨hcolumns, nextRow_lt hrow⟩

/-- **One turn** leaves the cursor in the window and everything else as it is, and comes
closer to the end of the string. -/
theorem turned_writes {out : Output σ} (h : out.console.Writes dev data background column row)
    (char : UInt16) (rest : List UInt16) :
    ∃ column' row', (turned dev display data background char rest out).2.console.Writes dev data
        background column' row'
      ∧ out.console.Keeps (turned dev display data background char rest out).2.console
      ∧ turnsLeft data.columns.toNat column' (turned dev display data background char rest out).1
        < turnsLeft data.columns.toNat column (char :: rest) := by
  have hcolumns := h.usable.columns_ge
  have hrow := h.rowLt
  have hcolumn := h.columnLt
  by_cases hchar : IsControl char
  · rcases hchar with rfl | rfl | rfl | rfl | rfl
    · have hkeeps := keeps_backspaced dev display h
      rcases backspaced_cases dev display h with ⟨-, -, heq⟩ | ⟨hback, column', row', hprev, heq⟩
      · refine ⟨column, row, ?_, hkeeps, turnsLeft_cons ..⟩
        show (backspaced dev display data background out.console).Writes _ _ _ _ _
        rw [heq]
        exact h
      · obtain ⟨-, hin, hin'⟩ := h.at_spaceWritten_previous dev display hprev hback
        refine ⟨column', row', ?_, hkeeps, turnsLeft_cons ..⟩
        refine h.of_keeps dev hkeeps ?_ hin hin'
        show (backspaced dev display data background out.console).current.At _ _
        rw [heq]
        exact ⟨rfl, rfl⟩
    · have hkeeps := keeps_lineFeed display data background out.console
      exact ⟨column, nextRow data.rows.toNat row, h.of_keeps dev hkeeps
        (at_lineFeed display background h.usable h.place hrow) hcolumn (nextRow_lt hrow), hkeeps,
        turnsLeft_cons ..⟩
    · have hkeeps := out.console.keeps_moveTo 0 out.console.current.cursorRow
      exact ⟨0, row, h.of_keeps dev hkeeps ⟨rfl, h.place.row⟩ (by omega) hrow, hkeeps,
        turnsLeft_cons ..⟩
    · have hkeeps : out.console.Keeps (out.console.paint
          (out.console.current.textAttribute ||| efiWideAttribute)) :=
        ⟨rfl, or_wide _, rfl, rfl, rfl⟩
      exact ⟨column, row, h.of_keeps dev hkeeps ⟨h.place.column, h.place.row⟩ hcolumn hrow, hkeeps,
        turnsLeft_cons ..⟩
    · have hkeeps : out.console.Keeps (out.console.paint
          (out.console.current.textAttribute &&& ~~~efiWideAttribute)) :=
        ⟨rfl, and_not_wide _, rfl, rfl, rfl⟩
      exact ⟨column, row, h.of_keeps dev hkeeps ⟨h.place.column, h.place.row⟩ hcolumn hrow, hkeeps,
        turnsLeft_cons ..⟩
  · have hkeeps : out.console.Keeps
        (textPrinted dev display data background (char :: rest) out).2.console :=
      ((keeps_textDrawn dev display _ _ _).trans (keeps_putOff dev display _)).trans
        (keeps_lineEnded display data background _)
    rw [turned_text dev display hchar]
    rcases textFits_cases dev h rest hchar with ⟨n, m, hfits, -, hm⟩ | ⟨-, hlast, hfits⟩
    · have hat := at_lineEnded_putOff dev display background h.usable
        (at_textDrawn dev display (char :: rest) (n + 1) m h.place) (by omega) hrow
      obtain ⟨hin, hin'⟩ := wrap_in (column + m) (show 0 < data.columns.toNat by omega) hrow
      rw [← hfits] at hat
      refine ⟨_, _, h.of_keeps dev hkeeps hat hin hin', hkeeps, ?_⟩
      show turnsLeft _ _ ((char :: rest).drop (textFits data (char :: rest) out.console).1) < _
      rw [hfits]
      exact turnsLeft_drop char rest
    · have hat := at_lineEnded_putOff dev display background h.usable
        (at_textDrawn dev display (char :: rest) 0 2 h.place) (by omega) hrow
      obtain ⟨hin, hin'⟩ := wrap_in (column + 2) (show 0 < data.columns.toNat by omega) hrow
      rw [show ((0, UInt32.ofNat 2) : ℕ × UInt32) = _ from hfits.symm] at hat
      refine ⟨_, _, h.of_keeps dev hkeeps hat hin hin', hkeeps, ?_⟩
      show turnsLeft _ _ ((char :: rest).drop (textFits data (char :: rest) out.console).1) < _
      rw [hfits, show (wrap data.columns.toNat data.rows.toNat (column + 2) row).1 = 0 by
        unfold wrap; rw [if_neg (by omega)]]
      unfold turnsLeft
      rw [if_neg (by omega), if_pos hlast]
      exact Nat.lt_succ_self _

/-- What is left of the string is an end of it. -/
theorem turned_rest (data : GraphicsConsoleModeData) (background : BltPixel) (char : UInt16)
    (rest : List UInt16) (out : Output σ) :
    (turned dev display data background char rest out).1 ⊆ char :: rest := by
  unfold turned
  split
  · exact List.subset_cons_self ..
  split
  · exact List.subset_cons_self ..
  split
  · exact List.subset_cons_self ..
  split
  · exact List.subset_cons_self ..
  split
  · exact List.subset_cons_self ..
  · exact List.drop_subset _ _

variable (data background) in
/-- The loop over the string, of at most so many turns, without the calls. -/
def turnedAll : ℕ → List UInt16 → Output σ → Output σ
  | 0, _, out => out
  | _ + 1, [], out => out
  | turns + 1, char :: rest, out =>
    let next := turned dev display data background char rest out
    turnedAll turns next.1 next.2

/-- **The loop ends**, in as many turns as are left, with the cursor in the window. -/
theorem outputLoop_eq (turns depth n : ℕ) {wString : List UInt16} (out : Output σ)
    (h : out.console.Writes dev data background column row)
    (hn : turnsLeft data.columns.toNat column wString ≤ n) :
    (∀ m ≥ n, outputLoop dev display (fun wString c =>
        (outputString dev display (turns + 2) (depth + 2) wString c).map Prod.snd) data background
        m wString out = some (turnedAll dev display data background n wString out))
      ∧ out.console.Keeps (turnedAll dev display data background n wString out).console
      ∧ ∃ column' row', (turnedAll dev display data background n wString out).console.Writes dev
          data background column' row' := by
  induction n generalizing wString out column row with
  | zero =>
    cases wString with
    | nil =>
      exact ⟨fun m _ => outputLoop_nil dev display _ _ _ m out, ⟨rfl, rfl, rfl, rfl, rfl⟩, column,
        row, h⟩
    | cons char rest =>
      exact absurd (turnsLeft_cons data.columns.toNat column column char rest) (by omega)
  | succ n ih =>
    cases wString with
    | nil =>
      exact ⟨fun m _ => outputLoop_nil dev display _ _ _ m out, ⟨rfl, rfl, rfl, rfl, rfl⟩, column,
        row, h⟩
    | cons char rest =>
      obtain ⟨column', row', hwrites, hkeeps, hless⟩ := turned_writes dev display h char rest
      obtain ⟨hloop, hkeeps', hwrites'⟩ := ih _ hwrites
        (Nat.le_of_lt_succ (Nat.lt_of_lt_of_le hless hn))
      refine ⟨fun m hm => ?_, hkeeps.trans hkeeps', hwrites'⟩
      obtain ⟨m, rfl⟩ : ∃ k, m = k + 1 := ⟨m - 1, by omega⟩
      rw [outputLoop_cons, outputTurn_eq dev display h turns depth char rest, Option.bind_some]
      exact hloop m (by omega)

/-- **What a string leaves**: the status, and the console. -/
def written (wString : List UInt16) (c : Console σ) : StatusCode × Console σ :=
  if c.current.mode = -1 then (efiUnsupported, c)
  else
    let out := turnedAll dev display (dev.modeData c.current.mode) (getTextColors c.current).2
      (2 * wString.length + 1) wString ⟨c.flush display, efiSuccess, false⟩
    (if out.warning then efiWarnUnknownGlyph else out.status,
      (out.console.paint c.current.textAttribute).flush display)

/-- **Writing a string ends.** Whatever the string is, the console goes no more than
three calls deep and round each loop no more than twice a character and once more; what
it leaves is the same with any more, and the cursor is in the window. -/
theorem outputString_eq_written (husable : (dev.modeData c.current.mode).Usable)
    (hwindow : c.current.InWindow (dev.modeData c.current.mode)) (wString : List UInt16)
    {turns depth : ℕ} (hturns : 2 * wString.length + 2 ≤ turns) (hdepth : 3 ≤ depth) :
    outputString dev display turns depth wString c = some (written dev display wString c) := by
  unfold written
  obtain ⟨depth, rfl⟩ : ∃ k, depth = k + 3 := ⟨depth - 3, by omega⟩
  obtain ⟨turns, rfl⟩ : ∃ k, turns = k + 2 := ⟨turns - 2, by omega⟩
  unfold outputString
  split
  · rfl
  · rename_i hmode
    obtain ⟨column, row, hat, hcolumn, hrow⟩ := hwindow
    have hwrites : (c.flush display).Writes dev (dev.modeData c.current.mode)
        (getTextColors c.current).2 column row :=
      ⟨hmode, rfl, rfl, husable, hat, hcolumn, hrow⟩
    have hleft := turnsLeft_le (dev.modeData c.current.mode).columns.toNat column wString
    obtain ⟨hloop, -, -⟩ := outputLoop_eq dev display turns depth (2 * wString.length + 1)
      ⟨c.flush display, efiSuccess, false⟩ hwrites hleft
    rw [hloop (turns + 2) (by omega)]
    rfl

/-- **What a string keeps**: the mode, the attribute and the line buffer are as they were,
and the cursor is in the window. -/
theorem written_keeps (husable : (dev.modeData c.current.mode).Usable)
    (hwindow : c.current.InWindow (dev.modeData c.current.mode)) (wString : List UInt16) :
    c.Keeps (written dev display wString c).2
      ∧ (written dev display wString c).2.current.textAttribute = c.current.textAttribute
      ∧ (written dev display wString c).2.current.InWindow (dev.modeData c.current.mode) := by
  unfold written
  split
  · exact ⟨⟨rfl, rfl, rfl, rfl, rfl⟩, rfl, hwindow⟩
  · rename_i hmode
    obtain ⟨column, row, hat, hcolumn, hrow⟩ := hwindow
    have hwrites : (c.flush display).Writes dev (dev.modeData c.current.mode)
        (getTextColors c.current).2 column row :=
      ⟨hmode, rfl, rfl, husable, hat, hcolumn, hrow⟩
    obtain ⟨-, hkeeps, column', row', hwrites'⟩ := outputLoop_eq dev display 0 0
      (2 * wString.length + 1) ⟨c.flush display, efiSuccess, false⟩ hwrites
      (turnsLeft_le _ column wString)
    exact ⟨⟨hkeeps.mode, rfl, hkeeps.visible, hkeeps.lineBuffer, hkeeps.freedTwice⟩, rfl, column',
      row', ⟨hwrites'.place.column, hwrites'.place.row⟩, hwrites'.columnLt, hwrites'.rowLt⟩

end

end GraphicsConsole
