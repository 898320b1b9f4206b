import HtcLeo.GraphicsConsole.Cursor
import HtcLeo.StatusCode

/-!
# Text on the graphics console

`OutputString` takes a string apart: backspace, line feed and carriage return
move the cursor, two characters of the private area turn the wide attribute on
and off, and of what lies between them as much is drawn at once as the line has
room for. It calls itself, through its own protocol: a backspace writes a space
over what is erased, a character that is too wide for the rest of the line is
put off with a space, and a line that is full is ended with a carriage return
and a line feed.

The cursor is on the screen when the console is called and when it returns. In
between `FlushCursor` takes it away and brings it back, in the calls of the
console to itself too.

The graphics output and the font are other drivers'. They are a `Display` here,
on screens of any type; the one of the frame buffer is `simpleFbDisplay`.
-/

namespace GraphicsConsole

open FrameBufferBlt StatusCode

/-! ## What the console draws with -/

/-- **The display**: what the console calls to change the screen. -/
structure Display (σ : Type) where
  /-- `FlushCursor`. -/
  flushCursor : SimpleTextOutputMode → σ → σ
  /-- `StringToImage` of the font: a string, the colours of the text and of what is
  behind it, and where it begins. -/
  stringToImage : List UInt16 → BltPixel × BltPixel → Corner → σ → StatusCode × σ
  /-- `Blt` with `EfiBltVideoToVideo`: from, to, width, height and delta. -/
  videoToVideo : Corner → Corner → UInt32 → UInt32 → UInt32 → σ → StatusCode × σ
  /-- `Blt` with `EfiBltVideoFill`: colour, corner, width, height and delta. -/
  videoFill : BltPixel → Corner → UInt32 → UInt32 → UInt32 → σ → StatusCode × σ
  /-- `SetMode` of the graphics output. -/
  setMode : UInt32 → σ → StatusCode × σ
  /-- `Mode->Mode` of the graphics output. -/
  mode : σ → UInt32

/-- What the pointer to the line buffer is worth. -/
inductive LineBuffer where
  | null
  | allocated
  | freed
  deriving DecidableEq, Repr

/-- **The console**: what it keeps of its mode, its line buffer, and the screen.
`freedTwice` records a buffer that was freed more than once. -/
structure Console (σ : Type) where
  current : SimpleTextOutputMode
  lineBuffer : LineBuffer
  freedTwice : Bool
  screen : σ

/-- `CHAR_BACKSPACE`. -/
def charBackspace : UInt16 := 0x0008
/-- `CHAR_LINEFEED`. -/
def charLinefeed : UInt16 := 0x000A
/-- `CHAR_CARRIAGE_RETURN`. -/
def charCarriageReturn : UInt16 := 0x000D
/-- `NARROW_CHAR`. -/
def narrowChar : UInt16 := 0xFFF0
/-- `WIDE_CHAR`. -/
def wideChar : UInt16 := 0xFFF1
/-- `SpaceStr`. -/
def spaceStr : List UInt16 := [narrowChar, 0x0020]
/-- `mCrLfString`. -/
def mCrLfString : List UInt16 := [charCarriageReturn, charLinefeed]
/-- `EFI_WIDE_ATTRIBUTE`. -/
def efiWideAttribute : Int32 := 0x80

/-- The characters that are not drawn. -/
def IsControl (char : UInt16) : Prop :=
  char = charBackspace ∨ char = charLinefeed ∨ char = charCarriageReturn ∨ char = wideChar
    ∨ char = narrowChar

instance (char : UInt16) : Decidable (IsControl char) :=
  inferInstanceAs (Decidable (_ ∨ _ ∨ _ ∨ _ ∨ _))

/-- `(This->Mode->Attribute & EFI_WIDE_ATTRIBUTE) != 0`. -/
def SimpleTextOutputMode.isWide (current : SimpleTextOutputMode) : Bool :=
  current.textAttribute &&& efiWideAttribute ≠ 0

section

variable {σ : Type}

/-- `CursorColumn` and `CursorRow` are assigned to. -/
def Console.moveTo (column row : Int32) (c : Console σ) : Console σ :=
  { c with current := { c.current with cursorColumn := column, cursorRow := row } }

/-- `This->Mode->Attribute` is assigned to. -/
def Console.paint (textAttribute : Int32) (c : Console σ) : Console σ :=
  { c with current := { c.current with textAttribute := textAttribute } }

variable (dev : GraphicsConsoleDev) (display : Display σ)

/-- `FlushCursor (This)`. -/
def Console.flush (c : Console σ) : Console σ :=
  { c with screen := display.flushCursor c.current c.screen }

/-! ## Writing a string -/

/-- The display is scrolled up by one row, and a blank line is printed at the last. -/
def scrollUp (data : GraphicsConsoleModeData) (background : BltPixel) (screen : σ) : σ :=
  let width := data.columns * efiGlyphWidth
  let height := (data.rows - 1) * efiGlyphHeight
  let delta := width * 4
  let moved := display.videoToVideo (data.deltaX, data.deltaY + efiGlyphHeight)
    (data.deltaX, data.deltaY) width height delta screen
  (display.videoFill background (data.deltaX, data.deltaY + height) width efiGlyphHeight delta
    moved.2).2

/-- `CHAR_LINEFEED`. -/
def lineFeed (data : GraphicsConsoleModeData) (background : BltPixel) (c : Console σ) :
    Console σ :=
  if c.current.cursorRow = (data.rows - 1).toInt32 then
    { c with screen := scrollUp display data background c.screen }
  else c.moveTo c.current.cursorColumn (c.current.cursorRow + 1)

/-- `CHAR_BACKSPACE`: the cursor goes back, what is there is written over, and the
cursor goes back once more. -/
def backspace (outputString : List UInt16 → Console σ → Option (Console σ))
    (data : GraphicsConsoleModeData) (c : Console σ) : Option (Console σ) :=
  if c.current.cursorColumn = 0 ∧ c.current.cursorRow > 0 then do
    let c ← outputString spaceStr
      (c.moveTo (data.columns - 1).toInt32 (c.current.cursorRow - 1))
    let c := c.flush display
    some (c.moveTo (data.columns - 1).toInt32 (c.current.cursorRow - 1))
  else if c.current.cursorColumn > 0 then do
    let c ← outputString spaceStr (c.moveTo (c.current.cursorColumn - 1) c.current.cursorRow)
    let c := c.flush display
    some (c.moveTo (c.current.cursorColumn - 1) c.current.cursorRow)
  else some c

/-- `Count` and `Index`: how many characters are drawn at once, and the columns they
take. A wide character that would end past the line counts for its columns only. -/
def fitting (column maxColumn : UInt32) (wide : Bool) : List UInt16 → ℕ → UInt32 → ℕ × UInt32
  | [], count, index => (count, index)
  | char :: rest, count, index =>
    if column + index < maxColumn then
      if IsControl char then (count, index)
      else if wide then
        if column + (index + 1) + 1 > maxColumn then (count, index + 1 + 1)
        else fitting column maxColumn wide rest (count + 1) (index + 1 + 1)
      else fitting column maxColumn wide rest (count + 1) (index + 1)
    else (count, index)

/-- `DrawUnicodeWeightAtCursorN`. -/
def drawUnicodeWeightAtCursorN (current : SimpleTextOutputMode) (unicodeWeight : List UInt16)
    (count : ℕ) (screen : σ) : StatusCode × σ :=
  display.stringToImage (unicodeWeight.take count) (getTextColors current)
    (glyphCorner dev current) screen

/-- What the loop over the string works on. -/
structure Output (σ : Type) where
  console : Console σ
  status : StatusCode
  warning : Bool

/-- What is done at the end of a line. -/
def endLine (outputString : List UInt16 → Console σ → Option (Console σ))
    (data : GraphicsConsoleModeData) (c : Console σ) : Option (Console σ) := do
  let c ←
    if c.current.cursorColumn > data.columns.toInt32 then
      outputString spaceStr (c.moveTo (c.current.cursorColumn - 2) c.current.cursorRow)
    else some c
  if c.current.cursorColumn ≥ data.columns.toInt32 then do
    let c ← outputString mCrLfString (c.flush display)
    some (c.flush display)
  else some c

/-- The characters up to the next control character or the end of the line are
drawn, and the line is ended. -/
def printText (outputString : List UInt16 → Console σ → Option (Console σ))
    (data : GraphicsConsoleModeData) (wString : List UInt16) (out : Output σ) :
    Option (List UInt16 × Output σ) := do
  let current := out.console.current
  let fits := fitting current.cursorColumn.toUInt32 data.columns current.isWide wString 0 0
  let drawn := drawUnicodeWeightAtCursorN dev display current wString fits.1 out.console.screen
  let c := { out.console with screen := drawn.2 }
  let c ← endLine display outputString data
    (c.moveTo (current.cursorColumn + fits.2.toInt32) current.cursorRow)
  some (wString.drop fits.1, ⟨c, drawn.1, out.warning || drawn.1.efiError⟩)

/-- **One turn of the loop over the string**: what is left of the string, and of the
console. The string begins with `char`, and `outputString` is the call the console
makes to itself. -/
def outputTurn (outputString : List UInt16 → Console σ → Option (Console σ))
    (data : GraphicsConsoleModeData) (background : BltPixel) (char : UInt16) (rest : List UInt16)
    (out : Output σ) : Option (List UInt16 × Output σ) :=
  if char = charBackspace then do
    let c ← backspace display outputString data out.console
    some (rest, { out with console := c })
  else if char = charLinefeed then
    some (rest, { out with console := lineFeed display data background out.console })
  else if char = charCarriageReturn then
    some (rest, { out with console := out.console.moveTo 0 out.console.current.cursorRow })
  else if char = wideChar then
    some (rest, { out with
      console := out.console.paint (out.console.current.textAttribute ||| efiWideAttribute) })
  else if char = narrowChar then
    some (rest, { out with
      console := out.console.paint (out.console.current.textAttribute &&& ~~~efiWideAttribute) })
  else printText dev display outputString data (char :: rest) out

/-- The loop over the string, of at most so many turns. -/
def outputLoop (outputString : List UInt16 → Console σ → Option (Console σ))
    (data : GraphicsConsoleModeData) (background : BltPixel) :
    ℕ → List UInt16 → Output σ → Option (Output σ)
  | _, [], out => some out
  | 0, _ :: _, _ => none
  | turns + 1, char :: rest, out => do
    let next ← outputTurn dev display outputString data background char rest out
    outputLoop outputString data background turns next.1 next.2

/-- **`GraphicsConsoleConOutOutputString`**, with calls to itself of at most the given
depth and loops of at most the given number of turns. -/
def outputString (turns : ℕ) : ℕ → List UInt16 → Console σ → Option (StatusCode × Console σ)
  | 0, _, _ => none
  | depth + 1, wString, c =>
    if c.current.mode = -1 then some (efiUnsupported, c)
    else do
      let out ← outputLoop dev display
        (fun wString c => (outputString turns depth wString c).map Prod.snd)
        (dev.modeData c.current.mode) (getTextColors c.current).2 turns wString
        ⟨c.flush display, efiSuccess, false⟩
      some (if out.warning then efiWarnUnknownGlyph else out.status,
        (out.console.paint c.current.textAttribute).flush display)

end

/-! ## Where the cursor is -/

theorem ofNat_add_one (n : ℕ) : Int32.ofNat n + 1 = Int32.ofNat (n + 1) := by
  rw [Int32.ofNat_add]
  rfl

theorem ofNat_lt_ofNat {m n : ℕ} (hm : m < 2 ^ 31) (hn : n < 2 ^ 31) :
    Int32.ofNat m < Int32.ofNat n ↔ m < n := by
  rw [Int32.lt_iff_toInt_lt, Int32.toInt_ofNat_of_lt hm, Int32.toInt_ofNat_of_lt hn]
  omega

theorem ofNat_le_ofNat {m n : ℕ} (hm : m < 2 ^ 31) (hn : n < 2 ^ 31) :
    Int32.ofNat m ≤ Int32.ofNat n ↔ m ≤ n := by
  rw [Int32.le_iff_toInt_le, Int32.toInt_ofNat_of_lt hm, Int32.toInt_ofNat_of_lt hn]
  omega

theorem ofNat_inj {m n : ℕ} (hm : m < 2 ^ 31) (hn : n < 2 ^ 31) :
    Int32.ofNat m = Int32.ofNat n ↔ m = n := by
  rw [← Int32.toInt_inj, Int32.toInt_ofNat_of_lt hm, Int32.toInt_ofNat_of_lt hn]
  omega

theorem ofNat_pos {n : ℕ} (hn : n < 2 ^ 31) : Int32.ofNat n > 0 ↔ 0 < n :=
  ofNat_lt_ofNat (Nat.two_pow_pos 31) hn

theorem ofNat_eq_zero {n : ℕ} (hn : n < 2 ^ 31) : Int32.ofNat n = 0 ↔ n = 0 :=
  ofNat_inj hn (Nat.two_pow_pos 31)

theorem toInt32_eq_ofNat (w : UInt32) : w.toInt32 = Int32.ofNat w.toNat := by
  rw [← UInt32.toInt32_ofNat', UInt32.ofNat_toNat]

theorem ofNat_sub_one {n : ℕ} (hn : 0 < n) : Int32.ofNat n - 1 = Int32.ofNat (n - 1) := by
  obtain ⟨m, rfl⟩ : ∃ m, n = m + 1 := ⟨n - 1, by omega⟩
  rw [← ofNat_add_one, Int32.add_sub_cancel, Nat.add_sub_cancel]

/-- **A mode the console can write in**: there is room for a wide character, and the
cells are counted by `INT32`. -/
structure GraphicsConsoleModeData.Usable (data : GraphicsConsoleModeData) : Prop where
  columns_ge : 2 ≤ data.columns.toNat
  columns_lt : data.columns.toNat < 2 ^ 31 - 2
  rows_pos : 0 < data.rows.toNat
  rows_lt : data.rows.toNat < 2 ^ 31

/-- The cursor is in the given column and row. -/
structure SimpleTextOutputMode.At (current : SimpleTextOutputMode) (column row : ℕ) : Prop where
  column : current.cursorColumn = Int32.ofNat column
  row : current.cursorRow = Int32.ofNat row

/-- **The cursor is in the window** of the mode. -/
def SimpleTextOutputMode.InWindow (current : SimpleTextOutputMode)
    (data : GraphicsConsoleModeData) : Prop :=
  ∃ column row, current.At column row ∧ column < data.columns.toNat ∧ row < data.rows.toNat

/-! ## What is drawn at once -/

/-- The characters drawn at once end in the line, or before a wide one that would not. -/
theorem fitting_fits {column columns : ℕ} (hcolumns : columns < 2 ^ 31 - 2) (wide : Bool)
    (text : List UInt16) (count : ℕ) {index : ℕ} (hindex : column + index ≤ columns) :
    ∃ n m, fitting (UInt32.ofNat column) (UInt32.ofNat columns) wide text count
        (UInt32.ofNat index) = (count + n, UInt32.ofNat (index + m))
      ∧ n ≤ text.length
      ∧ (column + index + m ≤ columns ∧ m ≤ 2 * n
        ∨ wide = true ∧ column + index + m = columns + 1 ∧ m = 2 * n + 2
          ∧ ∃ next after, text.drop n = next :: after ∧ ¬ IsControl next) := by
  induction text generalizing count index with
  | nil => exact ⟨0, 0, rfl, Nat.le_refl 0, Or.inl ⟨hindex, Nat.le_refl 0⟩⟩
  | cons char rest ih =>
    have hsum : ∀ k ≤ 2, (UInt32.ofNat column + UInt32.ofNat (index + k)).toNat
        = column + index + k := by
      intro k hk
      rw [← UInt32.ofNat_add, UInt32.toNat_ofNat']
      omega
    have hmax : (UInt32.ofNat columns).toNat = columns := by
      rw [UInt32.toNat_ofNat']
      omega
    have hstays : ∃ n m, ((count, UInt32.ofNat index) : ℕ × UInt32)
          = (count + n, UInt32.ofNat (index + m))
        ∧ n ≤ (char :: rest).length
        ∧ (column + index + m ≤ columns ∧ m ≤ 2 * n
          ∨ wide = true ∧ column + index + m = columns + 1 ∧ m = 2 * n + 2
            ∧ ∃ next after, (char :: rest).drop n = next :: after ∧ ¬ IsControl next) :=
      ⟨0, 0, rfl, Nat.zero_le _, Or.inl ⟨hindex, Nat.le_refl 0⟩⟩
    unfold fitting
    split
    · rename_i hlt
      rw [UInt32.lt_iff_toNat_lt, hmax] at hlt
      have hroom : column + index < columns := hsum 0 (by omega) ▸ hlt
      split
      · exact hstays
      · rename_i hchar
        split
        · rename_i hwide
          rw [show UInt32.ofNat index + 1 = UInt32.ofNat (index + 1) from
              (UInt32.ofNat_add _ _).symm,
            show UInt32.ofNat (index + 1) + 1 = UInt32.ofNat (index + 2) from
              (UInt32.ofNat_add _ _).symm]
          have hlast : (UInt32.ofNat column + UInt32.ofNat (index + 1) + 1).toNat
              = column + index + 2 := by
            rw [UInt32.add_assoc, show UInt32.ofNat (index + 1) + 1 = UInt32.ofNat (index + 2) from
              (UInt32.ofNat_add _ _).symm]
            exact hsum 2 (Nat.le_refl 2)
          split
          · rename_i hpast
            rw [gt_iff_lt, UInt32.lt_iff_toNat_lt, hmax, hlast] at hpast
            exact ⟨0, 2, rfl, Nat.zero_le _, Or.inr ⟨hwide, by omega, rfl, char, rest, rfl, hchar⟩⟩
          · rename_i hends
            rw [gt_iff_lt, UInt32.lt_iff_toNat_lt, hmax, hlast] at hends
            obtain ⟨n, m, heq, hn, hm⟩ := @ih (count + 1) (index + 2) (by omega)
            refine ⟨n + 1, m + 2, ?_, Nat.succ_le_succ hn, ?_⟩
            · rw [heq, Nat.add_assoc count, Nat.add_comm 1 n, Nat.add_assoc index,
                Nat.add_comm 2 m]
            · rcases hm with ⟨hm, hle⟩ | ⟨-, hm, hn, hnext⟩
              · exact Or.inl ⟨by omega, by omega⟩
              · exact Or.inr ⟨hwide, by omega, by omega, hnext⟩
        · rename_i hnarrow
          obtain ⟨n, m, heq, hn, hm⟩ := @ih (count + 1) (index + 1) (by omega)
          rw [show UInt32.ofNat index + 1 = UInt32.ofNat (index + 1) from
            (UInt32.ofNat_add _ _).symm]
          refine ⟨n + 1, m + 1, ?_, Nat.succ_le_succ hn, ?_⟩
          · rw [heq, Nat.add_assoc count, Nat.add_comm 1 n, Nat.add_assoc index,
              Nat.add_comm 1 m]
          · rcases hm with ⟨hm, hle⟩ | ⟨hwide, -⟩
            · exact Or.inl ⟨by omega, by omega⟩
            · exact absurd hwide hnarrow
    · exact hstays

/-- The first character is drawn, but for a wide one in the last column. -/
theorem fitting_first {column columns : ℕ} (hcolumns : columns < 2 ^ 31 - 2) (wide : Bool)
    {char : UInt16} (rest : List UInt16) (hchar : ¬ IsControl char) (hlt : column < columns) :
    (∃ n m, fitting (UInt32.ofNat column) (UInt32.ofNat columns) wide (char :: rest) 0 0
        = (n + 1, UInt32.ofNat m) ∧ n ≤ rest.length
      ∧ (column + m ≤ columns ∨ wide = true ∧ column + m = columns + 1
        ∧ ∃ next after, rest.drop n = next :: after ∧ ¬ IsControl next))
    ∨ wide = true ∧ column + 1 = columns
      ∧ fitting (UInt32.ofNat column) (UInt32.ofNat columns) wide (char :: rest) 0 0 = (0, 2) := by
  have hmax : (UInt32.ofNat columns).toNat = columns := by
    rw [UInt32.toNat_ofNat']
    omega
  have hsum : ∀ k ≤ 2, (UInt32.ofNat column + UInt32.ofNat k).toNat = column + k := by
    intro k hk
    rw [← UInt32.ofNat_add, UInt32.toNat_ofNat']
    omega
  have hin : UInt32.ofNat column + 0 < UInt32.ofNat columns := by
    rw [UInt32.lt_iff_toNat_lt, hmax, show (0 : UInt32) = UInt32.ofNat 0 from rfl,
      hsum 0 (by omega)]
    exact hlt
  have hlast : UInt32.ofNat column + (0 + 1) + 1 = UInt32.ofNat column + UInt32.ofNat 2 := by
    rw [UInt32.add_assoc]
    rfl
  unfold fitting
  rw [if_pos hin, if_neg hchar]
  split
  · rename_i hwide
    rw [hlast]
    split
    · rename_i hpast
      rw [gt_iff_lt, UInt32.lt_iff_toNat_lt, hmax, hsum 2 (Nat.le_refl 2)] at hpast
      exact Or.inr ⟨hwide, by omega, rfl⟩
    · rename_i hends
      rw [gt_iff_lt, UInt32.lt_iff_toNat_lt, hmax, hsum 2 (Nat.le_refl 2)] at hends
      obtain ⟨n, m, heq, hn, hm⟩ :=
        @fitting_fits column columns hcolumns wide rest 1 2 (by omega)
      refine Or.inl ⟨n, 2 + m, ?_, hn, ?_⟩
      · rw [Nat.add_comm n]
        exact heq
      · rcases hm with ⟨hm, -⟩ | ⟨hwide, hm, -, hnext⟩
        · exact Or.inl (by omega)
        · exact Or.inr ⟨hwide, by omega, hnext⟩
  · obtain ⟨n, m, heq, hn, hm⟩ := @fitting_fits column columns hcolumns wide rest 1 1 (by omega)
    refine Or.inl ⟨n, 1 + m, ?_, hn, ?_⟩
    · rw [Nat.add_comm n]
      exact heq
    · rcases hm with ⟨hm, -⟩ | ⟨hwide, hm, -, hnext⟩
      · exact Or.inl (by omega)
      · exact Or.inr ⟨hwide, by omega, hnext⟩

/-- One narrow character is drawn in the line. -/
theorem fitting_narrow {column columns : ℕ} (hcolumns : columns < 2 ^ 31 - 2) {char : UInt16}
    (hchar : ¬ IsControl char) (hlt : column < columns) :
    fitting (UInt32.ofNat column) (UInt32.ofNat columns) false [char] 0 0 = (1, 1) := by
  have hin : UInt32.ofNat column + 0 < UInt32.ofNat columns := by
    rw [UInt32.add_zero, UInt32.lt_iff_toNat_lt, UInt32.toNat_ofNat', UInt32.toNat_ofNat']
    omega
  unfold fitting
  rw [if_pos hin, if_neg hchar]
  rfl

end GraphicsConsole
