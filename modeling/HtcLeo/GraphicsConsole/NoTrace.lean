import HtcLeo.GraphicsConsole.Session

/-!
# The cursor leaves no trace

The cursor is drawn by inverting what is on the screen, and taken away by
inverting it once more. The calls of the console to itself do so with a cursor
that is not there: a space is written over the cursor that the call has just
shown, and the cursor a character is put off with stays on the screen until the
character is drawn over it.

Here the console is compared with one on a display where the cursor is never
drawn. Between two calls its screen is the screen of that one with the cursor on
it, and its answers are the same. This needs memory for every line buffer: a
change of mode that is refused leaves the cursor hidden.

What is asked of the display is `Display.Laws`, up to a relation `Same` of screens
that look the same; of the font it asks that a character which has a glyph
covers its cell.
-/

namespace GraphicsConsole

open FrameBufferBlt StatusCode

/-! ## What is asked of the display -/

section

variable {σ : Type}

/-- The display with a cursor that is never drawn. -/
def Display.plain (display : Display σ) : Display σ :=
  { display with flushCursor := fun _ screen => screen }

/-- The mode is one of the table. -/
def GraphicsConsoleDev.InTable (dev : GraphicsConsoleDev) (maxMode : UInt32) (mode : Int32) :
    Prop :=
  ∃ n < maxMode, mode = n.toInt32 ∧ (dev.modeData mode).Usable

/-- The same status, and screens that look the same. -/
def SameAnswer (Same : σ → σ → Prop) (answer answer' : StatusCode × σ) : Prop :=
  answer.1 = answer'.1 ∧ Same answer.2 answer'.2

/-- **The laws of a display**: what is drawn is seen on screens that look the same, the
cursor drawn twice is not there, a character with a glyph and a display that is cleared
cover the cursor, and the modes of the table can be set. -/
structure Display.Laws (dev : GraphicsConsoleDev) (maxMode : UInt32) (display : Display σ)
    (Same : σ → σ → Prop) (Glyph : UInt16 → Prop) : Prop where
  same : Equivalence Same
  space : Glyph 0x0020
  flush_congr : ∀ current {screen screen'}, Same screen screen' →
    Same (display.flushCursor current screen) (display.flushCursor current screen')
  flush_flush : ∀ current screen,
    Same (display.flushCursor current (display.flushCursor current screen)) screen
  flush_paint : ∀ (current : SimpleTextOutputMode) textAttribute screen,
    textAttribute &&& 0x7F = current.textAttribute &&& 0x7F →
    Same (display.flushCursor { current with textAttribute := textAttribute } screen)
      (display.flushCursor current screen)
  text_congr : ∀ text colors corner {screen screen'}, Same screen screen' →
    SameAnswer Same (display.stringToImage text colors corner screen)
      (display.stringToImage text colors corner screen')
  text_covers : ∀ (current : SimpleTextOutputMode) char rest screen,
    dev.InTable maxMode current.mode → current.InWindow (dev.modeData current.mode) →
    Glyph char →
    SameAnswer Same
      (display.stringToImage (char :: rest) (getTextColors current) (glyphCorner dev current)
        (display.flushCursor current screen))
      (display.stringToImage (char :: rest) (getTextColors current) (glyphCorner dev current)
        screen)
  move_congr : ∀ source destination width height delta {screen screen'}, Same screen screen' →
    Same (display.videoToVideo source destination width height delta screen).2
      (display.videoToVideo source destination width height delta screen').2
  fill_congr : ∀ color corner width height delta {screen screen'}, Same screen screen' →
    SameAnswer Same (display.videoFill color corner width height delta screen)
      (display.videoFill color corner width height delta screen')
  fill_covers : ∀ (current : SimpleTextOutputMode) color screen,
    dev.InTable maxMode current.mode → current.InWindow (dev.modeData current.mode) →
    SameAnswer Same
      (display.videoFill color (0, 0) (dev.modeData current.mode).gopWidth
        (dev.modeData current.mode).gopHeight 0 (display.flushCursor current screen))
      (display.videoFill color (0, 0) (dev.modeData current.mode).gopWidth
        (dev.modeData current.mode).gopHeight 0 screen)
  mode_congr : ∀ {screen screen'}, Same screen screen' → display.mode screen = display.mode screen'
  setMode_congr : ∀ modeNumber {screen screen'}, Same screen screen' →
    SameAnswer Same (display.setMode modeNumber screen) (display.setMode modeNumber screen')
  setMode_succeeds : ∀ modeNumber screen, (display.setMode modeNumber screen).1.efiError = false

/-! ## Two consoles -/

/-- The console on another screen. -/
def Console.on (c : Console σ) (screen : σ) : Console σ := { c with screen := screen }

/-- **The console follows the other**, which has no cursor: they differ in their screens,
and those in the cursor, which is `shown` on the first or not. -/
def Follows (display : Display σ) (Same : σ → σ → Prop) (shown : Bool) (c c₀ : Console σ) : Prop :=
  ∃ screen, c₀ = c.on screen
    ∧ Same c.screen (bif shown then display.flushCursor c.current screen else screen)

end

section

variable {σ : Type} {dev : GraphicsConsoleDev} {maxMode : UInt32} {display : Display σ}
  {Same : σ → σ → Prop} {Glyph : UInt16 → Prop} {shown : Bool} {c c₀ : Console σ}
  {data : GraphicsConsoleModeData} {background : BltPixel} {column row : ℕ}

theorem Follows.current (h : Follows display Same shown c c₀) : c₀.current = c.current := by
  obtain ⟨screen, rfl, -⟩ := h
  rfl

/-- One console on two screens that look the same. -/
theorem follows_on (display : Display σ) (c : Console σ) {screen screen' : σ}
    (h : Same screen screen') : Follows display Same false (c.on screen) (c.on screen') :=
  ⟨screen', rfl, h⟩

theorem Follows.freeLineBuffer (h : Follows display Same false c c₀) :
    Follows display Same false c.freeLineBuffer c₀.freeLineBuffer := by
  obtain ⟨screen, rfl, hsame⟩ := h
  exact ⟨screen, rfl, hsame⟩

/-- What a console keeps of its mode may change where the cursor is not on the screen. -/
theorem Follows.change (h : Follows display Same false c c₀)
    (f : SimpleTextOutputMode → SimpleTextOutputMode) :
    Follows display Same false { c with current := f c.current }
      { c₀ with current := f c₀.current } := by
  obtain ⟨screen, rfl, hsame⟩ := h
  exact ⟨screen, rfl, hsame⟩

theorem Follows.moveTo (h : Follows display Same false c c₀) (column row : Int32) :
    Follows display Same false (c.moveTo column row) (c₀.moveTo column row) :=
  h.change fun current => { current with cursorColumn := column, cursorRow := row }

/-- Where the cursor is, for a console that begins a turn, is in its window. -/
theorem Console.Writes.inWindow (h : c.Writes dev data background column row) :
    c.current.InWindow (dev.modeData c.current.mode) := by
  rw [← h.ofMode]
  exact ⟨column, row, h.place, h.columnLt, h.rowLt⟩

/-- **What is pending**: a cursor that is still on the screen is at the first column, and
a character is to be drawn over it. -/
def Pending (shown : Bool) (c : Console σ) (wString : List UInt16) : Prop :=
  shown = true → c.current.cursorColumn = 0
    ∧ ∃ char rest, wString = char :: rest ∧ ¬ IsControl char

theorem pending_hidden (c : Console σ) (wString : List UInt16) : Pending false c wString :=
  fun h => absurd h Bool.false_ne_true

/-- What is kept of the table by a console that writes. -/
theorem inTable_of_keeps {c' : Console σ} (hkeeps : c.Keeps c')
    (htable : dev.InTable maxMode c.current.mode) : dev.InTable maxMode c'.current.mode :=
  hkeeps.mode ▸ htable

variable (laws : display.Laws dev maxMode Same Glyph)

include laws

/-- **The cursor is shown, or taken away.** -/
theorem Follows.flush (h : Follows display Same shown c c₀) :
    Follows display Same (!shown) (c.flush display) (c₀.flush display.plain) := by
  obtain ⟨screen, rfl, hsame⟩ := h
  refine ⟨screen, rfl, ?_⟩
  cases shown with
  | false => exact laws.flush_congr c.current hsame
  | true =>
    exact laws.same.trans (laws.flush_congr c.current hsame) (laws.flush_flush c.current screen)

/-- The colours stay, and with them the cursor. -/
theorem Follows.paint (h : Follows display Same shown c c₀) (textAttribute : Int32)
    (hcolors : textAttribute &&& 0x7F = c.current.textAttribute &&& 0x7F) :
    Follows display Same shown (c.paint textAttribute) (c₀.paint textAttribute) := by
  obtain ⟨screen, rfl, hsame⟩ := h
  refine ⟨screen, rfl, ?_⟩
  cases shown with
  | false => exact hsame
  | true =>
    exact laws.same.trans hsame
      (laws.same.symm (laws.flush_paint c.current textAttribute screen hcolors))

/-- The display is scrolled. -/
theorem same_scrollUp (data : GraphicsConsoleModeData) (background : BltPixel)
    {screen screen' : σ} (h : Same screen screen') :
    Same (scrollUp display data background screen)
      (scrollUp display.plain data background screen') := by
  unfold scrollUp
  exact (laws.fill_congr _ _ _ _ _ (laws.move_congr _ _ _ _ _ h)).2

theorem Follows.lineFeed (data : GraphicsConsoleModeData) (background : BltPixel)
    (h : Follows display Same false c c₀) :
    Follows display Same false (lineFeed display data background c)
      (lineFeed display.plain data background c₀) := by
  obtain ⟨screen, rfl, hsame⟩ := h
  rcases lineFeed_cases display data background c with ⟨hlast, heq⟩ | ⟨hlast, heq⟩
  · have hplain : GraphicsConsole.lineFeed display.plain data background (c.on screen)
        = (c.on screen).on (scrollUp display.plain data background screen) := if_pos hlast
    rw [heq, hplain]
    exact ⟨_, rfl, same_scrollUp laws data background hsame⟩
  · have hplain : GraphicsConsole.lineFeed display.plain data background (c.on screen)
        = (c.on screen).moveTo c.current.cursorColumn (c.current.cursorRow + 1) := if_neg hlast
    rw [heq, hplain]
    exact ⟨screen, rfl, hsame⟩

/-- A carriage return and a line feed, of a console with the cursor on the screen. -/
theorem Follows.crLfWritten (data : GraphicsConsoleModeData) (background : BltPixel)
    (h : Follows display Same true c c₀) :
    Follows display Same true (crLfWritten display data background c)
      (crLfWritten display.plain data background c₀) := by
  have hhidden := (h.flush laws).moveTo 0 c.current.cursorRow
  have hfed := (hhidden.lineFeed laws data background).flush laws
  obtain ⟨screen, rfl, -⟩ := h
  exact hfed

theorem Follows.lineEnded (data : GraphicsConsoleModeData) (background : BltPixel)
    (h : Follows display Same false c c₀) :
    Follows display Same false (lineEnded display data background c)
      (lineEnded display.plain data background c₀) := by
  have hcurrent := h.current
  unfold GraphicsConsole.lineEnded
  rw [hcurrent]
  split
  · exact ((h.flush laws).crLfWritten laws data background).flush laws
  · exact h

/-- Text is drawn on a screen without the cursor. -/
theorem Follows.drawText (wString : List UInt16) (fits : ℕ × UInt32)
    (h : Follows display Same false c c₀) :
    (drawUnicodeWeightAtCursorN dev display.plain c₀.current wString fits.1 c₀.screen).1
        = (drawUnicodeWeightAtCursorN dev display c.current wString fits.1 c.screen).1
      ∧ Follows display Same false (textDrawn dev display wString fits c)
          (textDrawn dev display.plain wString fits c₀) := by
  obtain ⟨screen, rfl, hsame⟩ := h
  obtain ⟨hstatus, hscreen⟩ := laws.text_congr (wString.take fits.1) (getTextColors c.current)
    (glyphCorner dev c.current) hsame
  exact ⟨hstatus.symm, _, rfl, hscreen⟩

/-- **Text is drawn over the cursor**, which is gone. -/
theorem Follows.drawOver {char : UInt16} (rest : List UInt16) (n : ℕ) (index : UInt32)
    (h : Follows display Same true c c₀) (htable : dev.InTable maxMode c.current.mode)
    (hwindow : c.current.InWindow (dev.modeData c.current.mode)) (hchar : Glyph char) :
    (drawUnicodeWeightAtCursorN dev display.plain c₀.current (char :: rest) (n + 1) c₀.screen).1
        = (drawUnicodeWeightAtCursorN dev display c.current (char :: rest) (n + 1) c.screen).1
      ∧ Follows display Same false (textDrawn dev display (char :: rest) (n + 1, index) c)
          (textDrawn dev display.plain (char :: rest) (n + 1, index) c₀) := by
  obtain ⟨screen, rfl, hsame⟩ := h
  obtain ⟨hstatus, hscreen⟩ := laws.text_congr (char :: rest.take n) (getTextColors c.current)
    (glyphCorner dev c.current) hsame
  obtain ⟨hstatus', hscreen'⟩ := laws.text_covers c.current char (rest.take n) screen htable hwindow
    hchar
  exact ⟨(hstatus.trans hstatus').symm, _, rfl, laws.same.trans hscreen hscreen'⟩

/-- **A space is written**: over the cursor of the call, which then is behind it. -/
theorem Follows.spaceWritten (data : GraphicsConsoleModeData) (background : BltPixel)
    (h : Follows display Same false c c₀) (htable : dev.InTable maxMode c.current.mode)
    (hwindow : c.current.InWindow (dev.modeData c.current.mode)) :
    Follows display Same true (spaceWritten dev display data background c)
      (spaceWritten dev display.plain data background c₀) := by
  have hcurrent := h.current
  have hnarrow := (h.flush laws).paint laws (c.current.textAttribute &&& ~~~efiWideAttribute)
    (and_not_wide _)
  obtain ⟨-, hdrawn⟩ := hnarrow.drawOver laws [] 0 1 htable
    (InWindow.congr hwindow rfl rfl) laws.space
  have hended := hdrawn.lineEnded laws data background
  have hcolors : c.current.textAttribute &&& 0x7F
      = (GraphicsConsole.lineEnded display data background
          (textDrawn dev display [0x0020] (1, 1)
            ((c.flush display).paint
              (c.current.textAttribute &&& ~~~efiWideAttribute)))).current.textAttribute
                &&& 0x7F := by
    rw [textAttribute_lineEnded]
    exact (and_not_wide _).symm
  unfold GraphicsConsole.spaceWritten
  rw [hcurrent]
  exact (hended.paint laws _ hcolors).flush laws

/-- A backspace writes its space and goes back to it. -/
theorem Follows.backspaced (h : Follows display Same false c c₀)
    (hwrites : c.Writes dev data background column row)
    (htable : dev.InTable maxMode c.current.mode) :
    Follows display Same false (backspaced dev display data background c)
      (backspaced dev display.plain data background c₀) := by
  have hwrites₀ : c₀.Writes dev data background column row := by
    obtain ⟨screen, rfl, -⟩ := h
    exact ⟨hwrites.mode, hwrites.ofMode, hwrites.behind, hwrites.usable, hwrites.place,
      hwrites.columnLt, hwrites.rowLt⟩
  rcases backspaced_cases dev display hwrites with
    ⟨rfl, rfl, heq⟩ | ⟨hback, column', row', hprev, heq⟩
  · rcases backspaced_cases dev display.plain hwrites₀ with ⟨-, -, heq₀⟩ | ⟨hback, -⟩
    · rw [heq, heq₀]
      exact h
    · omega
  · rcases backspaced_cases dev display.plain hwrites₀ with
      ⟨rfl, rfl, -⟩ | ⟨-, column'', row'', hprev₀, heq₀⟩
    · omega
    · obtain ⟨rfl, rfl⟩ := Prod.mk.inj (hprev.symm.trans hprev₀)
      obtain ⟨-, hcolumn', hrow'⟩ := hwrites.at_spaceWritten_previous dev display hprev hback
      have hmoved := hwrites.moveTo dev column' row' hcolumn' hrow'
      rw [heq, heq₀]
      exact (((h.moveTo (Int32.ofNat column') (Int32.ofNat row')).spaceWritten laws data
        background htable hmoved.inWindow).flush laws).moveTo _ _

/-! ## One turn -/

/-- **The end of a line**: the cursor is not on the screen, or a character was put off. -/
theorem Follows.putOff (background : BltPixel) (h : Follows display Same false c c₀)
    (husable : data.Usable) (hdata : data = dev.modeData c.current.mode)
    (htable : dev.InTable maxMode c.current.mode)
    {column' : ℕ} (hat : c.current.At column' row) (hle : column' ≤ data.columns.toNat + 1)
    (hrow : row < data.rows.toNat) :
    (column' ≤ data.columns.toNat ∧ Follows display Same false
        (GraphicsConsole.lineEnded display data background (putOff dev display data background c))
        (GraphicsConsole.lineEnded display.plain data background
          (putOff dev display.plain data background c₀)))
    ∨ column' = data.columns.toNat + 1 ∧ Follows display Same true
        (GraphicsConsole.lineEnded display data background (putOff dev display data background c))
        (GraphicsConsole.lineEnded display.plain data background
          (putOff dev display.plain data background c₀)) := by
  have hcolumns := husable.columns_ge
  have hat₀ : c₀.current.At column' row := by rw [h.current]; exact hat
  rcases putOff_cases dev display data background husable hat hle hrow with
    ⟨hends, heq⟩ | ⟨rfl, heq, hwrapped⟩
  · rcases putOff_cases dev display.plain data background husable hat₀ hle hrow with
      ⟨-, heq₀⟩ | ⟨hpast, -⟩
    · rw [heq, heq₀]
      exact Or.inl ⟨hends, h.lineEnded laws data background⟩
    · omega
  · rcases putOff_cases dev display.plain data background husable hat₀ hle hrow with
      ⟨hends, -⟩ | ⟨-, heq₀, hwrapped₀⟩
    · omega
    · have hmoved := h.moveTo (Int32.ofNat (data.columns.toNat - 1)) (Int32.ofNat row)
      have hwindow : (c.moveTo (Int32.ofNat (data.columns.toNat - 1))
          (Int32.ofNat row)).current.InWindow (dev.modeData c.current.mode) := by
        rw [← hdata]
        exact ⟨_, row, ⟨rfl, rfl⟩, by omega, hrow⟩
      have hspace := hmoved.spaceWritten laws data background htable hwindow
      rw [← heq, ← heq₀] at hspace
      rw [lineEnded_of_lt display background husable hwrapped (by omega),
        lineEnded_of_lt display.plain background husable hwrapped₀ (by omega)]
      exact Or.inr ⟨rfl, hspace⟩


/-- **One output follows the other**: with the same string before them, and the same
answer so far. -/
structure Trails (display : Display σ) (Same : σ → σ → Prop) (next next₀ : List UInt16 × Output σ) :
    Prop where
  rest : next₀.1 = next.1
  status : next₀.2.status = next.2.status
  warning : next₀.2.warning = next.2.warning
  console : ∃ shown, Follows display Same shown next.2.console next₀.2.console
    ∧ Pending shown next.2.console next.1

/-- The turn of a character that is drawn. -/
theorem Trails.textPrinted {out out₀ : Output σ} {char : UInt16} {rest : List UInt16}
    (h : Trails display Same (char :: rest, out) (char :: rest, out₀))
    (hwrites : out.console.Writes dev data background column row)
    (htable : dev.InTable maxMode out.console.current.mode) (hchar : ¬ IsControl char)
    (hglyph : Glyph char) :
    Trails display Same (textPrinted dev display data background (char :: rest) out)
      (textPrinted dev display.plain data background (char :: rest) out₀) := by
  obtain ⟨shown, hfollows, hpending⟩ := h.console
  have hcolumns := hwrites.usable.columns_ge
  have hcolumnsLt := hwrites.usable.columns_lt
  have hcolumn := hwrites.columnLt
  have hfits₀ :
      textFits data (char :: rest) out₀.console = textFits data (char :: rest) out.console := by
    unfold textFits
    rw [hfollows.current]
  -- what is drawn covers the cursor, if it is there; and then the line is ended
  have hdrawn : ∀ fits, (shown = true → ∃ n index, fits = (n + 1, index)) →
      (drawUnicodeWeightAtCursorN dev display.plain out₀.console.current (char :: rest) fits.1
          out₀.console.screen).1
        = (drawUnicodeWeightAtCursorN dev display out.console.current (char :: rest) fits.1
            out.console.screen).1
      ∧ Follows display Same false (textDrawn dev display (char :: rest) fits out.console)
          (textDrawn dev display.plain (char :: rest) fits out₀.console) := by
    rintro fits hfirst
    cases shown with
    | false => exact hfollows.drawText laws _ _
    | true =>
      obtain ⟨n, index, rfl⟩ := hfirst rfl
      exact hfollows.drawOver laws rest n index htable hwrites.inWindow hglyph
  have hresult : ∀ {fits : ℕ × UInt32} {column' : ℕ},
      textFits data (char :: rest) out.console = fits →
      (shown = true → ∃ n index, fits = (n + 1, index)) →
      (textDrawn dev display (char :: rest) fits out.console).current.At column' row →
      column' ≤ data.columns.toNat + 1 →
      (column' = data.columns.toNat + 1 → ∃ next after,
        (char :: rest).drop fits.1 = next :: after ∧ ¬ IsControl next) →
      Trails display Same
        (GraphicsConsole.textPrinted dev display data background (char :: rest) out)
        (GraphicsConsole.textPrinted dev display.plain data background (char :: rest) out₀) := by
    intro fits column' hfits hfirst hat hle hnext
    obtain ⟨hstatus, hfollows'⟩ := hdrawn fits hfirst
    have hended := hfollows'.putOff laws background hwrites.usable hwrites.ofMode htable hat hle
      hwrites.rowLt
    have hwhere := at_lineEnded_putOff dev display background hwrites.usable hat hle hwrites.rowLt
    unfold GraphicsConsole.textPrinted
    rw [hfits₀, hfits]
    refine ⟨rfl, hstatus, ?_, ?_⟩
    · show (out₀.warning || _) = (out.warning || _)
      rw [hstatus, show out₀.warning = out.warning from h.warning]
    · rcases hended with ⟨-, hhidden⟩ | ⟨hpast, hshown⟩
      · exact ⟨false, hhidden, pending_hidden _ _⟩
      · refine ⟨true, hshown, fun _ => ⟨?_, hnext hpast⟩⟩
        unfold wrap at hwhere
        rw [if_neg (by omega)] at hwhere
        exact hwhere.column
  rcases textFits_cases dev hwrites rest hchar with ⟨n, m, hfits, -, hm⟩ | ⟨-, hlast, hfits⟩
  · refine hresult hfits (fun _ => ⟨n, _, rfl⟩) (at_textDrawn dev display _ _ m hwrites.place)
      (by omega) fun hpast => ?_
    rcases hm with hm | ⟨-, -, hnext⟩
    · omega
    · exact hnext
  · refine hresult hfits (fun hshown => ?_) (at_textDrawn dev display _ 0 2 hwrites.place)
      (by omega) fun _ => ⟨char, rest, rfl, hchar⟩
    have hzero := (hpending hshown).1
    rw [hwrites.place.column, ofNat_eq_zero (by omega)] at hzero
    omega

/-- **One turn** keeps the two outputs together. -/
theorem Trails.turn {out out₀ : Output σ} {char : UInt16} {rest : List UInt16}
    (h : Trails display Same (char :: rest, out) (char :: rest, out₀))
    (hwrites : out.console.Writes dev data background column row)
    (htable : dev.InTable maxMode out.console.current.mode)
    (hglyph : ¬ IsControl char → Glyph char) :
    Trails display Same (turned dev display data background char rest out)
      (turned dev display.plain data background char rest out₀) := by
  by_cases hchar : IsControl char
  · have hhidden : Follows display Same false out.console out₀.console := by
      obtain ⟨shown, hfollows, hpending⟩ := h.console
      cases shown with
      | false => exact hfollows
      | true =>
        obtain ⟨-, next, after, heq, hnext⟩ := hpending rfl
        obtain ⟨rfl, -⟩ := List.cons.inj heq
        exact absurd hchar hnext
    have hcurrent := hhidden.current
    have hkept : ∀ {c c₀ : Console σ}, Follows display Same false c c₀ →
        Trails display Same (rest, { out with console := c }) (rest, { out₀ with console := c₀ }) :=
      fun hfollows => ⟨rfl, h.status, h.warning, false, hfollows, pending_hidden _ _⟩
    rcases hchar with rfl | rfl | rfl | rfl | rfl
    · exact hkept (hhidden.backspaced laws hwrites htable)
    · exact hkept (hhidden.lineFeed laws data background)
    · have hmoved := hkept (hhidden.moveTo 0 out.console.current.cursorRow)
      show Trails _ _ _ (rest, { out₀ with
        console := out₀.console.moveTo 0 out₀.console.current.cursorRow })
      rw [hcurrent]
      exact hmoved
    · have hpainted := hkept (hhidden.paint laws _ (or_wide out.console.current.textAttribute))
      show Trails _ _ _ (rest, { out₀ with
        console := out₀.console.paint (out₀.console.current.textAttribute ||| efiWideAttribute) })
      rw [hcurrent]
      exact hpainted
    · have hpainted := hkept (hhidden.paint laws _ (and_not_wide out.console.current.textAttribute))
      show Trails _ _ _ (rest, { out₀ with
        console :=
          out₀.console.paint (out₀.console.current.textAttribute &&& ~~~efiWideAttribute) })
      rw [hcurrent]
      exact hpainted
  · rw [turned_text dev display hchar, turned_text dev display.plain hchar]
    exact h.textPrinted laws hwrites htable hchar (hglyph hchar)

/-! ## A whole string -/

/-- **The loop** ends with the cursor taken away. -/
theorem Trails.outputLoop (n : ℕ) {wString : List UInt16} {out out₀ : Output σ}
    (h : Trails display Same (wString, out) (wString, out₀))
    (hwrites : out.console.Writes dev data background column row)
    (htable : dev.InTable maxMode out.console.current.mode)
    (hglyphs : ∀ char ∈ wString, ¬ IsControl char → Glyph char)
    (hn : turnsLeft data.columns.toNat column wString ≤ n) :
    Trails display Same ([], turnedAll dev display data background n wString out)
      ([], turnedAll dev display.plain data background n wString out₀) := by
  induction n generalizing wString out out₀ column row with
  | zero =>
    cases wString with
    | nil => exact h
    | cons char rest =>
      exact absurd (turnsLeft_cons data.columns.toNat column column char rest) (by omega)
  | succ n ih =>
    cases wString with
    | nil => exact h
    | cons char rest =>
      obtain ⟨column', row', hwrites', hkeeps, hless⟩ := turned_writes dev display hwrites char rest
      have hturn := h.turn laws hwrites htable fun hchar =>
        hglyphs char List.mem_cons_self hchar
      have hglyphs' : ∀ next ∈ (turned dev display data background char rest out).1,
          ¬ IsControl next → Glyph next :=
        fun next hmem => hglyphs next (turned_rest dev display data background char rest out hmem)
      have hleft := Nat.le_of_lt_succ (Nat.lt_of_lt_of_le hless hn)
      unfold turnedAll
      simp only
      rw [show _ = _ from hturn.rest]
      exact ih ⟨rfl, hturn.status, hturn.warning, hturn.console⟩ hwrites'
        (inTable_of_keeps hkeeps htable) hglyphs' hleft

/-- **A string** leaves the cursor on the screen, and no trace. -/
theorem Follows.written (h : Follows display Same true c c₀) (hsound : c.Sound dev maxMode)
    {wString : List UInt16} (hglyphs : ∀ char ∈ wString, ¬ IsControl char → Glyph char) :
    (written dev display.plain wString c₀).1 = (written dev display wString c).1
      ∧ Follows display Same true (written dev display wString c).2
          (written dev display.plain wString c₀).2 := by
  have hcurrent := h.current
  unfold GraphicsConsole.written
  rw [hcurrent]
  split
  · exact ⟨rfl, h⟩
  · rename_i hmode
    obtain ⟨n, hn, heq, husable, column, row, hat, hcolumn, hrow⟩ := hsound.inMode hmode
    have hwrites : (c.flush display).Writes dev (dev.modeData c.current.mode)
        (getTextColors c.current).2 column row :=
      ⟨hmode, rfl, rfl, husable, hat, hcolumn, hrow⟩
    have hstart : Trails display Same (wString, ⟨c.flush display, efiSuccess, false⟩)
        (wString, ⟨c₀.flush display.plain, efiSuccess, false⟩) :=
      ⟨rfl, rfl, rfl, false, h.flush laws, pending_hidden _ _⟩
    have hloop := hstart.outputLoop laws (2 * wString.length + 1) hwrites ⟨n, hn, heq, husable⟩
      hglyphs (turnsLeft_le _ column wString)
    obtain ⟨-, hkeeps, -⟩ := outputLoop_eq dev display 0 0 (2 * wString.length + 1)
      ⟨c.flush display, efiSuccess, false⟩ hwrites (turnsLeft_le _ column wString)
    obtain ⟨shown, hfollows, hpending⟩ := hloop.console
    obtain rfl : shown = false := by
      cases shown with
      | false => rfl
      | true =>
        obtain ⟨-, next, after, hnil, -⟩ := hpending rfl
        exact absurd hnil (List.cons_ne_nil next after).symm
    refine ⟨?_, (hfollows.paint laws _ hkeeps.colors.symm).flush laws⟩
    simp only
    rw [show _ = _ from hloop.warning, show _ = _ from hloop.status]

/-! ## A whole session -/

/-- **The screen is cleared**, and with it the cursor. -/
theorem Follows.clearScreen (h : Follows display Same true c c₀) (hsound : c.Sound dev maxMode) :
    (clearScreen dev display.plain c₀).1 = (clearScreen dev display c).1
      ∧ Follows display Same true (clearScreen dev display c).2
          (clearScreen dev display.plain c₀).2 := by
  obtain ⟨screen, rfl, hsame⟩ := h
  by_cases hmode : c.current.mode = -1
  · have hplain : GraphicsConsole.clearScreen dev display.plain (c.on screen)
        = (efiUnsupported, c.on screen) := if_pos hmode
    have heq : GraphicsConsole.clearScreen dev display c = (efiUnsupported, c) := if_pos hmode
    rw [heq, hplain]
    exact ⟨rfl, screen, rfl, hsame⟩
  · obtain ⟨n, hn, heq, husable, hwindow⟩ := hsound.inMode hmode
    obtain ⟨hstatus, hfilled⟩ := laws.fill_congr (getTextColors c.current).2 (0, 0)
      (dev.modeData c.current.mode).gopWidth (dev.modeData c.current.mode).gopHeight 0 hsame
    obtain ⟨hstatus', hfilled'⟩ := laws.fill_covers c.current (getTextColors c.current).2 screen
      ⟨n, hn, heq, husable⟩ hwindow
    have hhidden := follows_on display c (laws.same.trans hfilled hfilled')
    have hflushed := (hhidden.moveTo 0 0).flush laws
    unfold GraphicsConsole.clearScreen
    rw [if_neg hmode, if_neg (show ¬ (c.on screen).current.mode = -1 from hmode)]
    exact ⟨(hstatus.trans hstatus').symm, hflushed⟩

theorem Follows.setAttribute (h : Follows display Same true c c₀) (textAttribute : UInt32) :
    (setAttribute display.plain textAttribute c₀).1 = (setAttribute display textAttribute c).1
      ∧ Follows display Same true (setAttribute display textAttribute c).2
          (setAttribute display.plain textAttribute c₀).2 := by
  have hcurrent := h.current
  unfold GraphicsConsole.setAttribute
  rw [hcurrent]
  split
  · exact ⟨rfl, h⟩
  · split
    · exact ⟨rfl, h⟩
    · exact ⟨rfl, ((h.flush laws).change fun current =>
        { current with textAttribute := textAttribute.toInt32 }).flush laws⟩

theorem Follows.setCursorPosition (h : Follows display Same true c c₀) (column row : UInt32) :
    (setCursorPosition dev display.plain column row c₀).1
        = (setCursorPosition dev display column row c).1
      ∧ Follows display Same true (setCursorPosition dev display column row c).2
          (setCursorPosition dev display.plain column row c₀).2 := by
  have hcurrent := h.current
  unfold GraphicsConsole.setCursorPosition
  rw [hcurrent]
  split
  · exact ⟨rfl, h⟩
  · simp only
    split
    · exact ⟨rfl, h⟩
    · split
      · exact ⟨rfl, h⟩
      · exact ⟨rfl, ((h.flush laws).moveTo column.toInt32 row.toInt32).flush laws⟩

theorem Follows.enableCursor (h : Follows display Same true c c₀) (visible : Bool) :
    (enableCursor display.plain visible c₀).1 = (enableCursor display visible c).1
      ∧ Follows display Same true (enableCursor display visible c).2
          (enableCursor display.plain visible c₀).2 := by
  have hcurrent := h.current
  unfold GraphicsConsole.enableCursor
  rw [hcurrent]
  split
  · exact ⟨rfl, h⟩
  · exact ⟨rfl, ((h.flush laws).change fun current =>
      { current with cursorVisible := visible }).flush laws⟩

/-- A graphics mode is set on either screen, and not refused. -/
theorem sameAnswer_setGraphicsMode (data : GraphicsConsoleModeData) {screen screen' : σ}
    (h : Same screen screen') :
    SameAnswer Same (setGraphicsMode display data screen)
        (setGraphicsMode display.plain data screen')
      ∧ (setGraphicsMode display data screen).1.efiError = false := by
  have hmode := laws.mode_congr h
  have hplain : display.plain.mode screen' = display.mode screen := hmode.symm
  unfold setGraphicsMode
  rw [hplain]
  split
  · exact ⟨laws.setMode_congr data.gopModeNumber h, laws.setMode_succeeds data.gopModeNumber screen⟩
  · exact ⟨⟨rfl, (laws.fill_congr _ _ _ _ _ h).2⟩, rfl⟩

/-- **The mode is changed**, from the consoles the line buffer of which has been freed. -/
theorem Follows.changeMode {freed freed₀ : Console σ} (h : Follows display Same false freed freed₀)
    (modeNumber : UInt32)
    (hfreed : freed = if c.lineBuffer = .null then c else (c.flush display).freeLineBuffer)
    (hfreed₀ : freed₀
      = if c₀.lineBuffer = .null then c₀ else (c₀.flush display.plain).freeLineBuffer) :
    (changeMode dev display.plain true modeNumber c₀).1
        = (changeMode dev display true modeNumber c).1
      ∧ Follows display Same true (changeMode dev display true modeNumber c).2
          (changeMode dev display.plain true modeNumber c₀).2
      ∧ (changeMode dev display true modeNumber c).2.lineBuffer = .allocated := by
  unfold GraphicsConsole.changeMode
  rw [← hfreed, ← hfreed₀]
  obtain ⟨screen, rfl, hsame⟩ := h
  obtain ⟨⟨hstatus, hscreen⟩, hsucceeds⟩ :=
    sameAnswer_setGraphicsMode laws (dev.modeData modeNumber.toInt32) hsame
  have hsucceeds₀ : (setGraphicsMode display.plain (dev.modeData modeNumber.toInt32)
      (freed.on screen).screen).1.efiError = false := hstatus ▸ hsucceeds
  simp only [Bool.not_true, Bool.false_eq_true, if_false, hsucceeds, hsucceeds₀]
  have hentered := follows_on display { freed with lineBuffer := .allocated } hscreen
  exact ⟨trivial, (hentered.change fun current =>
    { current with mode := modeNumber.toInt32, cursorColumn := 0, cursorRow := 0 }).flush laws, rfl⟩

/-- **A mode is set**, where there is memory for its line buffer. -/
theorem Follows.setMode (h : Follows display Same true c c₀) (hsound : c.Sound dev maxMode)
    (hbuffer : c.lineBuffer = .allocated) (modeNumber : UInt32) :
    (setMode dev maxMode display.plain true modeNumber c₀).1
        = (setMode dev maxMode display true modeNumber c).1
      ∧ Follows display Same true (setMode dev maxMode display true modeNumber c).2
          (setMode dev maxMode display.plain true modeNumber c₀).2
      ∧ (setMode dev maxMode display true modeNumber c).2.lineBuffer = .allocated := by
  have hnull : c.lineBuffer ≠ .null :=
    fun hnull => LineBuffer.noConfusion (hbuffer.symm.trans hnull)
  have hbuffer₀ : c₀.lineBuffer = c.lineBuffer := by
    obtain ⟨screen, rfl, -⟩ := h
    rfl
  obtain ⟨hstatus, hcleared⟩ := h.clearScreen laws hsound
  have hchanged := (h.flush laws).freeLineBuffer.changeMode laws modeNumber (if_neg hnull).symm
    (if_neg (hbuffer₀ ▸ hnull)).symm
  unfold GraphicsConsole.setMode
  rw [h.current, hbuffer₀]
  split
  · exact ⟨rfl, h, hbuffer⟩
  · split
    · exact ⟨rfl, h, hbuffer⟩
    · split
      · exact ⟨rfl, hcleared, (keepsBuffer_clearScreen dev display c).1.trans hbuffer⟩
      · exact hchanged

omit laws in
/-- Every character of the call that is drawn has a glyph. -/
def Call.Drawn (Glyph : UInt16 → Prop) : Call → Prop
  | .outputString wString => ∀ char ∈ wString, ¬ IsControl char → Glyph char
  | _ => True

/-- **One call** keeps the two consoles together. -/
theorem Follows.answered (h : Follows display Same true c c₀) (hsound : c.Sound dev maxMode)
    (hbuffer : c.lineBuffer = .allocated) {call : Call} (hgranted : call.granted = true)
    (hdrawn : call.Drawn Glyph) :
    (answered dev maxMode display.plain c₀ call).1 = (answered dev maxMode display c call).1
      ∧ Follows display Same true (answered dev maxMode display c call).2
          (answered dev maxMode display.plain c₀ call).2
      ∧ (answered dev maxMode display c call).2.lineBuffer = .allocated := by
  cases call with
  | reset granted =>
    obtain rfl : granted = true := hgranted
    obtain ⟨hstatus, hset, hallocated⟩ := h.setMode laws hsound hbuffer 0
    show (reset dev maxMode display.plain true c₀).1 = (reset dev maxMode display true c).1
      ∧ Follows display Same true (reset dev maxMode display true c).2
          (reset dev maxMode display.plain true c₀).2
      ∧ (reset dev maxMode display true c).2.lineBuffer = .allocated
    unfold reset
    simp only
    rw [hstatus, hset.current]
    split
    · exact ⟨hstatus, hset, hallocated⟩
    · obtain ⟨hstatus', hattribute⟩ := hset.setAttribute laws
        ((GraphicsConsole.setMode dev maxMode display true 0 c).2.current.textAttribute
          &&& 0x0F).toUInt32
      exact ⟨hstatus', hattribute, (keepsBuffer_setAttribute display _ _).1.trans hallocated⟩
  | outputString wString =>
    obtain ⟨hstatus, hwritten⟩ := h.written laws hsound hdrawn
    exact ⟨hstatus, hwritten, (keepsBuffer_written display hsound wString).1.trans hbuffer⟩
  | setMode modeNumber granted =>
    obtain rfl : granted = true := hgranted
    exact h.setMode laws hsound hbuffer modeNumber
  | setAttribute textAttribute =>
    obtain ⟨hstatus, hattribute⟩ := h.setAttribute laws textAttribute
    exact ⟨hstatus, hattribute, (keepsBuffer_setAttribute display textAttribute c).1.trans hbuffer⟩
  | clearScreen =>
    obtain ⟨hstatus, hcleared⟩ := h.clearScreen laws hsound
    exact ⟨hstatus, hcleared, (keepsBuffer_clearScreen dev display c).1.trans hbuffer⟩
  | setCursorPosition column row =>
    obtain ⟨hstatus, hmoved⟩ := h.setCursorPosition laws column row
    exact ⟨hstatus, hmoved,
      (keepsBuffer_setCursorPosition dev display column row c).1.trans hbuffer⟩
  | enableCursor visible =>
    obtain ⟨hstatus, hcursor⟩ := h.enableCursor laws visible
    exact ⟨hstatus, hcursor, (keepsBuffer_enableCursor display visible c).1.trans hbuffer⟩

/-- **A sequence of calls** keeps the two consoles together, and is answered by both in
the same way. -/
theorem Follows.calls (h : Follows display Same true c c₀) (hsound : c.Sound dev maxMode)
    (husable : dev.UsableModes maxMode) (hbuffer : c.lineBuffer = .allocated) {calls : List Call}
    (hgranted : ∀ call ∈ calls, call.granted = true) (hdrawn : ∀ call ∈ calls, call.Drawn Glyph) :
    Run.outputs (GraphicsConsole.answered dev maxMode display) c calls
        = Run.outputs (GraphicsConsole.answered dev maxMode display.plain) c₀ calls
      ∧ Follows display Same true
          (Run.run (Run.next (GraphicsConsole.answered dev maxMode display)) c calls)
          (Run.run (Run.next (GraphicsConsole.answered dev maxMode display.plain)) c₀ calls) := by
  induction calls generalizing c c₀ with
  | nil => exact ⟨rfl, h⟩
  | cons call calls ih =>
    obtain ⟨hstatus, hnext, hbuffer'⟩ := h.answered laws hsound hbuffer
      (hgranted call List.mem_cons_self) (hdrawn call List.mem_cons_self)
    obtain ⟨hstatuses, hlast⟩ := ih hnext (hsound.answer display husable call).2 hbuffer'
      (fun next hmem => hgranted next (List.mem_cons_of_mem _ hmem))
      (fun next hmem => hdrawn next (List.mem_cons_of_mem _ hmem))
    refine ⟨?_, hlast⟩
    unfold Run.outputs
    rw [hstatus, hstatuses]

/-- **The cursor leaves no trace.** Once a mode is set, and as long as there is memory for
the line buffers, a session on the display is one on the display without a cursor: it gets
the same answers, and its screen is the other with the cursor on it. -/
theorem cursor_leaves_no_trace (husable : dev.UsableModes maxMode) {modeNumber : UInt32}
    (hlt : modeNumber < maxMode) (hblank : ¬ (dev.modeData modeNumber.toInt32).IsBlank)
    {calls : List Call} (hgranted : ∀ call ∈ calls, call.granted = true)
    (hdrawn : ∀ call ∈ calls, call.Drawn Glyph) (screen : σ) :
    ∃ c c₀, session dev maxMode display screen (.setMode modeNumber true :: calls) = some c
      ∧ session dev maxMode display.plain screen (.setMode modeNumber true :: calls) = some c₀
      ∧ c.current = c₀.current
      ∧ Same c.screen (display.flushCursor c.current c₀.screen)
      ∧ Run.outputs (GraphicsConsole.answered dev maxMode display) (startedConsole screen)
            (.setMode modeNumber true :: calls)
          = Run.outputs (GraphicsConsole.answered dev maxMode display.plain) (startedConsole screen)
              (.setMode modeNumber true :: calls) := by
  have hstart : (startedConsole screen).Sound dev maxMode := sound_startedConsole screen
  obtain ⟨hrun, -⟩ := hstart.calls display husable (.setMode modeNumber true :: calls)
  obtain ⟨hrun₀, -⟩ := hstart.calls display.plain husable (.setMode modeNumber true :: calls)
  have hset : ∀ display' : Display σ,
      GraphicsConsole.setMode dev maxMode display' true modeNumber (startedConsole screen)
        = GraphicsConsole.changeMode dev display' true modeNumber (startedConsole screen) := by
    intro display'
    unfold GraphicsConsole.setMode
    rw [if_neg (UInt32.not_le.mpr hlt), if_neg hblank, if_neg fun hsame => hsame.1 rfl]
  have hnull : ∀ display' : Display σ, startedConsole screen
      = if (startedConsole screen).lineBuffer = .null then startedConsole screen
        else ((startedConsole screen).flush display').freeLineBuffer := fun _ => (if_pos rfl).symm
  have hfirst := (follows_on display (startedConsole screen) (laws.same.refl screen)).changeMode
    laws modeNumber (hnull display) (hnull display.plain)
  rw [← hset display, ← hset display.plain] at hfirst
  obtain ⟨hstatus, hfollows, hbuffer⟩ := hfirst
  obtain ⟨hstatuses, hlast⟩ := hfollows.calls laws (hstart.setMode husable true modeNumber) husable
    hbuffer hgranted hdrawn
  refine ⟨_, _, hrun, hrun₀, hlast.current.symm, ?_, ?_⟩
  · obtain ⟨screen₀, heq, hsame⟩ := hlast
    rw [show (Run.run (Run.next (GraphicsConsole.answered dev maxMode display.plain))
      (startedConsole screen) (.setMode modeNumber true :: calls)).screen = screen₀ from
        congrArg Console.screen heq]
    exact hsame
  · unfold Run.outputs
    exact congrArg₂ List.cons hstatus.symm hstatuses

end

end GraphicsConsole
