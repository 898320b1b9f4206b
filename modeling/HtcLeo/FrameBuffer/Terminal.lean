import HtcLeo.FrameBuffer.Glyph

/-!
# The serial console as a terminal

What a console of rows and columns is for is said without pointers and loops: a
`Terminal` has a cell its cursor is in, and a picture of the screen. A character
is drawn in the cell and the cursor goes on to the next, a new line goes to the
next row, and behind the last row an empty page is begun.

One pass of the routine does what the terminal does (`paint_shows`). The routine
differs where it begins a page: it goes back to its first line with the same
character in hand, and the character is seen to once more. A new line at the end of
the page leaves the first row of the next page empty, and a character in the last
cell of the page is drawn twice; only a space, which is not drawn at the start of a
row, is not seen twice (`serialPortWrite_shows`).
-/

namespace FrameBufferSerialPort

/-! ## The terminal -/

/-- The rows of a page. -/
def pageRows : ℕ := 25

/-- The columns of a page. -/
def pageColumns : ℕ := 40

/-- **A terminal**: its cursor, which is on the page, and what it shows. -/
structure Terminal where
  row : ℕ
  column : ℕ
  screen : Picture
  row_lt : row < pageRows
  column_lt : column < pageColumns

/-- The character is one that is drawn. -/
def Printable (c : UInt8) : Prop := 32 ≤ c ∧ c ≤ 127

instance (c : UInt8) : Decidable (Printable c) := inferInstanceAs (Decidable (32 ≤ c ∧ c ≤ 127))

/-- Control characters are not drawn. -/
theorem Printable.not_control {c : UInt8} (h : Printable c) : c ≠ 10 ∧ c ≠ 13 :=
  ⟨fun heq => absurd (heq ▸ h) (by decide), fun heq => absurd (heq ▸ h) (by decide)⟩

namespace Terminal

/-- The next row, or the first of an empty page. -/
def nextRow (t : Terminal) : Terminal :=
  if h : t.row + 1 < pageRows then
    { row := t.row + 1, column := 0, screen := t.screen, row_lt := h, column_lt := by decide }
  else
    { row := 0, column := 0, screen := .black, row_lt := by decide, column_lt := by decide }

/-- The next column, or the first of the next row. -/
def advance (t : Terminal) : Terminal :=
  if h : t.column + 1 < pageColumns then { t with column := t.column + 1, column_lt := h }
  else t.nextRow

/-- The terminal with a character in the cell of its cursor. -/
def draw (foreground background : UInt16) (c : UInt8) (t : Terminal) : Terminal :=
  { t with screen := t.screen.drawn foreground background c t.column t.row }

/-- **A character.** A space at the start of a row is not drawn. -/
def put (foreground background : UInt16) (c : UInt8) (t : Terminal) : Terminal :=
  if c = 10 then t.nextRow
  else if c = 13 then { t with column := 0, column_lt := by decide }
  else if Printable c ∧ ¬ (t.column = 0 ∧ c = 32) then (t.draw foreground background c).advance
  else t

/-- The colour of the text in a call. -/
def foreground (critical : Bool) : UInt16 := if critical then 0xffe0 else 0xffff

/-- Characters one after the other, each with the kind of its call. -/
def putAll (l : List (Bool × UInt8)) (t : Terminal) : Terminal :=
  l.foldl (fun t c => t.put (foreground c.1) 0 c.2) t

/-- The start of a page. -/
def start (screen : Picture) : Terminal where
  row := 0
  column := 0
  screen := screen
  row_lt := by decide
  column_lt := by decide

/-- **The character ends the page**: it is a new line on the last row, or it is drawn
in the last cell. -/
def EndsPage (t : Terminal) (c : UInt8) : Prop :=
  t.row + 1 = pageRows ∧ (c = 10 ∨ Printable c ∧ t.column + 1 = pageColumns)

instance (t : Terminal) (c : UInt8) : Decidable (t.EndsPage c) :=
  inferInstanceAs (Decidable (_ ∧ (_ ∨ _ ∧ _)))

/-- No page is ended by anything but a space. -/
def KeepsPage (t : Terminal) (c : UInt8) : Prop := t.EndsPage c → c = 32

instance (t : Terminal) (c : UInt8) : Decidable (t.KeepsPage c) :=
  inferInstanceAs (Decidable (_ → _))

/-- Nor by any of the characters, each where it is reached. -/
def AllKeepPage : List (Bool × UInt8) → Terminal → Prop
  | [], _ => True
  | c :: l, t => t.KeepsPage c.2 ∧ AllKeepPage l (t.put (foreground c.1) 0 c.2)

instance decidableAllKeepPage :
    (l : List (Bool × UInt8)) → (t : Terminal) → Decidable (AllKeepPage l t)
  | [], _ => inferInstanceAs (Decidable True)
  | c :: l, t =>
    have := decidableAllKeepPage l (t.put (foreground c.1) 0 c.2)
    inferInstanceAs (Decidable (t.KeepsPage c.2 ∧ AllKeepPage l (t.put (foreground c.1) 0 c.2)))

theorem allKeepPage_append {l l' : List (Bool × UInt8)} {t : Terminal} :
    AllKeepPage (l ++ l') t ↔ AllKeepPage l t ∧ AllKeepPage l' (t.putAll l) := by
  induction l generalizing t with
  | nil => exact iff_of_eq (true_and _).symm
  | cons c l ih => exact (and_congr_right' ih).trans and_assoc.symm

theorem nextRow_of_last {t : Terminal} (h : t.row + 1 = pageRows) : t.nextRow = start .black :=
  dif_neg (by rw [h]; exact Nat.lt_irrefl _)

section

variable {t : Terminal} {foreground background : UInt16} {c : UInt8}

/-- A character that is not drawn and does not move the cursor. -/
theorem put_other (hten : c ≠ 10) (hreturn : c ≠ 13)
    (hnot : ¬ (Printable c ∧ ¬ (t.column = 0 ∧ c = 32))) : t.put foreground background c = t := by
  unfold put
  rw [if_neg hten, if_neg hreturn, if_neg hnot]

/-- A character that is drawn. -/
theorem put_drawn (hc : Printable c) (hspace : ¬ (t.column = 0 ∧ c = 32)) :
    t.put foreground background c = (t.draw foreground background c).advance := by
  obtain ⟨hten, hreturn⟩ := hc.not_control
  unfold put
  rw [if_neg hten, if_neg hreturn, if_pos ⟨hc, hspace⟩]

/-- A character that ends the page leaves an empty one. -/
theorem put_of_endsPage (h : t.EndsPage c) : t.put foreground background c = start .black := by
  obtain ⟨hrow, rfl | ⟨hc, hcolumn⟩⟩ := h
  · exact nextRow_of_last hrow
  · rw [put_drawn hc fun hspace => absurd (hspace.1 ▸ hcolumn) (by decide)]
    refine (dif_neg ?_).trans (nextRow_of_last hrow)
    show ¬ t.column + 1 < pageColumns
    rw [hcolumn]
    exact Nat.lt_irrefl _

/-- **The character once more**, on the empty page: only a space is not seen. -/
theorem put_start_iff (h : t.EndsPage c) :
    ((start .black).put foreground background c).row = 0
        ∧ ((start .black).put foreground background c).column = 0 ↔ c = 32 := by
  constructor
  · rintro ⟨hrow, hcolumn⟩
    obtain ⟨-, rfl | ⟨hc, -⟩⟩ := h
    · exact absurd (show (1 : ℕ) = 0 from hrow) (by decide)
    · by_contra hspace
      rw [put_drawn hc fun h => hspace h.2] at hcolumn
      exact absurd (show (1 : ℕ) = 0 from hcolumn) (by decide)
  · rintro rfl
    exact ⟨rfl, rfl⟩

end

end Terminal

/-- The characters of a number of calls, each with the kind of its call. -/
def characters (calls : List (Bool × List (UInt8 × Bool))) : List (Bool × UInt8) :=
  calls.flatMap fun call => call.2.map fun byte => (call.1, byte.1)

/-- **The console shows what the terminal does**: its cursor is in the same cell,
and all pixels of the screen have the same colours. -/
structure Shows (s : FbCon) (t : Terminal) : Prop where
  column : s.position.x = t.column
  row : s.position.y = t.row
  screen : ∀ x < 240, ∀ y < 320, pixel s.memory x y = t.screen x y

/-- The console between two characters, with its colours. -/
structure Running (color : FbConColor) (s : FbCon) : Prop where
  initialized : s.initialized = true
  maxPosition : s.maxPosition = ⟨40, 26⟩
  color_eq : s.color = color
  font : s.memory.bytes .font = fontBytes

section

variable {color : FbConColor} {s : FbCon} {t : Terminal}

/-- Interrupts are no matter of what is shown. -/
theorem Running.enableIf (h : Running color s) (hs : Shows s t) (state : Bool) :
    Running color (enableIf state s) ∧ Shows (enableIf state s) t := by
  unfold FrameBufferSerialPort.enableIf
  split
  · exact ⟨⟨h.initialized, h.maxPosition, h.color_eq, h.font⟩, ⟨hs.column, hs.row, hs.screen⟩⟩
  · exact ⟨h, hs⟩

/-- **The next row**, for the console and the terminal. -/
theorem newline_shows (h : Running color s) (hrow : s.position.y = t.row)
    (hscreen : ∀ x < 240, ∀ y < 320, pixel s.memory x y = t.screen x y) (intstate : Bool) :
    Running color (newline defaultScaleFactor intstate s).1
      ∧ Shows (newline defaultScaleFactor intstate s).1 t.nextRow
      ∧ ((newline defaultScaleFactor intstate s).2 = true ↔ t.row + 1 = pageRows) := by
  have hlt : t.row < 25 := t.row_lt
  have hpage : pageRows = 25 := rfl
  have hnext : UInt32.ofInt s.position.y + defaultScaleFactor = UInt32.ofNat (t.row + 1) := by
    rw [hrow, ofInt_natCast, UInt32.ofNat_add]
    rfl
  have hlast : UInt32.ofInt s.maxPosition.y - defaultScaleFactor = 25 := by
    rw [h.maxPosition]
    rfl
  have hwrap : (UInt32.ofNat (t.row + 1) ≥ 25) ↔ 25 ≤ t.row + 1 := by
    rw [ge_iff_le, UInt32.le_iff_toNat_le, UInt32.toNat_ofNat', Nat.mod_eq_of_lt (by omega)]
    rfl
  have hposition : asInt (UInt32.ofNat (t.row + 1)) = t.row + 1 := asInt_ofNat (by omega)
  obtain ⟨hblack, hfont⟩ := resetFb_painting (f := pixel s.memory) (m := s.memory)
    ⟨rfl, fun _ _ _ _ => rfl, h.font⟩
  unfold newline
  dsimp only
  rw [hnext, hlast, hposition]
  generalize resetFb s.memory = screen at hblack hfont ⊢
  split
  · rename_i hend
    have hyend := hwrap.mp hend
    have hempty : t.nextRow = .start .black := Terminal.nextRow_of_last (by omega)
    have hcleared : Running color { s with position := ⟨0, 0⟩, memory := screen } :=
      ⟨h.initialized, h.maxPosition, h.color_eq, hfont⟩
    obtain ⟨hrunning, hshows⟩ := hcleared.enableIf (t := .start .black)
      ⟨rfl, rfl, fun x hx y hy => hblack x hx y hy⟩ intstate
    rw [hempty]
    exact ⟨hrunning, hshows, iff_of_true rfl (by omega)⟩
  · rename_i hend
    have hyend := mt hwrap.mpr hend
    have hmove : t.nextRow = ⟨t.row + 1, 0, t.screen, by omega, by decide⟩ := dif_pos (by omega)
    have hmoved : Running color { s with position := ⟨0, (t.row : ℤ) + 1⟩ } :=
      ⟨h.initialized, h.maxPosition, h.color_eq, h.font⟩
    obtain ⟨hrunning, hshows⟩ := hmoved.enableIf
      (t := ⟨t.row + 1, 0, t.screen, by omega, by decide⟩) ⟨rfl, by simp, hscreen⟩ intstate
    rw [hmove]
    exact ⟨hrunning, hshows, iff_of_false Bool.false_ne_true (by omega)⟩

/-- The cell under the cursor, drawn. -/
theorem drawn_shows (h : Running color s) (hs : Shows s t) {c : UInt8} (hc : Printable c) :
    ∃ memory, fbConDrawglyph s.color
        (frameBufferAddress + UInt32.ofInt s.position.y * (gBpp / 8 * fontHeight * gWidth)
          + UInt32.ofInt s.position.x * defaultScaleFactor * (gBpp / 8 * (fontWidth + 1)))
        gWidth (gBpp / 8) ((c.toUInt32 - 32) * 2) defaultScaleFactor s.memory = memory
      ∧ memory.bytes .font = fontBytes
      ∧ ∀ x < 240, ∀ y < 320, pixel memory x y = t.screen.drawn color.foreground.toUInt16
          color.background.toUInt16 c t.column t.row x y := by
  have hstart : Painting (240 * (12 * t.row) + 6 * t.column) t.screen
      (frameBufferAddress + UInt32.ofNat (t.row * 5760 + t.column * 12), s.memory) := by
    refine ⟨?_, hs.screen, h.font⟩
    rw [show t.row * 5760 + t.column * 12 = 2 * (240 * (12 * t.row) + 6 * t.column) by omega]
  obtain ⟨hdrawn, hfont⟩ := drawglyph_painting hstart t.column_lt t.row_lt
    (UInt8.le_iff_toNat_le.mp hc.1) (UInt8.le_iff_toNat_le.mp hc.2) s.color
  rw [hs.column, hs.row, cellAddress]
  rw [h.color_eq] at hdrawn hfont ⊢
  exact ⟨_, rfl, hfont, hdrawn⟩

/-- A character that is drawn, and what comes after it. -/
theorem paint_shows_drawn (h : Running color s) (hs : Shows s t) {c : UInt8} (hc : Printable c)
    (hspace : ¬ (t.column = 0 ∧ c = 32)) (intstate : Bool) :
    Running color (paint c .common defaultScaleFactor intstate s).1
      ∧ Shows (paint c .common defaultScaleFactor intstate s).1
        (t.put color.foreground.toUInt16 color.background.toUInt16 c)
      ∧ ((paint c .common defaultScaleFactor intstate s).2.1 = true ↔ t.EndsPage c) := by
  obtain ⟨memory, hmemory, hfont, hdrawn⟩ := drawn_shows h hs hc
  have hend : asInt (UInt32.ofInt s.maxPosition.x / defaultScaleFactor) = 40 := by
    rw [h.maxPosition]
    rfl
  have hskip : ¬ (s.position.x = 0 ∧ c = 32 ∧ FbConMsgType.common ≠ .subtitle
      ∧ FbConMsgType.common ≠ .title) := by
    rintro ⟨hcolumn, heq, -⟩
    exact hspace ⟨by rw [hs.column] at hcolumn; exact_mod_cast hcolumn, heq⟩
  have hlt : t.column < 40 := t.column_lt
  have hpage : pageColumns = 40 := rfl
  have hwrap : s.position.x + 1 ≥ 40 ↔ t.column + 1 = pageColumns := by
    rw [hs.column]
    omega
  have hrunning : Running color { armDisableInterrupts s with
      memory := memory, position := ⟨s.position.x + 1, s.position.y⟩ } :=
    ⟨h.initialized, h.maxPosition, h.color_eq, hfont⟩
  unfold paint
  rw [if_neg (UInt8.not_lt.mpr hc.2), if_neg (UInt8.not_lt.mpr hc.1), if_neg hskip,
    Terminal.put_drawn hc hspace]
  dsimp only [armDisableInterrupts]
  rw [hend, hmemory]
  by_cases hlast : t.column + 1 = pageColumns
  · rw [if_pos (hwrap.mpr hlast)]
    obtain ⟨hnext, hshows, hback⟩ := newline_shows
      (t := t.draw color.foreground.toUInt16 color.background.toUInt16 c) hrunning hs.row hdrawn
      s.interrupts
    have hadvance : (t.draw color.foreground.toUInt16 color.background.toUInt16 c).advance
        = (t.draw color.foreground.toUInt16 color.background.toUInt16 c).nextRow :=
      dif_neg (show ¬ t.column + 1 < pageColumns by omega)
    rw [hadvance]
    exact ⟨hnext, hshows, hback.trans (and_iff_left (Or.inr ⟨hc, hlast⟩)).symm⟩
  · rw [if_neg (mt hwrap.mp hlast)]
    have hroom : t.column + 1 < pageColumns := by omega
    obtain ⟨hleft, hshows⟩ := hrunning.enableIf
      (t := ⟨t.row, t.column + 1, t.screen.drawn color.foreground.toUInt16
        color.background.toUInt16 c t.column t.row, t.row_lt, hroom⟩)
      ⟨by simp [hs.column], hs.row, hdrawn⟩ s.interrupts
    have hadvance : (t.draw color.foreground.toUInt16 color.background.toUInt16 c).advance
        = ⟨t.row, t.column + 1, t.screen.drawn color.foreground.toUInt16
          color.background.toUInt16 c t.column t.row, t.row_lt, hroom⟩ := dif_pos hroom
    rw [hadvance]
    refine ⟨hleft, hshows, iff_of_false Bool.false_ne_true fun hends => ?_⟩
    exact hlast (hends.2.resolve_left hc.not_control.1).2

/-- **One pass of the routine** does what the terminal does, and goes back just when
the character ends the page. -/
theorem paint_shows (h : Running color s) (hs : Shows s t) (c : UInt8) (intstate : Bool) :
    Running color (paint c .common defaultScaleFactor intstate s).1
      ∧ Shows (paint c .common defaultScaleFactor intstate s).1
        (t.put color.foreground.toUInt16 color.background.toUInt16 c)
      ∧ ((paint c .common defaultScaleFactor intstate s).2.1 = true ↔ t.EndsPage c) := by
  by_cases hc : Printable c
  · by_cases hspace : t.column = 0 ∧ c = 32
    · -- a space at the start of a row
      have hskip : s.position.x = 0 ∧ c = 32 ∧ FbConMsgType.common ≠ .subtitle
          ∧ FbConMsgType.common ≠ .title :=
        ⟨by rw [hs.column, hspace.1]; rfl, hspace.2, by decide, by decide⟩
      have hnot : ¬ t.EndsPage c := fun hend => by
        have hlast := (hend.2.resolve_left hc.not_control.1).2
        rw [hspace.1] at hlast
        exact absurd hlast (by decide)
      unfold paint
      rw [if_neg (UInt8.not_lt.mpr hc.2), if_neg (UInt8.not_lt.mpr hc.1), if_pos hskip,
        Terminal.put_other hc.not_control.1 hc.not_control.2 fun hdrawn => hdrawn.2 hspace]
      exact ⟨h, hs, iff_of_false Bool.false_ne_true hnot⟩
    · exact paint_shows_drawn h hs hc hspace intstate
  · have hother : c ≠ 10 → ¬ t.EndsPage c := fun hten hend =>
      hend.2.elim hten fun hlast => hc hlast.1
    unfold paint
    split
    · -- above the characters of the font
      rename_i hhigh
      have hten : c ≠ 10 := fun heq => absurd (heq ▸ hhigh) (by decide)
      have hreturn : c ≠ 13 := fun heq => absurd (heq ▸ hhigh) (by decide)
      rw [Terminal.put_other hten hreturn fun hdrawn => hc hdrawn.1]
      exact ⟨h, hs, iff_of_false Bool.false_ne_true (hother hten)⟩
    · rename_i hhigh
      have hlow : c < 32 := UInt8.not_le.mp fun hle => hc ⟨hle, UInt8.not_lt.mp hhigh⟩
      rw [if_pos hlow]
      split
      · rename_i hten
        obtain ⟨hrunning, hshows, hback⟩ := newline_shows h hs.row hs.screen intstate
        have hput : t.put color.foreground.toUInt16 color.background.toUInt16 c = t.nextRow :=
          if_pos hten
        rw [hput]
        exact ⟨hrunning, hshows, hback.trans (and_iff_left (Or.inl hten)).symm⟩
      · rename_i hten
        split
        · rename_i hreturn
          have hput : t.put color.foreground.toUInt16 color.background.toUInt16 c
              = ⟨t.row, 0, t.screen, t.row_lt, by decide⟩ := by
            rw [hreturn]
            rfl
          rw [hput]
          exact ⟨⟨h.initialized, h.maxPosition, h.color_eq, h.font⟩, ⟨rfl, hs.row, hs.screen⟩,
            iff_of_false Bool.false_ne_true (hother hten)⟩
        · rename_i hreturn
          rw [Terminal.put_other hten hreturn fun hdrawn => hc hdrawn.1]
          exact ⟨h, hs, iff_of_false Bool.false_ne_true (hother hten)⟩

/-- **A character**: once, or twice where it ends the page. -/
theorem putChar_shows (h : Running color s) (hs : Shows s t) (fuel : ℕ) (c : UInt8)
    (intstate : Bool) :
    ∃ s', fbConPutCharWithFactor (fuel + 2) c .common defaultScaleFactor intstate s = some s'
      ∧ Running color s'
      ∧ (¬ t.EndsPage c →
        Shows s' (t.put color.foreground.toUInt16 color.background.toUInt16 c))
      ∧ (t.EndsPage c → Shows s' ((Terminal.start .black).put color.foreground.toUInt16
        color.background.toUInt16 c)) := by
  obtain ⟨hfirst, hfirstShows, hback⟩ := paint_shows h hs c intstate
  unfold fbConPutCharWithFactor
  rw [h.initialized]
  show ∃ s', paintAgain c .common defaultScaleFactor (fuel + 2) intstate s = some s' ∧ _
  rw [paintAgain]
  split
  · rename_i hagain
    have hends := hback.mp hagain
    rw [Terminal.put_of_endsPage hends] at hfirstShows
    -- the second pass, on the first row of the empty page
    obtain ⟨hsecond, hsecondShows, hnever⟩ := paint_shows hfirst hfirstShows c
      (paint c .common defaultScaleFactor intstate s).2.2
    have hrow : ¬ (Terminal.start .black).EndsPage c := fun hend => absurd hend.1 (by decide)
    rw [paintAgain, if_neg fun hthird => hrow (hnever.mp hthird)]
    exact ⟨_, rfl, hsecond, fun hnot => absurd hends hnot, fun _ => hsecondShows⟩
  · rename_i hagain
    exact ⟨_, rfl, hfirst, fun _ => hfirstShows, fun hends => absurd (hback.mpr hends) hagain⟩

/-- A character that is no more than a space at the end of a page. -/
theorem putChar_of_keepsPage (h : Running color s) (hs : Shows s t) (fuel : ℕ) {c : UInt8}
    (hkeeps : t.KeepsPage c) (intstate : Bool) :
    ∃ s', fbConPutCharWithFactor (fuel + 2) c .common defaultScaleFactor intstate s = some s'
      ∧ Running color s'
      ∧ Shows s' (t.put color.foreground.toUInt16 color.background.toUInt16 c) := by
  obtain ⟨s', hs', hrunning, honce, htwice⟩ := putChar_shows h hs fuel c intstate
  refine ⟨s', hs', hrunning, ?_⟩
  by_cases hends : t.EndsPage c
  · have hspace := hkeeps hends
    have hagain := htwice hends
    rw [Terminal.put_of_endsPage hends]
    subst hspace
    rwa [Terminal.put_other (by decide) (by decide) fun hdrawn => hdrawn.2 ⟨rfl, rfl⟩] at hagain
  · exact honce hends

/-- **Where a character is shown as by the terminal.** -/
theorem putChar_shows_iff (h : Running color s) (hs : Shows s t) (fuel : ℕ) (c : UInt8)
    (intstate : Bool) :
    (∃ s', fbConPutCharWithFactor (fuel + 2) c .common defaultScaleFactor intstate s = some s'
        ∧ Shows s' (t.put color.foreground.toUInt16 color.background.toUInt16 c))
      ↔ t.KeepsPage c := by
  constructor
  · rintro ⟨s', hs', hshows⟩ hends
    obtain ⟨s'', hs'', -, -, htwice⟩ := putChar_shows h hs fuel c intstate
    cases hs'.symm.trans hs''
    rw [Terminal.put_of_endsPage hends] at hshows
    refine (Terminal.put_start_iff hends).mp
      ⟨Int.ofNat.inj ((htwice hends).row.symm.trans hshows.row),
        Int.ofNat.inj ((htwice hends).column.symm.trans hshows.column)⟩
  · intro hkeeps
    obtain ⟨s', hs', -, hshows⟩ := putChar_of_keepsPage h hs fuel hkeeps intstate
    exact ⟨s', hs', hshows⟩

end

/-! ## Buffers and calls -/

/-- The colours in a call. -/
def textColor (critical : Bool) : FbConColor :=
  ⟨if critical then fbRgb565Yellow else fbRgb565White, fbRgb565Black⟩

theorem foreground_textColor (critical : Bool) :
    (textColor critical).foreground.toUInt16 = Terminal.foreground critical
      ∧ (textColor critical).background.toUInt16 = 0 := by
  cases critical <;> exact ⟨rfl, rfl⟩

section

variable {s : FbCon} {t : Terminal}

theorem enterWrite_shows (h : Running (textColor false) s) (hs : Shows s t) (critical : Bool) :
    Running (textColor critical) (enterWrite critical s) ∧ Shows (enterWrite critical s) t := by
  have hshows : Shows (enterWrite critical s) t := by
    cases critical <;> exact ⟨hs.column, hs.row, hs.screen⟩
  refine ⟨?_, hshows⟩
  cases critical with
  | false => exact ⟨h.initialized, h.maxPosition, h.color_eq, h.font⟩
  | true =>
    have hcolor : (enterWrite true s).color = textColor true := by
      show FbConColor.mk fbRgb565Yellow s.color.background = _
      rw [h.color_eq]
      rfl
    exact ⟨h.initialized, h.maxPosition, hcolor, h.font⟩

theorem leaveWrite_shows {before : FbCon} (hbefore : before.color = textColor false)
    {critical : Bool} (h : Running (textColor critical) s) (hs : Shows s t) :
    Running (textColor false) (leaveWrite critical before s)
      ∧ Shows (leaveWrite critical before s) t := by
  cases critical with
  | false => exact h.enableIf hs _
  | true =>
    have hcolor : FbConColor.mk before.color.foreground s.color.background = textColor false := by
      rw [hbefore, h.color_eq]
      rfl
    have hrestored : Running (textColor false)
        { s with color := ⟨before.color.foreground, s.color.background⟩ } :=
      ⟨h.initialized, h.maxPosition, hcolor, h.font⟩
    exact hrestored.enableIf ⟨hs.column, hs.row, hs.screen⟩ _

/-- The bytes of a buffer, one after the other. -/
theorem writeBytes_shows (fuel : ℕ) (critical : Bool) (buffer : List (UInt8 × Bool))
    (h : Running (textColor critical) s) (hs : Shows s t)
    (hkeeps : Terminal.AllKeepPage (buffer.map fun byte => (critical, byte.1)) t) :
    ∃ s', writeBytes (fuel + 2) buffer s = some s' ∧ Running (textColor critical) s'
      ∧ Shows s' (t.putAll (buffer.map fun byte => (critical, byte.1))) := by
  induction buffer generalizing s t with
  | nil => exact ⟨s, rfl, h, hs⟩
  | cons byte buffer ih =>
    obtain ⟨hfirst, hrest⟩ := hkeeps
    obtain ⟨s', hs', hrunning, hshows⟩ := putChar_of_keepsPage h hs fuel hfirst byte.2
    obtain ⟨hforeground, hbackground⟩ := foreground_textColor critical
    rw [hforeground, hbackground] at hshows
    rw [writeBytes, hs']
    exact ih hrunning hshows hrest

/-- **A call.** -/
theorem serialPortWrite_of_keepsPage (fuel : ℕ) (critical : Bool) (buffer : List (UInt8 × Bool))
    (h : Running (textColor false) s) (hs : Shows s t)
    (hkeeps : Terminal.AllKeepPage (buffer.map fun byte => (critical, byte.1)) t) :
    ∃ s', serialPortWrite (fuel + 2) critical buffer s = some s' ∧ Running (textColor false) s'
      ∧ Shows s' (t.putAll (buffer.map fun byte => (critical, byte.1))) := by
  obtain ⟨hentered, henteredShows⟩ := enterWrite_shows h hs critical
  obtain ⟨s', hs', hrunning, hshows⟩ := writeBytes_shows fuel critical buffer hentered
    henteredShows hkeeps
  obtain ⟨hleft, hleftShows⟩ := leaveWrite_shows h.color_eq hrunning hshows
  refine ⟨leaveWrite critical s s', ?_, hleft, hleftShows⟩
  unfold serialPortWrite
  rw [hs']
  rfl

/-- The calls of a run. -/
theorem writeCalls_shows (fuel : ℕ) (calls : List (Bool × List (UInt8 × Bool)))
    (h : Running (textColor false) s) (hs : Shows s t)
    (hkeeps : Terminal.AllKeepPage (characters calls) t) :
    ∃ s', writeCalls (fuel + 2) calls s = some s' ∧ Running (textColor false) s'
      ∧ Shows s' (t.putAll (characters calls)) := by
  induction calls generalizing s t with
  | nil => exact ⟨s, rfl, h, hs⟩
  | cons call calls ih =>
    have hcharacters : characters (call :: calls)
        = call.2.map (fun byte => (call.1, byte.1)) ++ characters calls := rfl
    rw [hcharacters] at hkeeps ⊢
    obtain ⟨hcall, hrest⟩ := Terminal.allKeepPage_append.mp hkeeps
    obtain ⟨s', hs', hrunning, hshows⟩ := serialPortWrite_of_keepsPage fuel call.1 call.2 h hs hcall
    obtain ⟨s'', hs'', hdone, hdoneShows⟩ := ih hrunning hshows hrest
    refine ⟨s'', ?_, hdone, ?_⟩
    · rw [writeCalls, hs']
      exact hs''
    · unfold Terminal.putAll at hdoneShows ⊢
      rwa [List.foldl_append]

/-- A call with a single byte shows what the terminal does just when the character
keeps the page. -/
theorem serialPortWrite_single_iff (fuel : ℕ) (critical : Bool) (c : UInt8) (intstate : Bool)
    (h : Running (textColor false) s) (hs : Shows s t) :
    (∃ s', serialPortWrite (fuel + 2) critical [(c, intstate)] s = some s'
        ∧ Shows s' (t.put (Terminal.foreground critical) 0 c)) ↔ t.KeepsPage c := by
  obtain ⟨hentered, henteredShows⟩ := enterWrite_shows h hs critical
  obtain ⟨hforeground, hbackground⟩ := foreground_textColor critical
  have hchar := putChar_shows_iff hentered henteredShows fuel c intstate
  rw [hforeground, hbackground] at hchar
  have hposition : ∀ s', (leaveWrite critical s s').position = s'.position
      ∧ (leaveWrite critical s s').memory = s'.memory := by
    intro s'
    unfold leaveWrite enableIf
    cases critical <;> cases s.interrupts <;> exact ⟨rfl, rfl⟩
  have hshows : ∀ s' t', Shows (leaveWrite critical s s') t' ↔ Shows s' t' := by
    intro s' t'
    obtain ⟨hpos, hmem⟩ := hposition s'
    constructor
    · rintro ⟨hcolumn, hrow, hscreen⟩
      rw [hpos] at hcolumn hrow
      rw [hmem] at hscreen
      exact ⟨hcolumn, hrow, hscreen⟩
    · rintro ⟨hcolumn, hrow, hscreen⟩
      exact ⟨by rwa [hpos], by rwa [hpos], by rwa [hmem]⟩
  rw [← hchar]
  unfold serialPortWrite
  rw [writeBytes]
  constructor
  · rintro ⟨s', hs', hshown⟩
    cases hput : fbConPutCharWithFactor (fuel + 2) c .common defaultScaleFactor intstate
        (enterWrite critical s) with
    | none =>
      rw [hput] at hs'
      cases hs'
    | some s'' =>
      rw [hput] at hs'
      cases hs'
      exact ⟨s'', rfl, (hshows _ _).mp hshown⟩
  · rintro ⟨s', hs', hshown⟩
    rw [hs']
    exact ⟨leaveWrite critical s s', rfl, (hshows _ _).mpr hshown⟩

end

theorem serialPortInitialize_shows (interrupts : Bool) (screen : UInt32 → UInt8) :
    Running (textColor false) (serialPortInitialize (loaded interrupts screen))
      ∧ Shows (serialPortInitialize (loaded interrupts screen))
        (.start (pixel (loaded interrupts screen).memory)) := by
  have hreset : Running (textColor false) { fbConReset (armDisableInterrupts
      (loaded interrupts screen)) with initialized := true } := ⟨rfl, rfl, rfl, rfl⟩
  exact hreset.enableIf ⟨rfl, rfl, fun _ _ _ _ => rfl⟩ interrupts

/-- **The console and the terminal.** After `SerialPortInitialize`, in every run in
which no page is ended by anything but a space the console shows what the terminal
does; and the next character is then shown as the terminal shows it just when it does
not end the page either, or is a space. -/
theorem serialPortWrite_shows (interrupts : Bool) (screen : UInt32 → UInt8) (fuel : ℕ)
    (calls : List (Bool × List (UInt8 × Bool)))
    (hkeeps : Terminal.AllKeepPage (characters calls)
      (.start (pixel (loaded interrupts screen).memory))) :
    ∃ s, writeCalls (fuel + 2) calls (serialPortInitialize (loaded interrupts screen)) = some s
      ∧ Shows s (Terminal.putAll (characters calls)
        (.start (pixel (loaded interrupts screen).memory)))
      ∧ ∀ critical c intstate,
        (∃ s', serialPortWrite (fuel + 2) critical [(c, intstate)] s = some s'
          ∧ Shows s' ((Terminal.putAll (characters calls)
            (.start (pixel (loaded interrupts screen).memory))).put
              (Terminal.foreground critical) 0 c))
        ↔ (Terminal.putAll (characters calls)
            (.start (pixel (loaded interrupts screen).memory))).KeepsPage c := by
  obtain ⟨hstart, hstartShows⟩ := serialPortInitialize_shows interrupts screen
  obtain ⟨s, hs, hrunning, hshows⟩ := writeCalls_shows fuel calls hstart hstartShows hkeeps
  exact ⟨s, hs, hshows, fun critical c intstate =>
    serialPortWrite_single_iff fuel critical c intstate hrunning hshows⟩

/-- Two lines written in two calls. -/
theorem serialPortWrite_shows_twoLines :
    ∃ s, writeCalls 2 [(false, [(72, true), (105, false), (10, true)]), (true, [(33, false)])]
        (serialPortInitialize (loaded true fun _ => 0xff)) = some s
      ∧ Shows s (Terminal.putAll [(false, 72), (false, 105), (false, 10), (true, 33)]
        (.start (pixel (loaded true fun _ => 0xff).memory))) := by
  obtain ⟨s, hs, hshows, -⟩ := serialPortWrite_shows true (fun _ => 0xff) 0
    [(false, [(72, true), (105, false), (10, true)]), (true, [(33, false)])] (by decide)
  exact ⟨s, hs, hshows⟩

/-- Twenty-four new lines bring the cursor to the last row of the page, and one more to
the second row of the next. -/
theorem newline_skips_first_row :
    ∃ s s', writeCalls 2 [(false, List.replicate 24 (10, false))]
        (serialPortInitialize (loaded true fun _ => 0)) = some s
      ∧ Shows s (Terminal.putAll (List.replicate 24 (false, 10))
        (.start (pixel (loaded true fun _ => 0).memory)))
      ∧ s.position = ⟨0, 24⟩
      ∧ serialPortWrite 2 false [(10, false)] s = some s' ∧ s'.position = ⟨0, 1⟩
      ∧ ¬ Shows s' (Terminal.putAll (List.replicate 25 (false, 10))
        (.start (pixel (loaded true fun _ => 0).memory))) := by
  obtain ⟨hstart, hstartShows⟩ := serialPortInitialize_shows true fun _ => 0
  obtain ⟨s, hs, hrunning, hshows⟩ := writeCalls_shows 0 [(false, List.replicate 24 (10, false))]
    hstart hstartShows (by decide)
  obtain ⟨hentered, henteredShows⟩ := enterWrite_shows hrunning hshows false
  obtain ⟨s', hs', hdone, -, htwice⟩ := putChar_shows hentered henteredShows 0 10 false
  have hlast : (Terminal.putAll (List.replicate 24 (false, 10))
      (.start (pixel (loaded true fun _ => 0).memory))).row = 24 := by decide +kernel
  have hnext : (Terminal.putAll (List.replicate 25 (false, 10))
      (.start (pixel (loaded true fun _ => 0).memory))).row = 0 := by decide +kernel
  have hagain := htwice (by decide +kernel)
  have hrow : s'.position.y = 1 := hagain.row
  have hcolumn : s'.position.x = 0 := hagain.column
  have hleft : (leaveWrite false s s').position = ⟨0, 1⟩ := by
    unfold leaveWrite
    rw [enableIf_position]
    exact congrArg₂ FbConPosition.mk hcolumn hrow
  refine ⟨s, leaveWrite false s s', hs, hshows, ?_, ?_, hleft, fun hshown => ?_⟩
  · refine congrArg₂ FbConPosition.mk (hshows.column.trans ?_) (hshows.row.trans ?_)
    · decide +kernel
    · exact congrArg Int.ofNat hlast
  · unfold serialPortWrite
    rw [writeBytes, hs']
    rfl
  · have hwrong := hshown.row
    rw [hleft, hnext] at hwrong
    exact absurd (show (1 : ℤ) = 0 from hwrong) (by decide)

end FrameBufferSerialPort
