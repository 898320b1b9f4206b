import HtcLeo.FrameBuffer.ScreenCopy
import HtcLeo.GraphicsConsole.NoTrace

/-!
# The graphics console on the frame buffer of the device

The console draws through `SimpleFbDxe`, on a screen of 240 by 320 pixels. It asks
for a resolution of 480 by 800, which the driver does not have, and makes do with
its own: a mode of forty columns that does not fit, for which every transfer is
rejected, a blank one, and one of thirty columns and sixteen rows.

The frame buffer meets `Display.Laws` where screens look the same when the frame
buffer holds the same bytes. What is on the stack where `FlushCursor` has its
buffer may be anything at any call. The font is another driver's; `DrawsCells` is
what is asked of it.
-/

namespace GraphicsConsole

open FrameBufferBlt FrameBufferConfigure StatusCode

/-! ## The display -/

/-- What `DisplayBlt` returns, as a word. -/
def statusCode : EfiStatus → StatusCode
  | .efiSuccess => efiSuccess
  | _ => efiInvalidParameter

/-- What the font is called with, and what it does to the memory. -/
abbrev Font : Type :=
  List UInt16 → BltPixel × BltPixel → Corner → Memory Region → StatusCode × Memory Region

/-- The memory with a colour in the caller's buffer. -/
def withColor (color : BltPixel) (m : Memory Region) : Memory Region :=
  onStack (fun x => Word.byte color.raw x.toNat) m

/-- **The display of the device**: `FlushCursor`, a font, and `SimpleFbDxe`. The stack is
what a call finds where it has its buffer. -/
def simpleFbDisplay (dev : GraphicsConsoleDev) (stack : Memory Region → UInt32 → UInt8)
    (font : Font) : Display (Memory Region) where
  flushCursor current m := (flushCursor dev current (stack m) m).2
  stringToImage := font
  videoToVideo source destination width height delta m :=
    let moved := displayBlt m .efiBltVideoToVideo source.1 source.2 destination.1 destination.2
      width height delta
    (statusCode moved.1, moved.2)
  videoFill color corner width height delta m :=
    let filled := displayBlt (withColor color m) .efiBltVideoFill 0 0 corner.1 corner.2
      width height delta
    (statusCode filled.1, filled.2)
  setMode _ m := (efiSuccess, m)
  mode _ := 0

theorem videoFill_simpleFbDisplay (dev : GraphicsConsoleDev)
    (stack : Memory Region → UInt32 → UInt8) (font : Font) (color : BltPixel) (corner : Corner)
    (width height delta : UInt32) (m : Memory Region) :
    (simpleFbDisplay dev stack font).videoFill color corner width height delta m
      = (statusCode (displayBlt (withColor color m) .efiBltVideoFill 0 0 corner.1 corner.2 width
          height delta).1,
        (displayBlt (withColor color m) .efiBltVideoFill 0 0 corner.1 corner.2 width height
          delta).2) :=
  rfl

/-- **The frame buffer holds the same.** -/
def SameVideo (m m' : Memory Region) : Prop := m.bytes .video = m'.bytes .video

theorem sameVideo_equivalence : Equivalence SameVideo :=
  ⟨fun _ => rfl, fun h => h.symm, fun h h' => h.trans h'⟩

/-- **What is asked of a font**: what it draws depends on the frame buffer only; the space
has a glyph; and where the first character has one, and its cell is on the screen, what
was in the cell does not matter. -/
structure DrawsCells (font : Font) (Glyph : UInt16 → Prop) : Prop where
  space : Glyph 0x0020
  congr : ∀ text colors corner {m m'}, SameVideo m m' →
    SameAnswer SameVideo (font text colors corner m) (font text colors corner m')
  covers : ∀ {char} rest colors corner {m m' : Memory Region}, Glyph char →
    InsideScreen simpleFbConfigure corner efiGlyphWidth efiGlyphHeight →
    (∀ x ∉ simpleFbConfigure.rectangle corner efiGlyphWidth efiGlyphHeight,
      m.bytes .video x = m'.bytes .video x) →
    SameAnswer SameVideo (font (char :: rest) colors corner m)
      (font (char :: rest) colors corner m')

/-! ## Transfers and the frame buffer -/

section

variable {m m' : Memory Region}

/-- A pixel of a rectangle is one of its pixels. -/
theorem mem_rectangle_of_pixel {corner : Corner} {width height : UInt32} {p : ℕ × ℕ} {x : UInt32}
    (hp : drawn width.toNat height.toNat 0 p)
    (hx : (x - pixelAddress simpleFbConfigure corner p).toNat < 2) :
    x ∈ simpleFbConfigure.rectangle corner width height := by
  obtain ⟨hline, hcolumn⟩ := drawn_all.mp hp
  exact span_pixel rfl hcolumn hline hx

/-- **A rectangle that is painted** is covered: what was in it does not matter. -/
theorem paint_eq_of_outside {corner : Corner} {width height : UInt32} (hwidth : width.toNat ≤ 240)
    (hheight : height.toNat ≤ 320) (colors : ℕ → ℕ → UInt16) {screen screen' : UInt32 → UInt8}
    (h : ∀ x ∉ simpleFbConfigure.rectangle corner width height, screen x = screen' x) :
    paint simpleFbConfigure corner colors width.toNat height.toNat screen
      = paint simpleFbConfigure corner colors width.toNat height.toNat screen' := by
  funext x
  by_cases hx : ∃ p, drawn width.toNat height.toNat 0 p
      ∧ (x - pixelAddress simpleFbConfigure corner p).toNat < 2
  · obtain ⟨p, hp, hlt⟩ := hx
    obtain ⟨b, hb, rfl⟩ := mem_span.mp hlt
    have hapart := screenApart_simpleFb corner hwidth hheight
    rw [paint_pixel hapart colors screen hp hb, paint_pixel hapart colors screen' hp hb]
  · have hout : ∀ screen, paint simpleFbConfigure corner colors width.toNat height.toNat screen x
        = screen x := fun screen =>
      (paint_written colors width.toNat height.toNat screen).eq_before
        fun p hp hlt => hx ⟨p, hp, hlt⟩
    rw [hout, hout]
    refine h x fun hmem => hx ?_
    obtain ⟨i, hi, j, hj, b, hb, rfl⟩ := hmem
    refine ⟨(i, j), drawn_all.mpr ⟨hj, hi⟩, ?_⟩
    have hspan : simpleFbConfigure.byteOf (corner.1.toNat + i) (corner.2.toNat + j) b
        ∈ span (pixelAddress simpleFbConfigure corner (i, j)) 2 := by
      refine mem_span.mpr ⟨b, hb, ?_⟩
      rw [byteOf_eq, UInt32.ofNat_add, ← UInt32.add_assoc, UInt32.ofNat_mul]
      rfl
    exact hspan

/-- A fill of a rectangle that passes the checks paints it, and another is rejected. -/
theorem displayBlt_fill (color : BltPixel) (corner : Corner) (width height delta : UInt32)
    (m : Memory Region) :
    (simpleFbConfigure.rectangleChecks [corner] width height = true
      ∧ (displayBlt (withColor color m) .efiBltVideoFill 0 0 corner.1 corner.2 width height
          delta).1 = .efiSuccess
      ∧ (displayBlt (withColor color m) .efiBltVideoFill 0 0 corner.1 corner.2 width height
          delta).2.bytes .video
        = paint simpleFbConfigure corner
            (fun _ _ => colorAt (fun x => Word.byte color.raw x.toNat) 0) width.toNat height.toNat
            (m.bytes .video))
    ∨ simpleFbConfigure.rectangleChecks [corner] width height = false
      ∧ displayBlt (withColor color m) .efiBltVideoFill 0 0 corner.1 corner.2 width height delta
        = (.efiInvalidParameter, withColor color m) := by
  cases hchecks : simpleFbConfigure.rectangleChecks [corner] width height with
  | true =>
    obtain ⟨hstatus, hvideo⟩ := @videoFill_video simpleFbConfigure (withColor color m) corner 0
      width height hchecks rfl
    refine Or.inl ⟨rfl, if_pos hstatus, hvideo⟩
  | false =>
    refine Or.inr ⟨rfl, ?_⟩
    have hrejected : videoFill simpleFbConfigure (withColor color m) 0 corner.1 corner.2
        width height = (.efiInvalidParameter, withColor color m) := by
      unfold videoFill
      rw [hchecks]
      rfl
    have hcall : displayBlt (withColor color m) .efiBltVideoFill 0 0 corner.1 corner.2 width height
        delta = (if (videoFill simpleFbConfigure (withColor color m) 0 corner.1 corner.2 width
            height).1 = .efiSuccess then .efiSuccess else .efiInvalidParameter,
          (videoFill simpleFbConfigure (withColor color m) 0 corner.1 corner.2 width height).2) :=
        rfl
    rw [hcall, hrejected]
    rfl

/-- A fill depends on the frame buffer only. -/
theorem displayBlt_fill_congr (color : BltPixel) (corner : Corner) (width height delta : UInt32)
    (h : SameVideo m m') :
    statusCode (displayBlt (withColor color m) .efiBltVideoFill 0 0 corner.1 corner.2 width height
        delta).1
      = statusCode (displayBlt (withColor color m') .efiBltVideoFill 0 0 corner.1 corner.2 width
          height delta).1
    ∧ SameVideo (displayBlt (withColor color m) .efiBltVideoFill 0 0 corner.1 corner.2 width height
        delta).2
      (displayBlt (withColor color m') .efiBltVideoFill 0 0 corner.1 corner.2 width height
        delta).2 := by
  rcases displayBlt_fill color corner width height delta m with
    ⟨hchecks, hstatus, hvideo⟩ | ⟨hchecks, heq⟩
  · rcases displayBlt_fill color corner width height delta m' with
      ⟨-, hstatus', hvideo'⟩ | ⟨hchecks', -⟩
    · rw [hstatus, hstatus']
      refine ⟨rfl, ?_⟩
      unfold SameVideo
      rw [hvideo, hvideo', show m.bytes .video = m'.bytes .video from h]
    · rw [hchecks] at hchecks'
      exact Bool.noConfusion hchecks'
  · rcases displayBlt_fill color corner width height delta m' with ⟨hchecks', -⟩ | ⟨-, heq'⟩
    · rw [hchecks] at hchecks'
      exact Bool.noConfusion hchecks'
    · rw [heq, heq']
      exact ⟨rfl, h⟩

/-- **A rectangle that is filled** is covered. -/
theorem displayBlt_fill_covers (color : BltPixel) (corner : Corner) {width height : UInt32}
    (delta : UInt32) (hwidth : width.toNat ≤ 240) (hheight : height.toNat ≤ 320)
    (hchecks : simpleFbConfigure.rectangleChecks [corner] width height = true)
    (h : ∀ x ∉ simpleFbConfigure.rectangle corner width height,
      m.bytes .video x = m'.bytes .video x) :
    statusCode (displayBlt (withColor color m) .efiBltVideoFill 0 0 corner.1 corner.2 width height
        delta).1
      = statusCode (displayBlt (withColor color m') .efiBltVideoFill 0 0 corner.1 corner.2 width
          height delta).1
    ∧ SameVideo (displayBlt (withColor color m) .efiBltVideoFill 0 0 corner.1 corner.2 width height
        delta).2
      (displayBlt (withColor color m') .efiBltVideoFill 0 0 corner.1 corner.2 width height
        delta).2 := by
  have hpasses : ∀ m, (displayBlt (withColor color m) .efiBltVideoFill 0 0 corner.1 corner.2 width
        height delta).1 = .efiSuccess
      ∧ (displayBlt (withColor color m) .efiBltVideoFill 0 0 corner.1 corner.2 width height
          delta).2.bytes .video
        = paint simpleFbConfigure corner
            (fun _ _ => colorAt (fun x => Word.byte color.raw x.toNat) 0) width.toNat height.toNat
            (m.bytes .video) := by
    intro m
    rcases displayBlt_fill color corner width height delta m with ⟨-, hfilled⟩ | ⟨hfails, -⟩
    · exact hfilled
    · rw [hchecks] at hfails
      exact Bool.noConfusion hfails
  rw [(hpasses m).1, (hpasses m').1]
  refine ⟨rfl, ?_⟩
  unfold SameVideo
  rw [(hpasses m).2, (hpasses m').2]
  exact paint_eq_of_outside hwidth hheight _ h

/-- A transfer within the screen depends on the frame buffer only. -/
theorem displayBlt_move_congr (source destination : Corner) (width height delta : UInt32)
    (h : SameVideo m m') :
    SameVideo (displayBlt m .efiBltVideoToVideo source.1 source.2 destination.1 destination.2 width
        height delta).2
      (displayBlt m' .efiBltVideoToVideo source.1 source.2 destination.1 destination.2 width height
        delta).2 := by
  show SameVideo (videoToVideo simpleFbConfigure m source.1 source.2 destination.1 destination.2
      width height).2
    (videoToVideo simpleFbConfigure m' source.1 source.2 destination.1 destination.2 width height).2
  unfold videoToVideo
  split
  · simp only
    generalize (width * simpleFbConfigure.bytesPerPixel).toNat = bytes
    have hloop : ∀ (lineStride source destination : UInt32),
        SameVideo (forLoop 0 height (fun _ s => s.step bytes lineStride)
            (RowCopy.mk source destination m)).memory
          (forLoop 0 height (fun _ s => s.step bytes lineStride)
            (RowCopy.mk source destination m')).memory := by
      intro lineStride source destination
      refine (@forLoop_rel RowCopy RowCopy 0 height (fun _ s => s.step bytes lineStride)
        (fun _ s => s.step bytes lineStride) ⟨source, destination, m⟩ ⟨source, destination, m'⟩
        (fun s s' => s.source = s'.source ∧ s.destination = s'.destination
          ∧ SameVideo s.memory s'.memory) ⟨rfl, rfl, h⟩ ?_).2.2
      rintro - ⟨source, destination, m⟩ ⟨-, -, m'⟩ ⟨rfl, rfl, hvideo⟩
      refine ⟨rfl, rfl, ?_⟩
      show (((m.load .video source bytes).2).store .video destination bytes _).bytes .video
        = (((m'.load .video source bytes).2).store .video destination bytes _).bytes .video
      rw [Memory.bytes_store_self, Memory.bytes_store_self]
      show Memory.overwrite (m.bytes .video) destination bytes
          (fun k => m.bytes .video (source + UInt32.ofNat k))
        = Memory.overwrite (m'.bytes .video) destination bytes
          (fun k => m'.bytes .video (source + UInt32.ofNat k))
      rw [show m.bytes .video = m'.bytes .video from hvideo]
    split <;> exact hloop _ _ _
  · exact h

/-- A rectangle on the screen lies in the rectangle of the whole screen. -/
theorem rectangle_subset_screen {corner : Corner} {width height : UInt32}
    (h : InsideScreen simpleFbConfigure corner width height) :
    simpleFbConfigure.rectangle corner width height
      ⊆ simpleFbConfigure.rectangle (0, 0) 240 320 := by
  rintro x ⟨i, hi, j, hj, b, hb, rfl⟩
  obtain ⟨hdown, hacross⟩ := h
  have hdown' : corner.2.toNat + height.toNat ≤ 320 := hdown
  have hacross' : corner.1.toNat + width.toNat ≤ 240 := hacross
  refine ⟨corner.1.toNat + i, show _ < 240 by omega, corner.2.toNat + j, show _ < 320 by omega, b,
    hb, ?_⟩
  show _ = simpleFbConfigure.byteOf (0 + _) (0 + _) b
  rw [Nat.zero_add, Nat.zero_add]

end

/-! ## The cursor -/

section

variable {dev : GraphicsConsoleDev} {current : SimpleTextOutputMode} {m m' : Memory Region}

theorem flushCursor_hidden (hvisible : current.cursorVisible = false) (stack : UInt32 → UInt8)
    (m : Memory Region) : (flushCursor dev current stack m).2 = m := by
  unfold flushCursor
  rw [hvisible]
  rfl

/-- The cursor depends on the frame buffer only. -/
theorem flushCursor_congr (stack stack' : UInt32 → UInt8) (h : SameVideo m m') :
    SameVideo (flushCursor dev current stack m).2 (flushCursor dev current stack' m').2 := by
  cases hvisible : current.cursorVisible with
  | false =>
    rw [flushCursor_hidden hvisible, flushCursor_hidden hvisible]
    exact h
  | true =>
    unfold SameVideo
    rw [flushCursor_video dev hvisible stack, flushCursor_video dev hvisible stack',
      show m.bytes .video = m'.bytes .video from h]

/-- The cursor depends on its place and its colours only. -/
theorem flushCursor_alike {current' : SimpleTextOutputMode} (stack stack' : UInt32 → UInt8)
    (hvisible : current'.cursorVisible = current.cursorVisible)
    (hcorner : glyphCorner dev current' = glyphCorner dev current)
    (hcolors : getTextColors current' = getTextColors current) :
    SameVideo (flushCursor dev current' stack m).2 (flushCursor dev current stack' m).2 := by
  cases hshown : current.cursorVisible with
  | false =>
    rw [flushCursor_hidden hshown, flushCursor_hidden (hvisible.trans hshown)]
    rfl
  | true =>
    unfold SameVideo
    rw [flushCursor_video dev hshown stack', flushCursor_video dev (hvisible.trans hshown) stack,
      hcorner, hcolors]

/-- **The cursor is drawn in its cell** where the cell passes the checks, and elsewhere it
is not drawn. -/
theorem flushCursor_outside (dev : GraphicsConsoleDev) (current : SimpleTextOutputMode)
    (stack : UInt32 → UInt8) (m : Memory Region) :
    (simpleFbConfigure.rectangleChecks [glyphCorner dev current] efiGlyphWidth efiGlyphHeight
      = false → SameVideo (flushCursor dev current stack m).2 m)
    ∧ ∀ x ∉ simpleFbConfigure.rectangle (glyphCorner dev current) efiGlyphWidth efiGlyphHeight,
        (flushCursor dev current stack m).2.bytes .video x = m.bytes .video x := by
  cases hvisible : current.cursorVisible with
  | false =>
    rw [flushCursor_hidden hvisible]
    exact ⟨fun _ => rfl, fun _ _ => rfl⟩
  | true =>
    have hvideo := flushCursor_video dev hvisible stack m
    refine ⟨fun hchecks => ?_, fun x hx => ?_⟩
    · rw [hchecks] at hvideo
      exact hvideo
    · rw [hvideo]
      split
      · exact (paint_written _ _ _ _).eq_before fun p hp hlt => hx (mem_rectangle_of_pixel hp hlt)
      · rfl

end

/-! ## The console of the device -/

section

variable (outside : GraphicsConsoleModeData)

/-- The modes made for the screen of the device. -/
def deviceDev : GraphicsConsoleDev := initializedDev 240 320 0 outside

/-- The number of them. -/
def deviceMaxMode : UInt32 := initializedMaxMode 240 320 0

theorem newModeBuffer_device :
    newModeBuffer 240 320 0
      = [⟨40, 12, 0x7FFFFFD8, 46, 240, 320, 0⟩, ⟨0, 0, 0, 0, 240, 320, 0⟩,
          ⟨30, 16, 0, 8, 240, 320, 0⟩] := by
  decide

variable {outside} {mode : Int32}

/-- **The modes of the device**: the one that does not fit, and the one that does. -/
theorem modeData_device (h : (deviceDev outside).InTable deviceMaxMode mode) :
    (deviceDev outside).modeData mode = ⟨40, 12, 0x7FFFFFD8, 46, 240, 320, 0⟩
      ∨ (deviceDev outside).modeData mode = ⟨30, 16, 0, 8, 240, 320, 0⟩ := by
  obtain ⟨n, hn, rfl, husable⟩ := h
  have hlt : n.toNat < 3 := UInt32.lt_iff_toNat_lt.mp hn
  have hread : (deviceDev outside).modeData n.toInt32 = _ :=
    @modeData_consoleDev (newModeBuffer 240 320 0) outside n hlt (by decide)
  simp only [newModeBuffer_device] at hread
  rw [hread] at husable ⊢
  obtain hn | hn | hn : n.toNat = 0 ∨ n.toNat = 1 ∨ n.toNat = 2 := by omega
  · simp only [hn]
    exact Or.inl rfl
  · simp only [hn] at husable
    exact absurd husable.columns_ge (show ¬ 2 ≤ (0 : UInt32).toNat by decide)
  · simp only [hn]
    exact Or.inr rfl

/-- The corner of a cell, as numbers. -/
theorem toNat_glyphCorner {dev : GraphicsConsoleDev} {current : SimpleTextOutputMode}
    {column row : ℕ} (hat : current.At column row) :
    (glyphCorner dev current).1.toNat
        = (column % 2 ^ 32 * 8 + (dev.modeData current.mode).deltaX.toNat) % 2 ^ 32
      ∧ (glyphCorner dev current).2.toNat
        = (row % 2 ^ 32 * 19 + (dev.modeData current.mode).deltaY.toNat) % 2 ^ 32 := by
  have hword : ∀ n : ℕ, (Int32.ofNat n).toUInt32 = UInt32.ofNat n := fun n => rfl
  unfold glyphCorner
  rw [hat.column, hat.row, hword, hword, UInt32.toNat_add, UInt32.toNat_add, UInt32.toNat_mul,
    UInt32.toNat_mul, UInt32.toNat_ofNat', UInt32.toNat_ofNat',
    show efiGlyphWidth.toNat = 8 from rfl,
    show efiGlyphHeight.toNat = 19 from rfl]
  omega

/-- **A cell of the window** is on the screen, or all that is drawn there is rejected. -/
theorem cell_device {current : SimpleTextOutputMode}
    (htable : (deviceDev outside).InTable deviceMaxMode current.mode)
    (hwindow : current.InWindow ((deviceDev outside).modeData current.mode)) :
    simpleFbConfigure.rectangleChecks [glyphCorner (deviceDev outside) current] efiGlyphWidth
        efiGlyphHeight = false
      ∨ InsideScreen simpleFbConfigure (glyphCorner (deviceDev outside) current) efiGlyphWidth
          efiGlyphHeight := by
  obtain ⟨column, row, hat, hcolumn, hrow⟩ := hwindow
  obtain ⟨hx, hy⟩ := @toNat_glyphCorner (deviceDev outside) current column row hat
  rcases modeData_device htable with hmode | hmode
  · rw [hmode] at hx hcolumn
    have hlt : column < 40 := hcolumn
    have hfar : (glyphCorner (deviceDev outside) current).1.toNat = column * 8 + 0x7FFFFFD8 := by
      rw [hx, show (0x7FFFFFD8 : UInt32).toNat = 0x7FFFFFD8 from rfl]
      omega
    left
    rw [← Bool.not_eq_true, rectangleChecks_iff]
    rintro ⟨hinside, -⟩
    have hacross : (_ : ℕ) ≤ 240 := (hinside _ (List.mem_singleton.mpr rfl)).2
    rw [UInt32.toNat_add, hfar, show efiGlyphWidth.toNat = 8 from rfl] at hacross
    omega
  · rw [hmode] at hx hy hcolumn hrow
    have hcolumn' : column < 30 := hcolumn
    have hrow' : row < 16 := hrow
    right
    show _ + 19 ≤ 320 ∧ _ + 8 ≤ 240
    rw [hx, hy]
    show (row % 2 ^ 32 * 19 + 8) % 2 ^ 32 + 19 ≤ 320 ∧ (column % 2 ^ 32 * 8 + 0) % 2 ^ 32 + 8 ≤ 240
    rw [Nat.mod_eq_of_lt (show row < 2 ^ 32 by omega),
      Nat.mod_eq_of_lt (show column < 2 ^ 32 by omega),
      Nat.mod_eq_of_lt (show row * 19 + 8 < 2 ^ 32 by omega),
      Nat.mod_eq_of_lt (show column * 8 + 0 < 2 ^ 32 by omega)]
    omega

variable {stack : Memory Region → UInt32 → UInt8} {font : Font} {Glyph : UInt16 → Prop}

/-- **The display of the device meets the laws**, with a font that draws cells. -/
theorem laws_simpleFbDisplay (hfont : DrawsCells font Glyph) :
    (simpleFbDisplay (deviceDev outside) stack font).Laws (deviceDev outside) deviceMaxMode
      SameVideo Glyph where
  same := sameVideo_equivalence
  space := hfont.space
  flush_congr current _ _ h := flushCursor_congr _ _ h
  flush_flush current m := flushCursor_twice _ current _ _ m
  flush_paint current textAttribute m hcolors :=
    flushCursor_alike _ _ rfl rfl (getTextColors_congr hcolors)
  text_congr text colors corner _ _ h := hfont.congr text colors corner h
  text_covers current char rest m htable hwindow hchar := by
    obtain ⟨hrejected, houtside⟩ := flushCursor_outside (deviceDev outside) current (stack m) m
    rcases cell_device htable hwindow with hchecks | hinside
    · exact hfont.congr _ _ _ (hrejected hchecks)
    · exact hfont.covers rest _ _ hchar hinside houtside
  move_congr source destination width height delta _ _ h :=
    displayBlt_move_congr source destination width height delta h
  fill_congr color corner width height delta _ _ h :=
    displayBlt_fill_congr color corner width height delta h
  fill_covers current color m htable hwindow := by
    obtain ⟨hrejected, houtside⟩ := flushCursor_outside (deviceDev outside) current (stack m) m
    have hsize : ((deviceDev outside).modeData current.mode).gopWidth = 240
        ∧ ((deviceDev outside).modeData current.mode).gopHeight = 320 := by
      rcases modeData_device htable with hmode | hmode <;>
      · rw [hmode]
        exact ⟨rfl, rfl⟩
    have hbehind : ∀ x ∉ simpleFbConfigure.rectangle (0, 0) 240 320,
        (flushCursor (deviceDev outside) current (stack m) m).2.bytes .video x
          = m.bytes .video x := by
      intro x hx
      rcases cell_device htable hwindow with hchecks | hinside
      · exact congrFun (hrejected hchecks) x
      · exact houtside x fun hmem => hx (rectangle_subset_screen hinside hmem)
    rw [hsize.1, hsize.2, videoFill_simpleFbDisplay, videoFill_simpleFbDisplay]
    have hcleared := displayBlt_fill_covers color (0, 0) 0 (by decide) (by decide) (by decide)
      hbehind
    unfold SameAnswer
    dsimp only at hcleared ⊢
    exact hcleared
  mode_congr _ := rfl
  setMode_congr _ _ _ h := ⟨rfl, h⟩
  setMode_succeeds _ _ := rfl

/-- **On the device the cursor leaves no trace**, in any session that begins with a mode:
the frame buffer is that of a device without a cursor with the cursor drawn on it, and the
answers are the same. -/
theorem device_cursor_leaves_no_trace (outside : GraphicsConsoleModeData)
    (stack : Memory Region → UInt32 → UInt8) (hfont : DrawsCells font Glyph) (modeNumber : UInt32)
    (hlt : modeNumber < deviceMaxMode)
    (hblank : ¬ ((deviceDev outside).modeData modeNumber.toInt32).IsBlank) {calls : List Call}
    (hgranted : ∀ call ∈ calls, call.granted = true) (hdrawn : ∀ call ∈ calls, call.Drawn Glyph)
    (m : Memory Region) :
    let dev := deviceDev outside
    let display := simpleFbDisplay dev stack font
    ∃ c c₀, session dev deviceMaxMode display m (.setMode modeNumber true :: calls) = some c
      ∧ session dev deviceMaxMode display.plain m (.setMode modeNumber true :: calls) = some c₀
      ∧ c.current = c₀.current
      ∧ SameVideo c.screen (flushCursor dev c.current (stack c₀.screen) c₀.screen).2
      ∧ Run.outputs (answered dev deviceMaxMode display) (startedConsole m)
            (.setMode modeNumber true :: calls)
          = Run.outputs (answered dev deviceMaxMode display.plain) (startedConsole m)
              (.setMode modeNumber true :: calls) :=
  cursor_leaves_no_trace (laws_simpleFbDisplay hfont)
    (usableModes_initialized 240 320 0 outside (by decide)) hlt hblank hgranted hdrawn m

end

/-! ## A font of blanks -/

/-- Cells filled with the colour behind the text, one after the other. -/
def blankCells (background : BltPixel) : ℕ → Corner → Memory Region → Memory Region
  | 0, _, m => m
  | n + 1, corner, m =>
    blankCells background n (corner.1 + efiGlyphWidth, corner.2)
      (displayBlt (withColor background m) .efiBltVideoFill 0 0 corner.1 corner.2 efiGlyphWidth
        efiGlyphHeight 0).2

/-- The font that has a glyph for the space only. -/
def blankFont : Font := fun text colors corner m =>
  (efiSuccess, blankCells colors.2 (text.filter (· = 0x0020)).length corner m)

theorem blankCells_congr (background : BltPixel) (n : ℕ) (corner : Corner) {m m' : Memory Region}
    (h : SameVideo m m') :
    SameVideo (blankCells background n corner m) (blankCells background n corner m') := by
  induction n generalizing corner m m' with
  | zero => exact h
  | succ n ih =>
    exact ih _ (displayBlt_fill_congr background corner efiGlyphWidth efiGlyphHeight 0 h).2

theorem drawsCells_blankFont : DrawsCells blankFont (· = 0x0020) where
  space := rfl
  congr text colors corner _ _ h := ⟨rfl, blankCells_congr _ _ corner h⟩
  covers rest colors corner m m' hchar hinside h := by
    obtain rfl := hchar
    have hfirst := displayBlt_fill_covers colors.2 corner 0 (by decide) (by decide)
      (rectangleChecks_of_inside (fun corner' hmem => by
        rw [List.mem_singleton.mp hmem]
        exact hinside) (by decide) (by decide)) h
    have hsplit : ∀ m, (blankFont (0x0020 :: rest) colors corner m).2
        = blankCells colors.2 (rest.filter (· = 0x0020)).length (corner.1 + efiGlyphWidth, corner.2)
            (displayBlt (withColor colors.2 m) .efiBltVideoFill 0 0 corner.1 corner.2 efiGlyphWidth
              efiGlyphHeight 0).2 := fun _ => rfl
    refine ⟨rfl, ?_⟩
    rw [hsplit, hsplit]
    exact blankCells_congr colors.2 _ _ hfirst.2

/-- A space is written at the end of a line, taken back, and the cursor turned off. -/
theorem device_cursor_leaves_no_trace_blank :
    let dev := deviceDev ⟨0, 0, 0, 0, 0, 0, 0⟩
    let display := simpleFbDisplay dev (fun _ _ => 0) blankFont
    let calls : List Call := [.setMode 2 true, .setCursorPosition 29 15,
      .outputString [0x0020, 0x0008], .enableCursor false]
    let m : Memory Region := ⟨fun _ _ => 0, []⟩
    ∃ c c₀, session dev deviceMaxMode display m calls = some c
      ∧ session dev deviceMaxMode display.plain m calls = some c₀
      ∧ c.current = c₀.current
      ∧ SameVideo c.screen (flushCursor dev c.current (fun _ => 0) c₀.screen).2
      ∧ Run.outputs (answered dev deviceMaxMode display) (startedConsole m) calls
          = Run.outputs (answered dev deviceMaxMode display.plain) (startedConsole m) calls :=
  device_cursor_leaves_no_trace ⟨0, 0, 0, 0, 0, 0, 0⟩ (fun _ _ => 0) drawsCells_blankFont 2
    (by decide) (by decide) (by decide)
    (fun call hmem => by
      simp only [List.mem_cons, List.not_mem_nil, or_false] at hmem
      rcases hmem with rfl | rfl | rfl
      · trivial
      · intro char hchar hcontrol
        simp only [List.mem_cons, List.not_mem_nil, or_false] at hchar
        rcases hchar with rfl | rfl
        · rfl
        · exact absurd (Or.inl rfl) hcontrol
      · trivial) _

end GraphicsConsole
