import HtcLeo.FrameBuffer.Invert
import HtcLeo.GraphicsConsole.TextModes

/-!
# The cursor of the graphics console

`FlushCursor` reads the cell under the cursor into a buffer on its stack,
changes the last three lines of it by an exclusive or with the colour of the
text, and writes the cell back. It is called once to show the cursor and once
more to take it away, and the second call finds on the screen what the first
one left, in sixteen bits a pixel.

The buffer is not initialised: what the stack holds at each call is taken as
it comes. Where the rectangle does not pass the checks of the block transfer,
the first copy leaves the buffer with that, and the second must not bring it to
the screen.
-/

namespace GraphicsConsole

open FrameBufferBlt

/-! ## Colours and the glyph -/

/-- `EFI_GRAPHICS_OUTPUT_BLT_PIXEL`. -/
structure BltPixel where
  blue : UInt8
  green : UInt8
  red : UInt8
  reserved : UInt8
  deriving DecidableEq, Repr, Inhabited

/-- `EFI_GRAPHICS_OUTPUT_BLT_PIXEL_UNION.Raw`. -/
def BltPixel.raw (pixel : BltPixel) : UInt32 :=
  Word.ofBytes fun
    | 0 => pixel.blue
    | 1 => pixel.green
    | 2 => pixel.red
    | _ => pixel.reserved

/-- `mGraphicsEfiColors`. -/
def mGraphicsEfiColors : List BltPixel :=
  [⟨0x00, 0x00, 0x00, 0x00⟩, ⟨0x98, 0x00, 0x00, 0x00⟩, ⟨0x00, 0x98, 0x00, 0x00⟩,
    ⟨0x98, 0x98, 0x00, 0x00⟩, ⟨0x00, 0x00, 0x98, 0x00⟩, ⟨0x98, 0x00, 0x98, 0x00⟩,
    ⟨0x00, 0x98, 0x98, 0x00⟩, ⟨0x98, 0x98, 0x98, 0x00⟩, ⟨0x30, 0x30, 0x30, 0x00⟩,
    ⟨0xff, 0x00, 0x00, 0x00⟩, ⟨0x00, 0xff, 0x00, 0x00⟩, ⟨0xff, 0xff, 0x00, 0x00⟩,
    ⟨0x00, 0x00, 0xff, 0x00⟩, ⟨0xff, 0x00, 0xff, 0x00⟩, ⟨0x00, 0xff, 0xff, 0x00⟩,
    ⟨0xff, 0xff, 0xff, 0x00⟩]

/-- `mCursorGlyph.GlyphCol1`. -/
def mCursorGlyph : List UInt8 :=
  [0x00, 0x00, 0x00, 0x00, 0x00, 0x00, 0x00, 0x00, 0x00, 0x00, 0x00, 0x00, 0x00, 0x00, 0x00, 0x00,
    0xFF, 0xFF, 0xFF]

/-! ## The console -/

/-- `EFI_SIMPLE_TEXT_OUTPUT_MODE`, without the number of modes. -/
structure SimpleTextOutputMode where
  mode : Int32
  textAttribute : Int32
  cursorColumn : Int32
  cursorRow : Int32
  cursorVisible : Bool

/-- `GRAPHICS_CONSOLE_DEV`: the table of its modes. It draws through the graphics
output of the device. -/
structure GraphicsConsoleDev where
  modeData : Int32 → GraphicsConsoleModeData

/-- `GetTextColors`: the colours of the text and of what is behind it. -/
def getTextColors (current : SimpleTextOutputMode) : BltPixel × BltPixel :=
  let masked := current.textAttribute &&& 0x7F
  (mGraphicsEfiColors.getD (masked &&& 0x0f).toNatClampNeg default,
    mGraphicsEfiColors.getD (masked >>> 4).toNatClampNeg default)

/-- `DisplayBlt`: the block transfer on the frame buffer of the device. -/
def displayBlt (m : Memory Region) (bltOperation : BltOperation)
    (sourceX sourceY destinationX destinationY width height delta : UInt32) :
    EfiStatus × Memory Region :=
  let result := frameBufferBlt (some simpleFbConfigure) m bltOperation sourceX sourceY
    destinationX destinationY width height delta
  (if result.1 = .efiSuccess then .efiSuccess else .efiInvalidParameter, result.2)

/-- `EFI_GLYPH_WIDTH * sizeof (EFI_GRAPHICS_OUTPUT_BLT_PIXEL)`. -/
def glyphDelta : UInt32 := efiGlyphWidth * 4

/-- `GlyphX` and `GlyphY`: the corner of the cell under the cursor. -/
def glyphCorner (dev : GraphicsConsoleDev) (current : SimpleTextOutputMode) : Corner :=
  (current.cursorColumn.toUInt32 * efiGlyphWidth + (dev.modeData current.mode).deltaX,
    current.cursorRow.toUInt32 * efiGlyphHeight + (dev.modeData current.mode).deltaY)

/-- The offset of `BltChar[PosY][EFI_GLYPH_WIDTH - PosX - 1]`. -/
def bltChar (posX posY : UInt32) : UInt32 :=
  (posY * efiGlyphWidth + (efiGlyphWidth - posX - 1)) * 4

/-- `(mCursorGlyph.GlyphCol1[PosY] & (BIT0 << PosX)) != 0`. -/
def glyphBit (posX posY : UInt32) : Bool :=
  Word.flag (mCursorGlyph.getD posY.toNat 0).toUInt32 (1 <<< posX)

/-- One turn of the inner loop: `BltChar[PosY][EFI_GLYPH_WIDTH - PosX - 1].Raw ^=
Foreground.Raw`, where the glyph has a bit. -/
def invertPixel (foreground posX posY : UInt32) (m : Memory Region) : Memory Region :=
  if glyphBit posX posY then
    let raw := m.read32 .bltBuffer (bltChar posX posY)
    raw.2.write32 .bltBuffer (bltChar posX posY) (raw.1 ^^^ foreground)
  else m

/-- The loops over the lines of the glyph and their pixels. -/
def invertGlyph (foreground : UInt32) (m : Memory Region) : Memory Region :=
  forLoop 0 efiGlyphHeight (fun posY m =>
    forLoop 0 efiGlyphWidth (fun posX m => invertPixel foreground posX posY m) m) m

/-- The memory on entry of a function whose buffer is on the stack. -/
def onStack (stack : UInt32 → UInt8) (m : Memory Region) : Memory Region where
  bytes region := if region = .bltBuffer then stack else m.bytes region
  accesses := m.accesses

/-- **`FlushCursor`**, with what is on the stack where it has its buffer. -/
def flushCursor (dev : GraphicsConsoleDev) (current : SimpleTextOutputMode)
    (stack : UInt32 → UInt8) (m : Memory Region) : EfiStatus × Memory Region :=
  if !current.cursorVisible then (.efiSuccess, m)
  else
    let glyph := glyphCorner dev current
    let read := displayBlt (onStack stack m) .efiBltVideoToBltBuffer glyph.1 glyph.2 0 0
      efiGlyphWidth efiGlyphHeight glyphDelta
    let inverted := invertGlyph (getTextColors current).1.raw read.2
    let written := displayBlt inverted .efiBltBufferToVideo 0 0 glyph.1 glyph.2
      efiGlyphWidth efiGlyphHeight glyphDelta
    (.efiSuccess, written.2)

/-! ## The loops over the glyph -/

/-- The offset in the buffer of a pixel of the cell, given by its column and line. -/
def cellOffset (p : ℕ × ℕ) : UInt32 := pixelOffset (0, 0) glyphDelta p.1 p.2

/-- The pixels of the cell. -/
def InCell : ℕ × ℕ → Prop := drawn efiGlyphWidth.toNat efiGlyphHeight.toNat 0

theorem inCell_iff {p : ℕ × ℕ} : InCell p ↔ p.2 < 19 ∧ p.1 < 8 := drawn_all

/-- What a pixel of the cell is changed with. -/
def cursorMask (foreground : UInt32) (p : ℕ × ℕ) : UInt32 :=
  if glyphBit (UInt32.ofNat (7 - p.1)) (UInt32.ofNat p.2) then foreground else 0

theorem toNat_cellOffset {p : ℕ × ℕ} (hp : InCell p) :
    (cellOffset p).toNat = p.2 * 32 + p.1 * 4 := by
  obtain ⟨hline, hcolumn⟩ := inCell_iff.mp hp
  have heq : cellOffset p = UInt32.ofNat p.2 * 32 + UInt32.ofNat p.1 * 4 := by
    unfold cellOffset pixelOffset
    rw [UInt32.zero_add, UInt32.zero_add]
    rfl
  rw [heq, UInt32.toNat_add, UInt32.toNat_mul, UInt32.toNat_mul, UInt32.toNat_ofNat',
    UInt32.toNat_ofNat']
  show (p.2 % 2 ^ 32 * 32 % 2 ^ 32 + p.1 % 2 ^ 32 * 4 % 2 ^ 32) % 2 ^ 32 = _
  omega

/-- Pixels of the cell have no byte in common. -/
theorem cellOffset_apart {p q : ℕ × ℕ} (hp : InCell p) (hq : InCell q) {k : ℕ} (hk : k < 4)
    (hreach : (cellOffset p + UInt32.ofNat k - cellOffset q).toNat < 4) : p = q := by
  obtain ⟨hpline, hpcolumn⟩ := inCell_iff.mp hp
  obtain ⟨hqline, hqcolumn⟩ := inCell_iff.mp hq
  rw [UInt32.toNat_sub, UInt32.toNat_add, UInt32.toNat_ofNat', toNat_cellOffset hp,
    toNat_cellOffset hq] at hreach
  have hline : p.2 = q.2 := by omega
  exact Prod.ext (by omega) hline

/-- The array is addressed as the block transfer does it. -/
theorem bltChar_eq {i j : ℕ} (hi : i < 8) :
    bltChar (UInt32.ofNat i) (UInt32.ofNat j) = cellOffset (7 - i, j) := by
  have hcolumn : UInt32.ofNat (7 - i) = 7 - UInt32.ofNat i := by
    rw [UInt32.ofNat_sub (by omega)]
    rfl
  show (UInt32.ofNat j * 8 + (8 - UInt32.ofNat i - 1)) * 4
    = (0 + UInt32.ofNat j) * 32 + (0 + UInt32.ofNat (7 - i)) * 4
  rw [hcolumn]
  grind

/-- **The cell half changed**: `done` are the pixels that have been. -/
structure Masked (foreground : UInt32) (before after : Memory Region) (done : ℕ × ℕ → Prop) :
    Prop where
  changed : ∀ p, InCell p → done p → ∀ k < 4,
    after.bytes .bltBuffer (cellOffset p + UInt32.ofNat k)
      = before.bytes .bltBuffer (cellOffset p + UInt32.ofNat k)
        ^^^ Word.byte (cursorMask foreground p) k
  kept : ∀ p, InCell p → ¬ done p → ∀ k < 4,
    after.bytes .bltBuffer (cellOffset p + UInt32.ofNat k)
      = before.bytes .bltBuffer (cellOffset p + UInt32.ofNat k)
  video : after.bytes .video = before.bytes .video

section

variable {foreground : UInt32} {before after : Memory Region} {done done' : ℕ × ℕ → Prop}

theorem Masked.congr (h : Masked foreground before after done) (hdone : ∀ p, done' p ↔ done p) :
    Masked foreground before after done' where
  changed p hp hd := h.changed p hp ((hdone p).mp hd)
  kept p hp hd := h.kept p hp fun hd' => hd ((hdone p).mpr hd')
  video := h.video

/-- One turn changes its own pixel. -/
theorem masked_invertPixel (foreground : UInt32) (m : Memory Region) {i j : ℕ} (hi : i < 8)
    (hj : j < 19) :
    Masked foreground m (invertPixel foreground (UInt32.ofNat i) (UInt32.ofNat j) m)
      (· = (7 - i, j)) := by
  have hpixel : InCell (7 - i, j) := inCell_iff.mpr ⟨hj, show 7 - i < 8 by omega⟩
  have hmask : cursorMask foreground (7 - i, j)
      = if glyphBit (UInt32.ofNat i) (UInt32.ofNat j) then foreground else 0 := by
    unfold cursorMask
    rw [show 7 - (7 - i) = i by omega]
  unfold invertPixel
  split
  · rename_i hbit
    rw [if_pos hbit] at hmask
    simp only
    rw [bltChar_eq hi]
    obtain ⟨hblt, hrest⟩ := bytes_write32_blt (m.read32 .bltBuffer (cellOffset (7 - i, j))).2
      (cellOffset (7 - i, j)) ((m.read32 .bltBuffer (cellOffset (7 - i, j))).1 ^^^ foreground)
    refine ⟨?_, fun p hp hne k hk => ?_, hrest .video (by decide)⟩
    · rintro p - rfl k hk
      rw [hblt, hmask]
      unfold Memory.overwrite
      rw [toNat_byte_sub _ hk, if_pos hk, Word.byte_xor]
      exact congrArg (· ^^^ Word.byte foreground k) (Word.byte_ofBytes _ hk)
    · rw [hblt]
      exact if_neg fun hreach => hne (cellOffset_apart hp hpixel hk hreach)
  · rename_i hbit
    rw [if_neg hbit] at hmask
    refine ⟨?_, fun _ _ _ _ _ => rfl, rfl⟩
    rintro p - rfl k -
    rw [hmask, show Word.byte 0 k = 0 by unfold Word.byte; simp, UInt8.xor_zero]

/-- Pixels are changed one after the other. -/
theorem Masked.trans {after' : Memory Region} (h : Masked foreground before after done)
    (h' : Masked foreground after after' done') (hdisjoint : ∀ p, done p → ¬ done' p) :
    Masked foreground before after' fun p => done p ∨ done' p where
  changed p hp hd k hk := by
    rcases hd with hd | hd
    · rw [h'.kept p hp (hdisjoint p hd) k hk, h.changed p hp hd k hk]
    · rw [h'.changed p hp hd k hk, h.kept p hp (fun hd' => hdisjoint p hd' hd) k hk]
  kept p hp hd k hk := by
    rw [h'.kept p hp (fun hd' => hd (.inr hd')) k hk, h.kept p hp (fun hd' => hd (.inl hd')) k hk]
  video := h'.video.trans h.video

theorem Masked.refl (foreground : UInt32) (m : Memory Region) (hdone : ∀ p, ¬ done p) :
    Masked foreground m m done :=
  ⟨fun p _ hd => absurd hd (hdone p), fun _ _ _ _ _ => rfl, rfl⟩

end

/-- One line of the glyph, from its last pixel to its first. -/
theorem masked_line (foreground : UInt32) (m : Memory Region) {j : ℕ} (hj : j < 19) :
    Masked foreground m
      (forLoop 0 efiGlyphWidth (fun posX m => invertPixel foreground posX (UInt32.ofNat j) m) m)
      (·.2 = j) := by
  have hrun := @forLoop_inv (Memory Region) 0 efiGlyphWidth
    (fun posX m => invertPixel foreground posX (UInt32.ofNat j) m) m
    (fun n t => Masked foreground m t fun p => p.2 = j ∧ p.1 < 8 ∧ 8 ≤ p.1 + n) ?_ ?_
  · refine ⟨fun p hp hd => ?_, fun p hp hd => hrun.kept p hp fun hd' => hd hd'.1, hrun.video⟩
    exact hrun.changed p hp ⟨hd, (inCell_iff.mp hp).2, Nat.le_add_left _ _⟩
  · exact Masked.refl foreground m fun p ⟨_, hlt, hle⟩ => by omega
  · intro n hn t ht
    have hn8 : n < 8 := hn
    rw [UInt32.zero_add]
    refine (ht.trans (masked_invertPixel foreground t hn8 hj) ?_).congr fun p => ?_
    · rintro p ⟨-, -, hle⟩ rfl
      omega
    · rw [Prod.ext_iff]
      simp only
      omega

/-- **The loops over the glyph** change every pixel of the cell with its mask. -/
theorem masked_invertGlyph (foreground : UInt32) (m : Memory Region) :
    Masked foreground m (invertGlyph foreground m) fun _ => True := by
  have hrun := @forLoop_inv (Memory Region) 0 efiGlyphHeight
    (fun posY m => forLoop 0 efiGlyphWidth (fun posX m => invertPixel foreground posX posY m) m) m
    (fun n t => Masked foreground m t fun p => p.2 < n) ?_ ?_
  · exact ⟨fun p hp _ => hrun.changed p hp (inCell_iff.mp hp).1, fun _ _ hd => absurd trivial hd,
      hrun.video⟩
  · exact Masked.refl foreground m fun p => Nat.not_lt_zero _
  · intro n hn t ht
    rw [UInt32.zero_add]
    refine (ht.trans (masked_line foreground t hn) ?_).congr fun p => Nat.lt_succ_iff_lt_or_eq
    intro p hlt heq
    omega

/-! ## Drawing the cursor -/

/-- The memory after the cell at a corner has been read. -/
def readCell (corner : Corner) (m : Memory Region) : Memory Region :=
  (videoToBltBuffer simpleFbConfigure m corner.1 corner.2 0 0 efiGlyphWidth efiGlyphHeight
    glyphDelta).2

section

variable {corner : Corner} {p : ℕ × ℕ}

/-- The cell in the buffer, byte by byte. -/
theorem bytes_readCell
    (hchecks : simpleFbConfigure.rectangleChecks [corner] efiGlyphWidth efiGlyphHeight = true)
    (m : Memory Region) (hp : InCell p) {k : ℕ} (hk : k < 4) :
    (readCell corner m).bytes .bltBuffer (cellOffset p + UInt32.ofNat k)
      = Word.byte (expandColor simpleFbConfigure
          (Memory.halfAt (m.bytes .video)
            (pixelAddress simpleFbConfigure corner p)).toUInt32) k := by
  have hwritten := @videoToBltBuffer_written simpleFbConfigure (0, 0) m rfl (by decide) corner
    efiGlyphWidth efiGlyphHeight glyphDelta (by decide) hchecks (by decide)
    (fun p => Word.byte (expandColor simpleFbConfigure
      (Memory.halfAt (m.bytes .video) (pixelAddress simpleFbConfigure corner p)).toUInt32))
    fun j _ => expands_halfAt corner (m.bytes .video) efiGlyphWidth.toNat j
  have hwhere : (cellOffset p + UInt32.ofNat k - cellOffset p).toNat = k := toNat_byte_sub _ hk
  refine hwritten.eq hp (show (cellOffset p + UInt32.ofNat k - cellOffset p).toNat < 4 by
    rw [hwhere]; exact hk) fun q hq hreach => ?_
  obtain rfl := cellOffset_apart hp hq hk hreach
  exact congrArg _ hwhere

/-- A colour of which the bytes are known. -/
theorem colorAt_of_bytes {buffer : UInt32 → UInt8} {pixel word : UInt32}
    (h : ∀ k < 4, buffer (pixel + UInt32.ofNat k) = Word.byte word k) :
    colorAt buffer pixel = packWord word := by
  have hblue : buffer (pixel + 0) = Word.byte word 0 := h 0 (by decide)
  have hgreen : buffer (pixel + 1) = Word.byte word 1 := h 1 (by decide)
  have hred : buffer (pixel + 2) = Word.byte word 2 := h 2 (by decide)
  rw [UInt32.add_zero] at hblue
  unfold colorAt packWord
  rw [hred, hgreen, hblue]

/-- The colours of the cell once it is changed: those of the screen, changed. -/
theorem colorAt_invertGlyph
    (hchecks : simpleFbConfigure.rectangleChecks [corner] efiGlyphWidth efiGlyphHeight = true)
    (foreground : UInt32) (m : Memory Region) (hp : InCell p) :
    colorAt ((invertGlyph foreground (readCell corner m)).bytes .bltBuffer) (cellOffset p)
      = Memory.halfAt (m.bytes .video) (pixelAddress simpleFbConfigure corner p)
        ^^^ packWord (cursorMask foreground p) := by
  have hbytes : ∀ k < 4, (invertGlyph foreground (readCell corner m)).bytes .bltBuffer
        (cellOffset p + UInt32.ofNat k)
      = Word.byte (expandColor simpleFbConfigure (Memory.halfAt (m.bytes .video)
          (pixelAddress simpleFbConfigure corner p)).toUInt32 ^^^ cursorMask foreground p) k := by
    intro k hk
    rw [(masked_invertGlyph foreground (readCell corner m)).changed p hp trivial k hk,
      bytes_readCell hchecks m hp hk, Word.byte_xor]
  rw [colorAt_of_bytes hbytes, packWord_xor, pack_expandColor]

end

/-- **What is drawn**: where the cell passes the checks the cursor is the screen with
its pixels inverted, and elsewhere it is not drawn. -/
theorem flushCursor_video (dev : GraphicsConsoleDev) {current : SimpleTextOutputMode}
    (hvisible : current.cursorVisible = true) (stack : UInt32 → UInt8) (m : Memory Region) :
    (flushCursor dev current stack m).2.bytes .video
      = if simpleFbConfigure.rectangleChecks [glyphCorner dev current] efiGlyphWidth
          efiGlyphHeight = true then
          inverted simpleFbConfigure (glyphCorner dev current)
            (fun i j => packWord (cursorMask (getTextColors current).1.raw (i, j)))
            efiGlyphWidth.toNat efiGlyphHeight.toNat (m.bytes .video)
        else m.bytes .video := by
  have hcalls : (flushCursor dev current stack m).2
      = (bufferToVideo simpleFbConfigure (invertGlyph (getTextColors current).1.raw
        (readCell (glyphCorner dev current) (onStack stack m))) 0 0 (glyphCorner dev current).1
        (glyphCorner dev current).2 efiGlyphWidth efiGlyphHeight glyphDelta).2 := by
    unfold flushCursor
    rw [hvisible]
    rfl
  rw [hcalls]
  generalize glyphCorner dev current = corner
  generalize (getTextColors current).1.raw = foreground
  have hentry : (onStack stack m).bytes .video = m.bytes .video := rfl
  have hscreen : (invertGlyph foreground (readCell corner (onStack stack m))).bytes .video
      = m.bytes .video :=
    (masked_invertGlyph foreground _).video.trans (videoToBltBuffer_video _ _ _ _ _ _ _ _ _)
  split
  · rename_i hchecks
    obtain ⟨-, hvideo, -⟩ := @bufferToVideo_video simpleFbConfigure
      (invertGlyph foreground (readCell corner (onStack stack m))) corner (0, 0) glyphDelta
      efiGlyphWidth efiGlyphHeight hchecks (by decide) (by decide)
    have hdelta : rowDelta glyphDelta efiGlyphWidth = glyphDelta := by decide
    rw [hscreen, hdelta] at hvideo
    refine hvideo.trans (paint_congr (fun i hi j hj => ?_) _)
    have hcolor := colorAt_invertGlyph hchecks foreground (onStack stack m)
      (inCell_iff.mpr (show (i, j).2 < 19 ∧ (i, j).1 < 8 from ⟨hj, hi⟩))
    rw [hentry] at hcolor
    exact hcolor
  · rename_i hchecks
    unfold bufferToVideo
    rw [if_neg hchecks]
    exact hscreen

/-- **Flushing the cursor twice** with the same mode leaves the frame buffer as it
was, whatever is on it, wherever the cursor is and whatever the stack holds at the
two calls. -/
theorem flushCursor_twice (dev : GraphicsConsoleDev) (current : SimpleTextOutputMode)
    (stack stack' : UInt32 → UInt8) (m : Memory Region) :
    (flushCursor dev current stack' (flushCursor dev current stack m).2).2.bytes .video
      = m.bytes .video := by
  cases hvisible : current.cursorVisible with
  | false =>
    unfold flushCursor
    rw [hvisible]
    rfl
  | true =>
    rw [flushCursor_video dev hvisible stack', flushCursor_video dev hvisible stack]
    split
    · exact inverted_inverted (screenApart_simpleFb _ (by decide) (by decide)) _ _
    · rfl

end GraphicsConsole
