import HtcLeo.FrameBuffer.SerialPortBounds

/-!
# What the serial console draws

The glyph routine runs a pointer over the frame buffer, first once over the cell
for the background and then once more for the bits of the character. Here it is
said what the screen looks like afterwards: a `Picture` has a colour for each
pixel, and a character in a cell changes the pixels of the cell as its glyph has
them (`drawglyph_painting`).

The pointer is followed as in the bounds of the routine, by the number of the pixel
it is at, counted line by line, and with it the picture of what has been drawn so
far.
-/

namespace FrameBufferSerialPort

/-! ## Pictures -/

/-- A picture: the colour of each pixel, by its column and line. -/
abbrev Picture : Type := ℕ → ℕ → UInt16

/-- The pixel of a character: five bits for each of its lines, six lines to a word
of the font. -/
def glyphPixel (c : UInt8) (x y : ℕ) : Bool :=
  Word.bit (font5x12.getD ((c.toNat - 32) * 2 + y / 6) 0) (5 * (y % 6) + x)

/-- **The picture with a character in a cell.** Cells are twelve pixels high and six
wide, the last of them left as it is. -/
def Picture.drawn (screen : Picture) (foreground background : UInt16) (c : UInt8)
    (column row : ℕ) : Picture := fun x y =>
  if x / 6 = column ∧ x % 6 < 5 ∧ y / 12 = row then
    if glyphPixel c (x % 6) (y % 12) then foreground else background
  else screen x y

/-- The empty page. -/
def Picture.black : Picture := fun _ _ => 0

/-- The pixel of the frame buffer in a column and line of the screen. -/
def pixel (m : Memory FbRegion) (x y : ℕ) : UInt16 :=
  Memory.halfAt (m.bytes .frameBuffer) (frameBufferAddress + UInt32.ofNat (2 * (240 * y + x)))

/-- **The pointer is at pixel `k`**, the screen looks as the picture does, and the
font is in its place. -/
structure Painting (k : ℕ) (f : Picture) (s : Pixels) : Prop where
  pointer : s.1 = frameBufferAddress + UInt32.ofNat (2 * k)
  screen : ∀ x < 240, ∀ y < 320, pixel s.2 x y = f x y
  font : s.2.bytes .font = fontBytes

section

variable {k : ℕ} {f f' : Picture} {s : Pixels}

theorem Painting.congr (h : Painting k f s) (hf : ∀ x < 240, ∀ y < 320, f' x y = f x y) :
    Painting k f' s :=
  ⟨h.pointer, fun x hx y hy => (h.screen x hx y hy).trans (hf x hx y hy).symm, h.font⟩

/-- The pointer moves up. -/
theorem Painting.skip (h : Painting k f s) {d : UInt32} {n : ℕ} (hd : d.toNat = 2 * n) :
    Painting (k + n) f (s.1 + d, s.2) where
  pointer := by
    rw [h.pointer, UInt32.add_assoc, Nat.mul_add, UInt32.ofNat_add, ← hd, UInt32.ofNat_toNat]
  screen := h.screen
  font := h.font

/-- Two bytes written at the pointer, seen from a byte of the screen. -/
theorem bytes_writeColor (h : Painting k f s) (hk : k < 76800) (color : UInt32) {n : ℕ}
    (hn : n < 153600) :
    (writeColor color (gBpp / 8) s).2.bytes .frameBuffer (frameBufferAddress + UInt32.ofNat n)
      = if n = 2 * k then color.toUInt8 else if n = 2 * k + 1 then (color >>> 8).toUInt8
        else s.2.bytes .frameBuffer (frameBufferAddress + UInt32.ofNat n) := by
  have hwrite : writeColor color (gBpp / 8) s
      = (s.1 + 1 + 1, (s.2.write8 .frameBuffer s.1 color.toUInt8).write8 .frameBuffer (s.1 + 1)
          (color >>> 8).toUInt8) := rfl
  have hwhere : ∀ l < 153601, (frameBufferAddress + UInt32.ofNat n
      - (frameBufferAddress + UInt32.ofNat l)).toNat < 1 ↔ n = l := by
    intro l hl
    have hdiff : frameBufferAddress + UInt32.ofNat n - (frameBufferAddress + UInt32.ofNat l)
        = UInt32.ofNat n - UInt32.ofNat l := by grind
    rw [hdiff, UInt32.toNat_sub, UInt32.toNat_ofNat', UInt32.toNat_ofNat']
    omega
  have hnext : s.1 + 1 = frameBufferAddress + UInt32.ofNat (2 * k + 1) := by
    rw [h.pointer, UInt32.ofNat_add, ← UInt32.add_assoc]
    rfl
  rw [hwrite]
  unfold Memory.write8
  simp only
  rw [Memory.bytes_store_self, Memory.bytes_store_self, hnext, h.pointer]
  unfold Memory.overwrite
  rw [if_congr (hwhere _ (by omega)) rfl (if_congr (hwhere _ (by omega)) rfl rfl)]
  by_cases hlow : n = 2 * k
  · rw [if_pos hlow, if_neg (by omega), if_pos hlow]
  · rw [if_neg hlow, if_neg hlow]

/-- **A pixel is drawn.** -/
theorem writeColor_painting (h : Painting k f s) (hk : k < 76800) (color : UInt32) :
    Painting (k + 1) (fun x y => if 240 * y + x = k then color.toUInt16 else f x y)
      (writeColor color (gBpp / 8) s) where
  pointer := by
    have hmoved : (writeColor color (gBpp / 8) s).1 = s.1 + 2 := by
      show s.1 + 1 + 1 = _
      rw [UInt32.add_assoc]
      rfl
    rw [hmoved, h.pointer, UInt32.add_assoc, Nat.mul_add, UInt32.ofNat_add]
    rfl
  screen x hx y hy := by
    have hlow := bytes_writeColor h hk color (n := 2 * (240 * y + x)) (by omega)
    have hhigh := bytes_writeColor h hk color (n := 2 * (240 * y + x) + 1) (by omega)
    rw [UInt32.ofNat_add, ← UInt32.add_assoc, show UInt32.ofNat 1 = 1 from rfl] at hhigh
    by_cases heq : 240 * y + x = k
    · have hbyte : (color >>> 8).toUInt8.toNat = color.toNat / 256 % 256 := by
        rw [UInt32.toNat_toUInt8, UInt32.toNat_shiftRight, Nat.shiftRight_eq_div_pow]
        rfl
      rw [if_pos (by omega)] at hlow
      rw [if_neg (by omega), if_pos (by omega)] at hhigh
      rw [if_pos heq, ← UInt16.toNat_inj, pixel, Memory.toNat_halfAt, hlow, hhigh, hbyte,
        UInt32.toNat_toUInt8, UInt32.toNat_toUInt16]
      omega
    · rw [if_neg (by omega), if_neg (by omega)] at hlow hhigh
      rw [if_neg heq, ← h.screen x hx y hy]
      exact Memory.halfAt_congr hlow hhigh
  font := h.font

end

/-! ## The page cleared -/

/-- The picture with its first `k` pixels black. -/
def Picture.blackUpTo (f : Picture) (k : ℕ) : Picture := fun x y =>
  if 240 * y + x < k then 0 else f x y

/-- One pixel more. -/
theorem writeColor_blackUpTo {k : ℕ} {f : Picture} {s : Pixels}
    (h : Painting k (f.blackUpTo k) s) (hk : k < 76800) :
    Painting (k + 1) (f.blackUpTo (k + 1)) (writeColor fbRgb565Black (gBpp / 8) s) := by
  refine (writeColor_painting h hk fbRgb565Black).congr fun x _ y _ => ?_
  unfold Picture.blackUpTo
  by_cases hlast : 240 * y + x = k
  · rw [if_pos (by omega), if_pos hlast]
    rfl
  · rw [if_neg hlast]
    exact if_congr (by omega) rfl rfl

/-- `ResetFb` leaves the empty page. -/
theorem resetFb_painting {f : Picture} {m : Memory FbRegion}
    (h : Painting 0 f (frameBufferAddress, m)) :
    (∀ x < 240, ∀ y < 320, pixel (resetFb m) x y = 0) ∧ (resetFb m).bytes .font = fontBytes := by
  have hstart : Painting 0 (f.blackUpTo 0) (frameBufferAddress, m) :=
    h.congr fun x _ y _ => if_neg (Nat.not_lt_zero _)
  have hpage : Painting (240 * 320) (f.blackUpTo (240 * 320))
      (forLoop 0 gWidth (fun _ s => forLoop 0 gHeight (fun _ s =>
        writeColor fbRgb565Black (gBpp / 8) s) s) (frameBufferAddress, m)) := by
    refine forLoop_count (show gWidth.toNat = 240 from rfl) (fun i t =>
      Painting (i * 320) (f.blackUpTo (i * 320)) t) (by rwa [Nat.zero_mul]) fun i hi _ t ht => ?_
    rw [show (i + 1) * 320 = i * 320 + 320 from Nat.succ_mul i 320]
    refine forLoop_count (show gHeight.toNat = 320 from rfl) (fun j t =>
      Painting (i * 320 + j) (f.blackUpTo (i * 320 + j)) t) (by rwa [Nat.add_zero])
      fun j hj _ u hu => ?_
    rw [show i * 320 + (j + 1) = i * 320 + j + 1 from (Nat.add_assoc _ _ _).symm]
    exact writeColor_blackUpTo hu (by omega)
  unfold resetFb
  generalize forLoop 0 gWidth _ _ = page at hpage ⊢
  refine ⟨fun x hx y hy => (hpage.screen x hx y hy).trans ?_, hpage.font⟩
  exact if_pos (by omega)

/-! ## A glyph -/

/-- **Half a cell being gone over**, from its corner on: the picture with the first
`r` of its six rows of five pixels changed, and the first `i` pixels of the next. -/
def Picture.half (f : Picture) (left top : ℕ) (color : Picture) (r i : ℕ) : Picture := fun x y =>
  if (left ≤ x ∧ x < left + 5) ∧ top ≤ y ∧ y < top + r
      ∨ y = top + r ∧ left ≤ x ∧ x < left + i then color x y
  else f x y

section

variable {f color : Picture} {left top r i : ℕ}

theorem half_zero (x y : ℕ) : f.half left top color 0 0 x y = f x y :=
  if_neg (by omega)

theorem half_row (x y : ℕ) : f.half left top color (r + 1) 0 x y = f.half left top color r 5 x y :=
  if_congr (by omega) rfl rfl

/-- One pixel more. -/
theorem half_pixel {x : ℕ} (hx : x < 240) (hi : left + i < 240) (y : ℕ) :
    f.half left top color r (i + 1) x y
      = if 240 * y + x = 240 * (top + r) + left + i then color x y
        else f.half left top color r i x y := by
  unfold Picture.half
  by_cases hlast : 240 * y + x = 240 * (top + r) + left + i
  · rw [if_pos (by omega), if_pos hlast]
  · rw [if_neg hlast]
    exact if_congr (by omega) rfl rfl

/-- A pixel that has not been gone over. -/
theorem half_ahead {x y : ℕ} (hx : x < 240) (hi : left + i < 240)
    (h : 240 * y + x = 240 * (top + r) + left + i) : f.half left top color r i x y = f x y := by
  have hline : y = top + r := by omega
  exact if_neg (by omega)

/-- **The loops over half a cell.** `data` is what the state has besides the pointer
and the memory, after a number of pixels; a turn of the inner loop does one pixel,
and the end of a row moves the pointer to the next. -/
theorem half_painting {σ : Type} (pixels : σ → Pixels) (data : ℕ → σ → Prop)
    (pixelBody rowEnd : σ → σ) {s : σ}
    (hpixel : ∀ r < 6, ∀ i < 5, ∀ u, data (5 * r + i) u →
      Painting (240 * (top + r) + left + i) (f.half left top color r i) (pixels u) →
      data (5 * r + i + 1) (pixelBody u) ∧ Painting (240 * (top + r) + left + i + 1)
        (f.half left top color r (i + 1)) (pixels (pixelBody u)))
    (hrow : ∀ n u, data n u → data n (rowEnd u)
      ∧ pixels (rowEnd u) = ((pixels u).1 + (gWidth - fontWidth * defaultScaleFactor) * (gBpp / 8),
        (pixels u).2))
    (hdata : data 0 s) (h : Painting (240 * top + left) f (pixels s)) :
    Painting (240 * (top + 6) + left) (f.half left top color 6 0)
      (pixels (forLoop 0 (fontHeight / 2) (fun _ s =>
        rowEnd (forLoop 0 fontWidth (fun _ s => pixelBody s) s)) s)) := by
  refine (forLoop_count (show (fontHeight / 2).toNat = 6 from rfl) (fun r t => data (5 * r) t
    ∧ Painting (240 * (top + r) + left) (f.half left top color r 0) (pixels t)) ?_ ?_).2
  · exact ⟨hdata, h.congr fun x _ y _ => half_zero x y⟩
  · rintro r hr - t ⟨htdata, ht⟩
    obtain ⟨hudata, hu⟩ := @forLoop_count σ fontWidth 5 rfl (fun _ s => pixelBody s) t
      (fun i u => data (5 * r + i) u
        ∧ Painting (240 * (top + r) + left + i) (f.half left top color r i) (pixels u))
      ⟨htdata, ht⟩ fun i hi _ u hu => hpixel r hr i hi u hu.1 hu.2
    obtain ⟨hnext, hmoved⟩ := hrow _ _ hudata
    refine ⟨hnext, ?_⟩
    rw [hmoved]
    have hskip := hu.skip (n := 235)
      (d := (gWidth - fontWidth * defaultScaleFactor) * (gBpp / 8)) rfl
    rw [show 240 * (top + r) + left + 5 + 235 = 240 * (top + (r + 1)) + left by omega] at hskip
    exact hskip.congr fun x _ y _ => half_row x y

/-- Half of the background. -/
theorem clearHalf_painting {s : Pixels} (h : Painting (240 * top + left) f s)
    (hleft : left + 5 ≤ 240) (htop : top + 6 ≤ 320) (c : FbConColor) :
    Painting (240 * (top + 6) + left) (f.half left top (fun _ _ => c.background.toUInt16) 6 0)
      (clearHalf c (gWidth - fontWidth * defaultScaleFactor) (gBpp / 8) defaultScaleFactor s) := by
  refine half_painting id (fun _ _ => True) (fun s => writeColor c.background (gBpp / 8) s)
    (fun s => (s.1 + (gWidth - fontWidth * defaultScaleFactor) * (gBpp / 8), s.2))
    (fun r hr i hi u _ hu => ⟨trivial, ?_⟩) (fun _ _ _ => ⟨trivial, rfl⟩) trivial h
  exact (writeColor_painting hu (by omega) c.background).congr fun x hx y _ =>
    half_pixel hx (by omega) y

/-- The data of a word of the font after a number of pixels: what is left of it. -/
def Rest (word : UInt32) (n : ℕ) (s : UInt32 × Pixels) : Prop := s.1.toNat = word.toNat / 2 ^ n

/-- The lowest bit of what is left. -/
theorem Rest.bit {word : UInt32} {n : ℕ} {s : UInt32 × Pixels} (h : Rest word n s) :
    s.1 &&& 1 ≠ 0 ↔ Word.bit word n = true := by
  have hlow : s.1 &&& 1 ≠ 0 ↔ s.1.toNat % 2 = 1 := by
    rw [ne_eq, ← UInt32.toNat_inj, UInt32.toNat_and]
    show ¬ s.1.toNat &&& 1 = 0 ↔ _
    rw [Nat.and_one_is_mod]
    omega
  have hbit : Word.bit word n = word.toNat.testBit n := rfl
  rw [hlow, hbit, h, Nat.testBit_eq_decide_div_mod_eq, decide_eq_true_iff]

/-- Half of the glyph: a word of the font, bit by bit. -/
theorem drawHalf_painting {s : Pixels} (h : Painting (240 * top + left) f s)
    (hleft : left + 5 ≤ 240) (htop : top + 6 ≤ 320) (c : FbConColor) (word : UInt32) :
    Painting (240 * (top + 6) + left) (f.half left top (fun x y =>
        if Word.bit word (5 * (y - top) + (x - left)) then c.foreground.toUInt16 else f x y) 6 0)
      (drawHalf c (gWidth - fontWidth * defaultScaleFactor) (gBpp / 8) defaultScaleFactor word
        s) := by
  refine half_painting (fun t : UInt32 × Pixels => t.2) (Rest word)
    (fun t => drawPixel c (gBpp / 8) defaultScaleFactor t)
    (fun t => (t.1, (t.2.1 + (gWidth - fontWidth * defaultScaleFactor) * (gBpp / 8), t.2.2)))
    (fun r hr i hi u hdata hu => ⟨?_, ?_⟩)
    (fun n u hdata => ⟨show u.1.toNat = word.toNat / 2 ^ n from hdata, rfl⟩)
    (Nat.div_one _).symm h
  · show (u.1 >>> 1).toNat = _
    rw [UInt32.toNat_shiftRight, hdata]
    show (word.toNat / 2 ^ (5 * r + i)) >>> 1 = _
    rw [Nat.shiftRight_eq_div_pow, Nat.pow_succ 2 (5 * r + i), ← Nat.div_div_eq_div_mul]
  · have hwhere : ∀ x y, 240 * y + x = 240 * (top + r) + left + i → x < 240 →
        5 * (y - top) + (x - left) = 5 * r + i := by omega
    unfold drawPixel
    dsimp only
    split
    · rename_i hbit
      refine (writeColor_painting hu (by omega) c.foreground).congr fun x hx y _ => ?_
      rw [half_pixel hx (by omega)]
      split
      · rename_i heq
        rw [hwhere x y heq hx, if_pos (hdata.bit.mp hbit)]
      · rfl
    · rename_i hbit
      have hskip := hu.skip (n := 1) (d := gBpp / 8) rfl
      refine hskip.congr fun x hx y _ => ?_
      rw [half_pixel hx (by omega)]
      split
      · rename_i heq
        rw [hwhere x y heq hx, if_neg (mt hdata.bit.mpr hbit), half_ahead hx (by omega) heq]
      · rfl

end

/-- A word of the font, read where it is. -/
theorem read32_font {m : Memory FbRegion} (h : m.bytes .font = fontBytes) {index : UInt32}
    (hindex : index.toNat * 4 + 4 ≤ fontSize) :
    (m.read32 .font (index * 4)).1 = font5x12.getD index.toNat 0 := by
  have hsize := fontSize_eq
  refine (Word.ofBytes_congr fun k hk => ?_).trans (Word.ofBytes_byte _)
  have hwhere : (index * 4 + UInt32.ofNat k).toNat = index.toNat * 4 + k := by
    rw [UInt32.toNat_add, UInt32.toNat_mul, UInt32.toNat_ofNat']
    show (index.toNat * 4 % 2 ^ 32 + k % 2 ^ 32) % 2 ^ 32 = _
    omega
  show m.bytes .font (index * 4 + UInt32.ofNat k) = _
  rw [h]
  unfold fontBytes
  rw [hwhere, show (index.toNat * 4 + k) / 4 = index.toNat by omega,
    show (index.toNat * 4 + k) % 4 = k by omega]

/-- Half a cell gone over. -/
theorem half_six {f color : Picture} {left top x y : ℕ} :
    f.half left top color 6 0 x y
      = if (left ≤ x ∧ x < left + 5) ∧ top ≤ y ∧ y < top + 6 then color x y else f x y :=
  if_congr (by omega) rfl rfl

section

variable {f : Picture} {column row : ℕ}

/-- The picture with a cell of it cleared. -/
def Picture.cleared (f : Picture) (background : UInt16) (column row : ℕ) : Picture :=
  (f.half (6 * column) (12 * row) (fun _ _ => background) 6 0).half (6 * column) (12 * row + 6)
    (fun _ _ => background) 6 0

/-- The picture with half a cell drawn over by a word of the font. -/
def Picture.word (f : Picture) (foreground : UInt16) (word : UInt32) (left top : ℕ) : Picture :=
  f.half left top (fun x y =>
    if Word.bit word (5 * (y - top) + (x - left)) then foreground else f x y) 6 0

/-- The cell with both halves cleared, and then both drawn. -/
theorem drawn_eq (foreground background : UInt16) (c : UInt8) (x y : ℕ) :
    f.drawn foreground background c column row x y
      = (((f.cleared background column row).word foreground
          (font5x12.getD ((c.toNat - 32) * 2) 0) (6 * column) (12 * row)).word foreground
          (font5x12.getD ((c.toNat - 32) * 2 + 1) 0) (6 * column) (12 * row + 6)) x y := by
  unfold Picture.word Picture.cleared Picture.drawn glyphPixel
  simp only [half_six]
  by_cases hcell : x / 6 = column ∧ x % 6 < 5 ∧ y / 12 = row
  · have hcolumn : 6 * column ≤ x ∧ x < 6 * column + 5 := by omega
    have hx : x % 6 = x - 6 * column := by omega
    rw [if_pos hcell]
    by_cases hhalf : y % 12 < 6
    · have hupper : 12 * row ≤ y ∧ y < 12 * row + 6 := by omega
      have hlower : ¬ (12 * row + 6 ≤ y ∧ y < 12 * row + 6 + 6) := by omega
      have hy : y % 12 / 6 = 0 ∧ y % 12 % 6 = y - 12 * row := by omega
      simp only [hcolumn, hupper, hlower, hx, hy, and_self, and_false, if_true, if_false,
        Nat.add_zero]
    · have hupper : ¬ (12 * row ≤ y ∧ y < 12 * row + 6) := by omega
      have hlower : 12 * row + 6 ≤ y ∧ y < 12 * row + 6 + 6 := by omega
      have hy : y % 12 / 6 = 1 ∧ y % 12 % 6 = y - (12 * row + 6) := by omega
      simp only [hcolumn, hupper, hlower, hx, hy, and_self, and_false, if_true, if_false]
  · have hupper : ¬ ((6 * column ≤ x ∧ x < 6 * column + 5) ∧ 12 * row ≤ y ∧ y < 12 * row + 6) := by
      omega
    have hlower : ¬ ((6 * column ≤ x ∧ x < 6 * column + 5)
        ∧ 12 * row + 6 ≤ y ∧ y < 12 * row + 6 + 6) := by omega
    simp only [if_neg hcell, if_neg hupper, if_neg hlower]

/-- **A character drawn.** The glyph routine changes the picture as the glyph of the
character has it, where the cell is on the screen. -/
theorem drawglyph_painting {m : Memory FbRegion} {c : UInt8} {pixels : UInt32}
    (h : Painting (240 * (12 * row) + 6 * column) f (pixels, m)) (hcolumn : column < 40)
    (hrow : row < 25) (hlow : 32 ≤ c.toNat) (hhigh : c.toNat ≤ 127) (color : FbConColor) :
    (∀ x < 240, ∀ y < 320, pixel (fbConDrawglyph color pixels gWidth (gBpp / 8)
        ((c.toUInt32 - 32) * 2) defaultScaleFactor m) x y
      = f.drawn color.foreground.toUInt16 color.background.toUInt16 c column row x y)
    ∧ (fbConDrawglyph color pixels gWidth (gBpp / 8) ((c.toUInt32 - 32) * 2) defaultScaleFactor
        m).bytes .font = fontBytes := by
  have hfont := fontSize_eq
  have hglyph : ((c.toUInt32 - 32) * 2).toNat = (c.toNat - 32) * 2 :=
    toNat_glyph (by rw [UInt8.lt_iff_toNat_lt]; exact Nat.not_lt.mpr hlow)
  have hnext : ((c.toUInt32 - 32) * 2 + 1).toNat = (c.toNat - 32) * 2 + 1 := by
    rw [UInt32.toNat_add, hglyph]
    exact Nat.mod_eq_of_lt (show (c.toNat - 32) * 2 + 1 < 2 ^ 32 by omega)
  generalize (c.toUInt32 - 32) * 2 = glyph at hglyph hnext ⊢
  unfold fbConDrawglyph
  dsimp only
  have hcleared := clearHalf_painting (clearHalf_painting h (by omega) (by omega) color) (by omega)
    (by omega) color
  generalize clearHalf color _ _ _ (clearHalf color _ _ _ _) = cleared at hcleared ⊢
  have hupper : Painting (240 * (12 * row) + 6 * column)
      (f.cleared color.background.toUInt16 column row)
      (pixels, (cleared.2.read32 .font (glyph * 4)).2) :=
    ⟨h.pointer, hcleared.screen, hcleared.font⟩
  have hdrawn := drawHalf_painting hupper (by omega) (by omega) color
    (cleared.2.read32 .font (glyph * 4)).1
  rw [read32_font hcleared.font (by omega), hglyph] at hdrawn
  rw [read32_font hcleared.font (by omega), hglyph]
  generalize drawHalf color _ _ _ _ _ = drawn at hdrawn ⊢
  have hlower : Painting (240 * (12 * row + 6) + 6 * column)
      ((f.cleared color.background.toUInt16 column row).word color.foreground.toUInt16
        (font5x12.getD ((c.toNat - 32) * 2) 0) (6 * column) (12 * row))
      (drawn.1, (drawn.2.read32 .font ((glyph + 1) * 4)).2) :=
    ⟨hdrawn.pointer, hdrawn.screen, hdrawn.font⟩
  have hdone := drawHalf_painting hlower (by omega) (by omega) color
    (drawn.2.read32 .font ((glyph + 1) * 4)).1
  rw [read32_font hdrawn.font (by omega), hnext] at hdone
  rw [read32_font hdrawn.font (by omega), hnext]
  refine ⟨fun x hx y hy => (hdone.screen x hx y hy).trans ?_, hdone.font⟩
  exact (drawn_eq _ _ c x y).symm

end

end FrameBufferSerialPort
