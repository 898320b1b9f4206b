import HtcLeo.FrameBuffer.Paint

/-!
# To the screen and back

A pixel on its way to the screen is packed into sixteen bits with fixed shifts.
On its way back it is read as a word of four bytes, of which the first two are
the pixel and the others whatever follows it, and taken apart with the masks
and shift amounts of the configuration. On the device the two fit together:
what comes back is the colour with the bits that sixteen have no room for
cleared (`expandColor_pack`).

So a rectangle that is drawn and read back is kept but for these bits, and drawn
and read back once more it stays as it is, as long as its pixels in the caller's
buffer have addresses of their own (`roundTrip_iff`). In a buffer that lies in
the address space they always have (`roundTrip_of_fits`).
-/

namespace FrameBufferBlt

open FrameBufferConfigure

/-! ## One pixel -/

/-- Bits `shift` to `shift + n - 1` of a number. -/
theorem and_mask (x n shift : ℕ) :
    x &&& ((2 ^ n - 1) <<< shift) = x / 2 ^ shift % 2 ^ n * 2 ^ shift := by
  apply Nat.eq_of_testBit_eq
  intro j
  rw [← Nat.shiftLeft_eq, Nat.testBit_and, Nat.testBit_shiftLeft, Nat.testBit_shiftLeft,
    Nat.testBit_two_pow_sub_one, Nat.testBit_mod_two_pow, Nat.testBit_div_two_pow]
  by_cases hj : shift ≤ j
  · rw [Nat.sub_add_cancel hj]
    simp [hj, Bool.and_comm]
  · simp [hj]

/-- A packed colour, as a number. -/
theorem toNat_packColor (red green blue : UInt8) :
    (packColor red green blue).toNat
      = red.toNat / 8 * 2048 + green.toNat / 4 * 32 + blue.toNat / 8 := by
  have hred : red.toNat / 8 < 2 ^ 5 := by have := red.toNat_lt; omega
  have hgreen : green.toNat / 4 < 2 ^ 6 := by have := green.toNat_lt; omega
  have hblue : blue.toNat / 8 < 2 ^ 5 := by have := blue.toNat_lt; omega
  have hlow : 2 ^ 5 * (green.toNat / 4) + blue.toNat / 8 < 2 ^ 11 := by omega
  unfold packColor
  rw [UInt16.toNat_or, UInt16.toNat_or, UInt16.toNat_shiftLeft, UInt16.toNat_shiftLeft,
    UInt8.toNat_toUInt16, UInt8.toNat_toUInt16, UInt8.toNat_toUInt16, UInt8.toNat_shiftRight,
    UInt8.toNat_shiftRight, UInt8.toNat_shiftRight]
  show red.toNat >>> 3 <<< 11 % 2 ^ 16 ||| green.toNat >>> 2 <<< 5 % 2 ^ 16 ||| blue.toNat >>> 3 = _
  rw [Nat.shiftRight_eq_div_pow, Nat.shiftRight_eq_div_pow, Nat.shiftRight_eq_div_pow,
    Nat.shiftLeft_eq, Nat.shiftLeft_eq, Nat.mod_eq_of_lt (by omega), Nat.mod_eq_of_lt (by omega),
    Nat.or_assoc, Nat.mul_comm _ (2 ^ 11), Nat.mul_comm _ (2 ^ 5),
    ← Nat.two_pow_add_eq_or_of_lt hblue, ← Nat.two_pow_add_eq_or_of_lt hlow]
  omega

/-- The shift amounts of the device: everything goes up, by eight, five and three. -/
theorem simpleFb_shifts :
    (∀ i, simpleFbConfigure.pixelShl i = 0) ∧ simpleFbConfigure.pixelShr 0 = 8
      ∧ simpleFbConfigure.pixelShr 1 = 5 ∧ simpleFbConfigure.pixelShr 2 = 3 := by
  decide

/-- A component of a word of the line buffer, moved to its place. -/
theorem toNat_component (word mask shr : UInt32) (n shift : ℕ)
    (hmask : mask.toNat = (2 ^ n - 1) <<< shift)
    (hroom : shift + n + shr.toNat % 32 ≤ 32) :
    ((word &&& mask) >>> 0 <<< shr).toNat
      = 2 ^ (shift + shr.toNat % 32) * (word.toNat / 2 ^ shift % 2 ^ n) := by
  have hlt : word.toNat / 2 ^ shift % 2 ^ n < 2 ^ n := Nat.mod_lt _ (Nat.two_pow_pos n)
  have hbound : word.toNat / 2 ^ shift % 2 ^ n * 2 ^ shift * 2 ^ (shr.toNat % 32) < 2 ^ 32 := by
    have hpos : 0 < 2 ^ (shift + shr.toNat % 32) := Nat.two_pow_pos _
    calc word.toNat / 2 ^ shift % 2 ^ n * 2 ^ shift * 2 ^ (shr.toNat % 32)
        = word.toNat / 2 ^ shift % 2 ^ n * 2 ^ (shift + shr.toNat % 32) := by
          rw [Nat.mul_assoc, ← Nat.pow_add]
      _ < 2 ^ n * 2 ^ (shift + shr.toNat % 32) := Nat.mul_lt_mul_of_pos_right hlt hpos
      _ = 2 ^ (shift + n + shr.toNat % 32) := by
          rw [← Nat.pow_add]
          congr 1
          omega
      _ ≤ 2 ^ 32 := Nat.pow_le_pow_right (by decide) hroom
  rw [UInt32.toNat_shiftLeft, UInt32.toNat_shiftRight, UInt32.toNat_and, hmask, and_mask]
  show (_ * 2 ^ shift) >>> 0 <<< _ % 2 ^ 32 = _
  rw [Nat.shiftRight_zero, Nat.shiftLeft_eq, Nat.mod_eq_of_lt hbound, Nat.mul_assoc, ← Nat.pow_add,
    Nat.mul_comm]

/-- A word of the line buffer taken apart, as a number. -/
theorem toNat_expandColor (word : UInt32) :
    (expandColor simpleFbConfigure word).toNat
      = word.toNat / 2048 % 32 * 2 ^ 19 + word.toNat / 32 % 64 * 2 ^ 10 + word.toNat % 32 * 8 := by
  obtain ⟨hshl, hred, hgreen, hblue⟩ := simpleFb_shifts
  have hred5 : word.toNat / 2 ^ 11 % 2 ^ 5 < 2 ^ 5 := Nat.mod_lt _ (by decide)
  have hgreen6 : word.toNat / 2 ^ 5 % 2 ^ 6 < 2 ^ 6 := Nat.mod_lt _ (by decide)
  have hblue5 : word.toNat / 2 ^ 0 % 2 ^ 5 < 2 ^ 5 := Nat.mod_lt _ (by decide)
  have hlow : 2 ^ 3 * (word.toNat / 2 ^ 0 % 2 ^ 5) < 2 ^ 10 := by omega
  have hmid : 2 ^ 10 * (word.toNat / 2 ^ 5 % 2 ^ 6) + 2 ^ 3 * (word.toNat / 2 ^ 0 % 2 ^ 5)
      < 2 ^ 19 := by
    omega
  unfold expandColor
  simp only
  rw [hshl, hshl, hshl, hred, hgreen, hblue, UInt32.toNat_or, UInt32.toNat_or,
    toNat_component word _ 8 5 11 rfl (by decide), toNat_component word _ 5 6 5 rfl (by decide),
    toNat_component word _ 3 5 0 rfl (by decide)]
  show 2 ^ 19 * (word.toNat / 2 ^ 11 % 2 ^ 5) ||| 2 ^ 10 * (word.toNat / 2 ^ 5 % 2 ^ 6)
    ||| 2 ^ 3 * (word.toNat / 2 ^ 0 % 2 ^ 5) = _
  rw [Nat.or_assoc, ← Nat.two_pow_add_eq_or_of_lt hlow, ← Nat.two_pow_add_eq_or_of_lt hmid]
  omega

/-- What is left of the 32-bit pixel at an offset once it was packed: byte `k` of it. -/
def degraded (buffer : UInt32 → UInt8) (pixel : UInt32) : ℕ → UInt8
  | 0 => buffer pixel &&& 0xf8
  | 1 => buffer (pixel + 1) &&& 0xfc
  | 2 => buffer (pixel + 2) &&& 0xf8
  | _ => 0

/-- The upper bits of a byte. -/
theorem toNat_and_f8 (b : UInt8) : (b &&& 0xf8).toNat = b.toNat / 8 * 8 := by
  have hlt := b.toNat_lt
  rw [UInt8.toNat_and, show (0xf8 : UInt8).toNat = (2 ^ 5 - 1) <<< 3 from rfl, and_mask]
  omega

theorem toNat_and_fc (b : UInt8) : (b &&& 0xfc).toNat = b.toNat / 4 * 4 := by
  have hlt := b.toNat_lt
  rw [UInt8.toNat_and, show (0xfc : UInt8).toNat = (2 ^ 6 - 1) <<< 2 from rfl, and_mask]
  omega

/-- The bytes of a word with its components in place. -/
theorem bytes_of_components {red green blue : ℕ} (hred : red < 32) (hgreen : green < 64)
    (hblue : blue < 32) :
    (red * 2 ^ 19 + green * 2 ^ 10 + blue * 8) / 256 ^ 0 % 2 ^ 8 = blue * 8
      ∧ (red * 2 ^ 19 + green * 2 ^ 10 + blue * 8) / 256 ^ 1 % 2 ^ 8 = green * 4
      ∧ (red * 2 ^ 19 + green * 2 ^ 10 + blue * 8) / 256 ^ 2 % 2 ^ 8 = red * 8
      ∧ (red * 2 ^ 19 + green * 2 ^ 10 + blue * 8) / 256 ^ 3 % 2 ^ 8 = 0 := by
  refine ⟨?_, ?_, ?_, ?_⟩ <;> omega

/-- **Packed and taken apart again**, a pixel keeps the bits there is room for,
whatever the two bytes behind it are. -/
theorem expandColor_pack (buffer : UInt32 → UInt8) (pixel : UInt32) {bytes : ℕ → UInt8}
    (hbytes : ∀ k < 2, bytes k = Word.byte (colorAt buffer pixel).toUInt32 k) {k : ℕ} (hk : k < 4) :
    Word.byte (expandColor simpleFbConfigure (Word.ofBytes bytes)) k = degraded buffer pixel k := by
  have hred := (buffer (pixel + 2)).toNat_lt
  have hgreen := (buffer (pixel + 1)).toNat_lt
  have hblue := (buffer pixel).toNat_lt
  have hcolor : (colorAt buffer pixel).toUInt32.toNat = (buffer (pixel + 2)).toNat / 8 * 2048
      + (buffer (pixel + 1)).toNat / 4 * 32 + (buffer pixel).toNat / 8 := by
    rw [UInt16.toNat_toUInt32]
    exact toNat_packColor _ _ _
  have hlow := congrArg UInt8.toNat (hbytes 0 (by decide))
  have hhigh := congrArg UInt8.toNat (hbytes 1 (by decide))
  unfold Word.byte at hlow hhigh
  rw [UInt8.toNat_ofNat', hcolor] at hlow hhigh
  have hword := Word.toNat_ofBytes_low bytes
  have hred5 : (Word.ofBytes bytes).toNat / 2048 % 32 = (buffer (pixel + 2)).toNat / 8 := by omega
  have hgreen6 : (Word.ofBytes bytes).toNat / 32 % 64 = (buffer (pixel + 1)).toNat / 4 := by omega
  have hblue5 : (Word.ofBytes bytes).toNat % 32 = (buffer pixel).toNat / 8 := by omega
  obtain ⟨hbyte0, hbyte1, hbyte2, hbyte3⟩ := bytes_of_components
    (show (buffer (pixel + 2)).toNat / 8 < 32 by omega)
    (show (buffer (pixel + 1)).toNat / 4 < 64 by omega)
    (show (buffer pixel).toNat / 8 < 32 by omega)
  apply UInt8.toNat_inj.mp
  unfold Word.byte
  rw [UInt8.toNat_ofNat', toNat_expandColor, hred5, hgreen6, hblue5]
  obtain rfl | rfl | rfl | rfl : k = 0 ∨ k = 1 ∨ k = 2 ∨ k = 3 := by omega
  · rw [hbyte0]
    exact (toNat_and_f8 _).symm
  · rw [hbyte1]
    exact (toNat_and_fc _).symm
  · rw [hbyte2]
    exact (toNat_and_f8 _).symm
  · rw [hbyte3]
    rfl

/-! ## All pixels of a rectangle -/

/-- The pixels, given by their column and line, of the first `j` lines and of `n`
columns of the next. -/
def drawn (width j n : ℕ) (p : ℕ × ℕ) : Prop := (p.2 < j ∧ p.1 < width) ∨ (p.2 = j ∧ p.1 < n)

theorem not_drawn (width : ℕ) (p : ℕ × ℕ) : ¬ drawn width 0 0 p := by
  rintro (⟨hlt, -⟩ | ⟨-, hlt⟩)
  · exact Nat.not_lt_zero _ hlt
  · exact Nat.not_lt_zero _ hlt

theorem drawn_succ {width j n : ℕ} (p : ℕ × ℕ) :
    drawn width j (n + 1) p ↔ drawn width j n p ∨ p = (n, j) := by
  unfold drawn
  rw [Prod.ext_iff]
  simp only
  omega

theorem drawn_nextLine {width j : ℕ} (p : ℕ × ℕ) :
    drawn width (j + 1) 0 p ↔ drawn width j width p := by
  unfold drawn
  omega

/-- All pixels of a rectangle. -/
theorem drawn_all {width height : ℕ} {p : ℕ × ℕ} :
    drawn width height 0 p ↔ p.2 < height ∧ p.1 < width := by
  unfold drawn
  omega

/-- The address on the screen of a pixel of a rectangle. -/
def pixelAddress (c : FrameBufferConfigure) (corner : Corner) (p : ℕ × ℕ) : UInt32 :=
  c.rowStart corner p.2 + UInt32.ofNat p.1 * c.bytesPerPixel

section

variable {c : FrameBufferConfigure} {corner : Corner}

/-- **A painting** is a number of writes, one for each pixel. -/
theorem paint_written (colors : ℕ → ℕ → UInt16) (width height : ℕ) (screen : UInt32 → UInt8) :
    Memory.Written screen (pixelAddress c corner) 2
      (fun p => Word.byte (colors p.1 p.2).toUInt32) (drawn width height 0)
      (paint c corner colors width height screen) := by
  induction height with
  | zero => exact Memory.written_start (not_drawn width)
  | succ j ih =>
    refine Memory.Written.congr ?_ drawn_nextLine
    have hline : ∀ n, Memory.Written screen (pixelAddress c corner) 2
        (fun p => Word.byte (colors p.1 p.2).toUInt32) (drawn width j n)
        (paintLine c corner colors j n (paint c corner colors width j screen)) := by
      intro n
      induction n with
      | zero => exact ih
      | succ n ihn => exact ihn.overwrite (p := (n, j)) (fun _ _ => rfl) drawn_succ
    exact hline width

variable {m : Memory Region}

/-- A line put into the line buffer, byte by byte. -/
theorem lineBuffer_copied (m : Memory Region) (source : UInt32) {i b n : ℕ} (hb : i * 2 + b < n)
    (hn : n < 2 ^ 32) :
    (m.copyMem .lineBuffer 0 .video source n).bytes .lineBuffer
        (UInt32.ofNat i * 2 + UInt32.ofNat b)
      = m.bytes .video (source + UInt32.ofNat (i * 2 + b)) := by
  have hoffset : (UInt32.ofNat i * 2 + UInt32.ofNat b - 0).toNat = i * 2 + b := by
    rw [UInt32.sub_zero, UInt32.toNat_add, toNat_pixelOffset, UInt32.toNat_ofNat']
    omega
  show ((m.load .video source n).2.store .lineBuffer 0 n _).bytes .lineBuffer _ = _
  rw [Memory.bytes_store_self]
  unfold Memory.overwrite
  rw [hoffset, if_pos hb]
  rfl

/-- A copy of a line leaves the other two regions. -/
theorem copied_rest (m : Memory Region) (source : UInt32) (n : ℕ) {region : Region}
    (h : region ≠ .lineBuffer) :
    (m.copyMem .lineBuffer 0 .video source n).bytes region = m.bytes region :=
  Memory.bytes_store_of_ne _ h _ _ _

/-- A pixel written to the caller's buffer. -/
theorem bytes_write32_blt (m : Memory Region) (address value : UInt32) :
    (m.write32 .bltBuffer address value).bytes .bltBuffer
        = Memory.overwrite (m.bytes .bltBuffer) address 4 (Word.byte value)
      ∧ ∀ region ≠ Region.bltBuffer,
        (m.write32 .bltBuffer address value).bytes region = m.bytes region :=
  ⟨m.bytes_store_self .bltBuffer address 4 _,
    fun _ h => m.bytes_store_of_ne h address 4 _⟩

/-- A pixel written to the caller's buffer is one write more. -/
theorem written_write32 {m : Memory Region} {before : UInt32 → UInt8} {address : ℕ × ℕ → UInt32}
    {f : ℕ × ℕ → ℕ → UInt8} {done done' : ℕ × ℕ → Prop} (p : ℕ × ℕ) {value : UInt32}
    (h : Memory.Written before address 4 f done (m.bytes .bltBuffer))
    (hvalue : ∀ k < 4, Word.byte value k = f p k) (hdone : ∀ q, done' q ↔ done q ∨ q = p) :
    Memory.Written before address 4 f done'
      ((m.write32 .bltBuffer (address p) value).bytes .bltBuffer) := by
  rw [(bytes_write32_blt m (address p) value).1]
  exact h.overwrite hvalue hdone

/-- What is expected of the pixels that are read: that whatever two bytes come
behind the two of pixel `i`, its word is taken apart into the bytes `f i`. -/
def Expands (c : FrameBufferConfigure) (screen : UInt32 → UInt8) (line : UInt32) (width : ℕ)
    (f : ℕ → ℕ → UInt8) : Prop :=
  ∀ i < width, ∀ bytes : ℕ → UInt8,
    (∀ b < 2, bytes b = screen (line + UInt32.ofNat (i * 2 + b))) →
    ∀ k < 4, Word.byte (expandColor c (Word.ofBytes bytes)) k = f i k

/-- **Copying one line from the screen** writes its pixels, one after the other. -/
theorem videoToBltBufferRow_written (hbytes : c.bytesPerPixel = 2)
    (hformat : c.pixelFormat ≠ .pixelBlueGreenRedReserved8BitPerColor)
    {sourceX width delta srcY dstY : UInt32} (hwidth : width.toNat * 2 < 2 ^ 32)
    {before : UInt32 → UInt8} {f : ℕ × ℕ → ℕ → UInt8} {k : ℕ}
    (hline : dstY = corner.2 + UInt32.ofNat k)
    (hexpands : Expands c (m.bytes .video) (c.address sourceX srcY) width.toNat fun i => f (i, k))
    (h : Memory.Written before (fun p => pixelOffset corner delta p.1 p.2) 4 f
      (drawn width.toNat k 0) (m.bytes .bltBuffer)) :
    Memory.Written before (fun p => pixelOffset corner delta p.1 p.2) 4 f
        (drawn width.toNat k width.toNat)
        ((videoToBltBufferRow c sourceX corner.1 width delta srcY dstY m).bytes .bltBuffer)
      ∧ (videoToBltBufferRow c sourceX corner.1 width delta srcY dstY m).bytes .video
        = m.bytes .video := by
  unfold videoToBltBufferRow
  simp only
  rw [if_neg hformat, hbytes]
  have hn : (width * 2).toNat = width.toNat * 2 := by
    rw [UInt32.toNat_mul]
    exact Nat.mod_eq_of_lt hwidth
  have hcopied : ∀ i < width.toNat, ∀ b < 2,
      (m.copyMem .lineBuffer 0 .video (c.address sourceX srcY) (width.toNat * 2)).bytes .lineBuffer
          (UInt32.ofNat i * 2 + UInt32.ofNat b)
        = m.bytes .video (c.address sourceX srcY + UInt32.ofNat (i * 2 + b)) :=
    fun i hi b hb => lineBuffer_copied m _ (by omega) hwidth
  rw [← copied_rest m (c.address sourceX srcY) (width.toNat * 2) (by decide)] at h
  have hvideo := copied_rest m (c.address sourceX srcY) (width.toNat * 2)
    (show Region.video ≠ .lineBuffer by decide)
  rw [hn]
  generalize m.copyMem .lineBuffer 0 .video (c.address sourceX srcY) (width.toNat * 2) = start
    at hcopied h hvideo ⊢
  have hrun := @forLoop_inv (Memory Region) 0 width
    (fun indexX t => (t.read32 .lineBuffer (indexX * 2)).2.write32 .bltBuffer
      (dstY * delta + (corner.1 + indexX) * 4)
      (expandColor c (t.read32 .lineBuffer (indexX * 2)).1)) start
    (fun i t => t.bytes .lineBuffer = start.bytes .lineBuffer
      ∧ Memory.Written before (fun p => pixelOffset corner delta p.1 p.2) 4 f
          (drawn width.toNat k i) (t.bytes .bltBuffer)
      ∧ t.bytes .video = start.bytes .video)
    ?_ ?_
  · rw [UInt32.toNat_zero, Nat.sub_zero] at hrun
    exact ⟨hrun.2.1, hrun.2.2.trans hvideo⟩
  · exact ⟨rfl, h, rfl⟩
  · rintro i hi t ⟨hbuffer, hwritten, hkept⟩
    rw [UInt32.toNat_zero, Nat.sub_zero] at hi
    have hrest := (bytes_write32_blt (t.read32 .lineBuffer (UInt32.ofNat i * 2)).2
      (pixelOffset corner delta i k)
      (expandColor c (t.read32 .lineBuffer (UInt32.ofNat i * 2)).1)).2
    have hvalue : ∀ b < 4,
        Word.byte (expandColor c (t.read32 .lineBuffer (UInt32.ofNat i * 2)).1) b
          = f (i, k) b := by
      refine hexpands i hi _ fun b hb => ?_
      show t.bytes .lineBuffer (UInt32.ofNat i * 2 + UInt32.ofNat b) = _
      rw [hbuffer]
      exact hcopied i hi b hb
    have hwrite := written_write32 (m := (t.read32 .lineBuffer (UInt32.ofNat i * 2)).2) (i, k)
      hwritten hvalue drawn_succ
    rw [UInt32.zero_add, hline]
    exact ⟨(hrest .lineBuffer (by decide)).trans hbuffer, hwrite,
      (hrest .video (by decide)).trans hkept⟩

/-- **A copy from the screen** writes the pixels of its rectangle, if the last line
of the destination has a number. -/
theorem videoToBltBuffer_written (hbytes : c.bytesPerPixel = 2)
    (hformat : c.pixelFormat ≠ .pixelBlueGreenRedReserved8BitPerColor) (source : Corner)
    {width height : UInt32} (delta : UInt32) (hwidth : width.toNat * 2 < 2 ^ 32)
    (hchecks : c.rectangleChecks [source] width height = true)
    (hrows : corner.2.toNat + height.toNat < 2 ^ 32) {f : ℕ × ℕ → ℕ → UInt8}
    (hexpands : ∀ k < height.toNat,
      Expands c (m.bytes .video) (c.rowStart source k) width.toNat fun i => f (i, k)) :
    Memory.Written (m.bytes .bltBuffer)
      (fun p => pixelOffset corner (rowDelta delta width) p.1 p.2) 4 f
      (drawn width.toNat height.toNat 0)
      ((videoToBltBuffer c m source.1 source.2 corner.1 corner.2 width height delta).2.bytes
        .bltBuffer) := by
  have hturns : (height + corner.2).toNat - corner.2.toNat = height.toNat := by
    rw [toNat_add_of_lt (by omega)]
    omega
  unfold videoToBltBuffer
  rw [if_pos hchecks]
  have hrun := @forLoop_inv (UInt32 × Memory Region) corner.2 (height + corner.2)
    (fun dstY s => (s.1 + 1, videoToBltBufferRow c source.1 corner.1 width
      (rowDelta delta width) s.1 dstY s.2))
    (source.2, m)
    (fun k s => s.1 = source.2 + UInt32.ofNat k
      ∧ s.2.bytes .video = m.bytes .video
      ∧ Memory.Written (m.bytes .bltBuffer)
          (fun p => pixelOffset corner (rowDelta delta width) p.1 p.2) 4 f
          (drawn width.toNat k 0) (s.2.bytes .bltBuffer))
    ?_ ?_
  · rw [hturns] at hrun
    exact hrun.2.2
  · exact ⟨(UInt32.add_zero source.2).symm, rfl, Memory.written_start (not_drawn _)⟩
  · rintro k hk s ⟨hline, hvideo, hwritten⟩
    rw [hturns] at hk
    have hread := hexpands k hk
    rw [← hvideo, ← address_add, ← hline] at hread
    obtain ⟨hnext, hkept⟩ := videoToBltBufferRow_written hbytes hformat hwidth rfl hread hwritten
    refine ⟨?_, hkept.trans hvideo, hnext.congr drawn_nextLine⟩
    rw [add_ofNat_succ, ← hline]

end

/-! ## The screen of the device -/

/-- A pixel of a rectangle within the screen of the device, as a number. -/
theorem toNat_pixelAddress {corner : Corner} {width height : UInt32}
    (hinside : InsideScreen simpleFbConfigure corner width height) {p : ℕ × ℕ}
    (hp : drawn width.toNat height.toNat 0 p) :
    (pixelAddress simpleFbConfigure corner p).toNat
      = 0x2a00000 + (480 * (corner.2.toNat + p.2) + 2 * (corner.1.toNat + p.1))
    ∧ corner.1.toNat + p.1 < 240 ∧ corner.2.toNat + p.2 < 320 := by
  obtain ⟨hline, hcolumn⟩ := drawn_all.mp hp
  obtain ⟨hheight, hwidth⟩ := hinside
  have h240 : simpleFbConfigure.width.toNat = 240 := rfl
  have h320 : simpleFbConfigure.height.toNat = 320 := rfl
  have hx : corner.1.toNat + p.1 < 240 := by omega
  have hy : corner.2.toNat + p.2 < 320 := by omega
  refine ⟨?_, hx, hy⟩
  have hbyte := simpleFbConfigure.byteOf_eq corner p.1 p.2 0
  have haddress : pixelAddress simpleFbConfigure corner p
      = simpleFbConfigure.byteOf (corner.1.toNat + p.1) (corner.2.toNat + p.2) 0 := by
    rw [hbyte, Nat.add_zero, UInt32.ofNat_mul, UInt32.ofNat_toNat]
    rfl
  rw [haddress]
  show (0x2a00000 + UInt32.ofNat (2 * ((corner.2.toNat + p.2) * 240 + (corner.1.toNat + p.1)) + 0)
    : UInt32).toNat = _
  rw [UInt32.toNat_add, UInt32.toNat_ofNat']
  show (0x2a00000 + _ % 2 ^ 32) % 2 ^ 32 = _
  omega

/-- **No two pixels of a rectangle** within the screen of the device share a byte. -/
theorem pixel_of_byte {corner : Corner} {width height : UInt32}
    (hinside : InsideScreen simpleFbConfigure corner width height) {p q : ℕ × ℕ}
    (hp : drawn width.toNat height.toNat 0 p) (hq : drawn width.toNat height.toNat 0 q) {b : ℕ}
    (hb : b < 2)
    (hreach : (pixelAddress simpleFbConfigure corner p + UInt32.ofNat b
      - pixelAddress simpleFbConfigure corner q).toNat < 2) : q = p := by
  obtain ⟨hpixel, hpx, hpy⟩ := toNat_pixelAddress hinside hp
  obtain ⟨hother, hqx, hqy⟩ := toNat_pixelAddress hinside hq
  rw [UInt32.toNat_sub, UInt32.toNat_add, hpixel, hother, UInt32.toNat_ofNat'] at hreach
  have hpos : 240 * (corner.2.toNat + q.2) + (corner.1.toNat + q.1)
      = 240 * (corner.2.toNat + p.2) + (corner.1.toNat + p.1) := by
    have hlt : 240 * (corner.2.toNat + p.2) + (corner.1.toNat + p.1) < 76800 := by omega
    have hlt' : 240 * (corner.2.toNat + q.2) + (corner.1.toNat + q.1) < 76800 := by omega
    rw [show 480 * (corner.2.toNat + p.2) + 2 * (corner.1.toNat + p.1)
        = 2 * (240 * (corner.2.toNat + p.2) + (corner.1.toNat + p.1)) by omega,
      show 480 * (corner.2.toNat + q.2) + 2 * (corner.1.toNat + q.1)
        = 2 * (240 * (corner.2.toNat + q.2) + (corner.1.toNat + q.1)) by omega] at hreach
    generalize 240 * (corner.2.toNat + p.2) + (corner.1.toNat + p.1) = P at hlt hreach ⊢
    generalize 240 * (corner.2.toNat + q.2) + (corner.1.toNat + q.1) = Q at hlt' hreach ⊢
    omega
  have hline : q.2 = p.2 := by omega
  have hcolumn : q.1 = p.1 := by omega
  exact Prod.ext hcolumn hline

/-- **What a copy to the screen leaves is read back** pixel by pixel. -/
theorem expands_drawn {corner : Corner} {width height : UInt32}
    (hinside : InsideScreen simpleFbConfigure corner width height) (buffer : UInt32 → UInt8)
    (source : Corner) (delta : UInt32) (screen : UInt32 → UInt8) {j : ℕ} (hj : j < height.toNat) :
    Expands simpleFbConfigure
      (paint simpleFbConfigure corner (bufferColors buffer source delta) width.toNat height.toNat
        screen)
      (simpleFbConfigure.rowStart corner j) width.toNat
      fun i => degraded buffer (pixelOffset source delta i j) := by
  intro i hi bytes hbytes k hk
  refine expandColor_pack buffer _ (fun b hb => ?_) hk
  have hp : drawn width.toNat height.toNat 0 (i, j) := drawn_all.mpr ⟨hj, hi⟩
  have haddress : simpleFbConfigure.rowStart corner j + UInt32.ofNat (i * 2 + b)
      = pixelAddress simpleFbConfigure corner (i, j) + UInt32.ofNat b := by
    rw [UInt32.ofNat_add, UInt32.ofNat_mul, ← UInt32.add_assoc]
    rfl
  have hwhere : (pixelAddress simpleFbConfigure corner (i, j) + UInt32.ofNat b
      - pixelAddress simpleFbConfigure corner (i, j)).toNat = b := by
    rw [UInt32.add_comm, UInt32.add_sub_cancel, UInt32.toNat_ofNat']
    omega
  rw [hbytes b hb, haddress]
  refine (paint_written _ _ _ screen).eq hp (by rw [hwhere]; exact hb) fun q hq hreach => ?_
  rw [pixel_of_byte hinside hp hq hb hreach, hwhere]
  rfl

/-! ## There and back -/

/-- The memory after a copy of a rectangle of the caller's buffer to the screen of
the device and a copy back to where it came from. -/
def roundTrip (m : Memory Region) (screen buffer : Corner) (width height delta : UInt32) :
    Memory Region :=
  (videoToBltBuffer simpleFbConfigure
    (bufferToVideo simpleFbConfigure m buffer.1 buffer.2 screen.1 screen.2 width height delta).2
    screen.1 screen.2 buffer.1 buffer.2 width height delta).2

section

variable {m : Memory Region} {screen buffer : Corner} {width height delta : UInt32}

/-- **A round trip** writes each pixel of the rectangle of the buffer, with what is
left of its colour. -/
theorem roundTrip_written (hinside : InsideScreen simpleFbConfigure screen width height)
    (hwidth : 0 < width.toNat) (hheight : 0 < height.toNat)
    (hrows : buffer.2.toNat + height.toNat < 2 ^ 32) :
    Memory.Written (m.bytes .bltBuffer)
      (fun p => pixelOffset buffer (rowDelta delta width) p.1 p.2) 4
      (fun p => degraded (m.bytes .bltBuffer) (pixelOffset buffer (rowDelta delta width) p.1 p.2))
      (drawn width.toNat height.toNat 0)
      ((roundTrip m screen buffer width height delta).bytes .bltBuffer) := by
  have hchecks : simpleFbConfigure.rectangleChecks [screen] width height = true :=
    rectangleChecks_of_inside (List.forall_mem_singleton.mpr hinside) hwidth hheight
  have hline : width.toNat * 2 < 2 ^ 32 := by
    have h240 : simpleFbConfigure.width.toNat = 240 := rfl
    have hle := hinside.2
    omega
  obtain ⟨-, hvideo, hblt⟩ := bufferToVideo_video (m := m) screen buffer delta hchecks (by decide)
    hrows
  have hback := videoToBltBuffer_written rfl (by decide) screen delta hline hchecks hrows
    (m := (bufferToVideo simpleFbConfigure m buffer.1 buffer.2 screen.1 screen.2 width height
      delta).2)
    (f := fun p => degraded (m.bytes .bltBuffer)
      (pixelOffset buffer (rowDelta delta width) p.1 p.2)) fun k hk => by
      rw [hvideo]
      exact expands_drawn hinside _ _ _ _ hk
  rw [hblt] at hback
  exact hback

/-- Two pixels of the rectangle of the buffer are the same or have no byte in common. -/
def PixelsApart (buffer : Corner) (delta width height : UInt32) : Prop :=
  ∀ p q, drawn width.toNat height.toNat 0 p → drawn width.toNat height.toNat 0 q →
    pixelOffset buffer delta q.1 q.2 ≠ pixelOffset buffer delta p.1 p.2 → ∀ x,
      (x - pixelOffset buffer delta p.1 p.2).toNat < 4 →
      ¬ (x - pixelOffset buffer delta q.1 q.2).toNat < 4

/-- **What a round trip does to the buffer**: each pixel of the rectangle is left
with the upper bits of its colours and a zero behind them, no other byte changes,
and a second round trip changes nothing. -/
structure RoundTrip (m : Memory Region) (screen buffer : Corner) (width height delta : UInt32) :
    Prop where
  pixel : ∀ p, drawn width.toNat height.toNat 0 p → ∀ k < 4,
    (roundTrip m screen buffer width height delta).bytes .bltBuffer
        (pixelOffset buffer (rowDelta delta width) p.1 p.2 + UInt32.ofNat k)
      = degraded (m.bytes .bltBuffer) (pixelOffset buffer (rowDelta delta width) p.1 p.2) k
  frame : ∀ x, (∀ p, drawn width.toNat height.toNat 0 p →
      ¬ (x - pixelOffset buffer (rowDelta delta width) p.1 p.2).toNat < 4) →
    (roundTrip m screen buffer width height delta).bytes .bltBuffer x = m.bytes .bltBuffer x
  again : (roundTrip (roundTrip m screen buffer width height delta) screen buffer width height
      delta).bytes .bltBuffer
    = (roundTrip m screen buffer width height delta).bytes .bltBuffer

/-- Byte `k` of a pixel, as a distance from where the pixel starts. -/
theorem toNat_byte_sub (pixel : UInt32) {k : ℕ} (hk : k < 4) :
    (pixel + UInt32.ofNat k - pixel).toNat = k := by
  rw [UInt32.add_comm, UInt32.add_sub_cancel, UInt32.toNat_ofNat']
  omega

/-- What has no lower bits loses none. -/
theorem degraded_degraded {before after : UInt32 → UInt8} {pixel : UInt32}
    (h : ∀ k < 4, after (pixel + UInt32.ofNat k) = degraded before pixel k) {k : ℕ} (hk : k < 4) :
    degraded after pixel k = degraded before pixel k := by
  have h0 : after (pixel + 0) = before pixel &&& 0xf8 := h 0 (by decide)
  have h1 : after (pixel + 1) = before (pixel + 1) &&& 0xfc := h 1 (by decide)
  have h2 : after (pixel + 2) = before (pixel + 2) &&& 0xf8 := h 2 (by decide)
  rw [UInt32.add_zero] at h0
  obtain rfl | rfl | rfl | rfl : k = 0 ∨ k = 1 ∨ k = 2 ∨ k = 3 := by omega
  · show after pixel &&& 0xf8 = before pixel &&& 0xf8
    rw [h0, UInt8.and_assoc]
    rfl
  · show after (pixel + 1) &&& 0xfc = before (pixel + 1) &&& 0xfc
    rw [h1, UInt8.and_assoc]
    rfl
  · show after (pixel + 2) &&& 0xf8 = before (pixel + 2) &&& 0xf8
    rw [h2, UInt8.and_assoc]
    rfl
  · rfl

/-- Pixels that are apart come back as they should. -/
theorem roundTrip_once (hinside : InsideScreen simpleFbConfigure screen width height)
    (hwidth : 0 < width.toNat) (hheight : 0 < height.toNat)
    (hrows : buffer.2.toNat + height.toNat < 2 ^ 32)
    (hapart : PixelsApart buffer (rowDelta delta width) width height) (m : Memory Region) :
    (∀ p, drawn width.toNat height.toNat 0 p → ∀ k < 4,
      (roundTrip m screen buffer width height delta).bytes .bltBuffer
          (pixelOffset buffer (rowDelta delta width) p.1 p.2 + UInt32.ofNat k)
        = degraded (m.bytes .bltBuffer) (pixelOffset buffer (rowDelta delta width) p.1 p.2) k)
    ∧ ∀ x, (∀ p, drawn width.toNat height.toNat 0 p →
        ¬ (x - pixelOffset buffer (rowDelta delta width) p.1 p.2).toNat < 4) →
      (roundTrip m screen buffer width height delta).bytes .bltBuffer x
        = m.bytes .bltBuffer x := by
  have hwritten := @roundTrip_written m screen buffer width height delta hinside hwidth hheight
    hrows
  refine ⟨fun p hp k hk => ?_, fun x hx => hwritten.eq_before hx⟩
  have hwhere := toNat_byte_sub (pixelOffset buffer (rowDelta delta width) p.1 p.2) hk
  refine hwritten.eq hp (by rw [hwhere]; exact hk) fun q hq hreach => ?_
  by_cases hsame : pixelOffset buffer (rowDelta delta width) q.1 q.2
      = pixelOffset buffer (rowDelta delta width) p.1 p.2
  · rw [hsame, hwhere]
  · exact absurd hreach (hapart p q hp hq hsame _ (by rw [hwhere]; exact hk))

/-- A second round trip changes nothing. -/
theorem roundTrip_again (hinside : InsideScreen simpleFbConfigure screen width height)
    (hwidth : 0 < width.toNat) (hheight : 0 < height.toNat)
    (hrows : buffer.2.toNat + height.toNat < 2 ^ 32)
    (hapart : PixelsApart buffer (rowDelta delta width) width height) (m : Memory Region) :
    (roundTrip (roundTrip m screen buffer width height delta) screen buffer width height
        delta).bytes .bltBuffer
      = (roundTrip m screen buffer width height delta).bytes .bltBuffer := by
  obtain ⟨hfirst, -⟩ := roundTrip_once hinside hwidth hheight hrows hapart m
  obtain ⟨hsecond, hframe⟩ := roundTrip_once hinside hwidth hheight hrows hapart
    (roundTrip m screen buffer width height delta)
  funext x
  by_cases hx : ∃ p, drawn width.toNat height.toNat 0 p
      ∧ (x - pixelOffset buffer (rowDelta delta width) p.1 p.2).toNat < 4
  · obtain ⟨p, hp, hlt⟩ := hx
    obtain ⟨k, hk, rfl⟩ := mem_span.mp hlt
    rw [hsecond p hp k hk, hfirst p hp k hk]
    exact degraded_degraded (hfirst p hp) hk
  · exact hframe x fun p hp hlt => hx ⟨p, hp, hlt⟩

/-- Neither way does anything. -/
theorem roundTrip_of_idle
    (hthere : (bufferToVideo simpleFbConfigure m buffer.1 buffer.2 screen.1 screen.2 width height
      delta).2 = m)
    (hback : (videoToBltBuffer simpleFbConfigure m screen.1 screen.2 buffer.1 buffer.2 width height
      delta).2 = m) : roundTrip m screen buffer width height delta = m := by
  unfold roundTrip
  rw [hthere, hback]

/-- A rectangle without pixels is rejected on both ways. -/
theorem roundTrip_of_empty (h : width.toNat = 0 ∨ height.toNat = 0) (m : Memory Region) :
    roundTrip m screen buffer width height delta = m := by
  have hreject : ¬ simpleFbConfigure.rectangleChecks [screen] width height = true := by
    intro hchecks
    obtain ⟨-, hwidth, hheight⟩ := rectangleChecks_iff.mp hchecks
    omega
  refine roundTrip_of_idle ?_ ?_
  · unfold bufferToVideo
    rw [if_neg hreject]
  · unfold videoToBltBuffer
    rw [if_neg hreject]

/-- Rows without a number are not copied, either way. -/
theorem roundTrip_of_wrap (h : 2 ^ 32 ≤ buffer.2.toNat + height.toNat) (m : Memory Region) :
    roundTrip m screen buffer width height delta = m := by
  have hnone : ¬ buffer.2 < height + buffer.2 := by
    rw [UInt32.lt_iff_toNat_lt, UInt32.toNat_add]
    have hheight := height.toNat_lt
    have hcorner := buffer.2.toNat_lt
    omega
  refine roundTrip_of_idle ?_ ?_
  · unfold bufferToVideo
    split
    · rw [forLoop_eq, if_neg hnone]
    · rfl
  · unfold videoToBltBuffer
    split
    · rw [forLoop_eq, if_neg hnone]
    · rfl

/-- The memory in which every byte has all its bits set. -/
def allOnes : Memory Region := ⟨fun _ _ => 0xff, []⟩

/-- Of a pixel of it the colours leave something, and the fourth byte nothing. -/
theorem degraded_allOnes (pixel : UInt32) :
    degraded (allOnes.bytes .bltBuffer) pixel 3 = 0
      ∧ ∀ k < 3, degraded (allOnes.bytes .bltBuffer) pixel k ≠ 0 := by
  refine ⟨rfl, fun k hk => ?_⟩
  obtain rfl | rfl | rfl : k = 0 ∨ k = 1 ∨ k = 2 := by omega
  · show (0xff : UInt8) &&& 0xf8 ≠ 0
    decide
  · show (0xff : UInt8) &&& 0xfc ≠ 0
    decide
  · show (0xff : UInt8) &&& 0xf8 ≠ 0
    decide

/-- Pixels that come back from a buffer of ones do not overlap by part: the fourth
byte of the one would be a colour of the other. -/
theorem RoundTrip.not_behind (h : RoundTrip allOnes screen buffer width height delta)
    {p q : ℕ × ℕ} (hp : drawn width.toNat height.toNat 0 p)
    (hq : drawn width.toNat height.toNat 0 q) {s : ℕ} (h0 : 0 < s) (h4 : s < 4) :
    pixelOffset buffer (rowDelta delta width) q.1 q.2
      ≠ pixelOffset buffer (rowDelta delta width) p.1 p.2 + UInt32.ofNat s := by
  intro hbehind
  have hlast := h.pixel p hp 3 (by decide)
  have hcolor := h.pixel q hq (3 - s) (by omega)
  have hsum : s + (3 - s) = 3 := by omega
  rw [hbehind, UInt32.add_assoc, ← UInt32.ofNat_add, hsum, hlast, ← hbehind,
    (degraded_allOnes _).1] at hcolor
  exact (degraded_allOnes _).2 (3 - s) (by omega) hcolor.symm

theorem RoundTrip.pixelsApart (h : RoundTrip allOnes screen buffer width height delta) :
    PixelsApart buffer (rowDelta delta width) width height := by
  intro p q hp hq hne x hpx hqx
  obtain ⟨k, hk, rfl⟩ := mem_span.mp hpx
  obtain ⟨l, hl, hx⟩ := mem_span.mp hqx
  have hshift : ∀ (a b : UInt32) (m n : ℕ), m ≤ n → a + UInt32.ofNat n = b + UInt32.ofNat m →
      b = a + UInt32.ofNat (n - m) := by
    intro a b m n hle heq
    have hn : UInt32.ofNat n = UInt32.ofNat (n - m) + UInt32.ofNat m := by
      rw [← UInt32.ofNat_add, Nat.sub_add_cancel hle]
    rw [hn, ← UInt32.add_assoc] at heq
    exact (UInt32.add_left_inj _).mp heq.symm
  rcases Nat.lt_trichotomy l k with hlt | heq | hlt
  · exact h.not_behind hp hq (Nat.sub_pos_of_lt hlt) (by omega) (hshift _ _ l k (by omega) hx)
  · rw [heq] at hx
    exact hne ((UInt32.add_left_inj _).mp hx.symm)
  · exact h.not_behind hq hp (Nat.sub_pos_of_lt hlt) (by omega) (hshift _ _ k l (by omega) hx.symm)

/-- The rows of a rectangle that comes back from a buffer of ones have numbers. -/
theorem RoundTrip.rows (h : RoundTrip allOnes screen buffer width height delta)
    (hwidth : 0 < width.toNat) (hheight : 0 < height.toNat) :
    buffer.2.toNat + height.toNat < 2 ^ 32 := by
  by_contra hwrap
  have hlast := h.pixel (0, 0) (drawn_all.mpr ⟨hheight, hwidth⟩) 3 (by decide)
  rw [roundTrip_of_wrap (Nat.le_of_not_lt hwrap), (degraded_allOnes _).1] at hlast
  exact absurd (show (0xff : UInt8) = 0 from hlast) (by decide)

/-- **When a round trip keeps the buffer**, for a rectangle within the screen of the
device, whatever the offset in the buffer and the length of its lines: just when
the rectangle is empty, or its lines in the buffer have numbers and no two of
its pixels there overlap by part. -/
theorem roundTrip_iff (hinside : InsideScreen simpleFbConfigure screen width height) :
    (∀ m, RoundTrip m screen buffer width height delta)
      ↔ width.toNat = 0 ∨ height.toNat = 0
        ∨ (buffer.2.toNat + height.toNat < 2 ^ 32
          ∧ PixelsApart buffer (rowDelta delta width) width height) := by
  constructor
  · intro h
    by_cases hwidth : width.toNat = 0
    · exact .inl hwidth
    · by_cases hheight : height.toNat = 0
      · exact .inr (.inl hheight)
      · have hones := h allOnes
        exact .inr (.inr ⟨hones.rows (by omega) (by omega), hones.pixelsApart⟩)
  · intro h m
    by_cases hempty : width.toNat = 0 ∨ height.toNat = 0
    · refine ⟨fun p hp => ?_, fun x _ => ?_, ?_⟩
      · have hpixel := drawn_all.mp hp
        omega
      · rw [roundTrip_of_empty hempty]
      · rw [roundTrip_of_empty hempty, roundTrip_of_empty hempty]
    · obtain ⟨hrows, hapart⟩ : buffer.2.toNat + height.toNat < 2 ^ 32
          ∧ PixelsApart buffer (rowDelta delta width) width height := by
        rcases h with hzero | hzero | hfits
        · exact absurd (.inl hzero) hempty
        · exact absurd (.inr hzero) hempty
        · exact hfits
      obtain ⟨hpixel, hframe⟩ := roundTrip_once hinside (by omega) (by omega) hrows hapart m
      exact ⟨hpixel, hframe, roundTrip_again hinside (by omega) (by omega) hrows hapart m⟩

/-- The offset of a pixel of a buffer that fits into the address space. -/
theorem toNat_pixelOffset_of_fits {delta : UInt32}
    (hfits : (buffer.2.toNat + (height.toNat - 1)) * delta.toNat
      + (buffer.1.toNat + width.toNat) * 4 ≤ 2 ^ 32) {p : ℕ × ℕ}
    (hp : drawn width.toNat height.toNat 0 p) :
    (pixelOffset buffer delta p.1 p.2).toNat
        = (buffer.2.toNat + p.2) * delta.toNat + (buffer.1.toNat + p.1) * 4
      ∧ (buffer.2.toNat + p.2) * delta.toNat + (buffer.1.toNat + p.1) * 4 + 4 ≤ 2 ^ 32 := by
  obtain ⟨hline, hcolumn⟩ := drawn_all.mp hp
  have hmul : (buffer.2.toNat + p.2) * delta.toNat
      ≤ (buffer.2.toNat + (height.toNat - 1)) * delta.toNat := Nat.mul_le_mul_right _ (by omega)
  have hend : (buffer.2.toNat + p.2) * delta.toNat + (buffer.1.toNat + p.1) * 4 + 4 ≤ 2 ^ 32 := by
    omega
  refine ⟨?_, hend⟩
  have hsum : pixelOffset buffer delta p.1 p.2
      = UInt32.ofNat ((buffer.2.toNat + p.2) * delta.toNat + (buffer.1.toNat + p.1) * 4) := by
    simp only [pixelOffset, UInt32.ofNat_add, UInt32.ofNat_mul, UInt32.ofNat_toNat]
    rfl
  rw [hsum, UInt32.toNat_ofNat']
  exact Nat.mod_eq_of_lt (by omega)

/-- Pixels of an earlier line end before those of a later one start. -/
theorem line_before {x y i j k w d : ℕ} (hd : w * 4 ≤ d) (hi : i < w) (hj : j < k) (i' : ℕ) :
    (y + j) * d + (x + i) * 4 + 4 ≤ (y + k) * d + (x + i') * 4 := by
  have hline : (y + (j + 1)) * d ≤ (y + k) * d := Nat.mul_le_mul_right _ (by omega)
  have hsplit : (y + (j + 1)) * d = (y + j) * d + d := by
    rw [← Nat.add_assoc, Nat.succ_mul]
  omega

/-- **In a buffer that fits into the address space** the pixels of a rectangle are
apart, if a line of the buffer is long enough. -/
theorem pixelsApart_of_fits {delta : UInt32} (hdelta : width.toNat * 4 ≤ delta.toNat)
    (hfits : (buffer.2.toNat + (height.toNat - 1)) * delta.toNat
      + (buffer.1.toNat + width.toNat) * 4 ≤ 2 ^ 32) :
    PixelsApart buffer delta width height := by
  intro p q hp hq hne x hpx hqx
  obtain ⟨hpixel, hpend⟩ := toNat_pixelOffset_of_fits hfits hp
  obtain ⟨hother, hqend⟩ := toNat_pixelOffset_of_fits hfits hq
  obtain ⟨-, hpcolumn⟩ := drawn_all.mp hp
  obtain ⟨-, hqcolumn⟩ := drawn_all.mp hq
  obtain ⟨k, hk, rfl⟩ := mem_span.mp hpx
  obtain ⟨l, hl, hx⟩ := mem_span.mp hqx
  have hbyte := congrArg UInt32.toNat hx
  rw [UInt32.toNat_add, UInt32.toNat_add, hpixel, hother, UInt32.toNat_ofNat',
    UInt32.toNat_ofNat', Nat.mod_eq_of_lt (by omega), Nat.mod_eq_of_lt (by omega)] at hbyte
  have hsame : (pixelOffset buffer delta q.1 q.2).toNat
      ≠ (pixelOffset buffer delta p.1 p.2).toNat := fun h => hne (UInt32.toNat_inj.mp h)
  rw [hpixel, hother] at hsame
  rcases Nat.lt_trichotomy p.2 q.2 with hlt | heq | hlt
  · have hbefore := line_before (x := buffer.1.toNat) (y := buffer.2.toNat) hdelta hpcolumn hlt q.1
    omega
  · rw [heq] at hbyte hsame
    omega
  · have hbefore := line_before (x := buffer.1.toNat) (y := buffer.2.toNat) hdelta hqcolumn hlt p.1
    omega

/-- The length of a line, as it is used for the buffer. -/
theorem rowDelta_of_inside (hinside : InsideScreen simpleFbConfigure screen width height)
    (hdelta : delta = 0 ∨ width.toNat * 4 ≤ delta.toNat) :
    width.toNat * 4 ≤ (rowDelta delta width).toNat := by
  have h240 : simpleFbConfigure.width.toNat = 240 := rfl
  have hle := hinside.2
  unfold rowDelta
  split
  · rw [UInt32.toNat_mul]
    show width.toNat * 4 ≤ width.toNat * 4 % 2 ^ 32
    omega
  · rename_i hne
    exact hdelta.resolve_left hne

/-- **A round trip keeps the buffer**: for a rectangle within the screen of the device,
whatever the length of a line of the buffer and the offset in it, as long as the rectangle of
the buffer lies in the address space. -/
theorem roundTrip_of_fits (hinside : InsideScreen simpleFbConfigure screen width height)
    (hdelta : delta = 0 ∨ width.toNat * 4 ≤ delta.toNat)
    (hfits : (buffer.2.toNat + (height.toNat - 1)) * (rowDelta delta width).toNat
      + (buffer.1.toNat + width.toNat) * 4 ≤ 2 ^ 32) (m : Memory Region) :
    RoundTrip m screen buffer width height delta := by
  have hline := rowDelta_of_inside hinside hdelta
  refine (roundTrip_iff hinside).mpr ?_ m
  by_cases hwidth : width.toNat = 0
  · exact .inl hwidth
  by_cases hheight : height.toNat = 0
  · exact .inr (.inl hheight)
  -- each line of the buffer has the bytes of a pixel at least
  have hrows : (buffer.2.toNat + (height.toNat - 1)) * 4
      ≤ (buffer.2.toNat + (height.toNat - 1)) * (rowDelta delta width).toNat :=
    Nat.mul_le_mul_left _ (by omega)
  exact .inr (.inr ⟨by omega, pixelsApart_of_fits hline hfits⟩)

end

/-- A rectangle of ten by four pixels, from the middle of a line of a wider buffer to the last
lines of the screen, with other colours in every pixel. -/
theorem roundTrip_lastLines :
    RoundTrip ⟨fun _ x => x.toUInt8 * 7, []⟩ (230, 316) (5, 7) 10 4 80 :=
  roundTrip_of_fits ⟨by decide, by decide⟩ (.inr (by decide)) (by decide) _

end FrameBufferBlt
