import HtcLeo.FrameBuffer.RoundTrip

/-!
# A rectangle inverted in place

The cursor is drawn by reading a rectangle of the screen, changing some of its
pixels by an exclusive or, and writing it back. What is read has eight bits
for each colour and what is written five or six, so it has to be seen that
nothing is lost: a pixel of the screen comes through unchanged
(`pack_expandColor`), and what the packing drops of an exclusive or it drops
of each of the two sides (`packColor_xor`). The screen is then the one before
with its pixels changed by an exclusive or in sixteen bits, and a second time
takes it back (`inverted_inverted`).
-/

namespace FrameBufferBlt

open FrameBufferConfigure

/-! ## Packing, bit by bit -/

/-- The bits of a packed colour: the upper ones of the three components. -/
theorem bit_packColor (red green blue : UInt8) {i : ℕ} (hi : i < 16) :
    (packColor red green blue).toBitVec.getLsbD i
      = if i < 5 then blue.toBitVec.getLsbD (3 + i)
        else if i < 11 then green.toBitVec.getLsbD (2 + (i - 5))
        else red.toBitVec.getLsbD (3 + (i - 11)) := by
  have hout : ∀ (b : UInt8) j, 8 ≤ j → b.toBitVec.getLsbD j = false :=
    fun b j hj => BitVec.getLsbD_of_ge _ _ hj
  have hbits : (packColor red green blue).toBitVec.getLsbD i
      = ((!decide (i < 11) && red.toBitVec.getLsbD (3 + (i - 11))
        || !decide (i < 5) && green.toBitVec.getLsbD (2 + (i - 5)))
        || blue.toBitVec.getLsbD (3 + i)) := by
    unfold packColor
    by_cases hlow : 3 + i < 16
    · simp [hi, hlow, show 3 + (i - 11) < 16 by omega, show 2 + (i - 5) < 16 by omega]
    · simp [hi, hout blue (3 + i) (by omega), show 3 + (i - 11) < 16 by omega,
        show 2 + (i - 5) < 16 by omega]
  rw [hbits]
  by_cases h5 : i < 5
  · simp [h5, show i < 11 by omega]
  · rw [hout blue (3 + i) (by omega)]
    by_cases h11 : i < 11
    · simp [h5, h11]
    · rw [hout green (2 + (i - 5)) (by omega)]
      simp [h5, h11]

/-- **Packing and an exclusive or** may be exchanged. -/
theorem packColor_xor (red green blue red' green' blue' : UInt8) :
    packColor (red ^^^ red') (green ^^^ green') (blue ^^^ blue')
      = packColor red green blue ^^^ packColor red' green' blue' := by
  apply UInt16.toBitVec_inj.mp
  refine BitVec.eq_of_getLsbD_eq fun i hi => ?_
  rw [UInt16.toBitVec_xor, BitVec.getLsbD_xor, bit_packColor _ _ _ hi, bit_packColor _ _ _ hi,
    bit_packColor _ _ _ hi]
  simp only [UInt8.toBitVec_xor, BitVec.getLsbD_xor]
  split
  · rfl
  · split <;> rfl

/-- The colour of a 32-bit pixel, packed. -/
def packWord (pixel : UInt32) : UInt16 :=
  packColor (Word.byte pixel 2) (Word.byte pixel 1) (Word.byte pixel 0)

theorem packWord_xor (v w : UInt32) : packWord (v ^^^ w) = packWord v ^^^ packWord w := by
  unfold packWord
  rw [Word.byte_xor, Word.byte_xor, Word.byte_xor, packColor_xor]

/-- **A pixel of the screen comes through** when it is taken apart and packed again. -/
theorem pack_expandColor (pixel : UInt16) :
    packWord (expandColor simpleFbConfigure pixel.toUInt32) = pixel := by
  have hlt := pixel.toNat_lt
  obtain ⟨hblue, hgreen, hred, -⟩ := bytes_of_components
    (show pixel.toNat / 2048 % 32 < 32 by omega) (show pixel.toNat / 32 % 64 < 64 by omega)
    (show pixel.toNat % 32 < 32 by omega)
  have hsum : pixel.toNat / 2048 % 32 * 2048 + pixel.toNat / 32 % 64 * 32 + pixel.toNat % 32
      = pixel.toNat := by
    have hupper : pixel.toNat / 2048 = pixel.toNat / 32 / 64 :=
      (Nat.div_div_eq_div_mul _ 32 64).symm
    omega
  apply UInt16.toNat_inj.mp
  unfold packWord Word.byte
  rw [toNat_packColor, UInt8.toNat_ofNat', UInt8.toNat_ofNat', UInt8.toNat_ofNat',
    toNat_expandColor, UInt16.toNat_toUInt32, hblue, hgreen, hred,
    Nat.mul_div_cancel _ (by decide), Nat.mul_div_cancel _ (by decide),
    Nat.mul_div_cancel _ (by decide)]
  exact hsum

/-! ## Reading a cell -/

/-- **What a copy from the screen reads** of a pixel is its sixteen bits, whatever is
behind them. -/
theorem expands_halfAt (corner : Corner) (screen : UInt32 → UInt8) (width k : ℕ) :
    Expands simpleFbConfigure screen (simpleFbConfigure.rowStart corner k) width fun i =>
      Word.byte (expandColor simpleFbConfigure
        (Memory.halfAt screen (pixelAddress simpleFbConfigure corner (i, k))).toUInt32) := by
  intro i _ bytes hbytes n _
  have haddress : ∀ b, simpleFbConfigure.rowStart corner k + UInt32.ofNat (i * 2 + b)
      = pixelAddress simpleFbConfigure corner (i, k) + UInt32.ofNat b := by
    intro b
    rw [UInt32.ofNat_add, UInt32.ofNat_mul, ← UInt32.add_assoc]
    rfl
  have hpixel : (Memory.halfAt screen (pixelAddress simpleFbConfigure corner (i, k))).toNat
      = (bytes 0).toNat + 256 * (bytes 1).toNat := by
    rw [Memory.toNat_halfAt, hbytes 0 (by decide), hbytes 1 (by decide), haddress, haddress,
      show UInt32.ofNat 0 = 0 from rfl, UInt32.add_zero]
    rfl
  have hword := Word.toNat_ofBytes_low bytes
  have hsame : expandColor simpleFbConfigure (Word.ofBytes bytes) = expandColor simpleFbConfigure
      (Memory.halfAt screen (pixelAddress simpleFbConfigure corner (i, k))).toUInt32 := by
    apply UInt32.toNat_inj.mp
    rw [toNat_expandColor, toNat_expandColor, UInt16.toNat_toUInt32, hpixel]
    omega
  rw [hsame]

/-- A copy from the screen leaves the screen. -/
theorem videoToBltBuffer_video (c : FrameBufferConfigure) (m : Memory Region)
    (sourceX sourceY destinationX destinationY width height delta : UInt32) :
    (videoToBltBuffer c m sourceX sourceY destinationX destinationY width height delta).2.bytes
        .video = m.bytes .video := by
  have hbuffer : Region.video ≠ .bltBuffer := by decide
  have hline : Region.video ≠ .lineBuffer := by decide
  unfold videoToBltBuffer
  split
  · refine forLoop_keeps (motive := fun s : UInt32 × Memory Region =>
      s.2.bytes .video = m.bytes .video) rfl fun dstY s hs => ?_
    refine Eq.trans ?_ hs
    unfold videoToBltBufferRow
    simp only
    split
    · exact Memory.bytes_store_of_ne _ hbuffer _ _ _
    · refine forLoop_keeps (motive := fun t : Memory Region =>
        t.bytes .video = s.2.bytes .video) (Memory.bytes_store_of_ne _ hline _ _ _) fun i t ht => ?_
      exact (Memory.bytes_store_of_ne _ hbuffer _ _ _).trans ht
  · rfl

/-! ## Inverting -/

section

variable {c : FrameBufferConfigure} {corner : Corner} {width height : ℕ}

/-- **The screen with the pixels of a rectangle changed** by an exclusive or. -/
def inverted (c : FrameBufferConfigure) (corner : Corner) (mask : ℕ → ℕ → UInt16)
    (width height : ℕ) (screen : UInt32 → UInt8) : UInt32 → UInt8 :=
  paint c corner (fun i j => Memory.halfAt screen (pixelAddress c corner (i, j)) ^^^ mask i j)
    width height screen

/-- No two pixels of a rectangle of the screen have a byte in common. -/
def ScreenApart (c : FrameBufferConfigure) (corner : Corner) (width height : ℕ) : Prop :=
  ∀ p q, drawn width height 0 p → drawn width height 0 q → ∀ b < 2,
    (pixelAddress c corner p + UInt32.ofNat b - pixelAddress c corner q).toNat < 2 → q = p

/-- Byte `b` of a pixel of a rectangle that is painted. -/
theorem paint_pixel (hapart : ScreenApart c corner width height) (colors : ℕ → ℕ → UInt16)
    (screen : UInt32 → UInt8) {p : ℕ × ℕ} (hp : drawn width height 0 p) {b : ℕ} (hb : b < 2) :
    paint c corner colors width height screen (pixelAddress c corner p + UInt32.ofNat b)
      = Word.byte (colors p.1 p.2).toUInt32 b := by
  have hwhere : (pixelAddress c corner p + UInt32.ofNat b - pixelAddress c corner p).toNat = b :=
    toNat_byte_sub _ (by omega)
  refine (paint_written colors width height screen).eq hp (by rw [hwhere]; exact hb)
    fun q hq hreach => ?_
  rw [hapart p q hp hq b hb hreach, hwhere]

/-- **Inverting twice** leaves the screen as it was. -/
theorem inverted_inverted (hapart : ScreenApart c corner width height) (mask : ℕ → ℕ → UInt16)
    (screen : UInt32 → UInt8) :
    inverted c corner mask width height (inverted c corner mask width height screen) = screen := by
  funext x
  by_cases hx : ∃ p, drawn width height 0 p ∧ (x - pixelAddress c corner p).toNat < 2
  · obtain ⟨p, hp, hlt⟩ := hx
    obtain ⟨b, hb, rfl⟩ := mem_span.mp hlt
    have hfirst :
        Memory.halfAt (inverted c corner mask width height screen) (pixelAddress c corner p)
          = Memory.halfAt screen (pixelAddress c corner p) ^^^ mask p.1 p.2 :=
      Memory.halfAt_of_bytes fun b hb => paint_pixel hapart _ screen hp hb
    have hsecond := paint_pixel hapart (fun i j =>
      Memory.halfAt (inverted c corner mask width height screen) (pixelAddress c corner (i, j))
        ^^^ mask i j)
      (inverted c corner mask width height screen) hp hb
    refine hsecond.trans ?_
    show Word.byte (Memory.halfAt _ (pixelAddress c corner p) ^^^ mask p.1 p.2).toUInt32 b = _
    rw [hfirst, UInt16.xor_assoc, UInt16.xor_self, UInt16.xor_zero, Memory.byte_halfAt screen _ hb]
  · have hout : ∀ colors screen, paint c corner colors width height screen x = screen x :=
      fun colors screen => (paint_written colors width height screen).eq_before
        fun p hp hlt => hx ⟨p, hp, hlt⟩
    exact (hout _ _).trans (hout _ _)

end

/-- The pixels of a rectangle of the device are apart, wherever its corner is, if it
is not wider than a line and not higher than the screen. -/
theorem screenApart_simpleFb (corner : Corner) {width height : ℕ} (hwidth : width ≤ 240)
    (hheight : height ≤ 320) : ScreenApart simpleFbConfigure corner width height := by
  intro p q hp hq b hb hreach
  obtain ⟨hpline, hpcolumn⟩ := drawn_all.mp hp
  obtain ⟨hqline, hqcolumn⟩ := drawn_all.mp hq
  have hwhere : ∀ r : ℕ × ℕ, pixelAddress simpleFbConfigure corner r
      = simpleFbConfigure.rowStart corner 0 + UInt32.ofNat (480 * r.2 + 2 * r.1) := by
    intro r
    have hrow := simpleFbConfigure.rowStart_add corner 0 r.2
    rw [Nat.zero_add] at hrow
    unfold pixelAddress
    rw [hrow, UInt32.add_assoc, UInt32.ofNat_add, UInt32.mul_comm, UInt32.ofNat_mul,
      UInt32.mul_comm _ simpleFbConfigure.bytesPerPixel, UInt32.ofNat_mul]
    rfl
  have hdiff : ∀ s x y z : UInt32, s + x + y - (s + z) = x + y - z := by grind
  rw [hwhere, hwhere, hdiff, UInt32.toNat_sub, UInt32.toNat_add, UInt32.toNat_ofNat',
    UInt32.toNat_ofNat', UInt32.toNat_ofNat'] at hreach
  have hpos : 240 * q.2 + q.1 = 240 * p.2 + p.1 := by omega
  have hline : q.2 = p.2 := by omega
  exact Prod.ext (by omega) hline

end FrameBufferBlt
