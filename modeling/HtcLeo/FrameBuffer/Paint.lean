import HtcLeo.FrameBuffer.LineBuffer

/-!
# Painting a rectangle

A fill and a copy to the screen write the pixels of a rectangle one after the
other, line by line. What they leave on the screen is the same painting of the
rectangle with colours, one for each of its pixels (`paint`): the fill uses its
one colour, and the copy the colours it reads from the caller's buffer. They
find the pixels differently, the one with a pointer that goes on from pixel to
pixel and the other by the number of the line.

With one colour everywhere the two agree, on the configurations that the fill
accepts (`videoFill_eq_bufferToVideo`): a fill insists on a format of the pixels
that is not given by masks.
-/

namespace FrameBufferBlt

open FrameBufferConfigure

/-! ## The painting -/

section

variable (c : FrameBufferConfigure) (corner : Corner) (colors : ℕ → ℕ → UInt16)

/-- The screen with the first `n` pixels of line `j` of a rectangle painted. -/
def paintLine (j : ℕ) : ℕ → (UInt32 → UInt8) → UInt32 → UInt8
  | 0, screen => screen
  | n + 1, screen =>
    Memory.overwrite (paintLine j n screen)
      (c.rowStart corner j + UInt32.ofNat n * c.bytesPerPixel) 2
      (Word.byte (colors n j).toUInt32)

/-- **The screen with lines of a rectangle painted**, each `width` pixels long. -/
def paint (width : ℕ) : ℕ → (UInt32 → UInt8) → UInt32 → UInt8
  | 0, screen => screen
  | j + 1, screen => paintLine c corner colors j width (paint width j screen)

variable {c corner colors}

theorem paintLine_congr {colors' : ℕ → ℕ → UInt16} {j n : ℕ}
    (h : ∀ i < n, colors i j = colors' i j) (screen : UInt32 → UInt8) :
    paintLine c corner colors j n screen = paintLine c corner colors' j n screen := by
  induction n with
  | zero => rfl
  | succ n ih =>
    unfold paintLine
    rw [ih fun i hi => h i (by omega), h n (Nat.lt_succ_self n)]

/-- Colours outside the rectangle do not matter. -/
theorem paint_congr {colors' : ℕ → ℕ → UInt16} {width height : ℕ}
    (h : ∀ i < width, ∀ j < height, colors i j = colors' i j) (screen : UInt32 → UInt8) :
    paint c corner colors width height screen = paint c corner colors' width height screen := by
  induction height with
  | zero => rfl
  | succ j ih =>
    unfold paint
    rw [ih fun i hi k hk => h i hi k (by omega),
      paintLine_congr fun i hi => h i hi j (Nat.lt_succ_self j)]

end

/-! ## What the two operations paint -/

/-- The colour of the 32-bit pixel at an offset of the caller's buffer. -/
def colorAt (buffer : UInt32 → UInt8) (pixel : UInt32) : UInt16 :=
  packColor (buffer (pixel + 2)) (buffer (pixel + 1)) (buffer pixel)

/-- Reading a colour leaves the memory and gives the colour. -/
theorem readColor_eq (m : Memory Region) (pixel : UInt32) :
    (readColor m pixel).1 = colorAt (m.bytes .bltBuffer) pixel
      ∧ (readColor m pixel).2.bytes = m.bytes := by
  refine ⟨?_, rfl⟩
  show packColor (m.bytes .bltBuffer (pixel + 2 + 0)) (m.bytes .bltBuffer (pixel + 1 + 0))
    (m.bytes .bltBuffer (pixel + 0)) = _
  rw [UInt32.add_zero, UInt32.add_zero, UInt32.add_zero]
  rfl

section

open scoped UInt32.CommRing

variable {c : FrameBufferConfigure} {m : Memory Region}

/-- A pixel written to the screen. -/
theorem bytes_write16_video (m : Memory Region) (address : UInt32) (value : UInt16) :
    (m.write16 .video address value).bytes .video
        = Memory.overwrite (m.bytes .video) address 2 (Word.byte value.toUInt32)
      ∧ (m.write16 .video address value).bytes .bltBuffer = m.bytes .bltBuffer :=
  ⟨m.bytes_store_self .video address 2 _, m.bytes_store_of_ne (by decide) address 2 _⟩

/-- Filling line `k` paints it and leaves the pointer at the next. -/
theorem videoFillRow_video {corner : Corner} (width : UInt32) (uint16 : UInt16) {k : ℕ}
    {s : UInt32 × Memory Region} (hs : s.1 = c.rowStart corner k) :
    (videoFillRow c uint16 width s).1 = c.rowStart corner (k + 1)
      ∧ (videoFillRow c uint16 width s).2.bytes .video
        = paintLine c corner (fun _ _ => uint16) k width.toNat (s.2.bytes .video) := by
  have hpixels := @forLoop_inv (UInt32 × Memory Region) 0 width
    (fun _ t => (t.1 + c.bytesPerPixel, t.2.write16 .video t.1 uint16)) s
    (fun i t => t.1 = c.rowStart corner k + UInt32.ofNat i * c.bytesPerPixel
      ∧ t.2.bytes .video = paintLine c corner (fun _ _ => uint16) k i (s.2.bytes .video))
    ⟨by rw [hs, add_ofNat_zero_mul], rfl⟩ fun i _ t ht => ?_
  · obtain ⟨hpointer, hpainted⟩ := hpixels
    refine ⟨?_, hpainted⟩
    unfold videoFillRow
    simp only
    rw [hpointer]
    exact c.rowStart_next corner width k
  · refine ⟨by rw [add_ofNat_succ_mul, ← ht.1], ?_⟩
    rw [(bytes_write16_video _ _ _).1, ht.1, ht.2]
    rfl

/-- **A fill paints its rectangle** with the one colour. -/
theorem videoFill_video (corner : Corner) (color : UInt32) {width height : UInt32}
    (hchecks : c.rectangleChecks [corner] width height = true)
    (hformat : c.pixelFormat = .pixelRedGreenBlueReserved8BitPerColor) :
    (videoFill c m color corner.1 corner.2 width height).1 = .efiSuccess
      ∧ (videoFill c m color corner.1 corner.2 width height).2.bytes .video
        = paint c corner (fun _ _ => colorAt (m.bytes .bltBuffer) color) width.toNat height.toNat
            (m.bytes .video) := by
  unfold videoFill
  rw [if_pos hchecks, if_neg fun h => h.1 hformat]
  refine ⟨rfl, ?_⟩
  rw [← (readColor_eq m color).1]
  exact (@forLoop_inv (UInt32 × Memory Region) 0 height
    (fun _ s => videoFillRow c (readColor m color).1 width s)
    (c.address corner.1 corner.2, (readColor m color).2)
    (fun j s => s.1 = c.rowStart corner j
      ∧ s.2.bytes .video = paint c corner (fun _ _ => (readColor m color).1) width.toNat j
          (m.bytes .video))
    ⟨(c.rowStart_zero corner).symm, rfl⟩ fun j _ s hs => by
      obtain ⟨hpointer, hpainted⟩ := videoFillRow_video width (readColor m color).1 hs.1
      rw [hs.2] at hpainted
      exact ⟨hpointer, hpainted⟩).2

/-- The offset in the caller's buffer of pixel `i` of line `j` of a rectangle. -/
def pixelOffset (corner : Corner) (delta : UInt32) (i j : ℕ) : UInt32 :=
  (corner.2 + UInt32.ofNat j) * delta + (corner.1 + UInt32.ofNat i) * 4

/-- The colours of a rectangle of the caller's buffer, for a format that has red,
green and blue in that order. -/
def bufferColors (buffer : UInt32 → UInt8) (corner : Corner) (delta : UInt32) (i j : ℕ) : UInt16 :=
  colorAt buffer (pixelOffset corner delta i j)

/-- Copying one line to the screen paints it. -/
theorem bufferToVideoRow_video {corner source : Corner} (width delta : UInt32)
    {srcY dstY : UInt32} {k : ℕ} (hformat : c.pixelFormat ≠ .pixelBlueGreenRedReserved8BitPerColor)
    (hsource : srcY = source.2 + UInt32.ofNat k) (hline : dstY = corner.2 + UInt32.ofNat k) :
    (bufferToVideoRow c source.1 corner.1 width delta srcY dstY m).bytes .video
        = paintLine c corner (bufferColors (m.bytes .bltBuffer) source delta) k width.toNat
            (m.bytes .video)
      ∧ (bufferToVideoRow c source.1 corner.1 width delta srcY dstY m).bytes .bltBuffer
        = m.bytes .bltBuffer := by
  unfold bufferToVideoRow
  refine forLoop_inv (fun i (t : Memory Region) =>
    t.bytes .video = paintLine c corner (bufferColors (m.bytes .bltBuffer) source delta) k i
        (m.bytes .video)
      ∧ t.bytes .bltBuffer = m.bytes .bltBuffer) ⟨rfl, rfl⟩ ?_
  rintro i - t ⟨hpainted, hbuffer⟩
  simp only
  rw [if_neg hformat, UInt32.zero_add]
  obtain ⟨hcolor, hkept⟩ := readColor_eq t (srcY * delta + (source.1 + UInt32.ofNat i) * 4)
  obtain ⟨hvideo, hblt⟩ := bytes_write16_video
    (readColor t (srcY * delta + (source.1 + UInt32.ofNat i) * 4)).2
    (c.address corner.1 dstY + UInt32.ofNat i * c.bytesPerPixel)
    (readColor t (srcY * delta + (source.1 + UInt32.ofNat i) * 4)).1
  refine ⟨?_, ?_⟩
  · rw [hvideo, hkept, hcolor, hpainted, hbuffer, hline, address_add, hsource]
    rfl
  · rw [hblt, hkept, hbuffer]

/-- **A copy to the screen paints its rectangle** with the colours of the buffer, if
the last line of the source has a number. -/
theorem bufferToVideo_video (corner source : Corner) (delta : UInt32) {width height : UInt32}
    (hchecks : c.rectangleChecks [corner] width height = true)
    (hformat : c.pixelFormat ≠ .pixelBlueGreenRedReserved8BitPerColor)
    (hrows : source.2.toNat + height.toNat < 2 ^ 32) :
    (bufferToVideo c m source.1 source.2 corner.1 corner.2 width height delta).1 = .efiSuccess
      ∧ (bufferToVideo c m source.1 source.2 corner.1 corner.2 width height delta).2.bytes .video
        = paint c corner (bufferColors (m.bytes .bltBuffer) source (rowDelta delta width))
            width.toNat height.toNat (m.bytes .video)
      ∧ (bufferToVideo c m source.1 source.2 corner.1 corner.2 width height delta).2.bytes
          .bltBuffer = m.bytes .bltBuffer := by
  have hturns : (height + source.2).toNat - source.2.toNat = height.toNat := by
    rw [toNat_add_of_lt (by omega)]
    omega
  unfold bufferToVideo
  rw [if_pos hchecks]
  refine ⟨rfl, ?_⟩
  have hrun := @forLoop_inv (UInt32 × Memory Region) source.2 (height + source.2)
    (fun srcY s => (s.1 + 1,
      bufferToVideoRow c source.1 corner.1 width (rowDelta delta width) srcY s.1 s.2))
    (corner.2, m)
    (fun j s => s.1 = corner.2 + UInt32.ofNat j
      ∧ s.2.bytes .video
        = paint c corner (bufferColors (m.bytes .bltBuffer) source (rowDelta delta width))
            width.toNat j (m.bytes .video)
      ∧ s.2.bytes .bltBuffer = m.bytes .bltBuffer)
    ⟨(UInt32.add_zero corner.2).symm, rfl, rfl⟩ fun j _ s hs => ?_
  · rw [hturns] at hrun
    exact hrun.2
  · obtain ⟨hline, hpainted, hbuffer⟩ := hs
    obtain ⟨hvideo, hblt⟩ := bufferToVideoRow_video (m := s.2) width
      (rowDelta delta width) hformat rfl hline
    refine ⟨?_, ?_, ?_⟩
    · rw [add_ofNat_succ, ← hline]
    · rw [hvideo, hpainted, hbuffer]
      rfl
    · rw [hblt, hbuffer]

end

/-! ## One colour -/

/-- A colour, as the 32-bit pixel at an offset of the caller's buffer. -/
structure HasColor (buffer : UInt32 → UInt8) (red green blue : UInt8) (pixel : UInt32) : Prop where
  red_eq : buffer (pixel + 2) = red
  green_eq : buffer (pixel + 1) = green
  blue_eq : buffer pixel = blue

theorem HasColor.colorAt_eq {buffer : UInt32 → UInt8} {red green blue : UInt8} {pixel : UInt32}
    (h : HasColor buffer red green blue pixel) :
    colorAt buffer pixel = packColor red green blue := by
  unfold colorAt
  rw [h.red_eq, h.green_eq, h.blue_eq]

/-- **A fill and a copy to the screen do the same**: they return the same status
and leave the same frame buffer. -/
def SameDrawing (filled copied : EfiStatus × Memory Region) : Prop :=
  filled.1 = copied.1 ∧ filled.2.bytes .video = copied.2.bytes .video

/-- **A fill draws what a copy of its colour draws.** Take a configuration the
library makes. If the format of its pixels is not given by masks, then a fill
with a colour and a copy to the same rectangle from a buffer of that colour
return the same status and leave the same screen, wherever the source lies as
long as its lines have numbers. If the format is given by masks, every fill is
rejected and touches nothing. -/
theorem videoFill_eq_bufferToVideo {frameBuffer : UInt32} {info : ModeInformation}
    {configure : Bool} {configureSize : Option UInt32} {c : FrameBufferConfigure}
    (hconfigure : (frameBufferBltConfigure frameBuffer info configure configureSize).configure
      = some c)
    (m m' : Memory Region) (hscreen : m.bytes .video = m'.bytes .video)
    {red green blue : UInt8} {color : UInt32}
    (hcolor : HasColor (m.bytes .bltBuffer) red green blue color)
    (source destination : Corner) {width height delta : UInt32}
    (hbuffer : ∀ i < width.toNat, ∀ j < height.toNat, HasColor (m'.bytes .bltBuffer) red green blue
      (pixelOffset source (rowDelta delta width) i j))
    (hrows : source.2.toNat + height.toNat < 2 ^ 32) :
    (c.pixelFormat ≠ .pixelBitMask →
      SameDrawing (videoFill c m color destination.1 destination.2 width height)
        (bufferToVideo c m' source.1 source.2 destination.1 destination.2 width height delta))
    ∧ (c.pixelFormat = .pixelBitMask →
      videoFill c m color destination.1 destination.2 width height
        = (.efiInvalidParameter, m)) := by
  refine ⟨fun hnot => ?_, fun hmask => ?_⟩
  · have hformat := (pixelFormat_of_configure hconfigure).resolve_right hnot
    by_cases hchecks : c.rectangleChecks [destination] width height = true
    · obtain ⟨hfill, hfilled⟩ := videoFill_video (m := m) destination color hchecks hformat
      obtain ⟨hcopy, hcopied, -⟩ := bufferToVideo_video (m := m') destination source delta
        hchecks (by rw [hformat]; decide) hrows
      refine ⟨hfill.trans hcopy.symm, ?_⟩
      rw [hfilled, hcopied, hscreen, hcolor.colorAt_eq]
      exact paint_congr (fun i hi j hj => (hbuffer i hi j hj).colorAt_eq.symm) _
    · unfold videoFill bufferToVideo
      rw [if_neg hchecks, if_neg hchecks]
      exact ⟨rfl, hscreen⟩
  · unfold videoFill
    split
    · rw [if_pos (by rw [hmask]; decide)]
    · rfl

/-- A screen with something on it, and a buffer of orange pixels whose reserved bytes differ. -/
def orangeBuffer : Memory Region where
  bytes
    | .bltBuffer, x =>
      if x % 4 = 0 then 0x20
      else if x % 4 = 1 then 0x80
      else if x % 4 = 2 then 0xF0
      else x.toUInt8
    | _, x => x.toUInt8 * 7
  accesses := []

theorem hasColor_orangeBuffer (n : UInt32) :
    HasColor (orangeBuffer.bytes .bltBuffer) 0xF0 0x80 0x20 (n * 4) := by
  have hmod : ∀ k : UInt32, k.toNat < 4 → (n * 4 + k) % 4 = k := by
    intro k hk
    apply UInt32.toNat_inj.mp
    rw [UInt32.toNat_mod, UInt32.toNat_add, UInt32.toNat_mul]
    show (n.toNat * 4 % 2 ^ 32 + k.toNat) % 2 ^ 32 % 4 = k.toNat
    omega
  have hmod₀ : n * 4 % 4 = 0 := by simpa using hmod 0 (by decide)
  refine ⟨?_, ?_, ?_⟩ <;> unfold orangeBuffer
  · simp [hmod 2 (by decide)]
  · simp [hmod 1 (by decide)]
  · simp [hmod₀]

/-- A rectangle of thirty by forty pixels in orange, in the middle of the screen of the device. -/
theorem videoFill_eq_bufferToVideo_orange :
    SameDrawing (videoFill simpleFbConfigure orangeBuffer 0 100 200 30 40)
      (bufferToVideo simpleFbConfigure orangeBuffer 5 7 100 200 30 40 160) := by
  refine (videoFill_eq_bufferToVideo configure_simpleFb orangeBuffer orangeBuffer rfl
    (hasColor_orangeBuffer 0) (5, 7) (100, 200) (fun i _ j _ => ?_) (by decide)).1 (by decide)
  have hoffset : pixelOffset (5, 7) (rowDelta 160 30) i j
      = ((7 + UInt32.ofNat j) * 40 + (5 + UInt32.ofNat i)) * 4 := by
    show (7 + UInt32.ofNat j) * 160 + (5 + UInt32.ofNat i) * 4 = _
    grind
  rw [hoffset]
  exact hasColor_orangeBuffer _

/-- The mode of the device with its pixels given by masks. -/
def bitMaskMode : ModeInformation :=
  { simpleFbMode with pixelFormat := .pixelBitMask, pixelInformation := mRgbPixelMasks }

/-- What the library makes of it. -/
def bitMaskConfigure : FrameBufferConfigure :=
  { simpleFbConfigure with pixelFormat := .pixelBitMask }

/-- With the format given by masks a copy to the screen is accepted where a fill
is not. -/
theorem not_sameDrawing_bitMask :
    (frameBufferBltConfigure pcdMipiFrameBufferAddress bitMaskMode true (some 528)).configure
        = some bitMaskConfigure
      ∧ HasColor (fun _ => 0) 0 0 0 0
      ∧ (∀ i < 240, ∀ j < 320, HasColor (fun _ => 0) 0 0 0 (pixelOffset (0, 0) 960 i j))
      ∧ ¬ SameDrawing (videoFill bitMaskConfigure ⟨fun _ _ => 0, []⟩ 0 0 0 240 320)
        (bufferToVideo bitMaskConfigure ⟨fun _ _ => 0, []⟩ 0 0 0 0 240 320 0) := by
  refine ⟨rfl, ⟨rfl, rfl, rfl⟩, fun _ _ _ _ => ⟨rfl, rfl, rfl⟩, fun h => ?_⟩
  exact absurd h.1 (by decide)

end FrameBufferBlt
