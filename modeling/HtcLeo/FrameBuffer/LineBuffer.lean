import HtcLeo.FrameBuffer.Footprint

/-!
# The line buffer

A configuration ends in a line buffer, and `FrameBufferBltConfigure` demands
two bytes of it for each pixel of a line. A copy from the screen puts each line
there and then reads it pixel by pixel – a pixel of two bytes as a word of
four. What it reads of the last pixel of a line ends two bytes behind the
line, which is still inside the buffer unless the line is as long as the
screen is wide (`lineBuffer_inside_iff`).
-/

namespace FrameBufferBlt

open FrameBufferConfigure

/-- The size `FrameBufferBltConfigure` demands for a mode. -/
def demandedSize (info : ModeInformation) : UInt32 :=
  sizeofConfigure + info.horizontalResolution * 2

/-- What of a configuration of this size is left for the line buffer. -/
def reservedBytes (configureSize : UInt32) : ℕ := configureSize.toNat - sizeofConfigure.toNat

/-- No configuration has its colours the other way round. -/
theorem pixelFormat_of_configure {frameBuffer : UInt32} {info : ModeInformation}
    {configure : Bool} {configureSize : Option UInt32} {c : FrameBufferConfigure}
    (h : (frameBufferBltConfigure frameBuffer info configure configureSize).configure = some c) :
    c.pixelFormat = .pixelRedGreenBlueReserved8BitPerColor ∨ c.pixelFormat = .pixelBitMask := by
  obtain ⟨bitMask, hmask, -, rfl⟩ := eq_of_configure h
  unfold selectBitMask at hmask
  split at hmask
  · exact .inl ‹_›
  · exact .inr ‹_›
  · cases hmask
  · cases hmask

/-! ## Offsets in a buffer -/

/-- Bytes that end inside a buffer lie in it. -/
theorem span_subset_buffer {address : UInt32} {n size : ℕ} (h : address.toNat + n ≤ size) :
    span address n ⊆ span 0 size := by
  have hpart : span (0 + UInt32.ofNat address.toNat) n ⊆ span 0 size := span_subset_span h
  rwa [UInt32.ofNat_toNat, UInt32.zero_add] at hpart

/-- The bytes of a buffer are those before its end. -/
theorem toNat_lt_of_mem_buffer {x : UInt32} {size : ℕ} (h : x ∈ span 0 size) : x.toNat < size := by
  have hx : (x - 0).toNat < size := h
  rwa [UInt32.sub_zero] at hx

/-- The offset of a pixel in the line buffer. -/
theorem toNat_pixelOffset (i : ℕ) : (UInt32.ofNat i * 2).toNat = i * 2 % 2 ^ 32 := by
  rw [UInt32.toNat_mul, UInt32.toNat_ofNat']
  show i % 2 ^ 32 * 2 % 2 ^ 32 = _
  exact Nat.mod_mul_mod i 2 (2 ^ 32)

/-- **Words of four bytes at each pixel of two** stay in a buffer when the buffer
has two bytes more than the pixels. -/
theorem pixelWords_inside_iff {width size : ℕ} (hwidth : 0 < width) (hsize : size + 1 < 2 ^ 32) :
    (∀ i < width, span (UInt32.ofNat i * 2) 4 ⊆ span 0 size) ↔ width * 2 + 2 ≤ size := by
  constructor
  · intro h
    by_cases hfits : width * 2 + 2 ≤ 2 ^ 32
    · -- the last byte of the last word
      have hlast : UInt32.ofNat (width - 1) * 2 + UInt32.ofNat 3
          ∈ span (UInt32.ofNat (width - 1) * 2) 4 := mem_span.mpr ⟨3, by decide, rfl⟩
      have hlt := toNat_lt_of_mem_buffer (h (width - 1) (by omega) hlast)
      rw [UInt32.toNat_add, toNat_pixelOffset] at hlt
      have hthree : (UInt32.ofNat 3).toNat = 3 := rfl
      omega
    · -- a word at the end of the address space
      have hfirst : UInt32.ofNat (2 ^ 31 - 1) * 2 + UInt32.ofNat 0
          ∈ span (UInt32.ofNat (2 ^ 31 - 1) * 2) 4 := mem_span.mpr ⟨0, by decide, rfl⟩
      have hlt := toNat_lt_of_mem_buffer (h (2 ^ 31 - 1) (by omega) hfirst)
      rw [show (UInt32.ofNat (2 ^ 31 - 1) * 2 + UInt32.ofNat 0).toNat = 2 ^ 32 - 2 from rfl] at hlt
      omega
  · intro h i hi
    refine span_subset_buffer ?_
    rw [toNat_pixelOffset, Nat.mod_eq_of_lt (by omega)]
    omega

/-! ## What a copy from the screen touches of it -/

/-- The addresses a call may use, with so many bytes of line buffer. -/
def withLineBuffer (size : ℕ) : Region → Set UInt32
  | .lineBuffer => span 0 size
  | _ => Set.univ

/-- **The line buffer is touched inside its bytes only.** -/
def LineBufferInside (size : ℕ) (m : Memory Region) : Prop := m.AccessesIn (withLineBuffer size)

variable {c : FrameBufferConfigure} {size : ℕ} {m : Memory Region}

section

variable {sourceX destinationX width delta srcY dstY : UInt32}
  (hformat : c.pixelFormat ≠ .pixelBlueGreenRedReserved8BitPerColor) (hbytes : c.bytesPerPixel = 2)

include hformat hbytes

/-- A line is read from the line buffer pixel by pixel. -/
theorem row_reads {i : ℕ} (hi : i < width.toNat) :
    ⟨.lineBuffer, false, UInt32.ofNat i * 2, 4⟩
      ∈ (videoToBltBufferRow c sourceX destinationX width delta srcY dstY m).accesses := by
  unfold videoToBltBufferRow
  simp only
  rw [if_neg hformat]
  refine forLoop_inv (fun k (t : Memory Region) =>
    ∀ i < k, ⟨.lineBuffer, false, UInt32.ofNat i * 2, 4⟩ ∈ t.accesses) ?_ ?_ i
    (show i < width.toNat - (0 : UInt32).toNat from hi)
  · exact fun i hi => absurd hi (Nat.not_lt_zero i)
  · intro k _ t ht i hi
    refine List.mem_append_left _ (List.mem_append.mpr ?_)
    rcases Nat.lt_succ_iff_lt_or_eq.mp hi with hlt | rfl
    · exact .inl (ht i hlt)
    · rw [hbytes, UInt32.zero_add]
      exact .inr (List.mem_singleton_self _)

/-- A line that fits with two bytes to spare is put and read inside. -/
theorem row_inside (hfits : width.toNat * 2 + 2 ≤ size) (hsize : size < 2 ^ 32)
    (h : LineBufferInside size m) :
    LineBufferInside size (videoToBltBufferRow c sourceX destinationX width delta srcY dstY m) := by
  unfold videoToBltBufferRow
  simp only
  rw [if_neg hformat]
  refine forLoop_inv (fun _ => LineBufferInside size) ?_ ?_
  · refine Memory.AccessesIn.store (Memory.AccessesIn.load h (Set.subset_univ _)) ?_
    refine span_subset_buffer ?_
    rw [hbytes, UInt32.toNat_mul]
    show 0 + width.toNat * 2 % 2 ^ 32 ≤ size
    omega
  · intro i hi t ht
    rw [UInt32.toNat_zero, Nat.sub_zero] at hi
    refine Memory.AccessesIn.store (Memory.AccessesIn.load ht ?_) (Set.subset_univ _)
    rw [hbytes, UInt32.zero_add]
    refine span_subset_buffer ?_
    rw [toNat_pixelOffset, Nat.mod_eq_of_lt (by omega)]
    omega

end

/-- What a line has accessed stays on record. -/
theorem mem_accesses_row {a : Access Region} {sourceX destinationX width delta srcY dstY : UInt32}
    (h : a ∈ m.accesses) :
    a ∈ (videoToBltBufferRow c sourceX destinationX width delta srcY dstY m).accesses := by
  unfold videoToBltBufferRow
  simp only
  split
  · exact Memory.mem_accesses_of_copyMem h
  · refine forLoop_keeps (motive := fun t : Memory Region => a ∈ t.accesses) ?_ fun _ t ht => ?_
    · exact Memory.mem_accesses_of_copyMem h
    · exact List.mem_append_left _ (List.mem_append_left _ ht)

/-- **When a copy from the screen stays inside the line buffer.** With a
configuration of exactly the size that is demanded, a copy that is accepted
touches the line buffer inside its bytes just when the rectangle is narrower
than the buffer by two bytes – or no line is copied at all, because the last
line of the destination has no number. -/
theorem lineBuffer_inside_iff {frameBuffer : UInt32} {info : ModeInformation}
    {configure : Bool}
    (hconfigure : (frameBufferBltConfigure frameBuffer info configure
      (some (demandedSize info))).configure = some c)
    (before : Region → UInt32 → UInt8)
    {sourceX sourceY destinationX destinationY width height delta : UInt32}
    (haccepted : (videoToBltBuffer c ⟨before, []⟩ sourceX sourceY destinationX destinationY
      width height delta).1 = .efiSuccess) :
    LineBufferInside (reservedBytes (demandedSize info))
        (videoToBltBuffer c ⟨before, []⟩ sourceX sourceY destinationX destinationY
          width height delta).2
      ↔ 2 ^ 32 ≤ destinationY.toNat + height.toNat
        ∨ width.toNat * 2 + 2 ≤ reservedBytes (demandedSize info) := by
  have hbytes := bytesPerPixel_of_configure hconfigure
  have hformat : c.pixelFormat ≠ .pixelBlueGreenRedReserved8BitPerColor := by
    rcases pixelFormat_of_configure hconfigure with h | h <;> rw [h] <;> decide
  have hsize : reservedBytes (demandedSize info) + 1 < 2 ^ 32 := by
    have hlt := (demandedSize info).toNat_lt
    show (demandedSize info).toNat - 48 + 1 < 2 ^ 32
    omega
  unfold videoToBltBuffer at haccepted ⊢
  by_cases hchecks : c.rectangleChecks [(sourceX, sourceY)] width height = true
  · obtain ⟨-, hwidth, hheight⟩ := rectangleChecks_iff.mp hchecks
    rw [if_pos hchecks]
    constructor
    · intro hinside
      by_cases hwrap : 2 ^ 32 ≤ destinationY.toNat + height.toNat
      · exact .inl hwrap
      · refine .inr ((pixelWords_inside_iff hwidth hsize).mp fun i hi => ?_)
        have hfirst : destinationY < height + destinationY := by
          rw [UInt32.lt_iff_toNat_lt, toNat_add_of_lt (by omega)]
          omega
        refine hinside ⟨.lineBuffer, false, UInt32.ofNat i * 2, 4⟩ ?_
        rw [forLoop_eq, if_pos hfirst]
        refine forLoop_keeps (motive := fun s : UInt32 × Memory Region =>
          ⟨.lineBuffer, false, UInt32.ofNat i * 2, 4⟩ ∈ s.2.accesses) ?_ fun _ s hs => ?_
        · exact row_reads hformat hbytes hi
        · exact mem_accesses_row hs
    · rintro (hwrap | hfits)
      · have hnone : ¬ destinationY < height + destinationY := by
          rw [UInt32.lt_iff_toNat_lt, UInt32.toNat_add]
          have hheight' := height.toNat_lt
          have hdestination := destinationY.toNat_lt
          omega
        rw [forLoop_eq, if_neg hnone]
        exact fun a ha => absurd ha List.not_mem_nil
      · refine forLoop_keeps (motive := fun s : UInt32 × Memory Region =>
          LineBufferInside (reservedBytes (demandedSize info)) s.2) ?_ fun dstY s hs => ?_
        · exact fun a ha => absurd ha List.not_mem_nil
        · exact row_inside hformat hbytes hfits (by omega) hs
  · rw [if_neg hchecks] at haccepted
    cases haccepted

/-- Copying all but the last column of the screen of the device stays inside. -/
theorem lineBuffer_inside_239 :
    LineBufferInside 480 (videoToBltBuffer simpleFbConfigure ⟨fun _ _ => 0, []⟩ 0 0 0 0
      239 320 0).2 := by
  have hconfigure : (frameBufferBltConfigure pcdMipiFrameBufferAddress simpleFbMode true
    (some (demandedSize simpleFbMode))).configure = some simpleFbConfigure := configure_simpleFb
  exact (lineBuffer_inside_iff hconfigure (fun _ _ => 0) rfl).mpr (.inr (by decide))

/-- One line of the screen of the device, copied at its full width: the last pixel
is read up to byte 481, and the line buffer has 480. -/
theorem lineBuffer_fullLine :
    (frameBufferBltConfigure pcdMipiFrameBufferAddress simpleFbMode true
        (some (demandedSize simpleFbMode))).configure = some simpleFbConfigure
      ∧ (videoToBltBuffer simpleFbConfigure ⟨fun _ _ => 0, []⟩ 0 0 0 0 240 1 0).1 = .efiSuccess
      ∧ ¬ LineBufferInside (reservedBytes (demandedSize simpleFbMode))
          (videoToBltBuffer simpleFbConfigure ⟨fun _ _ => 0, []⟩ 0 0 0 0 240 1 0).2 := by
  refine ⟨rfl, rfl, fun h => ?_⟩
  have hread : ⟨.lineBuffer, false, UInt32.ofNat 239 * 2, 4⟩
      ∈ (videoToBltBuffer simpleFbConfigure ⟨fun _ _ => 0, []⟩ 0 0 0 0 240 1 0).2.accesses :=
    row_reads (by decide) rfl (by decide)
  have hlast : (481 : UInt32) ∈ span (UInt32.ofNat 239 * 2) 4 := by
    show (481 - UInt32.ofNat 239 * 2).toNat < 4
    decide
  exact absurd (toNat_lt_of_mem_buffer (h _ hread hlast)) (by decide)

end FrameBufferBlt
