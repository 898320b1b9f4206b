import HtcLeo.FrameBuffer.Footprint

/-!
# Copying within the screen

A rectangle of the screen is copied to another one line by line, in place. A
copy that goes down the lines never reads a line it has already written, as
its destination starts no later than its source; it does what a copy of the
whole rectangle through a second buffer would do (`CopiedAtOnce`). A copy that
goes up is meant to spare the lines it has still to read, but it starts one
line too low: it ends at the second line of the destination, and the first is
never written.
-/

namespace FrameBufferBlt

open FrameBufferConfigure

/-- **The screen is a piece of memory**: it does not start at address zero, and
ends within the address space. -/
structure ScreenInMemory (c : FrameBufferConfigure) : Prop where
  start : 0 < c.frameBuffer.toNat
  fits : c.frameBuffer.toNat
    + c.height.toNat * (c.bytesPerPixel.toNat * c.pixelsPerScanLine.toNat) ≤ 2 ^ 32

/-- **A rectangle was copied at once**: each byte of the destination is what the
byte in its place in the source was before, and the bytes elsewhere are what
they were. -/
structure CopiedAtOnce (c : FrameBufferConfigure) (before after : UInt32 → UInt8)
    (source destination : Corner) (width height : UInt32) : Prop where
  copied : ∀ j < height.toNat, ∀ n < width.toNat * c.bytesPerPixel.toNat,
    after (c.rowStart destination j + UInt32.ofNat n)
      = before (c.rowStart source j + UInt32.ofNat n)
  kept : ∀ x ∉ c.rectangle destination width height, after x = before x

/-! ## Lines as numbers -/

section

variable {c : FrameBufferConfigure} {corner : Corner} {width height : UInt32}

/-- A line is as long as the screen is wide, at least. -/
theorem width_le_of_configure {frameBuffer : UInt32} {info : ModeInformation}
    {configure : Bool} {configureSize : Option UInt32}
    (h : (frameBufferBltConfigure frameBuffer info configure configureSize).configure = some c) :
    c.width.toNat ≤ c.pixelsPerScanLine.toNat := by
  obtain ⟨bitMask, -, hline, rfl⟩ := eq_of_configure h
  exact Nat.le_of_not_lt fun hlt => hline (UInt32.lt_iff_toNat_lt.mpr hlt)

variable (hbytes : c.bytesPerPixel = 2) (hline : c.width.toNat ≤ c.pixelsPerScanLine.toNat)
  (hscreen : ScreenInMemory c) (hinside : InsideScreen c corner width height)

include hbytes hline hscreen hinside

/-- The bytes of a line of a rectangle end before the next line starts, and before
the screen ends. -/
theorem line_room (hheight : 0 < height.toNat) :
    width.toNat * 2 ≤ 2 * c.pixelsPerScanLine.toNat
      ∧ 2 * corner.1.toNat + width.toNat * 2 ≤ 2 * c.pixelsPerScanLine.toNat
      ∧ height.toNat * (2 * c.pixelsPerScanLine.toNat) < 2 ^ 32
      ∧ c.widthInBytes width = width.toNat * 2 := by
  have htwo : c.bytesPerPixel.toNat = 2 := by rw [hbytes]; rfl
  have hfits := hscreen.fits
  have hstart := hscreen.start
  obtain ⟨hy, hx⟩ := hinside
  rw [htwo] at hfits
  have hlines : height.toNat * (2 * c.pixelsPerScanLine.toNat)
      ≤ c.height.toNat * (2 * c.pixelsPerScanLine.toNat) := Nat.mul_le_mul_right _ (by omega)
  have hone : 1 * (2 * c.pixelsPerScanLine.toNat)
      ≤ height.toNat * (2 * c.pixelsPerScanLine.toNat) := Nat.mul_le_mul_right _ hheight
  refine ⟨by omega, by omega, by omega, ?_⟩
  unfold widthInBytes
  rw [UInt32.toNat_mul, htwo]
  exact Nat.mod_eq_of_lt (by omega)

/-- A byte of a line of a rectangle, as a number. -/
theorem toNat_rowStart_add {j n : ℕ} (hj : j < height.toNat) (hn : n < width.toNat * 2) :
    (c.rowStart corner j + UInt32.ofNat n).toNat
      = (c.address corner.1 corner.2).toNat + j * (2 * c.pixelsPerScanLine.toNat) + n := by
  have htwo : c.bytesPerPixel.toNat = 2 := by rw [hbytes]; rfl
  obtain ⟨-, hroom, -, -⟩ := line_room hbytes hline hscreen hinside (by omega)
  have hfits := hscreen.fits
  obtain ⟨hy, hx⟩ := hinside
  rw [htwo] at hfits
  have hlast : (corner.2.toNat + j + 1) * (2 * c.pixelsPerScanLine.toNat)
      ≤ c.height.toNat * (2 * c.pixelsPerScanLine.toNat) := Nat.mul_le_mul_right _ (by omega)
  have hsplit : (corner.2.toNat + j + 1) * (2 * c.pixelsPerScanLine.toNat)
      = corner.2.toNat * (2 * c.pixelsPerScanLine.toNat) + j * (2 * c.pixelsPerScanLine.toNat)
        + 2 * c.pixelsPerScanLine.toNat := by
    rw [Nat.succ_mul, Nat.add_mul]
  have hpixel : 2 * (corner.2.toNat * c.pixelsPerScanLine.toNat + corner.1.toNat)
      = corner.2.toNat * (2 * c.pixelsPerScanLine.toNat) + 2 * corner.1.toNat := by
    ring
  have haddress : c.address corner.1 corner.2 = c.frameBuffer + UInt32.ofNat
      (2 * (corner.2.toNat * c.pixelsPerScanLine.toNat + corner.1.toNat)) := by
    unfold address
    simp only [hbytes, UInt32.ofNat_mul, UInt32.ofNat_add, UInt32.ofNat_toNat]
    rfl
  have hstride : UInt32.ofNat j * c.lineStride
      = UInt32.ofNat (j * (2 * c.pixelsPerScanLine.toNat)) := by
    unfold lineStride
    simp only [hbytes, UInt32.ofNat_mul, UInt32.ofNat_toNat]
    rfl
  have hcorner : (c.address corner.1 corner.2).toNat
      = c.frameBuffer.toNat + corner.2.toNat * (2 * c.pixelsPerScanLine.toNat)
        + 2 * corner.1.toNat := by
    rw [haddress, UInt32.toNat_add, UInt32.toNat_ofNat', hpixel]
    omega
  unfold rowStart
  rw [hstride, UInt32.toNat_add, UInt32.toNat_add, UInt32.toNat_ofNat', UInt32.toNat_ofNat',
    hcorner]
  omega

/-- The start of a line of a rectangle, as a number. -/
theorem toNat_rowStart {j : ℕ} (hj : j < height.toNat) (hwidth : 0 < width.toNat) :
    (c.rowStart corner j).toNat
      = (c.address corner.1 corner.2).toNat + j * (2 * c.pixelsPerScanLine.toNat) := by
  have hstart := toNat_rowStart_add hbytes hline hscreen hinside hj
    (show 0 < width.toNat * 2 by omega)
  rw [Nat.add_zero] at hstart
  rw [← hstart]
  exact congrArg UInt32.toNat (UInt32.add_zero _).symm

/-- **Two lines of a rectangle** have no byte in common. -/
theorem lines_apart {j q n : ℕ} (hj : j < height.toNat) (hq : q < height.toNat)
    (hn : n < width.toNat * 2)
    (hreach : (c.rowStart corner j + UInt32.ofNat n - c.rowStart corner q).toNat
      < width.toNat * 2) : q = j := by
  obtain ⟨hroom, -, hlines, -⟩ := line_room hbytes hline hscreen hinside (by omega)
  have hbyte := toNat_rowStart_add hbytes hline hscreen hinside hj hn
  have hother := toNat_rowStart hbytes hline hscreen hinside hq (by omega)
  have hlt := (c.rowStart corner j + UInt32.ofNat n).toNat_lt
  have hlt' := (c.rowStart corner q).toNat_lt
  rw [UInt32.toNat_sub] at hreach
  generalize 2 * c.pixelsPerScanLine.toNat = stride at hroom hlines hbyte hother
  rcases Nat.lt_trichotomy q j with hqj | heq | hjq
  · have hnext : (q + 1) * stride ≤ j * stride := Nat.mul_le_mul_right _ hqj
    rw [Nat.succ_mul] at hnext
    omega
  · exact heq
  · have hnext : (j + 1) * stride ≤ q * stride := Nat.mul_le_mul_right _ hjq
    have hend : (q - j + 1) * stride ≤ height.toNat * stride :=
      Nat.mul_le_mul_right _ (by omega)
    have hdiff : q * stride = (q - j) * stride + j * stride := by
      rw [← Nat.add_mul, Nat.sub_add_cancel (by omega)]
    rw [Nat.succ_mul] at hnext hend
    omega

end

/-! ## Going down -/

section

variable {c : FrameBufferConfigure} {source destination : Corner} {width height : UInt32}
  {m : Memory Region}

/-- A copy that goes down has its destination no later than its source. -/
theorem address_le_of_down
    (hdown : goesUp c source.1 source.2 destination.1 destination.2 = false) :
    (c.address destination.1 destination.2).toNat ≤ (c.address source.1 source.2).toNat := by
  have hnot : ¬ c.address source.1 source.2 < c.address destination.1 destination.2 :=
    of_decide_eq_false hdown
  exact Nat.le_of_not_lt fun hlt => hnot (UInt32.lt_iff_toNat_lt.mpr hlt)

variable (hbytes : c.bytesPerPixel = 2) (hline : c.width.toNat ≤ c.pixelsPerScanLine.toNat)
  (hscreen : ScreenInMemory c) (hsource : InsideScreen c source width height)
  (hdest : InsideScreen c destination width height)

include hbytes hline hscreen hsource hdest

/-- **Going down, a line still to be read** has not been written. -/
theorem line_ahead (hdown : goesUp c source.1 source.2 destination.1 destination.2 = false)
    {j k n : ℕ} (hjk : j < k) (hk : k < height.toNat) (hn : n < width.toNat * 2) :
    ¬ (c.rowStart source k + UInt32.ofNat n - c.rowStart destination j).toNat
      < width.toNat * 2 := by
  intro hreach
  obtain ⟨hroom, -, -, -⟩ := line_room hbytes hline hscreen hsource (by omega)
  have hbyte := toNat_rowStart_add hbytes hline hscreen hsource hk hn
  have hwritten := toNat_rowStart hbytes hline hscreen hdest (show j < height.toNat by omega)
    (by omega)
  have hle := address_le_of_down hdown
  have hlt := (c.rowStart source k + UInt32.ofNat n).toNat_lt
  have hnext : (j + 1) * (2 * c.pixelsPerScanLine.toNat) ≤ k * (2 * c.pixelsPerScanLine.toNat) :=
    Nat.mul_le_mul_right _ hjk
  rw [Nat.succ_mul] at hnext
  rw [UInt32.toNat_sub] at hreach
  omega

/-- The lines a copy going down has written, each with what its source was. -/
theorem rowCopies_down (hdown : goesUp c source.1 source.2 destination.1 destination.2 = false) :
    Memory.Written (m.bytes .video) (c.rowStart destination) (width.toNat * 2)
      (fun j n => m.bytes .video (c.rowStart source j + UInt32.ofNat n)) (· < height.toNat)
      ((forLoop 0 height (fun _ s => s.step (width.toNat * 2) c.lineStride)
        (RowCopy.mk (c.address source.1 source.2) (c.address destination.1 destination.2)
          m)).memory.bytes .video) := by
  have hrun := @forLoop_inv RowCopy 0 height (fun _ s => s.step (width.toNat * 2) c.lineStride)
    ⟨c.address source.1 source.2, c.address destination.1 destination.2, m⟩
    (fun k s => s.source = c.rowStart source k ∧ s.destination = c.rowStart destination k
      ∧ Memory.Written (m.bytes .video) (c.rowStart destination) (width.toNat * 2)
          (fun j n => m.bytes .video (c.rowStart source j + UInt32.ofNat n)) (· < k)
          (s.memory.bytes .video))
    ?_ ?_
  · rw [UInt32.toNat_zero, Nat.sub_zero] at hrun
    exact hrun.2.2
  · exact ⟨(c.rowStart_zero source).symm, (c.rowStart_zero destination).symm,
      Memory.written_start fun p => Nat.not_lt_zero p⟩
  · rintro k hk s ⟨hs, hd, hwritten⟩
    rw [UInt32.toNat_zero, Nat.sub_zero] at hk
    refine ⟨?_, ?_, ?_⟩
    · rw [rowStart_succ, ← hs]
      rfl
    · rw [rowStart_succ, ← hd]
      rfl
    · show Memory.Written _ _ _ _ _
        (((s.memory.load .video s.source (width.toNat * 2)).2.store .video s.destination
          (width.toNat * 2) _).bytes .video)
      rw [Memory.bytes_store_self, hd]
      refine hwritten.overwrite (fun n hn => ?_) fun q => Nat.lt_succ_iff_lt_or_eq
      show s.memory.bytes .video (s.source + UInt32.ofNat n) = _
      rw [hs]
      exact hwritten.eq_before fun q hq =>
        line_ahead hbytes hline hscreen hsource hdest hdown hq hk hn

/-- **A copy that goes down** is a copy at once. -/
theorem copiedAtOnce_of_down
    (hdown : goesUp c source.1 source.2 destination.1 destination.2 = false)
    (hchecks : c.rectangleChecks [source, destination] width height = true) :
    CopiedAtOnce c (m.bytes .video)
      ((videoToVideo c m source.1 source.2 destination.1 destination.2 width height).2.bytes
        .video) source destination width height := by
  obtain ⟨-, -, hheight⟩ := rectangleChecks_iff.mp hchecks
  obtain ⟨-, -, -, hbytesInLine⟩ := line_room hbytes hline hscreen hdest hheight
  have htwo : c.bytesPerPixel.toNat = 2 := by rw [hbytes]; rfl
  have hwritten := rowCopies_down (m := m) hbytes hline hscreen hsource hdest hdown
  have hresult : (videoToVideo c m source.1 source.2 destination.1 destination.2 width
      height).2.bytes .video
      = (forLoop 0 height (fun _ s => s.step (width.toNat * 2) c.lineStride)
        (RowCopy.mk (c.address source.1 source.2) (c.address destination.1 destination.2)
          m)).memory.bytes .video := by
    unfold videoToVideo
    rw [if_pos hchecks, hdown, ← hbytesInLine]
    rfl
  rw [hresult]
  refine ⟨fun j hj n hn => ?_, fun x hx => hwritten.eq_before fun q hq hreach => hx ?_⟩
  · rw [htwo] at hn
    have hwhere : (c.rowStart destination j + UInt32.ofNat n
        - c.rowStart destination j).toNat = n := by
      have hlt := (UInt32.ofNat n).toNat_lt
      obtain ⟨hroom, -, hlines, -⟩ := line_room hbytes hline hscreen hdest hheight
      have hone : 1 * (2 * c.pixelsPerScanLine.toNat)
          ≤ height.toNat * (2 * c.pixelsPerScanLine.toNat) := Nat.mul_le_mul_right _ hheight
      rw [UInt32.add_comm, UInt32.add_sub_cancel, UInt32.toNat_ofNat']
      omega
    refine hwritten.eq hj (by rw [hwhere]; exact hn) fun q hq hreach => ?_
    rw [lines_apart hbytes hline hscreen hdest hj hq hn hreach, hwhere]
  · rw [← hbytesInLine] at hreach
    exact span_row hq hreach

end

/-! ## Going up -/

section

variable {c : FrameBufferConfigure} {source destination : Corner} {width height : UInt32}

/-- The last byte of the first line of a rectangle. -/
def lastOfFirst (c : FrameBufferConfigure) (corner : Corner) (width : UInt32) : UInt32 :=
  c.rowStart corner 0 + UInt32.ofNat (width.toNat * 2 - 1)

/-- A screen with a one in a single byte. -/
def oneAt (address : UInt32) : Region → UInt32 → UInt8 := fun _ x => if x = address then 1 else 0

variable (hbytes : c.bytesPerPixel = 2) (hline : c.width.toNat ≤ c.pixelsPerScanLine.toNat)
  (hscreen : ScreenInMemory c) (hdest : InsideScreen c destination width height)
  (hwidth : 0 < width.toNat)

include hbytes hline hscreen hdest hwidth

/-- Lines below the first do not reach the last byte of the first. -/
theorem lastOfFirst_not_mem {k : ℕ} (h0 : 0 < k) (hk : k ≤ height.toNat) :
    lastOfFirst c destination width ∉ span (c.rowStart destination k) (width.toNat * 2) := by
  intro hmem
  obtain ⟨hroom, -, hlines, -⟩ := line_room hbytes hline hscreen hdest (by omega)
  obtain ⟨n, hn, heq⟩ := mem_span.mp hmem
  have htwo : c.bytesPerPixel.toNat = 2 := by rw [hbytes]; rfl
  have hmod := (rowStart_eq_iff destination (j := 0) (k := k) (b := n)
    (n := width.toNat * 2 - 1)).mp (by rw [Nat.zero_add]; exact heq.symm)
  rw [htwo] at hmod
  have hfirst : 1 * (2 * c.pixelsPerScanLine.toNat) ≤ k * (2 * c.pixelsPerScanLine.toNat) :=
    Nat.mul_le_mul_right _ h0
  have hlast : k * (2 * c.pixelsPerScanLine.toNat)
      ≤ height.toNat * (2 * c.pixelsPerScanLine.toNat) := Nat.mul_le_mul_right _ hk
  have hdvd : 2 ^ 32 ∣ k * (2 * c.pixelsPerScanLine.toNat) + n - (width.toNat * 2 - 1) :=
    (Nat.modEq_iff_dvd' (by omega)).mp hmod.symm
  have hle := Nat.le_of_dvd (by omega) hdvd
  omega

/-- **A copy that goes up** leaves the last byte of the first line of its
destination. -/
theorem lastOfFirst_kept {before : Region → UInt32 → UInt8}
    (hup : goesUp c source.1 source.2 destination.1 destination.2 = true) :
    (videoToVideo c ⟨before, []⟩ source.1 source.2 destination.1 destination.2 width
        height).2.bytes .video (lastOfFirst c destination width)
      = before .video (lastOfFirst c destination width) := by
  unfold videoToVideo
  by_cases hchecks : c.rectangleChecks [source, destination] width height = true
  · obtain ⟨-, -, hheight⟩ := rectangleChecks_iff.mp hchecks
    obtain ⟨-, -, -, hbytesInLine⟩ := line_room hbytes hline hscreen hdest hheight
    have hwithin : Memory.Within before .video Set.univ
        {x | x ≠ lastOfFirst c destination width}
        (forLoop 0 height (fun _ s => s.step (c.widthInBytes width) (-c.lineStride))
          (RowCopy.mk (c.address source.1 source.2 + height * c.lineStride)
            (c.address destination.1 destination.2 + height * c.lineStride)
            ⟨before, []⟩)).memory := by
      refine rowCopies_within (fun _ _ => Set.subset_univ _) (fun k hk => ?_) Memory.within_start
      refine Set.subset_inter (Set.subset_univ _) fun x hx hlast => ?_
      rw [rowStart_sub destination (Nat.le_of_lt hk), hbytesInLine, hlast] at hx
      exact lastOfFirst_not_mem hbytes hline hscreen hdest hwidth (by omega) (Nat.sub_le _ _) hx
    rw [if_pos hchecks, hup]
    exact hwithin.frame _ fun h => h rfl
  · rw [if_neg hchecks]

/-- **A copy that goes up** is not a copy at once: what should arrive in that byte
does not. -/
theorem not_copiedAtOnce_of_up (hheight : 0 < height.toNat)
    (hup : goesUp c source.1 source.2 destination.1 destination.2 = true) :
    ¬ CopiedAtOnce c (oneAt (lastOfFirst c source width) .video)
      ((videoToVideo c ⟨oneAt (lastOfFirst c source width), []⟩ source.1 source.2 destination.1
        destination.2 width height).2.bytes .video) source destination width height := by
  intro h
  have hcopied := h.copied 0 hheight (width.toNat * 2 - 1)
    (by rw [hbytes]; show _ < width.toNat * 2; omega)
  have hkept := @lastOfFirst_kept c source destination width height hbytes hline hscreen hdest
    hwidth (oneAt (lastOfFirst c source width)) hup
  have hne : lastOfFirst c destination width ≠ lastOfFirst c source width := by
    intro heq
    have hstart := (UInt32.add_left_inj _).mp heq
    rw [rowStart_zero, rowStart_zero] at hstart
    have hlt : c.address source.1 source.2 < c.address destination.1 destination.2 :=
      of_decide_eq_true hup
    rw [hstart] at hlt
    exact absurd hlt (UInt32.lt_irrefl _)
  have hzero : oneAt (lastOfFirst c source width) .video (lastOfFirst c destination width) = 0 :=
    if_neg hne
  have hone : oneAt (lastOfFirst c source width) .video (lastOfFirst c source width) = 1 :=
    if_pos rfl
  exact absurd (hone.symm.trans (hcopied.symm.trans (hkept.trans hzero))) (by decide)

end

/-- **When a copy within the screen is a copy at once**, for two rectangles within a
screen that lies in memory, however they overlap: for whatever is on the screen,
just when the rectangles are empty or the copy does not go up. -/
theorem videoToVideo_copiedAtOnce_iff {frameBuffer : UInt32} {info : ModeInformation}
    {configure : Bool} {configureSize : Option UInt32} {c : FrameBufferConfigure}
    (hconfigure : (frameBufferBltConfigure frameBuffer info configure configureSize).configure
      = some c) (hscreen : ScreenInMemory c) {source destination : Corner} {width height : UInt32}
    (hsource : InsideScreen c source width height)
    (hdest : InsideScreen c destination width height) :
    (∀ before, CopiedAtOnce c (before .video)
        ((videoToVideo c ⟨before, []⟩ source.1 source.2 destination.1 destination.2 width
          height).2.bytes .video) source destination width height)
      ↔ width.toNat = 0 ∨ height.toNat = 0
        ∨ goesUp c source.1 source.2 destination.1 destination.2 = false := by
  have hbytes := bytesPerPixel_of_configure hconfigure
  have hline := width_le_of_configure hconfigure
  by_cases hempty : width.toNat = 0 ∨ height.toNat = 0
  · refine iff_of_true (fun before => ?_) (or_assoc.mp (.inl hempty))
    have hreject : ¬ c.rectangleChecks [source, destination] width height = true := by
      intro hchecks
      obtain ⟨-, hwidth, hheight⟩ := rectangleChecks_iff.mp hchecks
      omega
    unfold videoToVideo
    rw [if_neg hreject]
    refine ⟨fun j hj n hn => ?_, fun _ _ => rfl⟩
    rw [hbytes] at hn
    have hn' : n < width.toNat * 2 := hn
    omega
  · have hwidth : 0 < width.toNat := by omega
    have hheight : 0 < height.toNat := by omega
    constructor
    · intro h
      refine .inr (.inr ?_)
      by_contra hnot
      exact not_copiedAtOnce_of_up hbytes hline hscreen hdest hwidth hheight
        (Bool.eq_true_of_not_eq_false hnot) (h _)
    · rintro (hzero | hzero | hdown) before
      · omega
      · omega
      · have hchecks : c.rectangleChecks [source, destination] width height = true :=
          rectangleChecks_of_inside (List.forall_mem_cons.mpr
            ⟨hsource, List.forall_mem_singleton.mpr hdest⟩) hwidth hheight
        exact copiedAtOnce_of_down (m := ⟨before, []⟩) hbytes hline hscreen hsource hdest hdown
          hchecks

/-- The screen of the device lies in memory. -/
theorem screenInMemory_simpleFb : ScreenInMemory simpleFbConfigure := ⟨by decide, by decide⟩

/-- Scrolling the screen of the device, with something on it, up by a line of text. -/
theorem scroll_copiedAtOnce :
    CopiedAtOnce simpleFbConfigure (fun x => x.toUInt8 * 7)
      ((videoToVideo simpleFbConfigure ⟨fun _ x => x.toUInt8 * 7, []⟩ 0 19 0 0 240 301).2.bytes
        .video) (0, 19) (0, 0) 240 301 := by
  have hsource : InsideScreen simpleFbConfigure (0, 19) 240 301 := ⟨by decide, by decide⟩
  have hdest : InsideScreen simpleFbConfigure (0, 0) 240 301 := ⟨by decide, by decide⟩
  have hdown : goesUp simpleFbConfigure 0 19 0 0 = false := by decide
  have hall := (videoToVideo_copiedAtOnce_iff configure_simpleFb screenInMemory_simpleFb hsource
    hdest).mpr (.inr (.inr hdown))
  dsimp only at hall
  exact hall fun _ x => x.toUInt8 * 7

/-- The first line of the screen of the device copied to the second: on a screen
with a one at the end of the first the second does not receive it. -/
theorem not_copiedAtOnce_firstLine :
    InsideScreen simpleFbConfigure (0, 0) 240 1 ∧ InsideScreen simpleFbConfigure (0, 1) 240 1
      ∧ ¬ CopiedAtOnce simpleFbConfigure
        (oneAt (lastOfFirst simpleFbConfigure (0, 0) 240) .video)
        ((videoToVideo simpleFbConfigure ⟨oneAt (lastOfFirst simpleFbConfigure (0, 0) 240), []⟩
          0 0 0 1 240 1).2.bytes .video) (0, 0) (0, 1) 240 1 :=
  ⟨⟨by decide, by decide⟩, ⟨by decide, by decide⟩,
    @not_copiedAtOnce_of_up simpleFbConfigure (0, 0) (0, 1) 240 1 rfl (by decide)
      screenInMemory_simpleFb ⟨by decide, by decide⟩ (by decide) (by decide) (by decide)⟩

end FrameBufferBlt
