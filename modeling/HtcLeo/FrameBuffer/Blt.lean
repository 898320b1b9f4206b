import HtcLeo.Efi
import HtcLeo.Lib.Loop
import HtcLeo.Lib.Memory

/-!
# Block transfers on the frame buffer

The console draws through four operations on a frame buffer of 16-bit pixels:
fill a rectangle with a colour, copy a rectangle of a buffer of 32-bit pixels
to the screen or back, and copy one rectangle of the screen to another.
`FrameBufferBltConfigure` describes the screen once, and each call then checks
its rectangles against the description and walks over their rows.

All coordinates, sizes, offsets and addresses are 32-bit words and wrap as in
the source. The memory has three regions: the frame buffer, addressed as the
processor does, and the line buffer and the caller's buffer, addressed from
their own beginning.
-/

namespace FrameBufferBlt

/-! ## The configuration -/

/-- `EFI_GRAPHICS_PIXEL_FORMAT`. -/
inductive PixelFormat where
  | pixelRedGreenBlueReserved8BitPerColor
  | pixelBlueGreenRedReserved8BitPerColor
  | pixelBitMask
  | pixelBltOnly
  | pixelFormatMax
  deriving DecidableEq, Repr

/-- `EFI_PIXEL_BITMASK`. -/
structure PixelBitmask where
  redMask : UInt32
  greenMask : UInt32
  blueMask : UInt32
  reservedMask : UInt32
  deriving DecidableEq, Repr

/-- `EFI_GRAPHICS_OUTPUT_MODE_INFORMATION`, without its version. -/
structure ModeInformation where
  horizontalResolution : UInt32
  verticalResolution : UInt32
  pixelFormat : PixelFormat
  pixelInformation : PixelBitmask
  pixelsPerScanLine : UInt32

/-- **`FRAME_BUFFER_CONFIGURE`**, without the line buffer at its end: that is a
region of the memory. The shift amounts are those of red, green and blue. -/
structure FrameBufferConfigure where
  pixelsPerScanLine : UInt32
  bytesPerPixel : UInt32
  width : UInt32
  height : UInt32
  frameBuffer : UInt32
  pixelFormat : PixelFormat
  pixelMasks : PixelBitmask
  pixelShl : Fin 3 → UInt32
  pixelShr : Fin 3 → UInt32

/-- `mRgbPixelMasks`: the masks of RGB565. -/
def mRgbPixelMasks : PixelBitmask := ⟨0xf800, 0x07e0, 0x001f, 0x0000⟩

/-- `Masks[Index]`, for the three colours. -/
def PixelBitmask.masks (bitMask : PixelBitmask) : Fin 3 → UInt32
  | 0 => bitMask.redMask
  | 1 => bitMask.greenMask
  | 2 => bitMask.blueMask

/-- `HighBitSet32`: the highest bit set, and −1 when there is none. -/
def highBitSet32 (operand : UInt32) : ℤ :=
  if operand = 0 then -1 else operand.toNat.log2

/-- `HighBitSet32 (Masks[Index]) - 23 + (Index * 8)`. -/
def pixelShift (bitMask : PixelBitmask) (index : Fin 3) : ℤ :=
  highBitSet32 (bitMask.masks index) - 23 + index.val * 8

/-- `PixelShl[Index]`, as `FrameBufferBltLibConfigurePixelFormat` leaves it. -/
def pixelShl (bitMask : PixelBitmask) (index : Fin 3) : UInt32 :=
  if pixelShift bitMask index < 0 then 0 else UInt32.ofNat (pixelShift bitMask index).toNat

/-- `PixelShr[Index]`, as `FrameBufferBltLibConfigurePixelFormat` leaves it. -/
def pixelShr (bitMask : PixelBitmask) (index : Fin 3) : UInt32 :=
  if pixelShift bitMask index < 0 then UInt32.ofNat (-pixelShift bitMask index).toNat else 0

/-- `sizeof (FRAME_BUFFER_CONFIGURE)`. -/
def sizeofConfigure : UInt32 := 48

/-- What a call of `FrameBufferBltConfigure` returns: its status, the size it
left in `ConfigureSize`, and the configuration when it wrote one. -/
structure ConfigureResult where
  status : EfiStatus
  configureSize : Option UInt32
  configure : Option FrameBufferConfigure

/-- The `switch` on the pixel format: the masks, or the status to return. -/
def selectBitMask (info : ModeInformation) : Except EfiStatus PixelBitmask :=
  match info.pixelFormat with
  | .pixelRedGreenBlueReserved8BitPerColor => .ok mRgbPixelMasks
  | .pixelBitMask => .ok info.pixelInformation
  | .pixelBltOnly => .error .efiUnsupported
  | _ => .error .efiInvalidParameter

/-- `FrameBufferBltConfigure`, with `configure` telling whether the pointer
`Configure` is not `NULL`. -/
def frameBufferBltConfigure (frameBuffer : UInt32) (info : ModeInformation)
    (configure : Bool) (configureSize : Option UInt32) : ConfigureResult :=
  match configureSize with
  | none => ⟨.efiInvalidParameter, none, none⟩
  | some size =>
    match selectBitMask info with
    | .error status => ⟨status, some size, none⟩
    | .ok bitMask =>
      if info.pixelsPerScanLine < info.horizontalResolution then
        ⟨.efiUnsupported, some size, none⟩
      else
        let bytesPerPixel : UInt32 := 2
        let needed := sizeofConfigure + info.horizontalResolution * bytesPerPixel
        if size < needed then ⟨.efiBufferTooSmall, some needed, none⟩
        else if !configure then ⟨.efiInvalidParameter, some size, none⟩
        else
          ⟨.efiSuccess, some size, some
            { pixelsPerScanLine := info.pixelsPerScanLine
              bytesPerPixel := bytesPerPixel
              width := info.horizontalResolution
              height := info.verticalResolution
              frameBuffer := frameBuffer
              pixelFormat := info.pixelFormat
              pixelMasks := bitMask
              pixelShl := pixelShl bitMask
              pixelShr := pixelShr bitMask }⟩

/-- **What a configuration is made of**: the masks of its pixel format, and the
mode, whose lines are as long as they say. -/
theorem eq_of_configure {frameBuffer : UInt32} {info : ModeInformation}
    {configure : Bool} {configureSize : Option UInt32} {c : FrameBufferConfigure}
    (h : (frameBufferBltConfigure frameBuffer info configure configureSize).configure = some c) :
    ∃ bitMask, selectBitMask info = .ok bitMask
      ∧ ¬ info.pixelsPerScanLine < info.horizontalResolution
      ∧ c = { pixelsPerScanLine := info.pixelsPerScanLine
              bytesPerPixel := 2
              width := info.horizontalResolution
              height := info.verticalResolution
              frameBuffer := frameBuffer
              pixelFormat := info.pixelFormat
              pixelMasks := bitMask
              pixelShl := pixelShl bitMask
              pixelShr := pixelShr bitMask } := by
  unfold frameBufferBltConfigure at h
  cases configureSize with
  | none => cases h
  | some size =>
    cases hmask : selectBitMask info with
    | error status =>
      simp only [hmask] at h
      cases h
    | ok bitMask =>
      simp only [hmask] at h
      split at h
      · cases h
      · rename_i hline
        split at h
        · cases h
        · split at h
          · cases h
          · exact ⟨bitMask, rfl, hline, (Option.some.inj h).symm⟩

/-- Every configuration has pixels of two bytes. -/
theorem bytesPerPixel_of_configure {frameBuffer : UInt32} {info : ModeInformation}
    {configure : Bool} {configureSize : Option UInt32} {c : FrameBufferConfigure}
    (h : (frameBufferBltConfigure frameBuffer info configure configureSize).configure = some c) :
    c.bytesPerPixel = 2 := by
  obtain ⟨bitMask, -, -, rfl⟩ := eq_of_configure h
  rfl

/-- `PcdMipiFrameBufferAddress`: where the bootloader leaves the frame buffer. -/
def pcdMipiFrameBufferAddress : UInt32 := 0x2a00000

/-- The mode `SimpleFbDxe` sets up: `PcdMipiFrameBufferWidth` by
`PcdMipiFrameBufferHeight` pixels, line after line. -/
def simpleFbMode : ModeInformation where
  horizontalResolution := 240
  verticalResolution := 320
  pixelFormat := .pixelRedGreenBlueReserved8BitPerColor
  pixelInformation := ⟨0, 0, 0, 0⟩
  pixelsPerScanLine := 240

/-- The configuration of the device. -/
def simpleFbConfigure : FrameBufferConfigure where
  pixelsPerScanLine := 240
  bytesPerPixel := 2
  width := 240
  height := 320
  frameBuffer := pcdMipiFrameBufferAddress
  pixelFormat := .pixelRedGreenBlueReserved8BitPerColor
  pixelMasks := mRgbPixelMasks
  pixelShl := pixelShl mRgbPixelMasks
  pixelShr := pixelShr mRgbPixelMasks

/-- It is what the library makes of the mode, in a buffer of the size it demands. -/
theorem configure_simpleFb :
    (frameBufferBltConfigure pcdMipiFrameBufferAddress simpleFbMode true (some 528)).configure
      = some simpleFbConfigure := rfl

/-! ## The memory -/

/-- The regions the transfers touch. -/
inductive Region where
  | video
  | lineBuffer
  | bltBuffer
  deriving DecidableEq, Repr

/-- A corner of a rectangle: its X and its Y. -/
abbrev Corner : Type := UInt32 × UInt32

namespace FrameBufferConfigure

variable (c : FrameBufferConfigure)

/-- `FrameBuffer + BytesPerPixel * (y * PixelsPerScanLine + x)`. -/
def address (x y : UInt32) : UInt32 :=
  c.frameBuffer + c.bytesPerPixel * (y * c.pixelsPerScanLine + x)

/-- **The rectangle checks** the four operations open with: for each of the
given corners `y + Height <= Height of the screen` and the same across, and
neither size zero. -/
def rectangleChecks (corners : List Corner) (width height : UInt32) : Bool :=
  (corners.all fun corner => !(corner.2 + height > c.height) && !(corner.1 + width > c.width))
    && !(width = 0 || height = 0)

end FrameBufferConfigure

/-! ## The operations -/

/-- `((Red >> 3) << 11) | ((Green >> 2) << 5) | (Blue >> 3)`. -/
def packColor (red green blue : UInt8) : UInt16 :=
  ((red >>> 3).toUInt16 <<< 11) ||| ((green >>> 2).toUInt16 <<< 5) ||| (blue >>> 3).toUInt16

/-- The colour of the 32-bit pixel at an offset of the caller's buffer, read
component by component. -/
def readColor (m : Memory Region) (pixel : UInt32) : UInt16 × Memory Region :=
  let red := m.read8 .bltBuffer (pixel + 2)
  let green := red.2.read8 .bltBuffer (pixel + 1)
  let blue := green.2.read8 .bltBuffer pixel
  (packColor red.1 green.1 blue.1, blue.2)

/-- One row of `FrameBufferBltLibVideoFill`: the pointer and the memory after it. -/
def videoFillRow (c : FrameBufferConfigure) (uint16 : UInt16) (width : UInt32)
    (s : UInt32 × Memory Region) : UInt32 × Memory Region :=
  let row := forLoop 0 width (fun _ t =>
    (t.1 + c.bytesPerPixel, t.2.write16 .video t.1 uint16)) s
  (row.1 + (c.bytesPerPixel * c.pixelsPerScanLine - width * c.bytesPerPixel), row.2)

/-- **`FrameBufferBltLibVideoFill`**, with the offset of its colour in the
caller's buffer. -/
def videoFill (c : FrameBufferConfigure) (m : Memory Region) (color : UInt32)
    (destinationX destinationY width height : UInt32) : EfiStatus × Memory Region :=
  if c.rectangleChecks [(destinationX, destinationY)] width height then
    if c.pixelFormat ≠ .pixelRedGreenBlueReserved8BitPerColor
        ∧ c.pixelFormat ≠ .pixelBlueGreenRedReserved8BitPerColor then (.efiInvalidParameter, m)
    else
      let uint16 := readColor m color
      let destination := c.address destinationX destinationY
      (.efiSuccess, (forLoop 0 height (fun _ s => videoFillRow c uint16.1 width s)
        (destination, uint16.2)).2)
  else (.efiInvalidParameter, m)

/-- The 32-bit pixel made of a word of the line buffer. -/
def expandColor (c : FrameBufferConfigure) (uint32 : UInt32) : UInt32 :=
  let red := (uint32 &&& c.pixelMasks.redMask) >>> c.pixelShl 0 <<< c.pixelShr 0
  let green := (uint32 &&& c.pixelMasks.greenMask) >>> c.pixelShl 1 <<< c.pixelShr 1
  let blue := (uint32 &&& c.pixelMasks.blueMask) >>> c.pixelShl 2 <<< c.pixelShr 2
  red ||| green ||| blue

/-- One row of `FrameBufferBltLibVideoToBltBuffer`. -/
def videoToBltBufferRow (c : FrameBufferConfigure) (sourceX destinationX width delta : UInt32)
    (srcY dstY : UInt32) (m : Memory Region) : Memory Region :=
  let widthInBytes := width * c.bytesPerPixel
  let source := c.address sourceX srcY
  if c.pixelFormat = .pixelBlueGreenRedReserved8BitPerColor then
    m.copyMem .bltBuffer (dstY * delta + destinationX * 4) .video source widthInBytes.toNat
  else
    forLoop 0 width (fun indexX m =>
      let uint32 := m.read32 .lineBuffer (indexX * c.bytesPerPixel)
      uint32.2.write32 .bltBuffer (dstY * delta + (destinationX + indexX) * 4)
        (expandColor c uint32.1))
      (m.copyMem .lineBuffer 0 .video source widthInBytes.toNat)

/-- `if (Delta == 0) Delta = Width * sizeof (EFI_GRAPHICS_OUTPUT_BLT_PIXEL)`. -/
def rowDelta (delta width : UInt32) : UInt32 := if delta = 0 then width * 4 else delta

/-- **`FrameBufferBltLibVideoToBltBuffer`.** -/
def videoToBltBuffer (c : FrameBufferConfigure) (m : Memory Region)
    (sourceX sourceY destinationX destinationY width height delta : UInt32) :
    EfiStatus × Memory Region :=
  if c.rectangleChecks [(sourceX, sourceY)] width height then
    (.efiSuccess, (forLoop destinationY (height + destinationY) (fun dstY s =>
      (s.1 + 1,
        videoToBltBufferRow c sourceX destinationX width (rowDelta delta width) s.1 dstY s.2))
      (sourceY, m)).2)
  else (.efiInvalidParameter, m)

/-- One row of `FrameBufferBltLibBufferToVideo`. -/
def bufferToVideoRow (c : FrameBufferConfigure) (sourceX destinationX width delta : UInt32)
    (srcY dstY : UInt32) (m : Memory Region) : Memory Region :=
  let destination := c.address destinationX dstY
  forLoop 0 width (fun indexX m =>
    let read := readColor m (srcY * delta + (sourceX + indexX) * 4)
    let color := if c.pixelFormat = .pixelBlueGreenRedReserved8BitPerColor then ~~~read.1
      else read.1
    read.2.write16 .video (destination + indexX * c.bytesPerPixel) color) m

/-- **`FrameBufferBltLibBufferToVideo`.** -/
def bufferToVideo (c : FrameBufferConfigure) (m : Memory Region)
    (sourceX sourceY destinationX destinationY width height delta : UInt32) :
    EfiStatus × Memory Region :=
  if c.rectangleChecks [(destinationX, destinationY)] width height then
    (.efiSuccess, (forLoop sourceY (height + sourceY) (fun srcY s =>
      (s.1 + 1,
        bufferToVideoRow c sourceX destinationX width (rowDelta delta width) srcY s.1 s.2))
      (destinationY, m)).2)
  else (.efiInvalidParameter, m)

/-- The pointers of `FrameBufferBltLibVideoToVideo` and the memory, between two
rows. -/
structure RowCopy where
  source : UInt32
  destination : UInt32
  memory : Memory Region

/-- One turn of the loop in `FrameBufferBltLibVideoToVideo`. -/
def RowCopy.step (widthInBytes : ℕ) (lineStride : UInt32) (s : RowCopy) : RowCopy where
  source := s.source + lineStride
  destination := s.destination + lineStride
  memory := s.memory.copyMem .video s.destination .video s.source widthInBytes

/-- `Destination > Source`: the copy goes from the last line up. -/
def goesUp (c : FrameBufferConfigure) (sourceX sourceY destinationX destinationY : UInt32) :
    Bool :=
  c.address destinationX destinationY > c.address sourceX sourceY

/-- **`FrameBufferBltLibVideoToVideo`.** -/
def videoToVideo (c : FrameBufferConfigure) (m : Memory Region)
    (sourceX sourceY destinationX destinationY width height : UInt32) :
    EfiStatus × Memory Region :=
  if c.rectangleChecks [(sourceX, sourceY), (destinationX, destinationY)] width height then
    let widthInBytes := width * c.bytesPerPixel
    let source := c.address sourceX sourceY
    let destination := c.address destinationX destinationY
    let lineStride := c.bytesPerPixel * c.pixelsPerScanLine
    let first : RowCopy × UInt32 :=
      if goesUp c sourceX sourceY destinationX destinationY then
        (⟨source + height * lineStride, destination + height * lineStride, m⟩, -lineStride)
      else (⟨source, destination, m⟩, lineStride)
    (.efiSuccess,
      (forLoop 0 height (fun _ s => s.step widthInBytes.toNat first.2) first.1).memory)
  else (.efiInvalidParameter, m)

/-! ## The dispatch -/

/-- `EFI_GRAPHICS_OUTPUT_BLT_OPERATION`. -/
inductive BltOperation where
  | efiBltVideoFill
  | efiBltVideoToBltBuffer
  | efiBltBufferToVideo
  | efiBltVideoToVideo
  | efiGraphicsOutputBltOperationMax
  deriving DecidableEq, Repr

/-- **`FrameBufferBlt`**, with `none` for a `Configure` that is `NULL`. -/
def frameBufferBlt (configure : Option FrameBufferConfigure) (m : Memory Region)
    (bltOperation : BltOperation)
    (sourceX sourceY destinationX destinationY width height delta : UInt32) :
    EfiStatus × Memory Region :=
  match configure with
  | none => (.efiInvalidParameter, m)
  | some c =>
    match bltOperation with
    | .efiBltVideoToBltBuffer =>
      videoToBltBuffer c m sourceX sourceY destinationX destinationY width height delta
    | .efiBltVideoToVideo =>
      videoToVideo c m sourceX sourceY destinationX destinationY width height
    | .efiBltVideoFill => videoFill c m 0 destinationX destinationY width height
    | .efiBltBufferToVideo =>
      bufferToVideo c m sourceX sourceY destinationX destinationY width height delta
    | .efiGraphicsOutputBltOperationMax => (.efiInvalidParameter, m)

end FrameBufferBlt
