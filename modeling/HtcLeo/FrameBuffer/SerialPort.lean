import HtcLeo.Lib.Loop
import HtcLeo.Lib.Memory
import Mathlib.Data.Int.Notation
import Mathlib.Algebra.Group.Int.Defs

/-!
# The serial console on the frame buffer

Where there is no serial line the serial port library draws what is written to
it on the screen, a character at a time, in a font of five by twelve pixels.
A character at the end of a page starts the next one: the screen is cleared,
and the routine goes back to its first line, with the same character.

Positions are signed words and are kept here as integers; where the source
mixes them with an unsigned word they are taken modulo the width, as the
language has it. The pixel pointer is a 32-bit word. The font is a region of
the memory, so that a read beside it shows.
-/

namespace FrameBufferSerialPort

/-! ## The screen and the font -/

/-- `PcdMipiFrameBufferWidth`. -/
def gWidth : UInt32 := 240
/-- `PcdMipiFrameBufferHeight`. -/
def gHeight : UInt32 := 320
/-- `PcdMipiFrameBufferPixelBpp`. -/
def gBpp : UInt32 := 16
/-- `PcdMipiFrameBufferAddress`. -/
def frameBufferAddress : UInt32 := 0x2a00000

def fbRgb565Black : UInt32 := 0x0000
def fbRgb565White : UInt32 := 0xffff
def fbRgb565Yellow : UInt32 := 0xffe0

def fontWidth : UInt32 := 5
def fontHeight : UInt32 := 12
/-- `SCALE_FACTOR`. -/
def defaultScaleFactor : UInt32 := 1

/-- `font5x12`: two words for each character from the space on. -/
def font5x12 : List UInt32 :=
  [
    0x00000000, 0x00000000, 0x08421080, 0x00020084, 0x00052940, 0x00000000,
    0x15f52800, 0x0000295f, 0x1c52f880, 0x00023e94, 0x08855640, 0x0004d542,
    0x04528800, 0x000b2725, 0x00021080, 0x00000000, 0x04211088, 0x00821042,
    0x10841082, 0x00221108, 0x09575480, 0x00000000, 0x3e420000, 0x00000084,
    0x00000000, 0x00223000, 0x3e000000, 0x00000000, 0x00000000, 0x00471000,
    0x08844200, 0x00008442, 0x2318a880, 0x00022a31, 0x08429880, 0x000f9084,
    0x1108c5c0, 0x000f8444, 0x1c4443e0, 0x00074610, 0x14a62100, 0x000423e9,
    0x26d087e0, 0x00074610, 0x1e10c5c0, 0x00074631, 0x088443e0, 0x00010844,
    0x1d18c5c0, 0x00074631, 0x3d18c5c0, 0x00074610, 0x08e20000, 0x00471000,
    0x08e20000, 0x00223000, 0x02222200, 0x00082082, 0x01f00000, 0x000003e0,
    0x20820820, 0x00008888, 0x1108c5c0, 0x00020084, 0x2b98c5c0, 0x000f05b5,
    0x2318a880, 0x0008c63f, 0x1d2949e0, 0x0007ca52, 0x0210c5c0, 0x00074421,
    0x252949e0, 0x0007ca52, 0x1e1087e0, 0x000f8421, 0x1e1087e0, 0x00008421,
    0x0210c5c0, 0x00074639, 0x3f18c620, 0x0008c631, 0x084211c0, 0x00071084,
    0x10842380, 0x00032508, 0x0654c620, 0x0008c525, 0x02108420, 0x000f8421,
    0x2b5dc620, 0x0008c631, 0x2b59ce20, 0x0008c739, 0x2318c5c0, 0x00074631,
    0x1f18c5e0, 0x00008421, 0x2318c5c0, 0x01075631, 0x1f18c5e0, 0x0008c525,
    0x1c10c5c0, 0x00074610, 0x084213e0, 0x00021084, 0x2318c620, 0x00074631,
    0x1518c620, 0x0002114a, 0x2b18c620, 0x000556b5, 0x08a54620, 0x0008c54a,
    0x08a54620, 0x00021084, 0x088443e0, 0x000f8442, 0x0421084e, 0x00e10842,
    0x08210420, 0x00084108, 0x1084210e, 0x00e42108, 0x0008a880, 0x00000000,
    0x00000000, 0x01f00000, 0x00000104, 0x00000000, 0x20e00000, 0x000b663e,
    0x22f08420, 0x0007c631, 0x22e00000, 0x00074421, 0x23e84200, 0x000f4631,
    0x22e00000, 0x0007443f, 0x1e214980, 0x00010842, 0x22e00000, 0x1d187a31,
    0x26d08420, 0x0008c631, 0x08601000, 0x00071084, 0x10c02000, 0x0c94a108,
    0x0a908420, 0x0008a4a3, 0x084210c0, 0x00071084, 0x2ab00000, 0x0008d6b5,
    0x26d00000, 0x0008c631, 0x22e00000, 0x00074631, 0x22f00000, 0x0210be31,
    0x23e00000, 0x21087a31, 0x26d00000, 0x00008421, 0x22e00000, 0x00074506,
    0x04f10800, 0x00064842, 0x23100000, 0x000b6631, 0x23100000, 0x00022951,
    0x23100000, 0x000556b5, 0x15100000, 0x0008a884, 0x23100000, 0x1d185b31,
    0x11f00000, 0x000f8444, 0x06421098, 0x01821084, 0x08421080, 0x00021084,
    0x30421083, 0x00321084, 0x0004d640, 0x00000000, 0x00000000, 0x00000000
  ]

/-- The regions of the memory. -/
inductive FbRegion where
  | frameBuffer
  | font
  deriving DecidableEq, Repr

/-- The bytes of the font. -/
def fontBytes (x : UInt32) : UInt8 :=
  Word.byte (font5x12.getD (x.toNat / 4) 0) (x.toNat % 4)

/-! ## The state -/

/-- `FBCON_POSITION`. -/
structure FbConPosition where
  x : ℤ
  y : ℤ
  deriving DecidableEq, Repr

/-- `FBCON_COLOR`. -/
structure FbConColor where
  foreground : UInt32
  background : UInt32
  deriving DecidableEq, Repr

/-- `FbConMsgType`. -/
inductive FbConMsgType where
  | common
  | unlockTitle
  | title
  | subtitle
  | yellow
  | orange
  | red
  | green
  | selectBgColor
  deriving DecidableEq, Repr

/-- **The console**: the variables of the library, the state of the interrupts with
the calls that set it, and the memory. -/
structure FbCon where
  position : FbConPosition
  maxPosition : FbConPosition
  color : FbConColor
  initialized : Bool
  interrupts : Bool
  interruptCalls : List Bool
  memory : Memory FbRegion

/-- `ArmDisableInterrupts`. -/
def armDisableInterrupts (s : FbCon) : FbCon :=
  { s with interrupts := false, interruptCalls := s.interruptCalls ++ [false] }

/-- `ArmEnableInterrupts`. -/
def armEnableInterrupts (s : FbCon) : FbCon :=
  { s with interrupts := true, interruptCalls := s.interruptCalls ++ [true] }

/-- `if (state) ArmEnableInterrupts ();` -/
def enableIf (state : Bool) (s : FbCon) : FbCon := if state then armEnableInterrupts s else s

/-- A word read as a signed one. -/
def asInt (w : UInt32) : ℤ := if w.toNat < 2 ^ 31 then w.toNat else (w.toNat : ℤ) - 2 ^ 32

/-! ## Drawing -/

/-- A pixel pointer and the memory behind it. -/
abbrev Pixels : Type := UInt32 × Memory FbRegion

/-- The innermost loop of all drawing: the `bpp` bytes of a colour, lowest first. -/
def writeColor (color bpp : UInt32) (s : Pixels) : Pixels :=
  (forLoop 0 bpp (fun _ (t : UInt32 × Pixels) =>
    (t.1 >>> 8, (t.2.1 + 1, t.2.2.write8 .frameBuffer t.2.1 t.1.toUInt8))) (color, s)).2

/-- `ResetFb`: the screen in black. -/
def resetFb (m : Memory FbRegion) : Memory FbRegion :=
  (forLoop 0 gWidth (fun _ s => forLoop 0 gHeight (fun _ s =>
    writeColor fbRgb565Black (gBpp / 8) s) s) (frameBufferAddress, m)).2

/-- One of the two loops of `FbConDrawglyph` that paint half of the background. -/
def clearHalf (color : FbConColor) (stride bpp scaleFactor : UInt32) (s : Pixels) : Pixels :=
  forLoop 0 (fontHeight / 2) (fun _ s => forLoop 0 scaleFactor (fun _ s =>
    let row := forLoop 0 fontWidth (fun _ s =>
      forLoop 0 scaleFactor (fun _ s => writeColor color.background bpp s) s) s
    (row.1 + stride * bpp, row.2)) s) s

/-- One pixel of a glyph, drawn or passed over as the lowest bit of the data says. -/
def drawPixel (color : FbConColor) (bpp scaleFactor : UInt32) (s : UInt32 × Pixels) :
    UInt32 × Pixels :=
  let pixels :=
    if s.1 &&& 1 ≠ 0 then
      forLoop 0 scaleFactor (fun _ s => writeColor color.foreground bpp s) s.2
    else forLoop 0 scaleFactor (fun _ s => (s.1 + bpp, s.2)) s.2
  (s.1 >>> 1, pixels)

/-- One of the two loops of `FbConDrawglyph` that draw half of the glyph. -/
def drawHalf (color : FbConColor) (stride bpp scaleFactor data : UInt32) (s : Pixels) : Pixels :=
  (forLoop 0 (fontHeight / 2) (fun _ (s : UInt32 × Pixels) =>
    let temp := s.1
    forLoop 0 scaleFactor (fun _ s =>
      let row := forLoop 0 fontWidth (fun _ s => drawPixel color bpp scaleFactor s) (temp, s.2)
      (row.1, (row.2.1 + stride * bpp, row.2.2))) s) (data, s)).2

/-- **`FbConDrawglyph`**: the background of the cell, from `bg_pixels` on, and then
the glyph over it, from `pixels` on. `glyph` counts the words of the font. -/
def fbConDrawglyph (color : FbConColor) (pixels stride bpp glyph scaleFactor : UInt32)
    (m : Memory FbRegion) : Memory FbRegion :=
  let stride := stride - fontWidth * scaleFactor
  let cleared := clearHalf color stride bpp scaleFactor
    (clearHalf color stride bpp scaleFactor (pixels, m))
  let upper := cleared.2.read32 .font (glyph * 4)
  let drawn := drawHalf color stride bpp scaleFactor upper.1 (pixels, upper.2)
  let lower := drawn.2.read32 .font ((glyph + 1) * 4)
  (drawHalf color stride bpp scaleFactor lower.1 (drawn.1, lower.2)).2

/-! ## Characters -/

/-- `FbConReset`. -/
def fbConReset (s : FbCon) : FbCon :=
  { s with
    position := ⟨0, 0⟩
    maxPosition := ⟨asInt (gWidth / (fontWidth + 1)), asInt ((gHeight - 1) / fontHeight)⟩
    color := ⟨fbRgb565White, fbRgb565Black⟩ }

/-- What comes after the label `newline`: the state, and whether the routine goes
back to the label `paint`. -/
def newline (scaleFactor : UInt32) (intstate : Bool) (s : FbCon) : FbCon × Bool :=
  let y := UInt32.ofInt s.position.y + scaleFactor
  let s := { s with position := ⟨0, asInt y⟩ }
  if y ≥ UInt32.ofInt s.maxPosition.y - scaleFactor then
    (enableIf intstate { s with position := ⟨0, 0⟩, memory := resetFb s.memory }, true)
  else (enableIf intstate s, false)

/-- What comes after the label `paint`: the state, whether the routine goes back to
the label, and the local `intstate` as it is left. -/
def paint (c : UInt8) (type : FbConMsgType) (scaleFactor : UInt32) (intstate : Bool) (s : FbCon) :
    FbCon × Bool × Bool :=
  if c > 127 then (s, false, intstate)
  else if c < 32 then
    if c = 10 then
      let next := newline scaleFactor intstate s
      (next.1, next.2, intstate)
    else if c = 13 then ({ s with position := ⟨0, s.position.y⟩ }, false, intstate)
    else (s, false, intstate)
  else if s.position.x = 0 ∧ c = 32 ∧ type ≠ .subtitle ∧ type ≠ .title then (s, false, intstate)
  else
    let intstate := s.interrupts
    let s := armDisableInterrupts s
    let pixels := frameBufferAddress
      + UInt32.ofInt s.position.y * (gBpp / 8 * fontHeight * gWidth)
      + UInt32.ofInt s.position.x * scaleFactor * (gBpp / 8 * (fontWidth + 1))
    let memory := fbConDrawglyph s.color pixels gWidth (gBpp / 8)
      ((c.toUInt32 - 32) * 2) scaleFactor s.memory
    let x := s.position.x + 1
    let s := { s with memory := memory, position := ⟨x, s.position.y⟩ }
    if x ≥ asInt (UInt32.ofInt s.maxPosition.x / scaleFactor) then
      let next := newline scaleFactor intstate s
      (next.1, next.2, intstate)
    else (enableIf intstate s, false, intstate)

/-- The routine from the label `paint` on, which it may reach `fuel` times: `none`
when that is not enough. -/
def paintAgain (c : UInt8) (type : FbConMsgType) (scaleFactor : UInt32) :
    ℕ → Bool → FbCon → Option FbCon
  | 0, _, _ => none
  | fuel + 1, intstate, s =>
    let next := paint c type scaleFactor intstate s
    if next.2.1 then paintAgain c type scaleFactor fuel next.2.2 next.1 else some next.1

/-- **`FbConPutCharWithFactor`**. The local `intstate` is not initialised: it holds
`intstate` until it is set. -/
def fbConPutCharWithFactor (fuel : ℕ) (c : UInt8) (type : FbConMsgType) (scaleFactor : UInt32)
    (intstate : Bool) (s : FbCon) : Option FbCon :=
  if !s.initialized then some s else paintAgain c type scaleFactor fuel intstate s

/-! ## The library -/

/-- `SerialPortInitialize`. -/
def serialPortInitialize (s : FbCon) : FbCon :=
  if s.initialized then s
  else
    let interruptState := s.interrupts
    enableIf interruptState { fbConReset (armDisableInterrupts s) with initialized := true }

/-- The loop over the bytes of a buffer. With each byte comes what the local
`intstate` of its call holds before it is set. -/
def writeBytes (fuel : ℕ) : List (UInt8 × Bool) → FbCon → Option FbCon
  | [], s => some s
  | (c, intstate) :: buffer, s =>
    (fbConPutCharWithFactor fuel c .common defaultScaleFactor intstate s).bind
      (writeBytes fuel buffer)

/-- The state in which the loop of `SerialPortWrite` or, with `critical`, of
`SerialPortWriteCritical` starts. -/
def enterWrite (critical : Bool) (s : FbCon) : FbCon :=
  let s := armDisableInterrupts s
  if critical then { s with color := ⟨fbRgb565Yellow, s.color.background⟩ } else s

/-- What the two do after the loop, having been called in state `before`. -/
def leaveWrite (critical : Bool) (before s : FbCon) : FbCon :=
  enableIf before.interrupts
    (if critical then { s with color := ⟨before.color.foreground, s.color.background⟩ } else s)

/-- **`SerialPortWrite`** and, with `critical`, **`SerialPortWriteCritical`**. -/
def serialPortWrite (fuel : ℕ) (critical : Bool) (buffer : List (UInt8 × Bool)) (s : FbCon) :
    Option FbCon :=
  (writeBytes fuel buffer (enterWrite critical s)).map (leaveWrite critical s)

end FrameBufferSerialPort
