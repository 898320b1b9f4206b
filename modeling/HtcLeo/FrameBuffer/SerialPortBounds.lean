import HtcLeo.FrameBuffer.SerialPort
import Mathlib.Tactic.Linarith

/-!
# The serial console stays on the screen

Whatever bytes are written to the console, the cursor is on the page between
two characters, and neither the glyphs nor the clearing of a page leave the
frame buffer or the font (`serialPortWrite_onPage`).

The glyph routine is followed by the offset of its running pointer: a pixel
moves it by two bytes, a row of a glyph by one line of the screen, so a cell
of the page takes twelve lines of ten bytes. That the routine comes back at
all is a fact about pages: it goes back to its first line only with the
cursor on the first line of an empty page, and from there it does not.
-/

namespace FrameBufferSerialPort

/-! ## The regions -/

/-- The bytes of the frame buffer. -/
def screenSize : ℕ := gWidth.toNat * gHeight.toNat * (gBpp.toNat / 8)

/-- The bytes of the font. -/
def fontSize : ℕ := font5x12.length * 4

/-- The addresses the console may touch. -/
def inside : FbRegion → Set UInt32
  | .frameBuffer => span frameBufferAddress screenSize
  | .font => span 0 fontSize

theorem screenSize_eq : screenSize = 153600 := rfl

set_option maxRecDepth 2048 in
theorem fontSize_eq : fontSize = 768 := rfl

/-! ## The running pointer -/

/-- **The pointer is `offset` bytes into the screen**, and nothing was touched
beside it. -/
structure At (offset : ℕ) (s : Pixels) : Prop where
  pointer : s.1 = frameBufferAddress + UInt32.ofNat offset
  inside : s.2.AccessesIn inside

variable {n : ℕ} {s : Pixels}

/-- The pointer moves up. -/
theorem At.skip (h : At n s) {d : UInt32} {k : ℕ} (hd : d.toNat = k) :
    At (n + k) (s.1 + d, s.2) where
  pointer := by
    rw [h.pointer, UInt32.add_assoc, UInt32.ofNat_add, ← hd, UInt32.ofNat_toNat]
  inside := h.inside

/-- The byte under the pointer is written, and the pointer moves to the next. -/
theorem At.write (h : At n s) (hn : n < screenSize) (value : UInt8) :
    At (n + 1) (s.1 + 1, s.2.write8 .frameBuffer s.1 value) where
  pointer := (h.skip rfl).pointer
  inside := by
    refine h.inside.store ?_
    rw [h.pointer]
    exact span_subset_span hn

/-- **The loop rule for the pointer.** Where each of `count` turns moves the pointer
by `d` bytes, the loop moves it by `count * d`. -/
theorem forLoop_at {σ : Type} (pixels : σ → Pixels) (count : ℕ) {turns : UInt32}
    (hcount : turns.toNat = count) (d : ℕ) {body : UInt32 → σ → σ} {t : σ}
    (first : At n (pixels t))
    (turn : ∀ k < count, ∀ i t, At (n + k * d) (pixels t) →
      At (n + k * d + d) (pixels (body i t))) :
    At (n + count * d) (pixels (forLoop 0 turns body t)) := by
  refine forLoop_count hcount (fun k t => At (n + k * d) (pixels t)) ?_ fun k hk i t ht => ?_
  · rwa [Nat.zero_mul, Nat.add_zero]
  · rw [Nat.succ_mul, ← Nat.add_assoc]
    exact turn k hk i t ht

/-- A pixel takes two bytes. -/
theorem writeColor_at (h : At n s) (hn : n + 2 ≤ screenSize) (color : UInt32) :
    At (n + 2) (writeColor color (gBpp / 8) s) := by
  refine forLoop_at (fun t : UInt32 × Pixels => t.2) 2 rfl 1 h fun k hk _ t ht => ?_
  exact ht.write (by omega) _

/-- `ResetFb` writes the screen and no more. -/
theorem resetFb_inside {m : Memory FbRegion} (h : m.AccessesIn inside) :
    (resetFb m).AccessesIn inside := by
  have hstart : At 0 (frameBufferAddress, m) := ⟨rfl, h⟩
  refine (forLoop_at id 240 rfl 640 hstart fun i hi _ t ht => ?_).inside
  refine forLoop_at id 320 rfl 2 ht fun j hj _ t ht => writeColor_at ht ?_ _
  rw [screenSize_eq]
  omega

/-! ## A glyph -/

/-- Half a cell of the page: five pixels on each of six lines. -/
theorem clearHalf_at (h : At n s) (hn : n + 480 * 5 + 10 ≤ screenSize) (color : FbConColor) :
    At (n + 6 * 480) (clearHalf color (gWidth - fontWidth * defaultScaleFactor) (gBpp / 8)
      defaultScaleFactor s) := by
  refine forLoop_at id 6 rfl 480 h fun y hy _ t ht => ?_
  refine forLoop_at id 1 rfl 480 ht fun i hi _ t ht => ?_
  have hrow : At (n + y * 480 + i * 480 + 5 * 2) (forLoop 0 fontWidth (fun _ s =>
      forLoop 0 defaultScaleFactor (fun _ s => writeColor color.background (gBpp / 8) s) s) t) := by
    refine forLoop_at id 5 rfl 2 ht fun x hx _ t ht => ?_
    exact forLoop_at id 1 rfl 2 ht fun j hj _ t ht => writeColor_at ht (by omega) _
  exact hrow.skip (k := 470) rfl

/-- A pixel of a glyph moves the pointer on, drawn or not. -/
theorem drawPixel_at {t : UInt32 × Pixels} (h : At n t.2) (hn : n + 2 ≤ screenSize)
    (color : FbConColor) : At (n + 2) (drawPixel color (gBpp / 8) defaultScaleFactor t).2 := by
  unfold drawPixel
  dsimp only
  split
  · exact forLoop_at id 1 rfl 2 h fun j hj _ t ht => writeColor_at ht (by omega) _
  · exact forLoop_at id 1 rfl 2 h fun _ _ _ t ht => ht.skip rfl

/-- Half a glyph: five pixels on each of six lines. -/
theorem drawHalf_at (h : At n s) (hn : n + 480 * 5 + 10 ≤ screenSize) (color : FbConColor)
    (data : UInt32) :
    At (n + 6 * 480) (drawHalf color (gWidth - fontWidth * defaultScaleFactor) (gBpp / 8)
      defaultScaleFactor data s) := by
  refine forLoop_at (fun t : UInt32 × Pixels => t.2) 6 rfl 480 h fun y hy _ t ht => ?_
  refine forLoop_at (fun t : UInt32 × Pixels => t.2) 1 rfl 480 ht
    fun i hi _ u hu => ?_
  have hrow : At (n + y * 480 + i * 480 + 5 * 2) (forLoop 0 fontWidth (fun _ s =>
      drawPixel color (gBpp / 8) defaultScaleFactor s) (t.1, u.2)).2 := by
    exact forLoop_at (fun t : UInt32 × Pixels => t.2) 5 rfl 2 hu fun x hx _ t ht =>
      drawPixel_at ht (by omega) color
  exact hrow.skip (k := 470) rfl

/-- A word of the font. -/
theorem word_inside {glyph : UInt32} (h : glyph.toNat * 4 + 4 ≤ fontSize) :
    span (glyph * 4) 4 ⊆ inside .font := by
  have hsize := fontSize_eq
  have hoffset : glyph * 4 = 0 + UInt32.ofNat (glyph.toNat * 4) := by
    rw [UInt32.zero_add, UInt32.ofNat_mul, UInt32.ofNat_toNat]
    rfl
  rw [hoffset]
  exact span_subset_span h

/-- **A glyph stays in its cell** when the cell is on the screen, and its two words
are read inside the font. -/
theorem fbConDrawglyph_inside {m : Memory FbRegion} (h : m.AccessesIn inside)
    (hn : n + 480 * 11 + 10 ≤ screenSize) {glyph : UInt32} (hglyph : glyph.toNat * 4 + 8 ≤ fontSize)
    (color : FbConColor) :
    (fbConDrawglyph color (frameBufferAddress + UInt32.ofNat n) gWidth (gBpp / 8) glyph
      defaultScaleFactor m).AccessesIn inside := by
  have hfont := fontSize_eq
  have hnext : (glyph + 1).toNat = glyph.toNat + 1 := by
    rw [UInt32.toNat_add]
    exact Nat.mod_eq_of_lt (show glyph.toNat + 1 < 2 ^ 32 by omega)
  unfold fbConDrawglyph
  dsimp only
  have hstart : At n (frameBufferAddress + UInt32.ofNat n, m) := ⟨rfl, h⟩
  have hcleared := clearHalf_at (clearHalf_at hstart (by omega) color) (by omega) color
  generalize clearHalf color _ _ _ (clearHalf color _ _ _ _) = cleared at hcleared ⊢
  have hupper : At n
      (frameBufferAddress + UInt32.ofNat n, (cleared.2.read32 .font (glyph * 4)).2) :=
    ⟨rfl, hcleared.inside.load (word_inside (by omega))⟩
  have hdrawn := drawHalf_at hupper (by omega) color (cleared.2.read32 .font (glyph * 4)).1
  generalize drawHalf color _ _ _ _ _ = drawn at hdrawn ⊢
  have hlower : At (n + 6 * 480) (drawn.1, (drawn.2.read32 .font ((glyph + 1) * 4)).2) :=
    ⟨hdrawn.pointer, hdrawn.inside.load (word_inside (by omega))⟩
  exact (drawHalf_at hlower (by omega) color _).inside

/-! ## The cursor -/

/-- **The cursor is on the page.** -/
structure OnPage (s : FbCon) : Prop where
  column : 0 ≤ s.position.x ∧ s.position.x < s.maxPosition.x / (defaultScaleFactor.toNat : ℤ)
  line : 0 ≤ s.position.y ∧ s.position.y < s.maxPosition.y - (defaultScaleFactor.toNat : ℤ)

/-- The console as `SerialPortInitialize` leaves it, and as every character finds
it: its page is that of the screen, and nothing was touched beside the regions. -/
structure Ready (s : FbCon) : Prop where
  initialized : s.initialized = true
  maxPosition : s.maxPosition = ⟨40, 26⟩
  inside : s.memory.AccessesIn inside

theorem onPage_iff {s : FbCon} (h : s.maxPosition = ⟨40, 26⟩) :
    OnPage s ↔ (0 ≤ s.position.x ∧ s.position.x < 40) ∧ 0 ≤ s.position.y ∧ s.position.y < 25 := by
  constructor
  · rintro ⟨hx, hy⟩
    rw [h] at hx hy
    exact ⟨hx, hy⟩
  · rintro ⟨hx, hy⟩
    refine ⟨?_, ?_⟩ <;> rw [h]
    · exact hx
    · exact hy

/-- The start of the page. -/
theorem onPage_start {s : FbCon} (h : s.maxPosition = ⟨40, 26⟩) (hs : s.position = ⟨0, 0⟩) :
    OnPage s := by
  rw [onPage_iff h, hs]
  decide

/-- Interrupts are no matter of the screen. -/
theorem Ready.enableIf {s : FbCon} (h : Ready s) (state : Bool) : Ready (enableIf state s) := by
  unfold FrameBufferSerialPort.enableIf
  split
  · exact ⟨h.initialized, h.maxPosition, h.inside⟩
  · exact h

@[simp] theorem enableIf_position (state : Bool) (s : FbCon) :
    (enableIf state s).position = s.position := by
  cases state <;> rfl

/-- A number that is not negative, as a word. -/
theorem ofInt_natCast (k : ℕ) : UInt32.ofInt k = UInt32.ofNat k := by
  refine UInt32.toNat.inj ?_
  show (UInt32.ofNat _).toNat = _
  rw [UInt32.toNat_ofNat', UInt32.toNat_ofNat']
  omega

/-- A small word, as a number again. -/
theorem asInt_ofNat {k : ℕ} (h : k < 2 ^ 31) : asInt (UInt32.ofNat k) = k := by
  unfold asInt
  rw [UInt32.toNat_ofNat', Nat.mod_eq_of_lt (by omega), if_pos h]

/-- **The next line.** The cursor is at its start; the routine goes back to its first
line only with the cursor at the start of the page, and never from there. -/
theorem newline_spec {s : FbCon} (h : Ready s) (hline : 0 ≤ s.position.y ∧ s.position.y < 25)
    (intstate : Bool) :
    Ready (newline defaultScaleFactor intstate s).1
      ∧ OnPage (newline defaultScaleFactor intstate s).1
      ∧ ((newline defaultScaleFactor intstate s).2 = true →
        (newline defaultScaleFactor intstate s).1.position.y = 0 ∧ s.position.y ≠ 0) := by
  obtain ⟨y, hy⟩ := Int.eq_ofNat_of_zero_le hline.1
  have hnext : UInt32.ofInt s.position.y + defaultScaleFactor = UInt32.ofNat (y + 1) := by
    rw [hy, ofInt_natCast, UInt32.ofNat_add]
    rfl
  have hlast : UInt32.ofInt s.maxPosition.y - defaultScaleFactor = 25 := by
    rw [h.maxPosition]
    rfl
  have hwrap : (UInt32.ofNat (y + 1) ≥ 25) ↔ 25 ≤ y + 1 := by
    rw [ge_iff_le, UInt32.le_iff_toNat_le, UInt32.toNat_ofNat', Nat.mod_eq_of_lt (by omega)]
    rfl
  have hposition : asInt (UInt32.ofNat (y + 1)) = y + 1 := asInt_ofNat (by omega)
  have hscreen := resetFb_inside h.inside
  unfold newline
  dsimp only
  rw [hnext, hlast, hposition]
  generalize resetFb s.memory = screen at hscreen ⊢
  split
  · rename_i hend
    have hyend := hwrap.mp hend
    have hcleared : Ready { s with position := ⟨0, 0⟩, memory := screen } :=
      ⟨h.initialized, h.maxPosition, hscreen⟩
    have hready := hcleared.enableIf intstate
    have hposition : (enableIf intstate { s with position := ⟨0, 0⟩, memory := screen }).position
        = ⟨0, 0⟩ := enableIf_position _ _
    exact ⟨hready, onPage_start hready.maxPosition hposition,
      fun _ => ⟨by rw [hposition], by omega⟩⟩
  · rename_i hend
    have hyend := mt hwrap.mpr hend
    have hmoved : Ready { s with position := ⟨0, y + 1⟩ } :=
      ⟨h.initialized, h.maxPosition, h.inside⟩
    have hready := hmoved.enableIf intstate
    refine ⟨hready, (onPage_iff hready.maxPosition).mpr ?_,
      fun hback => absurd hback Bool.false_ne_true⟩
    rw [enableIf_position]
    dsimp only
    omega

/-- The address of a cell of the page. -/
theorem cellAddress (x y : ℕ) :
    frameBufferAddress + UInt32.ofInt y * (gBpp / 8 * fontHeight * gWidth)
        + UInt32.ofInt x * defaultScaleFactor * (gBpp / 8 * (fontWidth + 1))
      = frameBufferAddress + UInt32.ofNat (y * 5760 + x * 12) := by
  rw [ofInt_natCast, ofInt_natCast, UInt32.ofNat_add, UInt32.ofNat_mul, UInt32.ofNat_mul,
    UInt32.add_assoc]
  show _ + (_ + UInt32.ofNat x * 1 * 12) = _
  rw [UInt32.mul_one]
  rfl

/-- The words of a character that is drawn. -/
theorem toNat_glyph {c : UInt8} (hlow : ¬ c < 32) :
    ((c.toUInt32 - 32) * 2).toNat = (c.toNat - 32) * 2 := by
  have hc : 32 ≤ c.toNat := by
    rw [UInt8.lt_iff_toNat_lt] at hlow
    exact Nat.le_of_not_lt hlow
  have hlt := c.toNat_lt
  have hsub : (c.toUInt32 - 32).toNat = c.toNat - 32 := by
    rw [UInt32.toNat_sub_of_le _ _ (UInt32.le_iff_toNat_le.mpr (by simpa using hc))]
    simp
  rw [UInt32.toNat_mul, hsub]
  exact Nat.mod_eq_of_lt (show (c.toNat - 32) * 2 < 2 ^ 32 by omega)

/-- **A character that is drawn** at a cursor on the page stays on the screen, and is
read inside the font. -/
theorem drawn_inside {s : FbCon} (h : Ready s) (hpage : OnPage s) {c : UInt8} (hhigh : ¬ c > 127)
    (hlow : ¬ c < 32) :
    (fbConDrawglyph s.color
      (frameBufferAddress + UInt32.ofInt s.position.y * (gBpp / 8 * fontHeight * gWidth)
        + UInt32.ofInt s.position.x * defaultScaleFactor * (gBpp / 8 * (fontWidth + 1)))
      gWidth (gBpp / 8) ((c.toUInt32 - 32) * 2) defaultScaleFactor s.memory).AccessesIn inside := by
  obtain ⟨hcolumn, hline⟩ := (onPage_iff h.maxPosition).mp hpage
  obtain ⟨x, hx⟩ := Int.eq_ofNat_of_zero_le hcolumn.1
  obtain ⟨y, hy⟩ := Int.eq_ofNat_of_zero_le hline.1
  have hglyph : ((c.toUInt32 - 32) * 2).toNat * 4 + 8 ≤ fontSize := by
    have hc : c.toNat ≤ 127 := by
      rw [gt_iff_lt, UInt8.lt_iff_toNat_lt] at hhigh
      exact Nat.le_of_not_lt hhigh
    rw [toNat_glyph hlow, fontSize_eq]
    omega
  have hcell : (y * 5760 + x * 12) + 480 * 11 + 10 ≤ screenSize := by
    rw [screenSize_eq]
    omega
  rw [hx, hy, cellAddress]
  exact fbConDrawglyph_inside h.inside hcell hglyph s.color

/-- **One pass of the routine.** The cursor stays on the page, and the routine goes
back only to the first line of a page, and never from there. -/
theorem paint_spec {s : FbCon} (h : Ready s) (hpage : OnPage s) (c : UInt8) (type : FbConMsgType)
    (intstate : Bool) :
    Ready (paint c type defaultScaleFactor intstate s).1
      ∧ OnPage (paint c type defaultScaleFactor intstate s).1
      ∧ ((paint c type defaultScaleFactor intstate s).2.1 = true →
        (paint c type defaultScaleFactor intstate s).1.position.y = 0 ∧ s.position.y ≠ 0) := by
  obtain ⟨hcolumn, hline⟩ := (onPage_iff h.maxPosition).mp hpage
  have hstays : Ready s ∧ OnPage s ∧ (false = true → s.position.y = 0 ∧ s.position.y ≠ 0) :=
    ⟨h, hpage, fun hback => absurd hback Bool.false_ne_true⟩
  unfold paint
  split
  · exact hstays
  · rename_i hhigh
    split
    · split
      · exact newline_spec h hline intstate
      · split
        · -- a carriage return
          have hready : Ready { s with position := ⟨0, s.position.y⟩ } :=
            ⟨h.initialized, h.maxPosition, h.inside⟩
          have hstart : (0 : ℤ) < 40 := by decide
          exact ⟨hready, (onPage_iff hready.maxPosition).mpr ⟨⟨le_refl 0, hstart⟩, hline⟩,
            fun hback => absurd hback Bool.false_ne_true⟩
        · exact hstays
    · rename_i hlow
      split
      · exact hstays
      · have hend : asInt (UInt32.ofInt s.maxPosition.x / defaultScaleFactor) = 40 := by
          rw [h.maxPosition]
          rfl
        have hdrawn := drawn_inside h hpage hhigh hlow
        dsimp only [armDisableInterrupts]
        rw [hend]
        generalize fbConDrawglyph s.color _ _ _ _ _ _ = memory at hdrawn ⊢
        have hready : Ready { armDisableInterrupts s with
            memory := memory, position := ⟨s.position.x + 1, s.position.y⟩ } :=
          ⟨h.initialized, h.maxPosition, hdrawn⟩
        split
        · exact newline_spec hready hline s.interrupts
        · have hleft := hready.enableIf s.interrupts
          refine ⟨hleft, (onPage_iff hleft.maxPosition).mpr ?_,
            fun hback => absurd hback Bool.false_ne_true⟩
          rw [enableIf_position]
          dsimp only
          omega

/-! ## Characters, buffers and calls -/

/-- **A character ends after two passes at most.** -/
theorem fbConPutChar_spec {s : FbCon} (h : Ready s) (hpage : OnPage s) (fuel : ℕ) (c : UInt8)
    (type : FbConMsgType) (intstate : Bool) :
    ∃ t, fbConPutCharWithFactor (fuel + 2) c type defaultScaleFactor intstate s = some t
      ∧ Ready t ∧ OnPage t := by
  obtain ⟨hfirst, hfirstPage, hback⟩ := paint_spec h hpage c type intstate
  unfold fbConPutCharWithFactor
  rw [h.initialized]
  show ∃ t, paintAgain c type defaultScaleFactor (fuel + 2) intstate s = some t ∧ _
  rw [paintAgain]
  split
  · -- the second pass starts on the first line
    rename_i hagain
    obtain ⟨hsecond, hsecondPage, hnever⟩ := paint_spec hfirst hfirstPage c type
      (paint c type defaultScaleFactor intstate s).2.2
    rw [paintAgain, if_neg fun hthird => (hnever hthird).2 (hback hagain).1]
    exact ⟨_, rfl, hsecond, hsecondPage⟩
  · exact ⟨_, rfl, hfirst, hfirstPage⟩

/-- Every byte of a buffer is processed. -/
theorem writeBytes_spec (fuel : ℕ) (buffer : List (UInt8 × Bool)) {s : FbCon} (h : Ready s)
    (hpage : OnPage s) :
    ∃ t, writeBytes (fuel + 2) buffer s = some t ∧ Ready t ∧ OnPage t := by
  induction buffer generalizing s with
  | nil => exact ⟨s, rfl, h, hpage⟩
  | cons byte buffer ih =>
    obtain ⟨t, ht, hready, htpage⟩ := fbConPutChar_spec h hpage fuel byte.1 .common byte.2
    rw [writeBytes, ht]
    exact ih hready htpage

theorem enterWrite_spec {s : FbCon} (h : Ready s) (hpage : OnPage s) (critical : Bool) :
    Ready (enterWrite critical s) ∧ OnPage (enterWrite critical s) := by
  cases critical
  · exact ⟨⟨h.initialized, h.maxPosition, h.inside⟩, ⟨hpage.column, hpage.line⟩⟩
  · exact ⟨⟨h.initialized, h.maxPosition, h.inside⟩, ⟨hpage.column, hpage.line⟩⟩

theorem leaveWrite_spec {s : FbCon} (h : Ready s) (hpage : OnPage s) (critical : Bool)
    (before : FbCon) :
    Ready (leaveWrite critical before s) ∧ OnPage (leaveWrite critical before s) := by
  have hcolour : ∀ color, Ready { s with color := color } := fun color =>
    ⟨h.initialized, h.maxPosition, h.inside⟩
  have hleft : Ready (leaveWrite critical before s) := by
    cases critical
    · exact h.enableIf _
    · exact (hcolour _).enableIf _
  refine ⟨hleft, (onPage_iff hleft.maxPosition).mpr ?_⟩
  have hposition : (leaveWrite critical before s).position = s.position := by
    unfold leaveWrite
    rw [enableIf_position]
    cases critical <;> rfl
  rw [hposition]
  exact (onPage_iff h.maxPosition).mp hpage

/-- The library before `SerialPortInitialize`, with anything on the screen. -/
def loaded (interrupts : Bool) (screen : UInt32 → UInt8) : FbCon where
  position := ⟨0, 0⟩
  maxPosition := ⟨0, 0⟩
  color := ⟨0, 0⟩
  initialized := false
  interrupts := interrupts
  interruptCalls := []
  memory :=
    { bytes := fun
        | .frameBuffer => screen
        | .font => fontBytes
      accesses := [] }

theorem serialPortInitialize_spec (interrupts : Bool) (screen : UInt32 → UInt8) :
    Ready (serialPortInitialize (loaded interrupts screen))
      ∧ OnPage (serialPortInitialize (loaded interrupts screen)) := by
  have hready : Ready { fbConReset (armDisableInterrupts (loaded interrupts screen)) with
      initialized := true } := ⟨rfl, rfl, fun a ha => absurd ha List.not_mem_nil⟩
  have hleft := hready.enableIf interrupts
  exact ⟨hleft, onPage_start hleft.maxPosition (enableIf_position _ _)⟩

/-- Calls of `SerialPortWrite` and `SerialPortWriteCritical`, one after another. -/
def writeCalls (fuel : ℕ) : List (Bool × List (UInt8 × Bool)) → FbCon → Option FbCon
  | [], s => some s
  | (critical, buffer) :: calls, s =>
    (serialPortWrite fuel critical buffer s).bind (writeCalls fuel calls)

theorem writeCalls_spec (fuel : ℕ) (calls : List (Bool × List (UInt8 × Bool))) {s : FbCon}
    (h : Ready s) (hpage : OnPage s) :
    ∃ t, writeCalls (fuel + 2) calls s = some t ∧ Ready t ∧ OnPage t := by
  induction calls generalizing s with
  | nil => exact ⟨s, rfl, h, hpage⟩
  | cons call calls ih =>
    obtain ⟨hentered, henteredPage⟩ := enterWrite_spec h hpage call.1
    obtain ⟨t, ht, hready, htpage⟩ := writeBytes_spec fuel call.2 hentered henteredPage
    obtain ⟨hleft, hleftPage⟩ := leaveWrite_spec hready htpage call.1 s
    have hwrite : serialPortWrite (fuel + 2) call.1 call.2 s = some (leaveWrite call.1 s t) := by
      rw [serialPortWrite, ht]
      rfl
    rw [writeCalls, hwrite]
    exact ih hleft hleftPage

/-- **The console stays on the screen.** After `SerialPortInitialize` any calls with
any bytes come back, each character after two passes at most. Between two calls, and
between two characters of the next call, the cursor is on the page, and all accesses
so far lie inside the frame buffer and the font. -/
theorem serialPortWrite_onPage (interrupts : Bool) (screen : UInt32 → UInt8) (fuel : ℕ)
    (calls : List (Bool × List (UInt8 × Bool))) :
    ∃ s, writeCalls (fuel + 2) calls (serialPortInitialize (loaded interrupts screen)) = some s
      ∧ OnPage s ∧ s.memory.AccessesIn inside
      ∧ ∀ critical buffer, ∃ t, writeBytes (fuel + 2) buffer (enterWrite critical s) = some t
        ∧ OnPage t ∧ t.memory.AccessesIn inside := by
  obtain ⟨hstart, hstartPage⟩ := serialPortInitialize_spec interrupts screen
  obtain ⟨s, hs, hready, hpage⟩ := writeCalls_spec fuel calls hstart hstartPage
  refine ⟨s, hs, hpage, hready.inside, fun critical buffer => ?_⟩
  obtain ⟨hentered, henteredPage⟩ := enterWrite_spec hready hpage critical
  obtain ⟨t, ht, htready, htpage⟩ := writeBytes_spec fuel buffer hentered henteredPage
  exact ⟨t, ht, htpage, htready.inside⟩

end FrameBufferSerialPort
