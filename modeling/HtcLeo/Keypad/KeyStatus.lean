import HtcLeo.Efi
import HtcLeo.Lib.Word
import Mathlib.Logic.Function.Basic

/-!
# The status of a key

`LibKeyUpdateKeyStatus` takes one key through a press: held for less than
half a second it is reported on release, held for longer it is reported then
and repeated. Two bitmaps, shared by all keys, record which keys are down, so
that a long press can be told from a combination with the Enter key.

The bitmap of the character keys is indexed by the *scan code* of the key,
which is zero for every one of them. All character keys therefore share its
bit 0, and the test for the Enter key answers for whichever of them was
updated last (`enter_keySetState_char`).
-/

namespace Keypad

/-! ## Bitmaps -/

/-- An array of `UINTN` words. -/
abbrev Bitmap : Type := ℕ → UInt32

/-- `BitmapSet`. -/
def bitmapSet (bitmap : Bitmap) (bit : UInt32) : Bitmap :=
  Function.update bitmap (bit / 32).toNat (bitmap (bit / 32).toNat ||| Word.one bit)

/-- `BitmapClear`. -/
def bitmapClear (bitmap : Bitmap) (bit : UInt32) : Bitmap :=
  Function.update bitmap (bit / 32).toNat (bitmap (bit / 32).toNat &&& ~~~Word.one bit)

/-- `BitmapTest`. -/
def bitmapTest (bitmap : Bitmap) (bit : UInt32) : Bool :=
  Word.flag (bitmap (bit / 32).toNat) (Word.one bit)

/-- A set bit tests as set. -/
theorem bitmapTest_set (bitmap : Bitmap) (bit : UInt32) :
    bitmapTest (bitmapSet bitmap bit) bit = true := by
  unfold bitmapTest bitmapSet
  rw [Function.update_self, Word.flag_one, Word.bit_set]
  simp

/-- A cleared bit tests as clear. -/
theorem bitmapTest_clear (bitmap : Bitmap) (bit : UInt32) :
    bitmapTest (bitmapClear bitmap bit) bit = false := by
  unfold bitmapTest bitmapClear
  rw [Function.update_self, Word.flag_one, Word.bit_clear]
  simp

/-! ## The keys that are down -/

/-- `gBitmapScanCodes` and `gBitmapUnicodeChars`. -/
structure KeyBitmaps where
  scanCodes : Bitmap
  unicodeChars : Bitmap

def maxScancode : UInt16 := 0x18
def maxUncodeChar : UInt16 := 0x7f
def scanUp : UInt16 := 0x01
def scanDown : UInt16 := 0x02
def scanHome : UInt16 := 0x05
def scanEsc : UInt16 := 0x17
def charBackspace : UInt16 := 0x08
def charTab : UInt16 := 0x09
def charCarriageReturn : UInt16 := 0x0d

/-- `BitmapSet` or `BitmapClear`, as the value says. -/
def bitmapPut (bitmap : Bitmap) (bit : UInt32) (value : Bool) : Bitmap :=
  if value then bitmapSet bitmap bit else bitmapClear bitmap bit

theorem bitmapTest_put (bitmap : Bitmap) (bit : UInt32) (value : Bool) :
    bitmapTest (bitmapPut bitmap bit value) bit = value := by
  cases value with
  | false => exact bitmapTest_clear bitmap bit
  | true => exact bitmapTest_set bitmap bit

/-- `KeySetState`. The bitmap of the characters is indexed by the scan code. -/
def keySetState (maps : KeyBitmaps) (scanCode unicodeChar : UInt16) (value : Bool) :
    KeyBitmaps where
  scanCodes :=
    if scanCode ≠ 0 ∧ scanCode < maxScancode then
      bitmapPut maps.scanCodes scanCode.toUInt32 value
    else maps.scanCodes
  unicodeChars :=
    if unicodeChar ≠ 0 ∧ unicodeChar < maxUncodeChar then
      bitmapPut maps.unicodeChars scanCode.toUInt32 value
    else maps.unicodeChars

/-- `KeyGetState`. -/
def keyGetState (maps : KeyBitmaps) (scanCode unicodeChar : UInt16) : Bool :=
  if scanCode ≠ 0 ∧ scanCode < maxScancode
      ∧ bitmapTest maps.scanCodes scanCode.toUInt32 = false then false
  else if unicodeChar ≠ 0 ∧ unicodeChar < maxUncodeChar
      ∧ bitmapTest maps.unicodeChars scanCode.toUInt32 = false then false
  else true

/-- The Enter key is down, as far as the bitmaps tell. -/
def KeyBitmaps.enter (maps : KeyBitmaps) : Bool := keyGetState maps 0 charCarriageReturn

/-- The test for the Enter key reads bit 0. -/
theorem enter_eq (maps : KeyBitmaps) : maps.enter = bitmapTest maps.unicodeChars 0 := by
  have hscan : ¬ ((0 : UInt16) ≠ 0 ∧ (0 : UInt16) < maxScancode
      ∧ bitmapTest maps.scanCodes (0 : UInt16).toUInt32 = false) := fun h => h.1 rfl
  unfold KeyBitmaps.enter keyGetState
  rw [if_neg hscan]
  show (if charCarriageReturn ≠ 0 ∧ charCarriageReturn < maxUncodeChar
    ∧ bitmapTest maps.unicodeChars 0 = false then false else true) = _
  cases bitmapTest maps.unicodeChars 0 <;> decide

/-- **Every character key writes the bit of the Enter key.** -/
theorem enter_keySetState_char (maps : KeyBitmaps) {unicodeChar : UInt16}
    (h : unicodeChar ≠ 0 ∧ unicodeChar < maxUncodeChar) (value : Bool) :
    (keySetState maps 0 unicodeChar value).enter = value := by
  rw [enter_eq]
  unfold keySetState
  rw [if_pos h]
  exact bitmapTest_put maps.unicodeChars 0 value

/-- A key without a character leaves the bit of the Enter key. -/
theorem enter_keySetState_scan (maps : KeyBitmaps) (scanCode : UInt16) (value : Bool) :
    (keySetState maps scanCode 0 value).enter = maps.enter := by
  have hchar : ¬ ((0 : UInt16) ≠ 0 ∧ (0 : UInt16) < maxUncodeChar) := fun h => h.1 rfl
  rw [enter_eq, enter_eq]
  unfold keySetState
  rw [if_neg hchar]

/-! ## One key -/

/-- `KEY_STATE`. -/
inductive KeyState where
  | released
  | pressed
  | longpressRelease
  deriving DecidableEq, Repr

/-- `KEY_CONTEXT`. -/
structure KeyContext where
  keyData : EfiKeyData
  time : UInt64
  state : KeyState
  repeats : Bool
  longpress : Bool
  deriving DecidableEq, Repr

/-- `gKeyDataPowerDown`: the character `s`. -/
def gKeyDataPowerDown : EfiKeyData := { EfiKeyData.zero with unicodeChar := 0x73 }
/-- `gKeyDataPowerUp`: the character `e`. -/
def gKeyDataPowerUp : EfiKeyData := { EfiKeyData.zero with unicodeChar := 0x65 }
/-- `gKeyDataPowerLongpress`: a space. -/
def gKeyDataPowerLongpress : EfiKeyData := { EfiKeyData.zero with unicodeChar := 0x20 }

/-- `MS2NS`. -/
def ms2ns (ms : UInt64) : UInt64 := ms * 1000000

/-- `LibKeyInitializeKeyContext`. -/
def libKeyInitializeKeyContext : KeyContext where
  keyData := .zero
  time := 0
  state := .released
  repeats := false
  longpress := false

/-- A key that is released again. -/
def KeyContext.release (context : KeyContext) : KeyContext :=
  { context with
    time := 0
    repeats := false
    longpress := false
    state := .released }

/-- The switch of `LibKeyUpdateKeyStatus`: the new context, and what is pushed
to the return API. -/
def keyTransition (maps : KeyBitmaps) (context : KeyContext)
    (isPressed : Bool) : KeyContext × List EfiKeyData :=
  match context.state with
  | .released =>
    if isPressed then ({ context with time := 0, state := .pressed }, [])
    else (context, [])
  | .pressed =>
    if isPressed then
      if context.repeats && context.time ≥ ms2ns 200 then
        ({ context with time := 0, repeats := true }, [context.keyData])
      else if !context.longpress && context.time ≥ ms2ns 500 then
        if context.keyData.unicodeChar = charCarriageReturn then
          -- a combination of the Enter key
          if keyGetState maps scanDown 0 then
            ({ context with longpress := true }, [gKeyDataPowerDown])
          else if keyGetState maps scanUp 0 then
            ({ context with longpress := true }, [gKeyDataPowerUp])
          else
            ({ context with longpress := true }, [gKeyDataPowerLongpress])
        else if !keyGetState maps 0 charCarriageReturn then
          ({ context with time := 0, repeats := true, longpress := true }, [context.keyData])
        else ({ context with longpress := true }, [])
      else (context, [])
    else
      if !context.longpress then
        ({ context with state := .longpressRelease }, [context.keyData])
      else if context.time ≥ ms2ns 10 then (context.release, [])
      else (context, [])
  | .longpressRelease => (context.release, [])

/-- `LibKeyUpdateKeyStatus`. -/
def libKeyUpdateKeyStatus (maps : KeyBitmaps) (context : KeyContext)
    (isPressed : Bool) (delta : UInt64) : KeyBitmaps × KeyContext × List EfiKeyData :=
  let maps := keySetState maps context.keyData.scanCode context.keyData.unicodeChar isPressed
  let context := { context with time := context.time + delta }
  (maps, keyTransition maps context isPressed)

/-! ## What an update does

A press goes through at most four phases: idle, held with nothing reported
yet, lost, and reported. The lemmas say how an update leads from one to the
next; a press that is *lost* is one whose long press fell to a combination
with the Enter key, and nothing is pushed for it any more. -/

/-- A released key keeps nothing of the press before. -/
def KeyContext.Idle (context : KeyContext) : Prop :=
  context.state = .released → context.repeats = false ∧ context.longpress = false

/-- A key held for `time`, with nothing reported yet. -/
structure KeyContext.Held (context : KeyContext) (time : UInt64) : Prop where
  state_eq : context.state = .pressed
  repeats_eq : context.repeats = false
  longpress_eq : context.longpress = false
  time_eq : context.time = time

/-- A key whose long press was taken for a combination. -/
structure KeyContext.Lost (context : KeyContext) : Prop where
  state_eq : context.state = .pressed
  repeats_eq : context.repeats = false
  longpress_eq : context.longpress = true

/-- The context a switch starts from: the time has gone on. -/
def KeyContext.after (context : KeyContext) (delta : UInt64) : KeyContext :=
  { context with time := context.time + delta }

theorem KeyContext.Idle.after {context : KeyContext} (h : context.Idle) (delta : UInt64) :
    (context.after delta).Idle := h

theorem KeyContext.Held.after {context : KeyContext} {time : UInt64} (h : context.Held time)
    (delta : UInt64) : (context.after delta).Held (time + delta) :=
  ⟨h.state_eq, h.repeats_eq, h.longpress_eq, congrArg (· + delta) h.time_eq⟩

theorem KeyContext.Lost.after {context : KeyContext} (h : context.Lost) (delta : UInt64) :
    (context.after delta).Lost :=
  ⟨h.state_eq, h.repeats_eq, h.longpress_eq⟩

section Transition

variable (maps : KeyBitmaps) {context : KeyContext} {time : UInt64}

/-- The key data of a key never changes. -/
theorem keyData_keyTransition (context : KeyContext) (isPressed : Bool) :
    (keyTransition maps context isPressed).1.keyData = context.keyData := by
  unfold keyTransition
  split
  · split <;> rfl
  · repeat' split
    all_goals rfl
  · rfl

/-- An update that ends with the key released leaves it idle. -/
theorem idle_keyTransition (h : context.Idle) (isPressed : Bool) :
    (keyTransition maps context isPressed).1.Idle := by
  unfold keyTransition
  split
  · split
    · exact fun hr => absurd hr (by simp)
    · exact h
  · next hstate =>
    have hne : context.state ≠ .released := by simp [hstate]
    repeat' split
    all_goals first
      | exact fun _ => ⟨rfl, rfl⟩
      | exact fun hr => absurd hr hne
      | exact fun hr => absurd hr (by simp)
  · exact fun _ => ⟨rfl, rfl⟩

/-- A press starts with the key held for no time. -/
theorem held_of_started (hidle : context.Idle) (hreleased : context.state = .released)
    {isPressed : Bool} (h : (keyTransition maps context isPressed).1.state = .pressed) :
    isPressed = true ∧ (keyTransition maps context isPressed).1.Held 0
      ∧ (keyTransition maps context isPressed).2 = [] := by
  obtain ⟨hrepeats, hlongpress⟩ := hidle hreleased
  unfold keyTransition at h ⊢
  rw [hreleased] at h ⊢
  cases isPressed with
  | false => exact absurd (hreleased.symm.trans h) (by simp)
  | true => exact ⟨rfl, ⟨rfl, hrepeats, hlongpress, rfl⟩, rfl⟩

/-- A held key that is let go is reported. -/
theorem transition_held_released (h : context.Held time) :
    (keyTransition maps context false).2 = [context.keyData] := by
  unfold keyTransition
  rw [h.state_eq, h.longpress_eq]
  rfl

/-- A held key never repeats. -/
theorem KeyContext.Held.not_repeating (h : context.Held time) :
    ¬ (context.repeats && decide (context.time ≥ ms2ns 200)) = true := by
  rw [h.repeats_eq, Bool.false_and]
  exact Bool.false_ne_true

/-- A held key that is held on for less than half a second stays held. -/
theorem transition_held_short (h : context.Held time) (hshort : ¬ time ≥ ms2ns 500) :
    (keyTransition maps context true).1.Held time
      ∧ (keyTransition maps context true).2 = [] := by
  have hlong : ¬ (!context.longpress && decide (context.time ≥ ms2ns 500)) = true := by
    rw [h.time_eq, decide_eq_false hshort, Bool.and_false]
    exact Bool.false_ne_true
  unfold keyTransition
  rw [h.state_eq]
  dsimp only
  rw [if_pos rfl, if_neg h.not_repeating, if_neg hlong]
  exact ⟨h, rfl⟩

/-- A key held for half a second is reported, unless the Enter key shows as
down; then it is lost. -/
theorem transition_held_long (h : context.Held time) (hlong : time ≥ ms2ns 500)
    (hchar : context.keyData.unicodeChar ≠ charCarriageReturn) :
    if maps.enter then
      (keyTransition maps context true).1.Lost ∧ (keyTransition maps context true).2 = []
    else (keyTransition maps context true).2 = [context.keyData] := by
  have hhalf : (!context.longpress && decide (context.time ≥ ms2ns 500)) = true := by
    rw [h.longpress_eq, h.time_eq, decide_eq_true hlong]
    rfl
  have htransition : keyTransition maps context true
      = if !maps.enter then
          ({ context with time := 0, repeats := true, longpress := true }, [context.keyData])
        else ({ context with longpress := true }, []) := by
    unfold keyTransition
    rw [h.state_eq]
    dsimp only
    rw [if_pos rfl, if_neg h.not_repeating, if_pos hhalf, if_neg hchar]
    rfl
  rw [htransition]
  cases maps.enter with
  | true => exact ⟨⟨h.state_eq, h.repeats_eq, rfl⟩, rfl⟩
  | false => rfl

/-- **Nothing is pushed for a lost press**, and it stays lost until the key is
released. -/
theorem transition_lost (h : context.Lost) (isPressed : Bool) :
    (keyTransition maps context isPressed).2 = []
      ∧ ((keyTransition maps context isPressed).1.state = .released
        ∨ (keyTransition maps context isPressed).1.Lost) := by
  unfold keyTransition
  simp only [h.state_eq, h.repeats_eq, h.longpress_eq, Bool.false_and, Bool.not_true,
    Bool.false_eq_true, if_false]
  split
  · exact ⟨rfl, .inr h⟩
  · split
    · exact ⟨rfl, .inl rfl⟩
    · exact ⟨rfl, .inr h⟩

end Transition

end Keypad
