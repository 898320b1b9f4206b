import HtcLeo.Keypad.KeyStatus
import Mathlib.Data.List.Induction
import Mathlib.Tactic.Common

/-!
# What the two bitmaps remember

A bit of a bitmap is the value last put there. `KeySetState` puts the value of
a key at its scan code in both bitmaps, and `KeyGetState` reads both bitmaps at
the scan code it asks about. A scan code is therefore remembered as it was
last set, but a character is remembered under the scan code of its key: the
keys that have none share one bit for all their characters
(`keyGetState_setKeys`).
-/

namespace Keypad

/-! ## Bits beside the one that is written -/

/-- Two positions in one word are two bits of it. -/
theorem mod_ne_of_div_eq {bit other : UInt32} (h : other ≠ bit) (hword : other / 32 = bit / 32) :
    other.toNat % 32 ≠ bit.toNat % 32 := by
  intro hmod
  apply h
  have hdiv := congrArg UInt32.toNat hword
  rw [UInt32.toNat_div, UInt32.toNat_div] at hdiv
  apply UInt32.toNat_inj.mp
  rw [← Nat.div_add_mod other.toNat 32, ← Nat.div_add_mod bit.toNat 32, hmod]
  exact congrArg (32 * · + bit.toNat % 32) hdiv

/-- A test looks at no word but its own. -/
theorem bitmapTest_update {bitmap : Bitmap} {bit other : UInt32} {word : UInt32}
    (hkept : other / 32 = bit / 32 →
      Word.bit word (other.toNat % 32) = Word.bit (bitmap (bit / 32).toNat) (other.toNat % 32)) :
    bitmapTest (Function.update bitmap (bit / 32).toNat word) other = bitmapTest bitmap other := by
  unfold bitmapTest
  rw [Word.flag_one, Word.flag_one]
  by_cases hword : other / 32 = bit / 32
  · rw [hword, Function.update_self]
    exact hkept hword
  · rw [Function.update_of_ne fun h => hword (UInt32.toNat_inj.mp h)]

/-- **Writing a bit leaves the others**, in its own word and in the rest. -/
theorem bitmapTest_put_of_ne (bitmap : Bitmap) {bit other : UInt32} (h : other ≠ bit)
    (value : Bool) : bitmapTest (bitmapPut bitmap bit value) other = bitmapTest bitmap other := by
  have hne : other / 32 = bit / 32 → decide (other.toNat % 32 = bit.toNat % 32) = false :=
    fun hword => decide_eq_false (mod_ne_of_div_eq h hword)
  cases value with
  | false =>
    refine bitmapTest_update fun hword => ?_
    rw [Word.bit_clear, hne hword, Bool.not_false, Bool.and_true]
  | true =>
    refine bitmapTest_update fun hword => ?_
    rw [Word.bit_set, hne hword, Bool.or_false]

/-! ## Keys -/

/-- The codes of a key: a scan code, a character, or both, each inside the range
the bitmaps are made for. -/
structure KeyCodes where
  scanCode : UInt16
  unicodeChar : UInt16
  scanCode_lt : scanCode < maxScancode
  unicodeChar_lt : unicodeChar < maxUncodeChar
  some_code : scanCode ≠ 0 ∨ unicodeChar ≠ 0

/-- One call of `KeySetState`. -/
structure KeyUpdate where
  key : KeyCodes
  value : Bool

/-- Both bitmaps cleared. -/
def KeyBitmaps.cleared : KeyBitmaps := ⟨fun _ => 0, fun _ => 0⟩

/-- One call on the bitmaps. -/
def setKey (maps : KeyBitmaps) (call : KeyUpdate) : KeyBitmaps :=
  keySetState maps call.key.scanCode call.key.unicodeChar call.value

/-- The bitmaps after a sequence of calls. -/
def setKeys (calls : List KeyUpdate) : KeyBitmaps := calls.foldl setKey .cleared

/-- The value the last of the calls on such a key set, and `false` before the
first one. -/
def lastSet (such : KeyCodes → Bool) (calls : List KeyUpdate) : Bool :=
  calls.foldl (fun last call => if such call.key then call.value else last) false

theorem lastSet_concat (such : KeyCodes → Bool) (calls : List KeyUpdate) (call : KeyUpdate) :
    lastSet such (calls ++ [call]) = if such call.key then call.value else lastSet such calls := by
  unfold lastSet
  rw [List.foldl_append]
  rfl

theorem setKeys_concat (calls : List KeyUpdate) (call : KeyUpdate) :
    setKeys (calls ++ [call]) = setKey (setKeys calls) call := by
  unfold setKeys
  rw [List.foldl_append]
  rfl

/-- The keys with this scan code. -/
def hasScanCode (scanCode : UInt16) (key : KeyCodes) : Bool := key.scanCode = scanCode

/-- The keys with this character. -/
def hasChar (unicodeChar : UInt16) (key : KeyCodes) : Bool := key.unicodeChar = unicodeChar

/-- The keys whose character is remembered under this scan code. -/
def sharesCharBit (scanCode : UInt16) (key : KeyCodes) : Bool :=
  key.scanCode = scanCode ∧ key.unicodeChar ≠ 0

theorem hasScanCode_iff {scanCode : UInt16} {key : KeyCodes} :
    hasScanCode scanCode key = true ↔ key.scanCode = scanCode := decide_eq_true_iff

theorem sharesCharBit_iff {scanCode : UInt16} {key : KeyCodes} :
    sharesCharBit scanCode key = true ↔ key.scanCode = scanCode ∧ key.unicodeChar ≠ 0 :=
  decide_eq_true_iff

/-! ## What is remembered -/

theorem bitmapTest_zero (bit : UInt32) : bitmapTest (fun _ => 0) bit = false := by
  unfold bitmapTest
  rw [Word.flag_one, Word.bit_zero]

theorem toUInt32_ne {a b : UInt16} (h : a ≠ b) : a.toUInt32 ≠ b.toUInt32 := fun heq =>
  h (UInt16.toNat_inj.mp (by rw [← UInt16.toNat_toUInt32, heq, UInt16.toNat_toUInt32]))

/-- **A scan code is remembered as last set.** -/
theorem scanCodes_setKeys (calls : List KeyUpdate) {scanCode : UInt16} (h : scanCode ≠ 0) :
    bitmapTest (setKeys calls).scanCodes scanCode.toUInt32
      = lastSet (hasScanCode scanCode) calls := by
  induction calls using List.reverseRecOn with
  | nil => exact bitmapTest_zero _
  | append_singleton calls call ih =>
    rw [setKeys_concat, lastSet_concat, ← ih]
    show bitmapTest (if call.key.scanCode ≠ 0 ∧ call.key.scanCode < maxScancode then
      bitmapPut (setKeys calls).scanCodes call.key.scanCode.toUInt32 call.value
      else (setKeys calls).scanCodes) scanCode.toUInt32 = _
    by_cases heq : call.key.scanCode = scanCode
    · rw [if_pos ⟨by rw [heq]; exact h, call.key.scanCode_lt⟩, heq, bitmapTest_put,
        if_pos (hasScanCode_iff.mpr heq)]
    · rw [if_neg fun hyes => heq (hasScanCode_iff.mp hyes)]
      split
      · exact bitmapTest_put_of_ne _ (toUInt32_ne (Ne.symm heq)) _
      · rfl

/-- **A character is remembered under the scan code of its key.** -/
theorem unicodeChars_setKeys (calls : List KeyUpdate) (scanCode : UInt16) :
    bitmapTest (setKeys calls).unicodeChars scanCode.toUInt32
      = lastSet (sharesCharBit scanCode) calls := by
  induction calls using List.reverseRecOn with
  | nil => exact bitmapTest_zero _
  | append_singleton calls call ih =>
    rw [setKeys_concat, lastSet_concat, ← ih]
    show bitmapTest (if call.key.unicodeChar ≠ 0 ∧ call.key.unicodeChar < maxUncodeChar then
      bitmapPut (setKeys calls).unicodeChars call.key.scanCode.toUInt32 call.value
      else (setKeys calls).unicodeChars) scanCode.toUInt32 = _
    by_cases hchar : call.key.unicodeChar = 0
    · rw [if_neg fun hset => hset.1 hchar, if_neg fun hyes => (sharesCharBit_iff.mp hyes).2 hchar]
    · rw [if_pos ⟨hchar, call.key.unicodeChar_lt⟩]
      by_cases heq : call.key.scanCode = scanCode
      · rw [heq, bitmapTest_put, if_pos (sharesCharBit_iff.mpr ⟨heq, hchar⟩)]
      · rw [if_neg fun hyes => heq (sharesCharBit_iff.mp hyes).1]
        exact bitmapTest_put_of_ne _ (toUInt32_ne (Ne.symm heq)) _

/-- **The answer of `KeyGetState`** is the scan code as last set and the last
character set under that scan code. -/
theorem keyGetState_setKeys (calls : List KeyUpdate) (key : KeyCodes) :
    keyGetState (setKeys calls) key.scanCode key.unicodeChar = true
      ↔ (key.scanCode ≠ 0 → lastSet (hasScanCode key.scanCode) calls = true)
        ∧ (key.unicodeChar ≠ 0 → lastSet (sharesCharBit key.scanCode) calls = true) := by
  unfold keyGetState
  rw [unicodeChars_setKeys]
  by_cases hscan : key.scanCode = 0
  · rw [if_neg (fun h => h.1 hscan)]
    by_cases hchar : key.unicodeChar = 0
    · simp [hscan, hchar]
    · simp [hscan, hchar, key.unicodeChar_lt]
  · rw [scanCodes_setKeys calls hscan]
    by_cases hchar : key.unicodeChar = 0
    · simp [hscan, hchar, key.scanCode_lt]
    · cases lastSet (hasScanCode key.scanCode) calls <;>
        simp [hscan, hchar, key.scanCode_lt, key.unicodeChar_lt]

/-! ## The answers that are right -/

/-- **`KeyGetState` answers for a key as its codes were last set**: with `TRUE`
exactly when each code it has was last set `TRUE` by a call that carried it. -/
def AnswersAsSet (calls : List KeyUpdate) (key : KeyCodes) : Prop :=
  keyGetState (setKeys calls) key.scanCode key.unicodeChar = true
    ↔ (key.scanCode ≠ 0 → lastSet (hasScanCode key.scanCode) calls = true)
      ∧ (key.unicodeChar ≠ 0 → lastSet (hasChar key.unicodeChar) calls = true)

/-- Two keys that have no code in common. -/
def KeyCodes.Apart (key other : KeyCodes) : Prop :=
  (key.scanCode ≠ 0 → key.scanCode ≠ other.scanCode)
    ∧ (key.unicodeChar ≠ 0 → key.unicodeChar ≠ other.unicodeChar)

/-- Setting one more key leaves the answer for another key. -/
def AnswerKept (calls : List KeyUpdate) (call : KeyUpdate) (key : KeyCodes) : Prop :=
  keyGetState (setKeys (calls ++ [call])) key.scanCode key.unicodeChar
    = keyGetState (setKeys calls) key.scanCode key.unicodeChar

/-- The character of a key was last set as the last character set under its
scan code was. -/
def CharAsShared (calls : List KeyUpdate) (key : KeyCodes) : Prop :=
  lastSet (sharesCharBit key.scanCode) calls = lastSet (hasChar key.unicodeChar) calls

/-- The answer is right where the key has no character, where its scan code is
up anyway, and where the shared bit happens to agree. -/
theorem answersAsSet_iff (calls : List KeyUpdate) (key : KeyCodes) :
    AnswersAsSet calls key
      ↔ key.unicodeChar = 0
        ∨ (key.scanCode ≠ 0 ∧ lastSet (hasScanCode key.scanCode) calls = false)
        ∨ CharAsShared calls key := by
  unfold AnswersAsSet CharAsShared
  rw [keyGetState_setKeys]
  by_cases hchar : key.unicodeChar = 0
  · simp [hchar]
  · by_cases hscan : key.scanCode = 0
    · rw [Bool.eq_iff_iff]
      simp [hchar, hscan]
    · rw [Bool.eq_iff_iff]
      cases lastSet (hasScanCode key.scanCode) calls <;> simp [hchar, hscan]

/-- A key with a scan code is not disturbed by keys apart from it, and of the
keys without one, only by those that have a character. -/
theorem answerKept_iff (calls : List KeyUpdate) {call : KeyUpdate} {key : KeyCodes}
    (hapart : key.Apart call.key) :
    AnswerKept calls call key
      ↔ key.scanCode ≠ 0 ∨ call.key.scanCode ≠ 0 ∨ call.key.unicodeChar = 0
        ∨ lastSet (sharesCharBit 0) calls = call.value := by
  unfold AnswerKept
  rw [Bool.eq_iff_iff, keyGetState_setKeys, keyGetState_setKeys, lastSet_concat, lastSet_concat]
  by_cases hscan : key.scanCode = 0
  · -- a key without a scan code has a character
    have hchar : key.unicodeChar ≠ 0 := key.some_code.resolve_left fun h => h hscan
    rw [hscan]
    by_cases hshares : sharesCharBit 0 call.key = true
    · obtain ⟨hzero, hother⟩ := sharesCharBit_iff.mp hshares
      rw [if_pos hshares]
      cases call.value <;> cases lastSet (sharesCharBit 0) calls <;>
        simp [hchar, hzero, hother]
    · have hleft : call.key.scanCode ≠ 0 ∨ call.key.unicodeChar = 0 :=
        (not_and_or.mp fun h => hshares (sharesCharBit_iff.mpr h)).imp_right not_not.mp
      rw [if_neg hshares]
      refine iff_of_true ?_ (Or.inr (hleft.imp_right Or.inl))
      simp
  · have hne : ¬ hasScanCode key.scanCode call.key = true := fun h =>
      hapart.1 hscan (hasScanCode_iff.mp h).symm
    have hnot : ¬ sharesCharBit key.scanCode call.key = true := fun h =>
      hapart.1 hscan (sharesCharBit_iff.mp h).1.symm
    rw [if_neg hne, if_neg hnot]
    exact iff_of_true Iff.rfl (Or.inl hscan)

/-- **When the answers are right.** For a key and a sequence of calls the answer
is as the codes were last set exactly when the key has no character, has a scan
code that is up, or its character was last set as the last character under its
scan code was; and a call on a key with no code in common leaves the answer
exactly when one of the two has a scan code, the other key has no character, or
it sets the shared bit to what it was. -/
theorem keyGetState_right_iff (calls : List KeyUpdate) (key : KeyCodes) :
    (AnswersAsSet calls key
      ↔ key.unicodeChar = 0
        ∨ (key.scanCode ≠ 0 ∧ lastSet (hasScanCode key.scanCode) calls = false)
        ∨ CharAsShared calls key)
    ∧ ∀ call : KeyUpdate, ((key.Apart call.key → AnswerKept calls call key)
      ↔ ¬ key.Apart call.key ∨ key.scanCode ≠ 0 ∨ call.key.scanCode ≠ 0
        ∨ call.key.unicodeChar = 0 ∨ lastSet (sharesCharBit 0) calls = call.value) := by
  refine ⟨answersAsSet_iff calls key, fun call => ?_⟩
  by_cases hapart : key.Apart call.key
  · rw [answerKept_iff calls hapart]
    simp [hapart]
  · simp [hapart]

/-- The character `a`, of a key without a scan code. -/
def charA : KeyCodes := ⟨0, 0x61, by decide, by decide, by decide⟩

/-- The Enter key. -/
def enterKey : KeyCodes := ⟨0, charCarriageReturn, by decide, by decide, by decide⟩

/-- Pressing the key `a` makes the Enter key read as pressed. -/
theorem not_answers_enter : ¬ ((∀ calls key, AnswersAsSet calls key)
    ∧ ∀ calls call key, KeyCodes.Apart key call.key → AnswerKept calls call key) := by
  intro h
  have hkept := h.2 [] ⟨charA, true⟩ enterKey ⟨by decide, by decide⟩
  exact absurd hkept (by unfold AnswerKept; decide)

end Keypad
