import Mathlib.Algebra.Group.Nat.Defs
import Mathlib.Tactic.Common

/-!
# Bits and bytes of a 32-bit word

Registers are 32-bit words read and written bit by bit. `Word.bit w i` is bit
`i` of the word `w`, `Word.one i` is the word a C program writes
`1 << (i & 31)`, and the lemmas say what setting and clearing under such a
mask does to every bit. A status register is read under one-bit masks:
`Word.flag` is such a test. The last section is the little-endian reading of
a word as four bytes.
-/

namespace Word

/-- Bit `i` of a word. -/
def bit (w : UInt32) (i : ℕ) : Bool := w.toBitVec.getLsbD i

/-- The mask of the bit position `n` modulo the width: `1 << (n & 31)`. -/
def one (n : UInt32) : UInt32 := 1 <<< (n &&& 31)

theorem toNat_and_31 (n : UInt32) : (n &&& 31).toNat = n.toNat % 32 := by
  rw [UInt32.toNat_and]
  exact Nat.and_two_pow_sub_one_eq_mod n.toNat 5

@[simp] theorem bit_zero (i : ℕ) : bit 0 i = false := by
  simp [bit]

theorem bit_or (v w : UInt32) (i : ℕ) :
    bit (v ||| w) i = (bit v i || bit w i) := by
  simp [bit]

theorem bit_and (v w : UInt32) (i : ℕ) :
    bit (v &&& w) i = (bit v i && bit w i) := by
  simp [bit]

theorem bit_and_not (v w : UInt32) (i : ℕ) :
    bit (v &&& ~~~w) i = (bit v i && !bit w i) := by
  by_cases hi : i < 32
  · simp [bit, hi]
  · have hv : v.toBitVec.getLsbD i = false :=
      BitVec.getLsbD_of_ge v.toBitVec i (by omega)
    simp [bit, hv]

/-- The mask of a position has exactly that bit set. -/
@[simp] theorem bit_one (n : UInt32) (i : ℕ) :
    bit (one n) i = decide (i = n.toNat % 32) := by
  have hlt : n.toNat % 32 < 32 := Nat.mod_lt _ (by decide)
  have hbv : (one n).toBitVec = BitVec.twoPow 32 (n.toNat % 32) := by
    rw [one, UInt32.toBitVec_shiftLeft, BitVec.twoPow_eq]
    have hs : ((n &&& 31).toBitVec % 32).toNat = n.toNat % 32 := by
      rw [BitVec.toNat_umod]
      show (n &&& 31).toNat % 32 = _
      rw [toNat_and_31, Nat.mod_mod]
    rw [BitVec.shiftLeft_eq', hs]
    rfl
  rw [bit, hbv, BitVec.getLsbD_twoPow]
  by_cases h : n.toNat % 32 = i
  · subst h; simp [hlt]
  · simp [h, Ne.symm h]

/-- Setting a position sets that bit and no other. -/
@[simp] theorem bit_set (w n : UInt32) (i : ℕ) :
    bit (w ||| one n) i = (bit w i || decide (i = n.toNat % 32)) := by
  rw [bit_or, bit_one]

/-- Clearing a position clears that bit and no other. -/
@[simp] theorem bit_clear (w n : UInt32) (i : ℕ) :
    bit (w &&& ~~~one n) i = (bit w i && !decide (i = n.toNat % 32)) := by
  rw [bit_and_not, bit_one]

/-! ## Flags -/

/-- A test under a mask: `(w & mask) >> shift`, taken as a truth value. -/
def flag (w mask : UInt32) : Bool := w &&& mask ≠ 0

/-- A test under the mask of one position is the bit at that position. -/
theorem flag_one (w n : UInt32) : flag w (one n) = bit w (n.toNat % 32) := by
  have hmask : w &&& one n = 0 ↔ bit w (n.toNat % 32) = false := by
    constructor
    · intro h
      have hbit := congrArg (fun v => bit v (n.toNat % 32)) h
      simpa [bit_and] using hbit
    · intro h
      apply UInt32.toBitVec_inj.mp
      apply BitVec.eq_of_getLsbD_eq
      intro i _
      show bit (w &&& one n) i = bit 0 i
      rw [bit_and, bit_one, bit_zero]
      by_cases hi : i = n.toNat % 32
      · rw [hi, h, Bool.false_and]
      · simp [hi]
  unfold flag
  cases hb : bit w (n.toNat % 32) with
  | false => exact decide_eq_false fun hne => hne (hmask.mpr hb)
  | true => exact decide_eq_true fun h => by simp [hmask.mp h] at hb

/-- A flag of two words put together is set when either sets it. -/
theorem flag_or (v w mask : UInt32) :
    flag (v ||| w) mask = (flag v mask || flag w mask) := by
  have hzero : ∀ a b : UInt32, a ||| b = 0 ↔ a = 0 ∧ b = 0 := by
    intro a b
    simp only [← UInt32.toNat_inj, UInt32.toNat_or]
    exact Nat.or_eq_zero_iff
  have hdist : (v ||| w) &&& mask = (v &&& mask) ||| (w &&& mask) := by
    apply UInt32.toBitVec_inj.mp
    ext i hi
    simp [Bool.and_or_distrib_right]
  unfold flag
  rw [hdist]
  by_cases hv : v &&& mask = 0 <;> by_cases hw : w &&& mask = 0 <;>
    simp [hzero, hv, hw]

/-! ## Bytes -/

/-- The word made of the bytes `f 0`, …, `f 3`, least significant first. -/
def ofBytes (f : ℕ → UInt8) : UInt32 :=
  UInt32.ofNat ((f 0).toNat + 256 * ((f 1).toNat + 256 * ((f 2).toNat + 256 * (f 3).toNat)))

/-- Byte `j` of a word, least significant first. -/
def byte (w : UInt32) (j : ℕ) : UInt8 := UInt8.ofNat (w.toNat / 256 ^ j)

/-- Taking a word apart gives back the bytes it was made of. -/
theorem byte_ofBytes (f : ℕ → UInt8) {j : ℕ} (hj : j < 4) :
    byte (ofBytes f) j = f j := by
  have hlt : ∀ i, (f i).toNat < 256 := fun i => (f i).toNat_lt
  have h0 := hlt 0
  have h1 := hlt 1
  have h2 := hlt 2
  have h3 := hlt 3
  have hword : (ofBytes f).toNat
      = (f 0).toNat + 256 * ((f 1).toNat + 256 * ((f 2).toNat + 256 * (f 3).toNat)) := by
    unfold ofBytes
    rw [UInt32.toNat_ofNat']
    omega
  apply UInt8.toNat_inj.mp
  unfold byte
  rw [UInt8.toNat_ofNat', hword]
  obtain rfl | rfl | rfl | rfl : j = 0 ∨ j = 1 ∨ j = 2 ∨ j = 3 := by omega
  all_goals
    simp only [Nat.reducePow]
    omega

theorem ofBytes_congr {f g : ℕ → UInt8} (h : ∀ k < 4, f k = g k) : ofBytes f = ofBytes g := by
  unfold ofBytes
  rw [h 0 (by decide), h 1 (by decide), h 2 (by decide), h 3 (by decide)]

/-- A word is made of its bytes. -/
theorem ofBytes_byte (w : UInt32) : ofBytes (byte w) = w := by
  have hlt := w.toNat_lt
  apply UInt32.toNat_inj.mp
  unfold ofBytes byte
  rw [UInt32.toNat_ofNat', UInt8.toNat_ofNat', UInt8.toNat_ofNat', UInt8.toNat_ofNat',
    UInt8.toNat_ofNat']
  omega

/-- The lower two of the bytes a word is made of. -/
theorem toNat_ofBytes_low (f : ℕ → UInt8) :
    (ofBytes f).toNat % 65536 = (f 0).toNat + 256 * (f 1).toNat := by
  have h0 := (f 0).toNat_lt
  have h1 := (f 1).toNat_lt
  have h2 := (f 2).toNat_lt
  have h3 := (f 3).toNat_lt
  unfold ofBytes
  rw [UInt32.toNat_ofNat']
  omega

/-- Bytes are taken of an exclusive or one by one. -/
theorem byte_xor (v w : UInt32) (j : ℕ) : byte (v ^^^ w) j = byte v j ^^^ byte w j := by
  have hpow : 256 ^ j = 2 ^ (8 * j) := by rw [Nat.pow_mul]
  apply UInt8.toNat_inj.mp
  unfold byte
  rw [UInt8.toNat_xor, UInt8.toNat_ofNat', UInt8.toNat_ofNat', UInt8.toNat_ofNat',
    UInt32.toNat_xor, hpow, ← Nat.shiftRight_eq_div_pow, ← Nat.shiftRight_eq_div_pow,
    ← Nat.shiftRight_eq_div_pow, Nat.shiftRight_xor_distrib]
  exact Nat.xor_mod_two_pow

end Word
