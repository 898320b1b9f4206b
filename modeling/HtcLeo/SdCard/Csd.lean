import HtcLeo.SdCard.Controller
import Mathlib.Data.Int.Notation

/-!
# The geometry in the CSD

`mmc_decode_csd` takes the block size and the number of blocks out of the
128-bit CSD register and records them in `gMMCHSMedia`. The fields are
extracted by the macro `UNSTUFF_BITS`, which reads one or two of the four
words; here a read outside the four words is `none`.
-/

namespace SdCardDxe

/-- **The media record** `gMMCHSMedia`. A block size is never zero. -/
structure Media where
  blockSize : UInt32
  lastBlock : UInt64
  blockSize_pos : 0 < blockSize

/-- `gMMCHSMedia` before a card is seen. -/
def Media.initial : Media := ⟨512, 0, by decide⟩

/-- `resp[i]`. -/
def respWord (resp : Response) (i : ℤ) : Option UInt32 :=
  if h : 0 ≤ i ∧ i < 4 then some (resp ⟨i.toNat, by omega⟩) else none

/-- `UNSTUFF_BITS(resp, start, size)`. -/
def unstuffBits (resp : Response) (start size : ℕ) : Option UInt32 := do
  let mask : UInt32 := (if size < 32 then 1 <<< UInt32.ofNat size else 0) - 1
  let off : ℤ := 3 - (start / 32 : ℕ)
  let shft : ℕ := start % 32
  let res := (← respWord resp off) >>> UInt32.ofNat shft
  if size + shft > 32 then
    let high ← respWord resp (off - 1)
    return (res ||| (high <<< UInt32.ofNat ((32 - shft) % 32))) &&& mask
  else
    return res &&& mask

/-- A one shifted left is never zero. -/
theorem one_shiftLeft_pos (n : UInt32) : (0 : UInt32) < 1 <<< n := by
  have hpow : 2 ^ (n.toNat % 32) < 2 ^ 32 :=
    Nat.pow_lt_pow_right (by decide) (Nat.mod_lt _ (by decide))
  have hpos : 0 < 2 ^ (n.toNat % 32) := Nat.two_pow_pos _
  rw [UInt32.lt_iff_toNat_lt, UInt32.toNat_shiftLeft, Nat.shiftLeft_eq]
  show 0 < 1 * 2 ^ (n.toNat % 32) % 2 ^ 32
  rw [Nat.one_mul, Nat.mod_eq_of_lt hpow]
  exact hpos

/-- `mmc_decode_csd`: an unknown version leaves the record as it is. -/
def mmcDecodeCsd (resp : Response) (media : Media) : Option Media := do
  let csdStruct ← unstuffBits resp 126 2
  if csdStruct ≠ 0 ∧ csdStruct ≠ 1 then
    return media
  let readBlLen ← unstuffBits resp 80 4
  if csdStruct = 0 then
    let mult : UInt32 := 1 <<< ((← unstuffBits resp 47 3) + 2)
    let cSize ← unstuffBits resp 62 12
    return ⟨1 <<< readBlLen, ((1 + cSize) * mult).toUInt64, one_shiftLeft_pos readBlLen⟩
  else
    let cSize ← unstuffBits resp 48 16
    return ⟨1 <<< readBlLen, ((1 + cSize) * 1024).toUInt64, one_shiftLeft_pos readBlLen⟩

/-! ## The fields -/

/-- The `CSD_STRUCTURE` field, bits `[127:126]`. -/
def csdStructure (csd : Response) : UInt32 := (csd resp0 >>> 30) &&& 0x3

/-- The `READ_BL_LEN` field, bits `[83:80]`. -/
def readBlLen (csd : Response) : UInt32 := (csd resp1 >>> 16) &&& 0xf

/-- A word inside the response is read. -/
theorem respWord_of_mem (resp : Response) {i : ℤ} (h : 0 ≤ i ∧ i < 4) :
    ∃ w, respWord resp i = some w := ⟨_, dif_pos h⟩

/-- **A field inside the 128 bits is read without leaving the four words.** -/
theorem unstuffBits_isSome (resp : Response) {start size : ℕ} (h0 : 0 < size)
    (h : start + size ≤ 128) : ∃ w, unstuffBits resp start size = some w := by
  obtain ⟨low, hlow⟩ := respWord_of_mem resp (i := 3 - (start / 32 : ℕ)) (by omega)
  simp only [unstuffBits, hlow, Option.bind_eq_bind, Option.bind_some]
  split
  · obtain ⟨high, hhigh⟩ := respWord_of_mem resp (i := 3 - (start / 32 : ℕ) - 1) (by omega)
    rw [hhigh]
    exact ⟨_, rfl⟩
  · exact ⟨_, rfl⟩

theorem unstuffBits_structure (csd : Response) :
    unstuffBits csd 126 2 = some (csdStructure csd) := rfl

theorem unstuffBits_readBlLen (csd : Response) :
    unstuffBits csd 80 4 = some (readBlLen csd) := rfl

/-- **Every CSD of a known version is decoded**, and sets the block size its
`READ_BL_LEN` field gives. -/
theorem mmcDecodeCsd_blockSize {csd : Response}
    (h : csdStructure csd = 0 ∨ csdStructure csd = 1) (media : Media) :
    ∃ media', mmcDecodeCsd csd media = some media'
      ∧ media'.blockSize = 1 <<< readBlLen csd := by
  obtain ⟨multField, hmult⟩ : ∃ w, unstuffBits csd 47 3 = some w :=
    unstuffBits_isSome csd (by decide) (by decide)
  obtain ⟨cSize, hcSize⟩ : ∃ w, unstuffBits csd 62 12 = some w :=
    unstuffBits_isSome csd (by decide) (by decide)
  obtain ⟨cSizeHigh, hcSizeHigh⟩ : ∃ w, unstuffBits csd 48 16 = some w :=
    unstuffBits_isSome csd (by decide) (by decide)
  unfold mmcDecodeCsd
  rw [unstuffBits_structure, unstuffBits_readBlLen, hmult, hcSize, hcSizeHigh]
  simp only [Option.bind_eq_bind, Option.bind_some]
  rcases h with h | h
  · rw [h]
    exact ⟨_, rfl, rfl⟩
  · rw [h]
    exact ⟨_, rfl, rfl⟩

end SdCardDxe
