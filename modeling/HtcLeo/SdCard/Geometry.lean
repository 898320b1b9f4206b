import HtcLeo.SdCard.Csd
import Mathlib.Data.Fin.VecNotation
import Mathlib.Data.Nat.Bitwise
import Mathlib.Tactic.Ring
import Mathlib.Tactic.Common

/-!
# What the CSD says and what is recorded

The CSD is one number of 128 bits, and its fields are the digits of that
number. `unstuffBits` reads them word by word, and reads them right
(`unstuffBits_eq_field`). What `mmc_decode_csd` makes of them is another
matter: it records the *number* of blocks as the *last* block, and of the 22
bits of `C_SIZE` in a version 2.0 CSD it reads the lower 16.
-/

namespace SdCardDxe

/-- The 128-bit number the four words make. -/
def csdValue (csd : Response) : ℕ :=
  2 ^ 32 * (2 ^ 32 * (2 ^ 32 * (csd resp0).toNat + (csd resp1).toNat) + (csd resp2).toNat)
    + (csd resp3).toNat

/-- The field of `size` bits from bit `start` on. -/
def csdField (csd : Response) (start size : ℕ) : ℕ := csdValue csd / 2 ^ start % 2 ^ size

/-! ## Fields across words -/

/-- A bit of the number is a bit of one of the words, the last word first. -/
theorem testBit_csdValue (csd : Response) (q : Fin 4) {i : ℕ} (hi : i < 32) :
    (csdValue csd).testBit (32 * q + i) = (csd q.rev).toNat.testBit i := by
  have hword : ∀ k, (csd k).toNat < 2 ^ 32 := fun k => (csd k).toNat_lt
  have hskip : ∀ a k j, (2 ^ 32 * a + (csd k).toNat).testBit (32 + j) = a.testBit j := by
    intro a k j
    rw [Nat.testBit_two_pow_mul_add a (hword k), if_neg (by omega), Nat.add_sub_cancel_left]
  have hhere : ∀ a k, (2 ^ 32 * a + (csd k).toNat).testBit i = (csd k).toNat.testBit i := by
    intro a k
    rw [Nat.testBit_two_pow_mul_add a (hword k), if_pos hi]
  unfold csdValue
  obtain ⟨q, hq⟩ := q
  obtain rfl | rfl | rfl | rfl : q = 0 ∨ q = 1 ∨ q = 2 ∨ q = 3 := by omega
  · rw [show 32 * (⟨0, hq⟩ : Fin 4).val + i = i from Nat.zero_add i, hhere]
    rfl
  · rw [show 32 * (⟨1, hq⟩ : Fin 4).val + i = 32 + i from rfl, hskip, hhere]
    rfl
  · rw [show 32 * (⟨2, hq⟩ : Fin 4).val + i = 32 + (32 + i) by simp only; omega, hskip, hskip,
      hhere]
    rfl
  · rw [show 32 * (⟨3, hq⟩ : Fin 4).val + i = 32 + (32 + (32 + i)) by simp only; omega, hskip,
      hskip, hskip]
    rfl

/-- The word `UNSTUFF_BITS` starts in. -/
theorem respWord_eq (csd : Response) (q : Fin 4) :
    respWord csd (3 - (q.val : ℕ)) = some (csd q.rev) := by
  have hq := q.isLt
  unfold respWord
  rw [dif_pos (by omega)]
  congr 2
  apply Fin.ext
  rw [Fin.val_rev]
  show (3 - (q.val : ℤ)).toNat = _
  omega

/-- The mask of `UNSTUFF_BITS`. -/
theorem unstuffBits_mask {size : ℕ} (h : size ≤ 32) :
    ((if size < 32 then (1 : UInt32) <<< UInt32.ofNat size else 0) - 1).toNat = 2 ^ size - 1 := by
  by_cases hsize : size < 32
  · have hmod : (UInt32.ofNat size).toNat % 32 = size := by
      rw [UInt32.toNat_ofNat']
      omega
    have hpow : 2 ^ size < 2 ^ 32 := Nat.pow_lt_pow_right (by decide) hsize
    have hpos : 0 < 2 ^ size := Nat.two_pow_pos size
    have hone : ((1 : UInt32) <<< UInt32.ofNat size).toNat = 2 ^ size := by
      rw [UInt32.toNat_shiftLeft, hmod, UInt32.toNat_one, Nat.shiftLeft_eq, Nat.one_mul,
        Nat.mod_eq_of_lt hpow]
    have hle : (1 : UInt32) ≤ 1 <<< UInt32.ofNat size := by
      rw [UInt32.le_iff_toNat_le, hone]
      exact hpos
    rw [if_pos hsize, UInt32.toNat_sub_of_le _ _ hle, hone, UInt32.toNat_one]
  · -- a field of a whole word is not masked
    obtain rfl : size = 32 := by omega
    rfl

/-- A bit of a field that lies in the word the field starts in. -/
theorem testBit_csdValue_first (csd : Response) {start i : ℕ} (hq : start / 32 < 4)
    (hi : i + start % 32 < 32) :
    (csdValue csd).testBit (i + start)
      = (csd (Fin.rev ⟨start / 32, hq⟩)).toNat.testBit (start % 32 + i) := by
  have hvalue := testBit_csdValue csd ⟨start / 32, hq⟩ hi
  rw [show 32 * (start / 32) + (i + start % 32) = i + start by omega] at hvalue
  rw [hvalue, Nat.add_comm i]

/-- And one that lies in the next word. -/
theorem testBit_csdValue_next (csd : Response) {start i : ℕ} (hq : start / 32 + 1 < 4)
    (hi : 32 ≤ i + start % 32) (hlt : i < 32) :
    (csdValue csd).testBit (i + start)
      = (csd (Fin.rev ⟨start / 32 + 1, hq⟩)).toNat.testBit (i - (32 - start % 32)) := by
  have hvalue := testBit_csdValue csd ⟨start / 32 + 1, hq⟩ (i := i - (32 - start % 32)) (by omega)
  rwa [show 32 * (start / 32 + 1) + (i - (32 - start % 32)) = i + start by omega] at hvalue

/-- The bits of a field. -/
theorem testBit_csdField (csd : Response) (start size i : ℕ) :
    (csdField csd start size).testBit i
      = (decide (i < size) && (csdValue csd).testBit (i + start)) := by
  unfold csdField
  rw [Nat.testBit_mod_two_pow, Nat.testBit_div_two_pow]

/-- **`UNSTUFF_BITS` reads the field**, whether it lies in one word or
straddles two. -/
theorem unstuffBits_eq_field (csd : Response) (start size : ℕ) (h0 : 0 < size) (hsize : size ≤ 32)
    (h : start + size ≤ 128) :
    ∃ w, unstuffBits csd start size = some w ∧ w.toNat = csdField csd start size := by
  have hq : start / 32 < 4 := by omega
  have hlow := respWord_eq csd ⟨start / 32, hq⟩
  have hshift : (UInt32.ofNat (start % 32)).toNat % 32 = start % 32 := by
    rw [UInt32.toNat_ofNat']
    omega
  simp only [unstuffBits, hlow, Option.bind_eq_bind, Option.bind_some]
  split
  case isTrue hcross =>
    have hhigh := respWord_eq csd ⟨start / 32 + 1, by omega⟩
    have hback : (UInt32.ofNat ((32 - start % 32) % 32)).toNat % 32 = 32 - start % 32 := by
      rw [UInt32.toNat_ofNat']
      omega
    rw [show (3 : ℤ) - ((start / 32 : ℕ) : ℤ) - 1 = 3 - ((start / 32 + 1 : ℕ) : ℤ) by omega, hhigh]
    refine ⟨_, rfl, Nat.eq_of_testBit_eq fun i => ?_⟩
    rw [testBit_csdField, UInt32.toNat_and, UInt32.toNat_or, UInt32.toNat_shiftRight,
      UInt32.toNat_shiftLeft, unstuffBits_mask hsize, hshift, hback, Nat.testBit_and,
      Nat.testBit_or, Nat.testBit_shiftRight, Nat.testBit_mod_two_pow, Nat.testBit_shiftLeft,
      Nat.testBit_two_pow_sub_one]
    by_cases hi : i < size
    · by_cases hin : i + start % 32 < 32
      · rw [testBit_csdValue_first csd hq hin]
        simp [hi, show ¬ 32 - start % 32 ≤ i by omega]
      · -- above the first word nothing is shifted in
        have hnothing : (csd (Fin.rev ⟨start / 32, hq⟩)).toNat.testBit (start % 32 + i) = false :=
          Nat.testBit_lt_two_pow
            (lt_of_lt_of_le (UInt32.toNat_lt _) (Nat.pow_le_pow_right (by decide) (by omega)))
        rw [testBit_csdValue_next csd (by omega) (by omega) (by omega), hnothing]
        simp [hi, show 32 - start % 32 ≤ i by omega, show i < 32 by omega]
    · simp [hi]
  case isFalse hinside =>
    refine ⟨_, rfl, Nat.eq_of_testBit_eq fun i => ?_⟩
    rw [testBit_csdField, UInt32.toNat_and, UInt32.toNat_shiftRight, unstuffBits_mask hsize, hshift,
      Nat.testBit_and, Nat.testBit_shiftRight, Nat.testBit_two_pow_sub_one]
    by_cases hi : i < size
    · rw [testBit_csdValue_first csd hq (by omega), Bool.and_comm]
    · simp [hi]

/-! ## The fields of the two layouts -/

/-- The version of the layout, bits `[127:126]`. -/
def csdVersion (csd : Response) : ℕ := csdField csd 126 2

/-- `READ_BL_LEN`, bits `[83:80]`. -/
def csdReadBlLen (csd : Response) : ℕ := csdField csd 80 4

/-- `C_SIZE` of version 1.0, bits `[73:62]`. -/
def csdCSize (csd : Response) : ℕ := csdField csd 62 12

/-- `C_SIZE_MULT` of version 1.0, bits `[49:47]`. -/
def csdCSizeMult (csd : Response) : ℕ := csdField csd 47 3

/-- `C_SIZE` of version 2.0, bits `[69:48]`. -/
def csdCSizeHigh (csd : Response) : ℕ := csdField csd 48 22

theorem csdField_lt (csd : Response) (start size : ℕ) : csdField csd start size < 2 ^ size :=
  Nat.mod_lt _ (Nat.two_pow_pos size)

/-- A field read short is the field modulo its size. -/
theorem csdField_mod (csd : Response) (start : ℕ) {short size : ℕ} (h : short ≤ size) :
    csdField csd start size % 2 ^ short = csdField csd start short :=
  Nat.mod_mod_of_dvd _ (Nat.pow_dvd_pow 2 h)

/-- The version is the structure field `mmc_decode_csd` switches on. -/
theorem csdVersion_eq (csd : Response) : csdVersion csd = (csdStructure csd).toNat := by
  obtain ⟨w, hw, hfield⟩ := unstuffBits_eq_field csd 126 2 (by decide)
    (by decide) (by decide)
  rw [unstuffBits_structure] at hw
  rw [Option.some.inj hw, hfield]
  rfl

theorem csdReadBlLen_eq (csd : Response) : csdReadBlLen csd = (readBlLen csd).toNat := by
  obtain ⟨w, hw, hfield⟩ := unstuffBits_eq_field csd 80 4 (by decide)
    (by decide) (by decide)
  rw [unstuffBits_readBlLen] at hw
  rw [Option.some.inj hw, hfield]
  rfl

/-- A one shifted by less than the width is the power of two. -/
theorem toNat_one_shiftLeft {n : UInt32} (h : n.toNat < 32) :
    ((1 : UInt32) <<< n).toNat = 2 ^ n.toNat := by
  rw [UInt32.toNat_shiftLeft, UInt32.toNat_one, Nat.shiftLeft_eq, Nat.one_mul,
    Nat.mod_eq_of_lt h, Nat.mod_eq_of_lt (Nat.pow_lt_pow_right (by decide) h)]

/-! ## What is recorded -/

/-- **Of version 1.0** the number of blocks is recorded as the last block. -/
theorem mmcDecodeCsd_version0 {csd : Response} (h : csdVersion csd = 0) (media : Media) :
    ∃ media', mmcDecodeCsd csd media = some media'
      ∧ media'.blockSize.toNat = 2 ^ csdReadBlLen csd
      ∧ media'.lastBlock.toNat = (csdCSize csd + 1) * 2 ^ (csdCSizeMult csd + 2) := by
  have hversion : csdStructure csd = 0 := UInt32.toNat_inj.mp ((csdVersion_eq csd).symm.trans h)
  obtain ⟨mult, hmult, hmultField⟩ := unstuffBits_eq_field csd 47 3
    (by decide) (by decide) (by decide)
  obtain ⟨cSize, hcSize, hcSizeField⟩ := unstuffBits_eq_field csd 62 12
    (by decide) (by decide) (by decide)
  have hlen : (readBlLen csd).toNat < 32 := by
    rw [← csdReadBlLen_eq]
    exact lt_trans (csdField_lt csd 80 4) (by decide)
  have hmultLt : csdCSizeMult csd < 2 ^ 3 := csdField_lt csd 47 3
  have hcSizeLt : csdCSize csd < 2 ^ 12 := csdField_lt csd 62 12
  have hshift : (mult + 2).toNat = csdCSizeMult csd + 2 := by
    rw [UInt32.toNat_add, hmultField]
    exact Nat.mod_eq_of_lt (Nat.lt_trans (Nat.add_lt_add_right hmultLt 2) (by decide))
  have hpow : 2 ^ (csdCSizeMult csd + 2) ≤ 2 ^ 9 := Nat.pow_le_pow_right (by decide) (by omega)
  have hsucc : (1 + cSize).toNat = csdCSize csd + 1 := by
    rw [UInt32.toNat_add, hcSizeField, UInt32.toNat_one, Nat.add_comm]
    exact Nat.mod_eq_of_lt (Nat.lt_trans (Nat.add_lt_add_right hcSizeLt 1) (by decide))
  have hproduct : (csdCSize csd + 1) * 2 ^ (csdCSizeMult csd + 2) < 2 ^ 32 :=
    Nat.lt_of_le_of_lt (Nat.mul_le_mul (show csdCSize csd + 1 ≤ 2 ^ 12 by omega) hpow) (by decide)
  unfold mmcDecodeCsd
  rw [unstuffBits_structure, unstuffBits_readBlLen, hmult, hcSize]
  simp only [Option.bind_eq_bind, Option.bind_some, hversion]
  refine ⟨_, rfl, ?_, ?_⟩
  · rw [csdReadBlLen_eq]
    exact toNat_one_shiftLeft hlen
  · rw [UInt32.toNat_toUInt64, UInt32.toNat_mul, hsucc,
      toNat_one_shiftLeft (by rw [hshift]; omega), hshift]
    exact Nat.mod_eq_of_lt hproduct

/-- **Of version 2.0** the number of blocks is recorded too, and of the device
size only its lower 16 bits are seen. -/
theorem mmcDecodeCsd_version1 {csd : Response} (h : csdVersion csd = 1) (media : Media) :
    ∃ media', mmcDecodeCsd csd media = some media'
      ∧ media'.blockSize.toNat = 2 ^ csdReadBlLen csd
      ∧ media'.lastBlock.toNat = (csdCSizeHigh csd % 2 ^ 16 + 1) * 1024 := by
  have hversion : csdStructure csd = 1 := UInt32.toNat_inj.mp ((csdVersion_eq csd).symm.trans h)
  obtain ⟨cSize, hcSize, hcSizeField⟩ := unstuffBits_eq_field csd 48 16
    (by decide) (by decide) (by decide)
  have hlen : (readBlLen csd).toNat < 32 := by
    rw [← csdReadBlLen_eq]
    exact lt_trans (csdField_lt csd 80 4) (by decide)
  have hshort : csdCSizeHigh csd % 2 ^ 16 = csdField csd 48 16 := csdField_mod csd 48 (by decide)
  have hlt : csdField csd 48 16 < 2 ^ 16 := csdField_lt csd 48 16
  have hsucc : (1 + cSize).toNat = csdField csd 48 16 + 1 := by
    rw [UInt32.toNat_add, hcSizeField, UInt32.toNat_one, Nat.add_comm]
    exact Nat.mod_eq_of_lt (Nat.lt_trans (Nat.add_lt_add_right hlt 1) (by decide))
  unfold mmcDecodeCsd
  rw [unstuffBits_structure, unstuffBits_readBlLen, hcSize]
  simp only [Option.bind_eq_bind, Option.bind_some, hversion]
  refine ⟨_, rfl, ?_, ?_⟩
  · rw [csdReadBlLen_eq]
    exact toNat_one_shiftLeft hlen
  · rw [UInt32.toNat_toUInt64, UInt32.toNat_mul, hsucc, hshort]
    exact Nat.mod_eq_of_lt (by show _ * 1024 < 2 ^ 32; omega)

/-- **Any other version** leaves the record alone. -/
theorem mmcDecodeCsd_other {csd : Response} (h0 : csdVersion csd ≠ 0) (h1 : csdVersion csd ≠ 1)
    (media : Media) : mmcDecodeCsd csd media = some media := by
  have hversion : csdStructure csd ≠ 0 ∧ csdStructure csd ≠ 1 := by
    rw [csdVersion_eq] at h0 h1
    exact ⟨fun h => h0 (by rw [h]; rfl), fun h => h1 (by rw [h]; rfl)⟩
  unfold mmcDecodeCsd
  rw [unstuffBits_structure]
  simp only [Option.bind_eq_bind, Option.bind_some, if_pos hversion]
  rfl

/-! ## The capacity -/

/-- The bytes of a card that has its last block where the record says. -/
def Media.capacity (media : Media) : ℕ := (media.lastBlock.toNat + 1) * media.blockSize.toNat

/-- **The geometry the CSD stands for is recorded**: the capacity of either
layout, and nothing for a layout that is not known. -/
structure GeometryRecorded (csd : Response) (before after : Media) : Prop where
  version0 : csdVersion csd = 0 →
    after.capacity
      = (csdCSize csd + 1) * 2 ^ (csdCSizeMult csd + 2) * 2 ^ csdReadBlLen csd
  version1 : csdVersion csd = 1 → csdReadBlLen csd = 9 →
    after.capacity = (csdCSizeHigh csd + 1) * 512 * 1024
  other : csdVersion csd ≠ 0 → csdVersion csd ≠ 1 → after = before

/-- One block too many is one block size too much. -/
theorem capacity_ne {media : Media} {blocks : ℕ} (h : media.lastBlock.toNat = blocks) :
    media.capacity ≠ blocks * media.blockSize.toNat := by
  have hpos : 0 < media.blockSize.toNat := UInt32.lt_iff_toNat_lt.mp media.blockSize_pos
  unfold Media.capacity
  rw [h, Nat.add_mul]
  omega

/-- A capacity with an odd number of blocks is not a multiple of 1024 blocks,
however many of them the device size promises. -/
theorem capacity_ne_of_odd {media : Media} {n : ℕ} (h : media.lastBlock.toNat = n * 1024)
    (hsize : media.blockSize.toNat = 512) (blocks : ℕ) :
    media.capacity ≠ blocks * 512 * 1024 := by
  unfold Media.capacity
  rw [h, hsize]
  omega

/-- **The geometry is recorded as the CSD stands for it only where nothing is
recorded**: for a version that is not known, and for a version 2.0 CSD whose
block length is not the one its layout fixes. -/
theorem mmcDecodeCsd_recorded_iff (csd : Response) (media : Media) :
    ∃ media', mmcDecodeCsd csd media = some media'
      ∧ (GeometryRecorded csd media media'
        ↔ csdVersion csd ≠ 0 ∧ (csdVersion csd = 1 → csdReadBlLen csd ≠ 9)) := by
  by_cases h0 : csdVersion csd = 0
  · obtain ⟨media', hdecode, hsize, hlast⟩ := mmcDecodeCsd_version0 h0 media
    refine ⟨media', hdecode, ⟨fun h => ?_, fun h => absurd h0 h.1⟩⟩
    have hcapacity := h.version0 h0
    rw [← hsize] at hcapacity
    exact absurd hcapacity (capacity_ne hlast)
  · by_cases h1 : csdVersion csd = 1
    · obtain ⟨media', hdecode, hsize, hlast⟩ := mmcDecodeCsd_version1 h1 media
      refine ⟨media', hdecode, ⟨fun h => ⟨h0, fun _ hlen => ?_⟩, fun h => ?_⟩⟩
      · rw [hlen] at hsize
        exact capacity_ne_of_odd hlast hsize _ (h.version1 h1 hlen)
      · exact ⟨fun hv => absurd hv h0, fun _ hlen => absurd hlen (h.2 h1), fun _ hv => absurd h1 hv⟩
    · refine ⟨media, mmcDecodeCsd_other h0 h1 media, ⟨fun _ => ⟨h0, fun hv => absurd hv h1⟩,
        fun _ => ?_⟩⟩
      exact ⟨fun hv => absurd hv h0, fun hv => absurd hv h1, fun _ _ => rfl⟩

/-- The CSD of a 2 GB card: 1921024 blocks of 1024 bytes. -/
def csd2Gb : Response := ![0x002e0032, 0x5b5a83a9, 0xffffff80, 0x16800091]

/-- The last block recorded for it is number 1921024, one past the last there is. -/
theorem mmcDecodeCsd_csd2Gb : ¬ ∀ (csd : Response) (before after : Media),
    mmcDecodeCsd csd before = some after → GeometryRecorded csd before after := by
  intro h
  have hafter := h csd2Gb .initial ⟨1024, 1921024, by decide⟩ rfl
  exact absurd (hafter.version0 (by decide)) (by decide)

end SdCardDxe
