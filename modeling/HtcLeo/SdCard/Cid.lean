import HtcLeo.SdCard.Geometry

/-!
# The fields of a response

The CSD and the CID come as the four words of a 128-bit response, the most
significant first. `responseBits` is the response in one piece, and
`unstuffBits_eq_extract` says that `UNSTUFF_BITS` takes out of the four words
the bits that are taken out of the whole – for a field of any size up to a
whole word, wherever it starts.

The macro computes its mask in `int`. With a size of 31, which no field of the
driver has, the shift leaves the range of that type; the mask is then what the
processor makes of it (`unstuffBits_mask_int`).

`mmc_decode_cid` takes the CID apart to print it. It leaves out the reserved
bits and the checksum, and nothing else (`mmcDecodeCid_eq_iff`).
-/

namespace SdCardDxe

/-! ## The whole response -/

/-- The response in one piece. -/
def responseBits (resp : Response) : BitVec 128 :=
  (resp resp0).toBitVec ++ (resp resp1).toBitVec ++ (resp resp2).toBitVec ++ (resp resp3).toBitVec

/-- It is the number of the words. -/
theorem toNat_responseBits (resp : Response) : (responseBits resp).toNat = csdValue resp := by
  have happend : ∀ (n : ℕ) (high : BitVec n) (w : UInt32),
      (high ++ w.toBitVec).toNat = 2 ^ 32 * high.toNat + w.toNat := by
    intro n high w
    rw [BitVec.toNat_append, ← Nat.shiftLeft_add_eq_or_of_lt w.toBitVec.isLt, Nat.shiftLeft_eq,
      Nat.mul_comm]
    rfl
  unfold responseBits csdValue
  rw [happend, happend, happend]
  rfl

theorem toNat_extract_responseBits (resp : Response) (start size : ℕ) :
    ((responseBits resp).extractLsb' start size).toNat = csdField resp start size := by
  rw [BitVec.extractLsb'_toNat, toNat_responseBits, Nat.shiftRight_eq_div_pow]
  rfl

/-- **`UNSTUFF_BITS` takes the field out of the response**, and indexes none but the
four words. -/
theorem unstuffBits_eq_extract (resp : Response) (start size : ℕ) (hpos : 1 ≤ size)
    (hsize : size ≤ 32) (hend : start + size ≤ 128) :
    ∃ w, unstuffBits resp start size = some w
      ∧ w.toNat = ((responseBits resp).extractLsb' start size).toNat := by
  obtain ⟨w, hw, hfield⟩ := unstuffBits_eq_field resp start size hpos hsize hend
  exact ⟨w, hw, hfield.trans (toNat_extract_responseBits resp start size).symm⟩

/-- The CID of a card. -/
def cidExample : Response := ![0x03534453, 0x55303247, 0x80411cad, 0x7b009a2f]

/-- Its serial number is a whole word, across two of the response. -/
theorem unstuffBits_eq_extract_serial :
    1 ≤ 32 ∧ 32 ≤ 32 ∧ 24 + 32 ≤ 128 ∧ ∃ w, unstuffBits cidExample 24 32 = some w
      ∧ w.toNat = ((responseBits cidExample).extractLsb' 24 32).toNat :=
  ⟨by decide, by decide, by decide,
    unstuffBits_eq_extract cidExample 24 32 (by decide) (by decide) (by decide)⟩

/-- The mask, computed in `int` as the macro has it. -/
theorem unstuffBits_mask_int : ∀ size ≤ 32,
    ((if size < 32 then (1 : Int32) <<< Int32.ofNat size else 0) - 1).toUInt32
      = (if size < 32 then (1 : UInt32) <<< UInt32.ofNat size else 0) - 1 := by
  decide

/-! ## The CID -/

/-- **What `mmc_decode_cid` prints** of the CID, in its order. -/
structure Cid where
  manufacturer : UInt32
  oem : List UInt32
  name : List UInt32
  month : UInt32
  year : UInt32
  revision : List UInt32
  serial : UInt32
  deriving DecidableEq

/-- `mmc_decode_cid`. -/
def mmcDecodeCid (resp : Response) : Option Cid := do
  let manufacturer ← unstuffBits resp 120 8
  let oem ← [112, 104].mapM fun start => unstuffBits resp start 8
  let name ← [96, 88, 80, 72, 64].mapM fun start => unstuffBits resp start 8
  let month ← unstuffBits resp 8 4
  let year ← unstuffBits resp 12 8
  let revision ← [60, 56].mapM fun start => unstuffBits resp start 4
  let serial ← unstuffBits resp 24 32
  return ⟨manufacturer, oem, name, month, year + 2000, revision, serial⟩

/-- A field, as the word it is read as. -/
def fieldWord (resp : Response) (start size : ℕ) : UInt32 := UInt32.ofNat (csdField resp start size)

theorem unstuffBits_eq_fieldWord (resp : Response) {start size : ℕ} (hpos : 0 < size)
    (hsize : size ≤ 32) (hend : start + size ≤ 128) :
    unstuffBits resp start size = some (fieldWord resp start size) := by
  obtain ⟨w, hw, hfield⟩ := unstuffBits_eq_field resp start size hpos hsize hend
  unfold fieldWord
  rw [hw, ← hfield, UInt32.ofNat_toNat]

/-- A field of at most a word is what its word says. -/
theorem fieldWord_inj {resp resp' : Response} {start size : ℕ} (hsize : size ≤ 32) :
    fieldWord resp start size = fieldWord resp' start size
      ↔ csdField resp start size = csdField resp' start size := by
  have hword : ∀ resp, (fieldWord resp start size).toNat = csdField resp start size := by
    intro resp
    unfold fieldWord
    rw [UInt32.toNat_ofNat']
    exact Nat.mod_eq_of_lt
      (Nat.lt_of_lt_of_le (csdField_lt resp start size) (Nat.pow_le_pow_right (by decide) hsize))
  rw [← UInt32.toNat_inj, hword, hword]

/-- Two fields side by side make one. -/
theorem csdField_add (resp : Response) (start m n : ℕ) :
    csdField resp start (m + n)
      = csdField resp start m + 2 ^ m * csdField resp (start + m) n := by
  unfold csdField
  rw [Nat.pow_add, Nat.mod_mul, Nat.pow_add, Nat.div_div_eq_div_mul]

theorem csdField_add_eq_iff {resp resp' : Response} (start m n : ℕ) :
    csdField resp start (m + n) = csdField resp' start (m + n)
      ↔ csdField resp start m = csdField resp' start m
        ∧ csdField resp (start + m) n = csdField resp' (start + m) n := by
  rw [csdField_add, csdField_add]
  constructor
  · intro h
    have hlow : csdField resp start m = csdField resp' start m := by
      have hmod := congrArg (· % 2 ^ m) h
      simpa [Nat.mod_eq_of_lt (csdField_lt _ start m)] using hmod
    rw [hlow] at h
    exact ⟨hlow, Nat.eq_of_mul_eq_mul_left (Nat.two_pow_pos m) (Nat.add_left_cancel h)⟩
  · rintro ⟨hlow, hhigh⟩
    rw [hlow, hhigh]

/-- **Every CID is decoded**, field by field. -/
theorem mmcDecodeCid_eq (resp : Response) :
    mmcDecodeCid resp = some {
      manufacturer := fieldWord resp 120 8
      oem := [fieldWord resp 112 8, fieldWord resp 104 8]
      name := [fieldWord resp 96 8, fieldWord resp 88 8, fieldWord resp 80 8, fieldWord resp 72 8,
        fieldWord resp 64 8]
      month := fieldWord resp 8 4
      year := fieldWord resp 12 8 + 2000
      revision := [fieldWord resp 60 4, fieldWord resp 56 4]
      serial := fieldWord resp 24 32 } := by
  have hbyte : ∀ start ≤ 120, unstuffBits resp start 8 = some (fieldWord resp start 8) :=
    fun start hstart => unstuffBits_eq_fieldWord resp (by decide) (by decide)
      (Nat.add_le_add_right hstart 8)
  have hnibble : ∀ start ≤ 124, unstuffBits resp start 4 = some (fieldWord resp start 4) :=
    fun start hstart => unstuffBits_eq_fieldWord resp (by decide) (by decide)
      (Nat.add_le_add_right hstart 4)
  have hserial := unstuffBits_eq_fieldWord resp (show 0 < 32 by decide) (Nat.le_refl 32)
    (show 24 + 32 ≤ 128 by decide)
  unfold mmcDecodeCid
  simp only [List.mapM_cons, List.mapM_nil]
  rw [hbyte 120 (by decide), hbyte 112 (by decide), hbyte 104 (by decide), hbyte 96 (by decide),
    hbyte 88 (by decide), hbyte 80 (by decide), hbyte 72 (by decide), hbyte 64 (by decide),
    hbyte 12 (by decide), hnibble 8 (by decide), hnibble 60 (by decide), hnibble 56 (by decide),
    hserial]
  rfl

/-- **What is printed identifies the CID** up to its reserved bits and its checksum:
the bits from 24 on, and the twelve of the date. -/
theorem mmcDecodeCid_eq_iff (cid cid' : Response) :
    mmcDecodeCid cid = mmcDecodeCid cid'
      ↔ csdField cid 24 104 = csdField cid' 24 104 ∧ csdField cid 8 12 = csdField cid' 8 12 := by
  have hsplit := @csdField_add_eq_iff cid cid'
  have hidentity : csdField cid 24 104 = csdField cid' 24 104
      ↔ csdField cid 24 32 = csdField cid' 24 32
        ∧ csdField cid 56 4 = csdField cid' 56 4 ∧ csdField cid 60 4 = csdField cid' 60 4
        ∧ csdField cid 64 8 = csdField cid' 64 8 ∧ csdField cid 72 8 = csdField cid' 72 8
        ∧ csdField cid 80 8 = csdField cid' 80 8 ∧ csdField cid 88 8 = csdField cid' 88 8
        ∧ csdField cid 96 8 = csdField cid' 96 8 ∧ csdField cid 104 8 = csdField cid' 104 8
        ∧ csdField cid 112 8 = csdField cid' 112 8 ∧ csdField cid 120 8 = csdField cid' 120 8 := by
    rw [hsplit 24 32 72, hsplit 56 4 68, hsplit 60 4 64, hsplit 64 8 56, hsplit 72 8 48,
      hsplit 80 8 40, hsplit 88 8 32, hsplit 96 8 24, hsplit 104 8 16, hsplit 112 8 8]
  have hdate : csdField cid 8 12 = csdField cid' 8 12
      ↔ csdField cid 8 4 = csdField cid' 8 4 ∧ csdField cid 12 8 = csdField cid' 12 8 :=
    hsplit 8 4 8
  rw [mmcDecodeCid_eq, mmcDecodeCid_eq, hidentity, hdate]
  simp only [Option.some.injEq, Cid.mk.injEq, List.cons.injEq, and_true, UInt32.add_left_inj,
    fieldWord_inj (show 8 ≤ 32 by decide), fieldWord_inj (show 4 ≤ 32 by decide),
    fieldWord_inj (Nat.le_refl 32)]
  tauto

end SdCardDxe
