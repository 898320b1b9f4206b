import HtcLeo.Efi
import HtcLeo.Lib.Buffer
import HtcLeo.Lib.Routine
import HtcLeo.SdCard.Csd

/-!
# The Block IO read

`MMCHSReadBlocks` checks the request and hands it to `MmcReadInternal` as a
byte address and a byte count; that routine goes through it in chunks of one
block, keeping the last chunk for after the loop, and reads each through
`mmc_bread`, which repeats `read_a_block`. Every result travels through three
conventions: a truth value, a block count, and an `EFI_STATUS`.

All of this is over an arbitrary block reader. What the four functions do
together is `mmchsReadBlocks_eq`: they read the blocks one after the other up
to the first failure, and report a success when *at most one block* is left
unread. The failure of the last block is lost in `MmcReadInternal`, which
returns 1 after it, the value of a success. `readBlocks_status_iff` says that
nothing else is.
-/

namespace SdCardDxe

/-- `read_a_block` over a device: whether the block was read, and the words
stored into the read buffer. -/
abbrev BlockReader (σ : Type) : Type := UInt32 → Routine σ (Bool × List UInt32)

/-- **The state of a transfer**: the device, what has been written into the
caller's buffer, and the results of the calls of `read_a_block`, oldest
first. -/
structure Io (σ : Type) where
  device : σ
  buffer : Buffer
  results : List Bool

variable {σ : Type}

/-- The start of a transfer. -/
def Io.start (device : σ) : Io σ := ⟨device, .untouched, []⟩

/-! ## The functions -/

/-- `read_a_block(block, dst)`, with `dst` an offset into the buffer. -/
def readInto (read : BlockReader σ) (block : UInt32) (dst : ℕ) : Routine (Io σ) Bool :=
  fun io => match read block io.device with
    | (some (ok, words), device) =>
      (some ok, ⟨device, io.buffer.storeWords dst words, io.results ++ [ok]⟩)
    | (none, device) => (none, { io with device := device })

/-- The variables of `mmc_bread`. -/
structure BreadVars where
  start : UInt32
  blocksTodo : UInt32
  dst : ℕ

/-- One round of the loop of `mmc_bread`. -/
def breadRound (read : BlockReader σ) (v : BreadVars) :
    Routine (Io σ) (BreadVars ⊕ Bool) := do
  let cur : UInt32 := 1
  if !(← readInto read v.start v.dst) then
    return .inr false
  let blocksTodo := v.blocksTodo - cur
  if blocksTodo > 0 then
    return .inl ⟨v.start + cur, blocksTodo, v.dst + 512⟩
  else
    return .inr true

/-- `mmc_bread`. -/
def mmcBread (read : BlockReader σ) (start blkcnt : UInt32) (dst : ℕ) :
    Routine (Io σ) UInt32 := do
  if ← .loop (fun v _ => (v.blocksTodo - 1).toNat) (breadRound read) ⟨start, blkcnt, dst⟩ then
    return blkcnt
  else
    return 0

/-- The variables of `MmcReadInternal`. -/
structure ReadVars where
  sptr : ℕ
  dataAddr : UInt32
  dataLen : UInt32

/-- One round of the loop of `MmcReadInternal`; it is left with `none` by the
`return 0` inside. -/
def mmcReadRound (media : Media) (read : BlockReader σ) (v : ReadVars) :
    Routine (Io σ) (ReadVars ⊕ Option ReadVars) := do
  let readSize := media.blockSize
  if v.dataLen > readSize then
    let ret ← mmcBread read (v.dataAddr / media.blockSize) (readSize / media.blockSize) v.sptr
    if ret = 0 then
      return .inr none
    return .inl ⟨v.sptr + readSize.toNat, v.dataAddr + readSize, v.dataLen - readSize⟩
  else
    return .inr (some v)

/-- What `MmcReadInternal` does after its loop. -/
def mmcReadLast (media : Media) (read : BlockReader σ) :
    Option ReadVars → Routine (Io σ) UInt32
  | none => return 0
  | some v => do
    if v.dataLen ≠ 0 then
      let ret ← mmcBread read (v.dataAddr / media.blockSize) (v.dataLen / media.blockSize) v.sptr
      if ret = 0 then
        return 1
    return 1

/-- `MmcReadInternal`. Its two assertions only print. -/
def mmcReadInternal (media : Media) (read : BlockReader σ) (dataAddr dataLen : UInt32) :
    Routine (Io σ) UInt32 := do
  let left ← .loop (fun v _ => v.dataLen.toNat) (mmcReadRound media read)
    ⟨0, dataAddr, dataLen⟩
  mmcReadLast media read left

/-- `MMCHSReadBlocks`, with `hasBuffer` false for a `NULL` buffer. The 64-bit
product of the LBA is cut to the 32-bit parameter it is passed as. -/
def mmchsReadBlocks (media : Media) (read : BlockReader σ) (lba : UInt64)
    (bufferSize : UInt32) (hasBuffer : Bool) : Routine (Io σ) EfiStatus := do
  if bufferSize % media.blockSize ≠ 0 then
    return .efiBadBufferSize
  if !hasBuffer then
    return .efiInvalidParameter
  if bufferSize = 0 then
    return .efiSuccess
  let ret ← mmcReadInternal media read (lba * 512).toUInt32 bufferSize
  if ret = 1 then
    return .efiSuccess
  else
    return .efiDeviceError

/-! ## One block after the other -/

/-- Read blocks one after the other into places `stride` apart, up to the
first that fails; what is returned is the number of blocks left unread. -/
def readBlocks (read : BlockReader σ) (stride : ℕ) : List UInt32 → ℕ → Routine (Io σ) ℕ
  | [], _ => return 0
  | b :: bs, dst => do
    if ← readInto read b dst then
      readBlocks read stride bs (dst + stride)
    else
      return bs.length + 1

/-- The block numbers of `n` chunks from a byte address on, as
`MmcReadInternal` computes them. -/
def blockNumbers (dataAddr size : UInt32) : ℕ → List UInt32
  | 0 => []
  | n + 1 => dataAddr / size :: blockNumbers (dataAddr + size) size n

@[simp] theorem length_blockNumbers (dataAddr size : UInt32) (n : ℕ) :
    (blockNumbers dataAddr size n).length = n := by
  induction n generalizing dataAddr with
  | zero => rfl
  | succ n ih => simp [blockNumbers, ih]

theorem breadRound_consumes (read : BlockReader σ) :
    Routine.Consumes (fun (v : BreadVars) (_ : Io σ) => (v.blocksTodo - 1).toNat)
      (breadRound read) := by
  intro v io v' io' h
  obtain ⟨ok, io₁, hread, hrest⟩ := Routine.bind_eq_some_iff.mp h
  cases ok with
  | false => exact absurd (Option.some.inj (congrArg Prod.fst hrest)) (by simp)
  | true =>
    simp only [Bool.not_true, Bool.false_eq_true, if_false] at hrest
    split at hrest
    · next htodo =>
      have hv := Sum.inl.inj (Option.some.inj (congrArg Prod.fst hrest))
      subst hv
      show (v.blocksTodo - 1 - 1).toNat < (v.blocksTodo - 1).toNat
      have hpos : 0 < (v.blocksTodo - 1).toNat := UInt32.lt_iff_toNat_lt.mp htodo
      have hle : (1 : UInt32) ≤ v.blocksTodo - 1 := UInt32.le_iff_toNat_le.mpr hpos
      rw [UInt32.toNat_sub_of_le _ _ hle]
      exact Nat.sub_lt hpos (by decide)
    · exact absurd (Option.some.inj (congrArg Prod.fst hrest)) (by simp)

/-- `mmc_bread` of one block is one call of `read_a_block`. -/
theorem mmcBread_one (read : BlockReader σ) (start : UInt32) (dst : ℕ) :
    mmcBread read start 1 dst = (do
      if ← readInto read start dst then return 1 else return 0) := by
  funext io
  obtain ⟨o, io', hread⟩ : ∃ o io', readInto read start dst io = (o, io') := ⟨_, _, rfl⟩
  unfold mmcBread
  cases o with
  | none =>
    have hround : breadRound read ⟨start, 1, dst⟩ io = (none, io') :=
      Routine.bind_of_waits hread
    rw [Routine.bind_of_waits (Routine.loop_of_waits (breadRound_consumes read) hround),
      Routine.bind_of_waits hread]
  | some ok =>
    have hround : breadRound read ⟨start, 1, dst⟩ io = (some (.inr ok), io') := by
      unfold breadRound
      rw [Routine.bind_of_returns hread]
      cases ok with
      | false => rfl
      | true =>
        have hdone : ¬ ((1 : UInt32) - 1 > 0) := by decide
        simp only [Bool.not_true, Bool.false_eq_true, if_false, if_neg hdone]
        rfl
    rw [Routine.bind_of_returns (Routine.loop_of_leaves (breadRound_consumes read) hround),
      Routine.bind_of_returns hread]

/-- A chunk of the loop is one block. -/
theorem div_blockSize_self (media : Media) : media.blockSize / media.blockSize = 1 := by
  have hpos : 0 < media.blockSize.toNat := UInt32.lt_iff_toNat_lt.mp media.blockSize_pos
  apply UInt32.toNat_inj.mp
  rw [UInt32.toNat_div, Nat.div_self hpos]
  rfl

theorem mmcReadRound_consumes (media : Media) (read : BlockReader σ) :
    Routine.Consumes (fun (v : ReadVars) (_ : Io σ) => v.dataLen.toNat)
      (mmcReadRound media read) := by
  intro v io v' io' h
  unfold mmcReadRound at h
  by_cases hlen : v.dataLen > media.blockSize
  · rw [if_pos hlen] at h
    obtain ⟨ret, io₁, hread, hrest⟩ := Routine.bind_eq_some_iff.mp h
    split at hrest
    · exact absurd (Option.some.inj (congrArg Prod.fst hrest)) (by simp)
    · have hv := Sum.inl.inj (Option.some.inj (congrArg Prod.fst hrest))
      subst hv
      show (v.dataLen - media.blockSize).toNat < v.dataLen.toNat
      have hpos : 0 < media.blockSize.toNat := UInt32.lt_iff_toNat_lt.mp media.blockSize_pos
      have hle : media.blockSize.toNat < v.dataLen.toNat := UInt32.lt_iff_toNat_lt.mp hlen
      rw [UInt32.toNat_sub_of_le _ _ (UInt32.le_iff_toNat_le.mpr (Nat.le_of_lt hle))]
      omega
  · rw [if_neg hlen] at h
    exact absurd (Option.some.inj (congrArg Prod.fst h)) (by simp)

/-- While more than a block is to be read, a round reads one. -/
theorem mmcReadRound_of_gt {media : Media} (read : BlockReader σ) {v : ReadVars}
    (h : v.dataLen > media.blockSize) :
    mmcReadRound media read v = (do
      if ← readInto read (v.dataAddr / media.blockSize) v.sptr then
        return .inl ⟨v.sptr + media.blockSize.toNat, v.dataAddr + media.blockSize,
          v.dataLen - media.blockSize⟩
      else
        return .inr none) := by
  unfold mmcReadRound
  rw [if_pos h, div_blockSize_self, mmcBread_one, bind_assoc]
  refine bind_congr fun ok => ?_
  cases ok <;> rfl

/-- With one block to be read, the loop is left. -/
theorem mmcReadRound_of_eq {media : Media} (read : BlockReader σ) {v : ReadVars}
    (h : v.dataLen = media.blockSize) : mmcReadRound media read v = return .inr (some v) := by
  unfold mmcReadRound
  rw [h, if_neg (UInt32.lt_irrefl _)]

/-- **The last block is read after the loop, and its result is lost**: both
branches return 1. -/
theorem mmcReadLast_of_eq {media : Media} (read : BlockReader σ) {v : ReadVars}
    (h : v.dataLen = media.blockSize) :
    mmcReadLast media read (some v) = (do
      let _ ← readInto read (v.dataAddr / media.blockSize) v.sptr
      return 1) := by
  have hne : media.blockSize ≠ 0 := (UInt32.ne_of_lt media.blockSize_pos).symm
  unfold mmcReadLast
  simp only [h, hne, ne_eq, not_false_eq_true, if_true]
  rw [div_blockSize_self, mmcBread_one, bind_assoc]
  refine bind_congr fun ok => ?_
  cases ok <;> rfl

/-- What `MmcReadInternal` returns, given the number of blocks left unread. -/
def readInternalResult (left : ℕ) : UInt32 := if left ≤ 1 then 1 else 0

/-- The loop of `MmcReadInternal` and what follows it, from any point of a
request on. -/
theorem mmcReadLoop_eq (media : Media) (read : BlockReader σ) (n : ℕ) (v : ReadVars)
    (hv : v.dataLen.toNat = (n + 1) * media.blockSize.toNat) :
    Routine.loop (fun (v : ReadVars) (_ : Io σ) => v.dataLen.toNat)
        (mmcReadRound media read) v >>= mmcReadLast media read
      = readBlocks read media.blockSize.toNat
          (blockNumbers v.dataAddr media.blockSize (n + 1)) v.sptr >>= fun left =>
        return readInternalResult left := by
  have hpos : 0 < media.blockSize.toNat := UInt32.lt_iff_toNat_lt.mp media.blockSize_pos
  rw [Routine.loop_step (mmcReadRound_consumes media read), blockNumbers, readBlocks]
  induction n generalizing v with
  | zero =>
    have hlen : v.dataLen = media.blockSize := UInt32.toNat_inj.mp (by simpa using hv)
    rw [mmcReadRound_of_eq read hlen, pure_bind, pure_bind, mmcReadLast_of_eq read hlen,
      bind_assoc]
    refine bind_congr fun ok => ?_
    cases ok <;> rfl
  | succ n ih =>
    have hgt : v.dataLen > media.blockSize := by
      refine UInt32.lt_iff_toNat_lt.mpr ?_
      rw [hv, Nat.succ_mul]
      exact Nat.lt_add_of_pos_left (Nat.mul_pos (Nat.succ_pos n) hpos)
    have hsub : (v.dataLen - media.blockSize).toNat = (n + 1) * media.blockSize.toNat := by
      rw [UInt32.toNat_sub_of_le _ _ (UInt32.le_of_lt hgt), hv]
      exact Nat.sub_eq_of_eq_add (Nat.succ_mul (n + 1) _)
    rw [mmcReadRound_of_gt read hgt, bind_assoc, bind_assoc, bind_assoc]
    refine bind_congr fun ok => ?_
    cases ok with
    | true =>
      simp only [if_true, pure_bind]
      rw [Routine.loop_step (mmcReadRound_consumes media read), blockNumbers, readBlocks]
      exact ih ⟨v.sptr + media.blockSize.toNat, v.dataAddr + media.blockSize,
        v.dataLen - media.blockSize⟩ hsub
    | false => rfl

/-- A nonzero multiple of the block size is at least one block. -/
theorem blocks_pos {media : Media} {bufferSize : UInt32} (h₀ : bufferSize ≠ 0)
    (hdiv : bufferSize % media.blockSize = 0) :
    ∃ n, (bufferSize / media.blockSize).toNat = n + 1
      ∧ bufferSize.toNat = (n + 1) * media.blockSize.toNat := by
  have hmod : bufferSize.toNat % media.blockSize.toNat = 0 := by
    rw [← UInt32.toNat_mod, hdiv]
    rfl
  have hmul := Nat.div_mul_cancel (Nat.dvd_of_mod_eq_zero hmod)
  have hne : bufferSize.toNat ≠ 0 := fun h => h₀ (UInt32.toNat_inj.mp h)
  rw [UInt32.toNat_div]
  cases hn : bufferSize.toNat / media.blockSize.toNat with
  | zero => rw [hn, Nat.zero_mul] at hmul; exact absurd hmul.symm hne
  | succ n => exact ⟨n, rfl, by rw [← hmul, hn]⟩

/-- The status of an accepted request, given the number of blocks left
unread. -/
def readStatusOf (left : ℕ) : EfiStatus :=
  if left ≤ 1 then .efiSuccess else .efiDeviceError

/-- **What an accepted request does**: the blocks are read one after the other
up to the first failure, and the request succeeds when at most one of them is
left unread. -/
theorem mmchsReadBlocks_eq (media : Media) (read : BlockReader σ) (lba : UInt64)
    {bufferSize : UInt32} (h₀ : bufferSize ≠ 0) (hdiv : bufferSize % media.blockSize = 0) :
    mmchsReadBlocks media read lba bufferSize true = (do
      let left ← readBlocks read media.blockSize.toNat
        (blockNumbers (lba * 512).toUInt32 media.blockSize
          (bufferSize / media.blockSize).toNat) 0
      return readStatusOf left) := by
  obtain ⟨n, hn, hsize⟩ := blocks_pos h₀ hdiv
  have hinternal := mmcReadLoop_eq media read n ⟨0, (lba * 512).toUInt32, bufferSize⟩ hsize
  unfold mmchsReadBlocks mmcReadInternal
  rw [if_neg (not_not_intro hdiv), hinternal, if_neg h₀, hn, bind_assoc]
  refine bind_congr fun left => ?_
  unfold readInternalResult readStatusOf
  by_cases hleft : left ≤ 1
  · rw [if_pos hleft, if_pos hleft]
    rfl
  · rw [if_neg hleft, if_neg hleft]
    rfl

/-! ## The status of a request -/

/-- **The reader of a pattern of outcomes**: the k-th call of `read_a_block`
has the k-th outcome, whatever block it is asked for. -/
def scripted (outcome : ℕ → Bool × List UInt32) : BlockReader ℕ :=
  fun _ k => (some (outcome k), k + 1)

/-- Up to the first failure, the number of blocks left unread counts down from
their number. -/
theorem readBlocks_scripted (outcome : ℕ → Bool × List UInt32) (stride : ℕ)
    (blocks : List UInt32) (dst : ℕ) (io : Io ℕ) :
    ∃ left io', readBlocks (scripted outcome) stride blocks dst io = (some left, io')
      ∧ left ≤ blocks.length
      ∧ (∀ k < blocks.length - left, (outcome (io.device + k)).1 = true)
      ∧ (left ≠ 0 → (outcome (io.device + (blocks.length - left))).1 = false) := by
  induction blocks generalizing dst io with
  | nil => exact ⟨0, io, rfl, Nat.le_refl 0, fun k hk => absurd hk (Nat.not_lt_zero k),
      fun h => absurd rfl h⟩
  | cons b bs ih =>
    let io₁ : Io ℕ := ⟨io.device + 1,
      io.buffer.storeWords dst (outcome io.device).2, io.results ++ [(outcome io.device).1]⟩
    have hread : readInto (scripted outcome) b dst io = (some (outcome io.device).1, io₁) := rfl
    unfold readBlocks
    rw [Routine.bind_of_returns hread]
    cases hok : (outcome io.device).1 with
    | true =>
      obtain ⟨left, io', hrest, hle, hbefore, hat⟩ := ih (dst + stride) io₁
      have hshift : ∀ k, io₁.device + k = io.device + (k + 1) := fun k => by
        show io.device + 1 + k = _
        omega
      refine ⟨left, io', hrest, Nat.le_succ_of_le hle, fun k hk => ?_, fun hleft => ?_⟩
      · cases k with
        | zero => exact hok
        | succ k =>
          rw [← hshift]
          exact hbefore k (by rw [List.length_cons] at hk; omega)
      · rw [List.length_cons, Nat.succ_sub hle, ← hshift]
        exact hat hleft
    | false =>
      refine ⟨bs.length + 1, io₁, rfl, Nat.le_refl _, fun k hk => ?_, fun _ => ?_⟩
      · rw [List.length_cons, Nat.sub_self] at hk
        exact absurd hk (Nat.not_lt_zero k)
      · rw [List.length_cons, Nat.sub_self]
        exact hok

/-- The status a request over `n` blocks is promised: a success exactly when
every block was read. -/
def promisedStatus (outcome : ℕ → Bool × List UInt32) (n : ℕ) : EfiStatus :=
  if ∀ k < n, (outcome k).1 = true then .efiSuccess else .efiDeviceError

/-- **When the status of a request is right**: for every pattern of outcomes
but those in which the last block, and only the last block, fails. -/
theorem readBlocks_status_iff (media : Media) (lba : UInt64) (bufferSize : UInt32)
    (h₀ : bufferSize ≠ 0) (hdiv : bufferSize % media.blockSize = 0)
    (outcome : ℕ → Bool × List UInt32) :
    (mmchsReadBlocks media (scripted outcome) lba bufferSize true (.start 0)).1
        = some (promisedStatus outcome (bufferSize / media.blockSize).toNat)
      ↔ ¬ ((∀ k < (bufferSize / media.blockSize).toNat - 1, (outcome k).1 = true)
        ∧ (outcome ((bufferSize / media.blockSize).toNat - 1)).1 = false) := by
  obtain ⟨n, hn, -⟩ := blocks_pos h₀ hdiv
  obtain ⟨left, io', hread, hle, hbefore, hat⟩ := readBlocks_scripted outcome
    media.blockSize.toNat (blockNumbers (lba * 512).toUInt32 media.blockSize (n + 1)) 0 (.start 0)
  simp only [length_blockNumbers, Io.start, Nat.zero_add] at hle hbefore hat
  have hstatus : (mmchsReadBlocks media (scripted outcome) lba bufferSize true (.start 0)).1
      = some (readStatusOf left) := by
    rw [mmchsReadBlocks_eq media _ lba h₀ hdiv, hn]
    exact congrArg Prod.fst (Routine.bind_of_returns hread)
  rw [hstatus, hn, Option.some_inj, Nat.add_sub_cancel]
  unfold readStatusOf promisedStatus
  -- nothing left: all was read; one left: the last failed; more left: an earlier one failed
  obtain rfl | rfl | hmore : left = 0 ∨ left = 1 ∨ 1 < left := by omega
  · have hall : ∀ k < n + 1, (outcome k).1 = true := hbefore
    rw [if_pos (Nat.zero_le 1), if_pos hall]
    refine iff_of_true rfl fun h => ?_
    rw [hall n (Nat.lt_succ_self n)] at h
    exact Bool.noConfusion h.2
  · have hlast : (outcome n).1 = false := hat (by decide)
    have hnot : ¬ ∀ k < n + 1, (outcome k).1 = true := fun h => by
      rw [h n (Nat.lt_succ_self n)] at hlast
      exact Bool.noConfusion hlast
    rw [if_pos (Nat.le_refl 1), if_neg hnot]
    exact iff_of_false (by decide) (not_not_intro ⟨hbefore, hlast⟩)
  · have hfail : (outcome (n + 1 - left)).1 = false := hat (by omega)
    have hnot : ¬ ∀ k < n + 1, (outcome k).1 = true := fun h => by
      rw [h _ (by omega)] at hfail
      exact Bool.noConfusion hfail
    rw [if_neg (Nat.not_le_of_lt hmore), if_neg hnot]
    refine iff_of_true rfl fun h => ?_
    rw [h.1 _ (by omega)] at hfail
    exact Bool.noConfusion hfail

/-- A request of two blocks, the first of which fails. -/
theorem readBlocks_status_first_fails :
    (1024 : UInt32) ≠ 0 ∧ (1024 : UInt32) % Media.initial.blockSize = 0
      ∧ (mmchsReadBlocks .initial (scripted fun k => (k ≠ 0, [])) 0 1024 true (.start 0)).1
        = some (promisedStatus (fun k => (k ≠ 0, [])) 2) :=
  ⟨by decide, by decide,
    (readBlocks_status_iff .initial 0 1024 (by decide) (by decide) _).mpr
      fun h => absurd (h.1 0 (by decide)) (by decide)⟩

/-- A request of one block whose read fails returns `EFI_SUCCESS`. -/
theorem failed_last_block_reported_as_success :
    (512 : UInt32) ≠ 0 ∧ (512 : UInt32) % Media.initial.blockSize = 0
      ∧ (mmchsReadBlocks .initial (scripted fun _ => (false, [])) 0 512 true (.start 0)).1
        = some .efiSuccess
      ∧ promisedStatus (fun _ => (false, [])) 1 = .efiDeviceError := by
  decide

end SdCardDxe
