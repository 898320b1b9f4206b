import HtcLeo.SdCard.BlockIo
import HtcLeo.SdCard.ReadBlock

/-!
# What a read request transfers

An LBA becomes a byte address in `MMCHSReadBlocks`, a block number again in
`MmcReadInternal`, and the argument of `READ_SINGLE_BLOCK` in `read_a_block`.
The byte address is 32 bits wide, so the two conversions cancel only up to
2^23 blocks: `toNat_blockNumber` says which block is read for which LBA. And
the chunks are as long as the block size of the CSD, but each is filled by
one call of `read_a_block`, which stores 512 bytes.

`transfer_of_success` says what the buffer holds after a request whose block
reads all succeeded, for any block size. The two results about whole requests,
`transfer_iff` and `transfer_exact_iff`, compare this with what the request
asked for.
-/

namespace SdCardDxe

/-! ## The block that is read -/

/-- The `k`-th block number of a request, as `MmcReadInternal` computes it. -/
def blockNumber (dataAddr size : UInt32) (k : ℕ) : UInt32 :=
  (dataAddr + UInt32.ofNat k * size) / size

theorem blockNumbers_from (dataAddr size : UInt32) (m n : ℕ) :
    blockNumbers (dataAddr + UInt32.ofNat m * size) size n
      = (List.range' m n).map (blockNumber dataAddr size) := by
  induction n generalizing m with
  | zero => rfl
  | succ n ih =>
    have hnext : dataAddr + UInt32.ofNat m * size + size
        = dataAddr + UInt32.ofNat (m + 1) * size := by
      rw [UInt32.ofNat_add, UInt32.add_mul, UInt32.add_assoc]
      exact congrArg (fun x => dataAddr + (UInt32.ofNat m * size + x)) (UInt32.one_mul size).symm
    rw [blockNumbers, List.range'_succ, List.map_cons, hnext, ih]
    rfl

theorem blockNumbers_eq (dataAddr size : UInt32) (n : ℕ) :
    blockNumbers dataAddr size n = (List.range' 0 n).map (blockNumber dataAddr size) := by
  have hfrom := blockNumbers_from dataAddr size 0 n
  rw [show UInt32.ofNat 0 = 0 from rfl, UInt32.zero_mul, UInt32.add_zero] at hfrom
  exact hfrom

/-- **The block that is read for an LBA**: the LBA modulo 2^23. -/
theorem toNat_blockNumber (lba : UInt64) (k : ℕ) :
    (blockNumber (lba * 512).toUInt32 512 k).toNat = (lba.toNat + k) % 2 ^ 23 := by
  have hk : (UInt32.ofNat k).toNat = k % 2 ^ 32 := UInt32.toNat_ofNat'
  unfold blockNumber
  rw [UInt32.toNat_div, UInt32.toNat_add, UInt32.toNat_mul, hk, UInt64.toNat_toUInt32,
    UInt64.toNat_mul]
  show ((lba.toNat * 512 % 2 ^ 64 % 2 ^ 32 + k % 2 ^ 32 * 512 % 2 ^ 32) % 2 ^ 32) / 512 = _
  omega

/-- On either kind of card, a block number below 2^23 names that block. -/
theorem offset_blockAddress (card : Card) {b : UInt32} (h : b.toNat < 2 ^ 23) :
    card.offset (blockAddress card.highCapacity b) = 512 * b.toNat := by
  unfold Card.offset blockAddress
  cases card.highCapacity with
  | true => exact Nat.mul_comm _ _
  | false =>
    show (b * blockSize).toNat = _
    rw [UInt32.toNat_mul]
    show b.toNat * 512 % 2 ^ 32 = _
    omega

/-- **The card byte behind each block of a request**, with 512-byte blocks. -/
theorem blockBytes_blockNumber (card : Card) (lba : UInt64) (k j : ℕ) :
    card.blockBytes (blockAddress card.highCapacity (blockNumber (lba * 512).toUInt32 512 k)) j
      = card.bytes (512 * ((lba.toNat + k) % 2 ^ 23) + j) := by
  have hlt : (blockNumber (lba * 512).toUInt32 512 k).toNat < 2 ^ 23 := by
    rw [toNat_blockNumber]
    exact Nat.mod_lt _ (by decide)
  unfold Card.blockBytes
  rw [offset_blockAddress card hlt, toNat_blockNumber]

/-! ## The buffer after a transfer -/

/-- `n` runs of 512 bytes, `stride` apart, the `k`-th with the bytes `f k`;
between them nothing is written. -/
def slices (stride n : ℕ) (f : ℕ → ℕ → UInt8) : Buffer := fun i =>
  if i / stride < n ∧ i % stride < 512 then some (f (i / stride) (i % stride)) else none

theorem slices_zero (stride : ℕ) (f : ℕ → ℕ → UInt8) : slices stride 0 f = .untouched := by
  funext i
  exact if_neg fun h => absurd h.1 (Nat.not_lt_zero _)

/-- One more run. -/
theorem put_slices {stride : ℕ} (h : 512 ≤ stride) (n : ℕ) (f : ℕ → ℕ → UInt8) :
    (slices stride n f).put (stride * n) 512 (f n) = slices stride (n + 1) f := by
  funext i
  have hpos : 0 < stride := Nat.lt_of_lt_of_le (by decide) h
  have hdecomp : stride * (i / stride) + i % stride = i := Nat.div_add_mod i stride
  have hmod : i % stride < stride := Nat.mod_lt i hpos
  unfold slices
  by_cases hmem : stride * n ≤ i ∧ i < stride * n + 512
  · have hdiv : i / stride = n :=
      Nat.div_eq_of_lt_le (by rw [Nat.mul_comm]; exact hmem.1)
        (by rw [Nat.mul_comm, Nat.mul_succ]; omega)
    rw [hdiv] at hdecomp
    rw [Buffer.put_of_mem _ hmem.1 hmem.2, hdiv, if_pos ⟨Nat.lt_succ_self n, by omega⟩]
    exact congrArg (fun j => some (f n j)) (by omega)
  · rw [Buffer.put_of_not_mem _ hmem]
    -- outside the new run, the two conditions agree
    refine if_congr ⟨fun h => ⟨Nat.lt_succ_of_lt h.1, h.2⟩, fun h => ⟨?_, h.2⟩⟩ rfl rfl
    refine Nat.lt_of_le_of_ne (Nat.lt_succ_iff.mp h.1) fun hn => hmem ?_
    rw [hn] at hdecomp
    exact ⟨by omega, by omega⟩

/-- A byte inside the `k`-th run. -/
theorem slices_of_lt {stride n k j : ℕ} (f : ℕ → ℕ → UInt8) (h : 512 ≤ stride) (hk : k < n)
    (hj : j < 512) : slices stride n f (stride * k + j) = some (f k j) := by
  have hpos : 0 < stride := Nat.lt_of_lt_of_le (by decide) h
  have hlt : j < stride := Nat.lt_of_lt_of_le hj h
  have hdiv : (stride * k + j) / stride = k := by
    rw [Nat.mul_add_div hpos, Nat.div_eq_of_lt hlt, Nat.add_zero]
  have hmod : (stride * k + j) % stride = j := by
    rw [Nat.mul_add_mod, Nat.mod_eq_of_lt hlt]
  unfold slices
  rw [hdiv, hmod, if_pos ⟨hk, hj⟩]

/-- A byte behind a run and before the next. -/
theorem slices_of_gap {stride n i : ℕ} (f : ℕ → ℕ → UInt8) (h : 512 ≤ i % stride) :
    slices stride n f i = none :=
  if_neg fun hmem => absurd hmem.2 (Nat.not_lt_of_le h)

/-! ## Requests whose block reads succeed -/

theorem toNat_mod_512 {bufferSize : UInt32} (h : bufferSize % 512 = 0) :
    bufferSize.toNat % 512 = 0 := by
  have hmod := congrArg UInt32.toNat h
  rw [UInt32.toNat_mod] at hmod
  exact hmod

/-- The bytes of the blocks of a request. -/
def requestBytes (card : Card) (dataAddr size : UInt32) (k : ℕ) : ℕ → UInt8 :=
  card.blockBytes (blockAddress card.highCapacity (blockNumber dataAddr size k))

/-- A call of `read_a_block` that succeeds writes its block into the buffer. -/
theorem readInto_success {card : Card} {b : UInt32} {dst : ℕ} {io io' : Io Controller}
    (hcard : io.device.card = card)
    (h : readInto (readABlock card.highCapacity) b dst io = (some true, io')) :
    io'.device.card = card
      ∧ io'.buffer = io.buffer.put dst 512 (card.blockBytes (blockAddress card.highCapacity b))
      ∧ io'.device.argument = blockAddress card.highCapacity b := by
  unfold readInto at h
  split at h
  · next ok words device hread =>
    obtain ⟨rfl, rfl⟩ : ok = true ∧ _ = io' := by simpa [Prod.ext_iff] using h
    obtain ⟨hwords, hsame, hargument⟩ := readABlock_words hread
    refine ⟨hsame.trans hcard, ?_, hargument⟩
    show io.buffer.storeWords dst words = _
    rw [hwords, hcard, Buffer.storeWords_of_bytes]
  · exact absurd (congrArg Prod.fst h) (by simp)

/-- A call of `read_a_block` that returns adds its result to the results. -/
theorem readInto_results {σ : Type} {read : BlockReader σ} {b : UInt32} {dst : ℕ} {io io' : Io σ}
    {ok : Bool} (h : readInto read b dst io = (some ok, io')) :
    io'.results = io.results ++ [ok] := by
  unfold readInto at h
  split at h
  · next ok' words device hread =>
    obtain ⟨rfl, rfl⟩ : ok' = ok ∧ _ = io' := by simpa [Prod.ext_iff] using h
    rfl
  · exact absurd (congrArg Prod.fst h) (by simp)

/-- **Reading blocks without a failure** fills one run of the buffer after the
other. The invariant is the buffer after `m` blocks. -/
theorem readBlocks_success {card : Card} {dataAddr size : UInt32} {stride : ℕ}
    (hstride : 512 ≤ stride) {m n left : ℕ} {io io' : Io Controller}
    (hcard : io.device.card = card)
    (hbuf : io.buffer = slices stride m (requestBytes card dataAddr size))
    (h : readBlocks (readABlock card.highCapacity) stride
        ((List.range' m n).map (blockNumber dataAddr size)) (stride * m) io = (some left, io'))
    (hall : ∀ ok ∈ io'.results, ok = true) :
    io'.buffer = slices stride (m + n) (requestBytes card dataAddr size) := by
  induction n generalizing m io with
  | zero =>
    obtain ⟨-, rfl⟩ : 0 = left ∧ io = io' := by simpa [readBlocks, Prod.ext_iff] using h
    exact hbuf
  | succ n ih =>
    rw [List.range'_succ, List.map_cons, readBlocks] at h
    obtain ⟨ok, io₁, hread, hrest⟩ := Routine.bind_eq_some_iff.mp h
    cases ok with
    | false =>
      obtain ⟨-, rfl⟩ : _ = left ∧ io₁ = io' := by simpa [Prod.ext_iff] using hrest
      have hmem : false ∈ io₁.results := by
        rw [readInto_results hread]
        exact List.mem_append_right _ (List.mem_singleton_self false)
      exact Bool.noConfusion (hall false hmem)
    | true =>
      obtain ⟨hcard₁, hbuf₁, -⟩ := readInto_success hcard hread
      rw [hbuf] at hbuf₁
      have hrun := ih hcard₁ (hbuf₁.trans (put_slices hstride m _)) hrest
      rw [Nat.add_assoc, Nat.add_comm 1 n] at hrun
      exact hrun

/-- **A run of an accepted request in which every block read succeeded**: it
starts from the controller `c` and leaves `io'`. -/
structure SuccessfulRun (media : Media) (lba : UInt64) (bufferSize : UInt32) (c : Controller)
    (io' : Io Controller) : Prop where
  returned : ∃ status, mmchsReadBlocks media (readABlock c.card.highCapacity) lba bufferSize true
    (.start c) = (some status, io')
  succeeded : ∀ ok ∈ io'.results, ok = true

section Run

variable {media : Media} {lba : UInt64} {bufferSize : UInt32} {c : Controller}
  {io' : Io Controller}

/-- The blocks of a request are read one after the other. -/
theorem SuccessfulRun.readBlocks_returned (h : SuccessfulRun media lba bufferSize c io')
    (h₀ : bufferSize ≠ 0) (hdiv : bufferSize % media.blockSize = 0) :
    ∃ left, readBlocks (readABlock c.card.highCapacity) media.blockSize.toNat
        ((List.range' 0 (bufferSize / media.blockSize).toNat).map
          (blockNumber (lba * 512).toUInt32 media.blockSize)) 0 (.start c) = (some left, io') := by
  obtain ⟨status, hrun⟩ := h.returned
  rw [mmchsReadBlocks_eq media _ lba h₀ hdiv] at hrun
  obtain ⟨left, io₁, hread, hrest⟩ := Routine.bind_eq_some_iff.mp hrun
  obtain ⟨-, rfl⟩ : _ = status ∧ io₁ = io' := by simpa [Prod.ext_iff] using hrest
  rw [blockNumbers_eq] at hread
  exact ⟨left, hread⟩

/-- **The buffer after a request whose block reads all succeeded**, for any
block size of 512 and more: a run of 512 bytes for each block, the block size
apart. -/
theorem transfer_of_success (hsize : 512 ≤ media.blockSize.toNat) (h₀ : bufferSize ≠ 0)
    (hdiv : bufferSize % media.blockSize = 0) (h : SuccessfulRun media lba bufferSize c io') :
    io'.buffer = slices media.blockSize.toNat (bufferSize / media.blockSize).toNat
      (requestBytes c.card (lba * 512).toUInt32 media.blockSize) := by
  obtain ⟨left, hread⟩ := h.readBlocks_returned h₀ hdiv
  have hcard : (Io.start c).device.card = c.card := rfl
  have hrun := readBlocks_success hsize (m := 0) hcard (slices_zero _ _).symm hread h.succeeded
  rw [Nat.zero_add] at hrun
  exact hrun

/-- The buffer with 512-byte blocks. -/
theorem transfer_of_512 (hsize : media.blockSize = 512) (h₀ : bufferSize ≠ 0)
    (hdiv : bufferSize % 512 = 0) (h : SuccessfulRun media lba bufferSize c io') :
    io'.buffer
      = slices 512 (bufferSize.toNat / 512) (requestBytes c.card (lba * 512).toUInt32 512) := by
  have hbuffer := transfer_of_success (by rw [hsize]; decide) h₀ (by rw [hsize]; exact hdiv) h
  rw [hsize, UInt32.toNat_div] at hbuffer
  exact hbuffer

/-- With 512-byte blocks: every byte of the request is written, from the block
of its LBA modulo 2^23. -/
theorem buffer_of_success (hsize : media.blockSize = 512) (h₀ : bufferSize ≠ 0)
    (hdiv : bufferSize % 512 = 0) (h : SuccessfulRun media lba bufferSize c io') {k j : ℕ}
    (hk : k < bufferSize.toNat / 512) (hj : j < 512) :
    io'.buffer (512 * k + j)
      = some (c.card.bytes (512 * ((lba.toNat + k) % 2 ^ 23) + j)) := by
  rw [transfer_of_512 hsize h₀ hdiv h, slices_of_lt _ (Nat.le_refl 512) hk hj]
  exact congrArg some (blockBytes_blockNumber c.card lba k j)

/-- With 512-byte blocks: nothing is written past the request. -/
theorem buffer_past_request (hsize : media.blockSize = 512) (h₀ : bufferSize ≠ 0)
    (hdiv : bufferSize % 512 = 0) (h : SuccessfulRun media lba bufferSize c io') {i : ℕ}
    (hi : bufferSize.toNat ≤ i) : io'.buffer i = none := by
  rw [transfer_of_512 hsize h₀ hdiv h]
  exact if_neg fun hmem => absurd hmem.1 (Nat.not_lt_of_le (Nat.div_le_div_right hi))

/-- The argument a request of one block leaves. -/
theorem argument_of_success (hsize : media.blockSize = 512)
    (h : SuccessfulRun media lba 512 c io') (hcap : c.card.highCapacity = true) :
    io'.device.argument.toNat = lba.toNat % 2 ^ 23 := by
  obtain ⟨left, hread⟩ := h.readBlocks_returned (by decide) (by rw [hsize]; rfl)
  rw [hsize] at hread
  obtain ⟨ok, io₁, hblock, hrest⟩ := Routine.bind_eq_some_iff.mp hread
  have hsame : io₁ = io' := by
    cases ok with
    | true => exact congrArg Prod.snd hrest
    | false => exact congrArg Prod.snd hrest
  subst hsame
  have hok : ok = true := h.succeeded ok (by
    rw [readInto_results hblock]
    exact List.mem_append_right _ (List.mem_singleton_self ok))
  subst hok
  have hcard : (Io.start c).device.card = c.card := rfl
  rw [(readInto_success hcard hblock).2.2, hcap]
  exact toNat_blockNumber lba 0

end Run

/-! ## A request that succeeds -/

/-- A controller with a card that answers `n` block reads without a pause. -/
def Controller.prompt (card : Card) (n : ℕ) : Controller :=
  { Controller.reset with
    card := card
    ticks := (List.replicate n promptTicks).flatten }

/-- Block reads answered without a pause all succeed. -/
theorem readBlocks_of_prompt (highCapacity : Bool) (stride : ℕ) (blocks : List UInt32) (dst : ℕ)
    {io : Io Controller} (hall : ∀ ok ∈ io.results, ok = true)
    (ht : io.device.ticks = (List.replicate blocks.length promptTicks).flatten)
    (hc : io.device.errors = .none) :
    ∃ io', readBlocks (readABlock highCapacity) stride blocks dst io = (some 0, io')
      ∧ ∀ ok ∈ io'.results, ok = true := by
  induction blocks generalizing dst io with
  | nil => exact ⟨io, rfl, hall⟩
  | cons b bs ih =>
    rw [List.length_cons, List.replicate_succ, List.flatten_cons] at ht
    obtain ⟨words, c', hblock, ht', hc'⟩ :=
      readABlock_of_delivers highCapacity b delivers_promptTicks ht hc
    let io₁ : Io Controller := ⟨c', io.buffer.storeWords dst words, io.results ++ [true]⟩
    have hread : readInto (readABlock highCapacity) b dst io = (some true, io₁) := by
      unfold readInto
      rw [hblock]
    have hall₁ : ∀ ok ∈ io₁.results, ok = true := by
      intro ok hok
      rcases List.mem_append.mp hok with hok | hok
      · exact hall ok hok
      · exact List.mem_singleton.mp hok
    obtain ⟨io', hrest, hall'⟩ := ih (dst + stride) hall₁ ht' hc'
    unfold readBlocks
    rw [Routine.bind_of_returns hread]
    exact ⟨io', hrest, hall'⟩

/-- **Every accepted request can succeed**, whatever the card. -/
theorem exists_success {media : Media} (card : Card) (lba : UInt64) {bufferSize : UInt32}
    (h₀ : bufferSize ≠ 0) (hdiv : bufferSize % media.blockSize = 0) :
    ∃ io', SuccessfulRun media lba bufferSize
      (.prompt card (bufferSize / media.blockSize).toNat) io' := by
  let io : Io Controller := .start (.prompt card (bufferSize / media.blockSize).toNat)
  have hnone : ∀ ok ∈ io.results, ok = true := fun ok hok => absurd hok List.not_mem_nil
  obtain ⟨io', hread, hall⟩ := readBlocks_of_prompt card.highCapacity media.blockSize.toNat
    (blockNumbers (lba * 512).toUInt32 media.blockSize (bufferSize / media.blockSize).toNat) 0
    hnone (by rw [length_blockNumbers]; rfl) rfl
  refine ⟨io', ⟨.efiSuccess, ?_⟩, hall⟩
  rw [mmchsReadBlocks_eq media _ lba h₀ hdiv]
  exact Routine.bind_of_returns hread

/-- A card whose bytes are zero but for block `b`. -/
def Card.marked (highCapacity : Bool) (capacity b : ℕ) : Card where
  highCapacity := highCapacity
  capacity := capacity
  bytes := fun i => if i / 512 = b then 1 else 0
  other := fun _ _ => 0

theorem Card.bytes_marked_self (highCapacity : Bool) (capacity b : ℕ) :
    (Card.marked highCapacity capacity b).bytes (512 * b) = 1 :=
  if_pos (Nat.mul_div_cancel_left b (by decide))

theorem Card.bytes_marked_of_ne {highCapacity : Bool} {capacity b b' : ℕ} (h : b' ≠ b) :
    (Card.marked highCapacity capacity b).bytes (512 * b') = 0 := by
  refine if_neg ?_
  rw [Nat.mul_div_cancel_left b' (by decide)]
  exact h

/-- **Past block 2^23, another block is read**: a request that ends there can
succeed and bring the bytes of a block that was not asked for. -/
theorem exists_wrong_block {media : Media} (hsize : media.blockSize = 512) (lba : UInt64)
    {bufferSize : UInt32} (h₀ : bufferSize ≠ 0) (hdiv : bufferSize % 512 = 0)
    (hfar : 2 ^ 23 < lba.toNat + bufferSize.toNat / 512) (highCapacity : Bool) :
    ∃ c io', c.card.highCapacity = highCapacity
      ∧ lba.toNat + bufferSize.toNat / 512 ≤ c.card.capacity
      ∧ SuccessfulRun media lba bufferSize c io'
      ∧ ∃ k < bufferSize.toNat / 512, io'.buffer (512 * k) = some 0
        ∧ c.card.bytes (512 * (lba.toNat + k)) = 1 := by
  have hn : 0 < bufferSize.toNat / 512 := by
    have hmod := toNat_mod_512 hdiv
    have hne : bufferSize.toNat ≠ 0 := fun h => h₀ (UInt32.toNat_inj.mp h)
    omega
  -- the last block of the request is the marked one
  let last := bufferSize.toNat / 512 - 1
  let card := Card.marked highCapacity (lba.toNat + bufferSize.toNat / 512) (lba.toNat + last)
  have hdiv' : bufferSize % media.blockSize = 0 := by rw [hsize]; exact hdiv
  obtain ⟨io', hrun⟩ := exists_success card lba h₀ hdiv'
  have hother : (lba.toNat + last) % 2 ^ 23 ≠ lba.toNat + last := by
    have hlt := Nat.mod_lt (lba.toNat + last) (show 2 ^ 23 > 0 by decide)
    have hge : 2 ^ 23 ≤ lba.toNat + last := by
      show 2 ^ 23 ≤ lba.toNat + (bufferSize.toNat / 512 - 1)
      omega
    exact Nat.ne_of_lt (Nat.lt_of_lt_of_le hlt hge)
  refine ⟨_, io', rfl, Nat.le_refl _, hrun, last, Nat.sub_lt hn (by decide), ?_,
    Card.bytes_marked_self _ _ _⟩
  have hbuf := buffer_of_success hsize h₀ hdiv hrun (k := last) (j := 0)
    (Nat.sub_lt hn (by decide)) (by decide)
  rw [Nat.add_zero, Nat.add_zero] at hbuf
  exact hbuf.trans (congrArg some (Card.bytes_marked_of_ne hother))

/-! ## Requests that bring what they asked for -/

/-- On a high-capacity card that holds the requested blocks, a request whose
block reads succeed brings these blocks, one after the other. -/
def BringsBlocks (media : Media) (lba : UInt64) (bufferSize : UInt32) : Prop :=
  ∀ (c : Controller) (io' : Io Controller), c.card.highCapacity = true →
    lba.toNat + bufferSize.toNat / 512 ≤ c.card.capacity →
    SuccessfulRun media lba bufferSize c io' →
    ∀ k < bufferSize.toNat / 512, ∀ j < 512,
      io'.buffer (512 * k + j) = some (c.card.bytes (512 * (lba.toNat + k) + j))

/-- On high-capacity cards that hold them, the blocks at two LBAs are never
fetched with the same argument. -/
def FetchedApart (media : Media) (lba lba' : UInt64) : Prop :=
  ∀ (c c' : Controller) (io io' : Io Controller),
    c.card.highCapacity = true → c'.card.highCapacity = true →
    lba.toNat < c.card.capacity → lba'.toNat < c'.card.capacity →
    SuccessfulRun media lba 512 c io → SuccessfulRun media lba' 512 c' io' →
    io.device.argument ≠ io'.device.argument

/-- **When a request brings its blocks**: exactly when it ends at block 2^23
or before; and two LBAs are fetched apart exactly when they differ modulo
2^23. -/
theorem transfer_iff {media : Media} (hsize : media.blockSize = 512) (lba : UInt64)
    {bufferSize : UInt32} (h₀ : bufferSize ≠ 0) (hdiv : bufferSize % 512 = 0) :
    (BringsBlocks media lba bufferSize ↔ lba.toNat + bufferSize.toNat / 512 ≤ 2 ^ 23)
      ∧ ∀ lba' : UInt64, FetchedApart media lba lba'
        ↔ lba.toNat % 2 ^ 23 ≠ lba'.toNat % 2 ^ 23 := by
  refine ⟨⟨fun h => ?_, fun hnear => ?_⟩, fun lba' => ⟨fun h hsame => ?_, fun hne => ?_⟩⟩
  · by_contra hfar
    obtain ⟨c, io', hcap, hin, hrun, k, hk, hgot, hwant⟩ :=
      exists_wrong_block hsize lba h₀ hdiv (Nat.lt_of_not_le hfar) true
    have hbrings := h c io' hcap hin hrun k hk 0 (by decide)
    rw [Nat.add_zero, Nat.add_zero, hgot, hwant] at hbrings
    exact absurd hbrings (by decide)
  · intro c io' _ _ hrun k hk j hj
    rw [buffer_of_success hsize h₀ hdiv hrun hk hj, Nat.mod_eq_of_lt (by omega)]
  · -- the two blocks on one card, fetched one after the other
    let card := Card.marked true (lba.toNat + lba'.toNat + 1) 0
    have hone : (512 : UInt32) % media.blockSize = 0 := by rw [hsize]; rfl
    obtain ⟨io, hrun⟩ := exists_success card lba (by decide) hone
    obtain ⟨io', hrun'⟩ := exists_success card lba' (by decide) hone
    have hin : lba.toNat < card.capacity := Nat.lt_succ_of_le (Nat.le_add_right _ _)
    have hin' : lba'.toNat < card.capacity := Nat.lt_succ_of_le (Nat.le_add_left _ _)
    refine h _ _ io io' rfl rfl hin hin' hrun hrun' ?_
    apply UInt32.toNat_inj.mp
    rw [argument_of_success hsize hrun rfl, argument_of_success hsize hrun' rfl]
    exact hsame
  · intro c c' io io' hcap hcap' _ _ hrun hrun' hsame
    have hargument := congrArg UInt32.toNat hsame
    rw [argument_of_success hsize hrun hcap, argument_of_success hsize hrun' hcap'] at hargument
    exact hne hargument

/-- The two blocks before block 2^23. -/
theorem transfer_last_two :
    Media.initial.blockSize = 512 ∧ (1024 : UInt32) ≠ 0 ∧ (1024 : UInt32) % 512 = 0
      ∧ BringsBlocks .initial 0x7ffffe 1024 :=
  ⟨rfl, by decide, by decide,
    (transfer_iff (show Media.initial.blockSize = 512 from rfl) 0x7ffffe
      (by decide) (by decide)).1.mpr (by decide)⟩

/-- A request for block 2^23 of a card of 2^24 blocks succeeds, and brings
block 0. -/
theorem block_past_four_gib_not_brought :
    Media.initial.blockSize = 512 ∧ (512 : UInt32) ≠ 0 ∧ (512 : UInt32) % 512 = 0
      ∧ (∃ io', SuccessfulRun .initial 0x800000 512
          (.prompt (.marked true (2 ^ 24) (2 ^ 23)) 1) io'
        ∧ io'.buffer 0 = some ((Card.marked true (2 ^ 24) (2 ^ 23)).bytes 0)
        ∧ io'.buffer 0 ≠ some ((Card.marked true (2 ^ 24) (2 ^ 23)).bytes (512 * 2 ^ 23)))
      ∧ ¬ BringsBlocks .initial 0x800000 512 := by
  obtain ⟨io', hrun⟩ := exists_success (.marked true (2 ^ 24) (2 ^ 23)) 0x800000
    (show (512 : UInt32) ≠ 0 by decide)
    (show (512 : UInt32) % Media.initial.blockSize = 0 by decide)
  have hgot : io'.buffer 0 = some ((Card.marked true (2 ^ 24) (2 ^ 23)).bytes 0) :=
    buffer_of_success (k := 0) (j := 0) rfl (by decide) (by decide) hrun (by decide) (by decide)
  have hother :
      io'.buffer 0 ≠ some ((Card.marked true (2 ^ 24) (2 ^ 23)).bytes (512 * 2 ^ 23)) := by
    rw [hgot]
    decide
  refine ⟨rfl, by decide, by decide, ⟨io', hrun, hgot, hother⟩, fun h => hother ?_⟩
  exact h _ io' rfl (by decide) hrun 0 (by decide) 0 (by decide)

/-- A request whose block reads succeed writes exactly its bytes, each with the
card byte at the offset of its LBA. -/
def TransfersExactly (media : Media) (lba : UInt64) (bufferSize : UInt32) : Prop :=
  ∀ (c : Controller) (io' : Io Controller), SuccessfulRun media lba bufferSize c io' →
    ∀ i, io'.buffer i = if i < bufferSize.toNat then
      some (c.card.bytes (lba.toNat * media.blockSize.toNat + i)) else none

/-- A request for no bytes writes none. -/
theorem transfersExactly_zero (media : Media) (lba : UInt64) : TransfersExactly media lba 0 := by
  intro c io' h i
  obtain ⟨status, hrun⟩ := h.returned
  have hzero : (0 : UInt32) % media.blockSize = 0 := UInt32.zero_mod
  unfold mmchsReadBlocks at hrun
  rw [if_neg (not_not_intro hzero)] at hrun
  obtain rfl : .start c = io' := congrArg Prod.snd hrun
  rfl

/-- **With 512-byte blocks**, a request transfers exactly its bytes when it
ends at block 2^23 or before, and only then. -/
theorem transfersExactly_iff_of_512 {media : Media} (hsize : media.blockSize = 512) (lba : UInt64)
    {bufferSize : UInt32} (h₀ : bufferSize ≠ 0) (hdiv : bufferSize % 512 = 0) :
    TransfersExactly media lba bufferSize
      ↔ lba.toNat + bufferSize.toNat / 512 ≤ 2 ^ 23 := by
  have hstride : media.blockSize.toNat = 512 := by rw [hsize]; rfl
  have hmod := toNat_mod_512 hdiv
  constructor
  · intro h
    by_contra hfar
    obtain ⟨c, io', -, -, hrun, k, hk, hgot, hwant⟩ :=
      exists_wrong_block hsize lba h₀ hdiv (Nat.lt_of_not_le hfar) true
    have hexact := h c io' hrun (512 * k)
    rw [if_pos (by omega), hstride, hgot, Nat.mul_comm lba.toNat, ← Nat.mul_add, hwant] at hexact
    exact absurd hexact (by decide)
  · intro hnear c io' hrun i
    by_cases hi : i < bufferSize.toNat
    · have hbyte := buffer_of_success hsize h₀ hdiv hrun (k := i / 512) (j := i % 512)
        (by omega) (Nat.mod_lt i (by decide))
      rw [Nat.div_add_mod, Nat.mod_eq_of_lt (by omega), Nat.mul_add, Nat.add_assoc,
        Nat.div_add_mod] at hbyte
      rw [hbyte, if_pos hi, hstride, Nat.mul_comm]
    · rw [if_neg hi]
      exact buffer_past_request hsize h₀ hdiv hrun (Nat.le_of_not_lt hi)

/-- **With longer blocks no request is served**: behind the first 512 bytes of
each block nothing is written. -/
theorem not_transfersExactly_of_gt {media : Media} (hsize : 512 < media.blockSize.toNat)
    (lba : UInt64) {bufferSize : UInt32} (h₀ : bufferSize ≠ 0)
    (hdiv : bufferSize % media.blockSize = 0) : ¬ TransfersExactly media lba bufferSize := by
  intro h
  obtain ⟨io', hrun⟩ := exists_success (.marked true 0 0) lba h₀ hdiv
  have hgap : io'.buffer 512 = none := by
    rw [transfer_of_success (Nat.le_of_lt hsize) h₀ hdiv hrun]
    exact slices_of_gap _ (Nat.le_of_eq (Nat.mod_eq_of_lt hsize).symm)
  have hin : 512 < bufferSize.toNat := by
    obtain ⟨n, -, hbuffer⟩ := blocks_pos h₀ hdiv
    rw [hbuffer]
    exact Nat.lt_of_lt_of_le hsize (Nat.le_mul_of_pos_left _ (Nat.succ_pos n))
  have hexact := h _ io' hrun 512
  rw [hgap, if_pos hin] at hexact
  exact absurd hexact (by simp)

/-- Of the lengths from 9 to 11, only 9 gives 512-byte blocks. -/
theorem blockSize_of_readBlLen {csd : Response}
    (hlen : 9 ≤ readBlLen csd ∧ readBlLen csd ≤ 11) :
    readBlLen csd = 9
      ∨ (readBlLen csd ≠ 9 ∧ 512 < ((1 : UInt32) <<< readBlLen csd).toNat) := by
  have hlow : 9 ≤ (readBlLen csd).toNat := UInt32.le_iff_toNat_le.mp hlen.1
  have hhigh : (readBlLen csd).toNat ≤ 11 := UInt32.le_iff_toNat_le.mp hlen.2
  obtain h | h | h : (readBlLen csd).toNat = 9 ∨ (readBlLen csd).toNat = 10
      ∨ (readBlLen csd).toNat = 11 := by omega
  · exact .inl (UInt32.toNat_inj.mp h)
  · have hten : readBlLen csd = 10 := UInt32.toNat_inj.mp h
    rw [hten]
    exact .inr (by decide)
  · have heleven : readBlLen csd = 11 := UInt32.toNat_inj.mp h
    rw [heleven]
    exact .inr (by decide)

/-- **When a request transfers exactly its bytes**, for every geometry a CSD
gives: when it is empty, or the blocks are 512 bytes long and it ends at block
2^23 or before. -/
theorem transfer_exact_iff {csd : Response} {media media' : Media}
    (hversion : csdStructure csd = 0 ∨ csdStructure csd = 1)
    (hlen : 9 ≤ readBlLen csd ∧ readBlLen csd ≤ 11) (hcsd : mmcDecodeCsd csd media = some media')
    (lba : UInt64) {bufferSize : UInt32} (hdiv : bufferSize % media'.blockSize = 0) :
    TransfersExactly media' lba bufferSize
      ↔ bufferSize = 0
        ∨ (readBlLen csd = 9 ∧ lba.toNat + bufferSize.toNat / 512 ≤ 2 ^ 23) := by
  have hsize : media'.blockSize = 1 <<< readBlLen csd := by
    obtain ⟨decoded, hdecoded, hsize⟩ := mmcDecodeCsd_blockSize hversion media
    rw [Option.some.inj (hcsd.symm.trans hdecoded)]
    exact hsize
  by_cases h₀ : bufferSize = 0
  · subst h₀
    exact iff_of_true (transfersExactly_zero media' lba) (.inl rfl)
  · rw [or_iff_right h₀]
    rcases blockSize_of_readBlLen hlen with h | ⟨hne, hlong⟩
    · have h512 : media'.blockSize = 512 := by rw [hsize, h]; rfl
      rw [h512] at hdiv
      rw [h, transfersExactly_iff_of_512 h512 lba h₀ hdiv]
      exact (and_iff_right rfl).symm
    · rw [← hsize] at hlong
      exact iff_of_false (not_transfersExactly_of_gt hlong lba h₀ hdiv) fun h => hne h.1

/-- A version 1 CSD with the given `READ_BL_LEN`, and every other field zero. -/
def csdOfLength (len : UInt32) : Response := fun i => if i = resp1 then len <<< 16 else 0

/-- A request of 512-byte blocks that ends at block 2^23. -/
theorem transfer_exact_length_nine :
    TransfersExactly ⟨512, 4, by decide⟩ 0x7fffff 512 :=
  (transfer_exact_iff (show csdStructure (csdOfLength 9) = 0 ∨ csdStructure (csdOfLength 9) = 1
    by decide) (by decide) (show mmcDecodeCsd (csdOfLength 9) .initial = some _ from rfl)
    0x7fffff (by decide)).mpr (.inr ⟨by decide, by decide⟩)

/-- With `READ_BL_LEN` 10 the second half of a block is left unwritten. -/
theorem half_of_kilobyte_block_unwritten :
    csdStructure (csdOfLength 10) = 0 ∧ readBlLen (csdOfLength 10) = 10
      ∧ mmcDecodeCsd (csdOfLength 10) .initial = some ⟨1024, 4, by decide⟩
      ∧ ¬ TransfersExactly ⟨1024, 4, by decide⟩ 0 1024 :=
  ⟨by decide, by decide, rfl, not_transfersExactly_of_gt (by decide) 0 (by decide) (by decide)⟩

end SdCardDxe
