import HtcLeo.Lib.Word
import Mathlib.Data.Set.Basic

/-!
# Memory and what a routine touches of it

A `Memory` has a few regions of bytes under 32-bit addresses and keeps a
record of every access made to them, so that a statement can say which
addresses a routine read or wrote and not only what it left there. Addresses
wrap: `span address n` are the `n` addresses from `address` on, modulo the
width of a word, and `CopyMem` copies as if the source were read before
anything is written.

`Memory.Within` is the footprint of a routine on one region: every access
lies in one set of addresses, every write in a second, and outside the second
the bytes are what they were. Each primitive keeps it when its own span lies
in the sets, which is all a routine built from them has to show.
-/

/-! ## Spans of addresses -/

/-- The `n` addresses from `address` on. -/
def span (address : UInt32) (n : ℕ) : Set UInt32 := fun x => (x - address).toNat < n

theorem mem_span {x address : UInt32} {n : ℕ} :
    x ∈ span address n ↔ ∃ k < n, x = address + UInt32.ofNat k := by
  constructor
  · intro h
    refine ⟨(x - address).toNat, h, ?_⟩
    rw [UInt32.ofNat_toNat, UInt32.add_comm, UInt32.sub_add_cancel]
  · rintro ⟨k, hk, rfl⟩
    show (address + UInt32.ofNat k - address).toNat < n
    rw [UInt32.add_comm, UInt32.add_sub_cancel, UInt32.toNat_ofNat']
    exact lt_of_le_of_lt (Nat.mod_le _ _) hk

/-- A stretch of a span is part of it. -/
theorem span_subset_span {base : UInt32} {k n size : ℕ} (h : k + n ≤ size) :
    span (base + UInt32.ofNat k) n ⊆ span base size := by
  intro x hx
  obtain ⟨l, hl, rfl⟩ := mem_span.mp hx
  refine mem_span.mpr ⟨k + l, by omega, ?_⟩
  rw [UInt32.ofNat_add, UInt32.add_assoc]

/-! ## The memory -/

section

variable {ρ : Type}

/-- One access: the region, whether it writes, and the addresses. -/
structure Access (ρ : Type) where
  region : ρ
  write : Bool
  address : UInt32
  length : ℕ
  deriving DecidableEq

/-- **The memory of a program**, with the accesses made to it so far. -/
structure Memory (ρ : Type) where
  bytes : ρ → UInt32 → UInt8
  accesses : List (Access ρ)

namespace Memory

/-- Read `n` bytes: byte `k` of them, and the memory with the access recorded. -/
def load (m : Memory ρ) (region : ρ) (address : UInt32) (n : ℕ) : (ℕ → UInt8) × Memory ρ :=
  (fun k => m.bytes region (address + UInt32.ofNat k),
    { m with accesses := m.accesses ++ [⟨region, false, address, n⟩] })

variable [DecidableEq ρ]

/-- Write the `n` bytes `f 0`, `f 1`, …. -/
def store (m : Memory ρ) (region : ρ) (address : UInt32) (n : ℕ) (f : ℕ → UInt8) : Memory ρ where
  bytes r x :=
    if r = region ∧ (x - address).toNat < n then f (x - address).toNat else m.bytes r x
  accesses := m.accesses ++ [⟨region, true, address, n⟩]

/-- `*(UINT8*) address`. -/
def read8 (m : Memory ρ) (region : ρ) (address : UInt32) : UInt8 × Memory ρ :=
  let loaded := m.load region address 1
  (loaded.1 0, loaded.2)

/-- `*(UINT32*) address`. -/
def read32 (m : Memory ρ) (region : ρ) (address : UInt32) : UInt32 × Memory ρ :=
  let loaded := m.load region address 4
  (Word.ofBytes loaded.1, loaded.2)

/-- `*(UINT8*) address = value`. -/
def write8 (m : Memory ρ) (region : ρ) (address : UInt32) (value : UInt8) : Memory ρ :=
  m.store region address 1 fun _ => value

/-- `*(UINT16*) address = value`. -/
def write16 (m : Memory ρ) (region : ρ) (address : UInt32) (value : UInt16) : Memory ρ :=
  m.store region address 2 (Word.byte value.toUInt32)

/-- `*(UINT32*) address = value`. -/
def write32 (m : Memory ρ) (region : ρ) (address : UInt32) (value : UInt32) : Memory ρ :=
  m.store region address 4 (Word.byte value)

/-- `CopyMem`: the source is read before the destination is written. -/
def copyMem (m : Memory ρ) (region : ρ) (destination : UInt32) (sourceRegion : ρ)
    (source : UInt32) (n : ℕ) : Memory ρ :=
  let loaded := m.load sourceRegion source n
  loaded.2.store region destination n loaded.1

/-! ## What a write leaves -/

/-- The bytes of a region with `n` of them replaced from `address` on. -/
def overwrite (bytes : UInt32 → UInt8) (address : UInt32) (n : ℕ) (f : ℕ → UInt8) :
    UInt32 → UInt8 :=
  fun x => if (x - address).toNat < n then f (x - address).toNat else bytes x

/-- A write replaces bytes of its own region. -/
theorem bytes_store_self (m : Memory ρ) (region : ρ) (address : UInt32) (n : ℕ) (f : ℕ → UInt8) :
    (m.store region address n f).bytes region = overwrite (m.bytes region) address n f := by
  funext x
  simp [store, overwrite]

/-- A write leaves the other regions. -/
theorem bytes_store_of_ne (m : Memory ρ) {region r : ρ} (h : r ≠ region) (address : UInt32)
    (n : ℕ) (f : ℕ → UInt8) : (m.store region address n f).bytes r = m.bytes r := by
  funext x
  simp [store, h]

/-- The sixteen bits at an address, least significant byte first. -/
def halfAt (bytes : UInt32 → UInt8) (address : UInt32) : UInt16 :=
  UInt16.ofNat ((bytes address).toNat + 256 * (bytes (address + 1)).toNat)

theorem halfAt_congr {bytes bytes' : UInt32 → UInt8} {address : UInt32}
    (hlow : bytes address = bytes' address) (hhigh : bytes (address + 1) = bytes' (address + 1)) :
    halfAt bytes address = halfAt bytes' address := by
  unfold halfAt
  rw [hlow, hhigh]

/-- Sixteen bits, as a number. -/
theorem toNat_halfAt (bytes : UInt32 → UInt8) (address : UInt32) :
    (halfAt bytes address).toNat = (bytes address).toNat + 256 * (bytes (address + 1)).toNat := by
  have hlow := (bytes address).toNat_lt
  have hhigh := (bytes (address + 1)).toNat_lt
  unfold halfAt
  rw [UInt16.toNat_ofNat']
  omega

/-- The bytes of what is at an address. -/
theorem byte_halfAt (bytes : UInt32 → UInt8) (address : UInt32) {b : ℕ} (hb : b < 2) :
    Word.byte (halfAt bytes address).toUInt32 b = bytes (address + UInt32.ofNat b) := by
  have hlow := (bytes address).toNat_lt
  have hhigh := (bytes (address + 1)).toNat_lt
  apply UInt8.toNat_inj.mp
  unfold Word.byte
  rw [UInt8.toNat_ofNat', UInt16.toNat_toUInt32, toNat_halfAt]
  obtain rfl | rfl : b = 0 ∨ b = 1 := by omega
  · rw [show UInt32.ofNat 0 = 0 from rfl, UInt32.add_zero]
    omega
  · rw [show UInt32.ofNat 1 = 1 from rfl]
    omega

/-- What is at an address is known by its two bytes. -/
theorem halfAt_of_bytes {bytes : UInt32 → UInt8} {address : UInt32} {value : UInt16}
    (h : ∀ b < 2, bytes (address + UInt32.ofNat b) = Word.byte value.toUInt32 b) :
    halfAt bytes address = value := by
  have hlt := value.toNat_lt
  have hlow := congrArg UInt8.toNat (h 0 (by decide))
  have hhigh := congrArg UInt8.toNat (h 1 (by decide))
  rw [show UInt32.ofNat 0 = 0 from rfl, UInt32.add_zero] at hlow
  rw [show UInt32.ofNat 1 = 1 from rfl] at hhigh
  unfold Word.byte at hlow hhigh
  rw [UInt8.toNat_ofNat', UInt16.toNat_toUInt32] at hlow hhigh
  apply UInt16.toNat_inj.mp
  rw [toNat_halfAt]
  omega

/-- **What a number of writes leave**: `done` are the writes made so far, of `n`
bytes each, and every byte is one that a write put there, or it is out of reach
of all of them and is what it was. -/
def Written {ι : Type} (before : UInt32 → UInt8) (address : ι → UInt32) (n : ℕ)
    (f : ι → ℕ → UInt8) (done : ι → Prop) (bytes : UInt32 → UInt8) : Prop :=
  ∀ x, (∃ p, done p ∧ (x - address p).toNat < n ∧ bytes x = f p (x - address p).toNat)
    ∨ (∀ p, done p → ¬ (x - address p).toNat < n) ∧ bytes x = before x

section Written

variable {ι : Type} {before bytes : UInt32 → UInt8} {address : ι → UInt32} {n : ℕ}
  {f : ι → ℕ → UInt8} {done done' : ι → Prop}

theorem written_start (h : ∀ p, ¬ done p) : Written before address n f done before :=
  fun _ => .inr ⟨fun p hp => absurd hp (h p), rfl⟩

/-- One more write. -/
theorem Written.overwrite (h : Written before address n f done bytes) {p : ι} {g : ℕ → UInt8}
    (hg : ∀ k < n, g k = f p k) (hdone : ∀ q, done' q ↔ done q ∨ q = p) :
    Written before address n f done' (overwrite bytes (address p) n g) := by
  intro x
  unfold Memory.overwrite
  by_cases hp : (x - address p).toNat < n
  · rw [if_pos hp]
    exact .inl ⟨p, (hdone p).mpr (.inr rfl), hp, hg _ hp⟩
  · rw [if_neg hp]
    rcases h x with ⟨q, hq, hlt, hx⟩ | ⟨hout, hx⟩
    · exact .inl ⟨q, (hdone q).mpr (.inl hq), hlt, hx⟩
    · refine .inr ⟨fun q hq => ?_, hx⟩
      rcases (hdone q).mp hq with hq | rfl
      · exact hout q hq
      · exact hp

/-- The writes done may be described in another way. -/
theorem Written.congr (h : Written before address n f done bytes)
    (hdone : ∀ q, done' q ↔ done q) : Written before address n f done' bytes := by
  intro x
  rcases h x with ⟨q, hq, hlt, hx⟩ | ⟨hout, hx⟩
  · exact .inl ⟨q, (hdone q).mpr hq, hlt, hx⟩
  · exact .inr ⟨fun q hq => hout q ((hdone q).mp hq), hx⟩

/-- A byte that all writes which reach it agree on. -/
theorem Written.eq (h : Written before address n f done bytes) {x : UInt32} {value : UInt8}
    {p : ι} (hp : done p) (hx : (x - address p).toNat < n)
    (hagree : ∀ q, done q → (x - address q).toNat < n → f q (x - address q).toNat = value) :
    bytes x = value := by
  rcases h x with ⟨q, hq, hlt, hbyte⟩ | ⟨hout, -⟩
  · rw [hbyte, hagree q hq hlt]
  · exact absurd hx (hout p hp)

/-- A byte out of reach of every write. -/
theorem Written.eq_before (h : Written before address n f done bytes) {x : UInt32}
    (hx : ∀ q, done q → ¬ (x - address q).toNat < n) : bytes x = before x := by
  rcases h x with ⟨q, hq, hlt, -⟩ | ⟨-, hbyte⟩
  · exact absurd hlt (hx q hq)
  · exact hbyte

end Written

/-! ## Where the accesses lie -/

omit [DecidableEq ρ] in
/-- **Every access lies inside its region**: among the addresses the region has. -/
def AccessesIn (inside : ρ → Set UInt32) (m : Memory ρ) : Prop :=
  ∀ a ∈ m.accesses, span a.address a.length ⊆ inside a.region

omit [DecidableEq ρ] in
/-- One more access, inside its region. -/
theorem AccessesIn.concat {inside : ρ → Set UInt32} {m : Memory ρ} (h : m.AccessesIn inside)
    {a : Access ρ} (ha : span a.address a.length ⊆ inside a.region) (bytes : ρ → UInt32 → UInt8) :
    (Memory.mk bytes (m.accesses ++ [a])).AccessesIn inside := by
  intro b hb
  rcases List.mem_append.mp hb with hb | hb
  · exact h b hb
  · rw [List.mem_singleton.mp hb]
    exact ha

omit [DecidableEq ρ] in
theorem AccessesIn.load {inside : ρ → Set UInt32} {m : Memory ρ} (h : m.AccessesIn inside)
    {region : ρ} {address : UInt32} {n : ℕ} (hspan : span address n ⊆ inside region) :
    (m.load region address n).2.AccessesIn inside :=
  h.concat (a := ⟨region, false, address, n⟩) hspan _

theorem AccessesIn.store {inside : ρ → Set UInt32} {m : Memory ρ} (h : m.AccessesIn inside)
    {region : ρ} {address : UInt32} {n : ℕ} {f : ℕ → UInt8}
    (hspan : span address n ⊆ inside region) :
    (m.store region address n f).AccessesIn inside :=
  h.concat (a := ⟨region, true, address, n⟩) hspan _

/-! ## Footprints -/

omit [DecidableEq ρ] in
/-- **A footprint.** All accesses to a region lie among the `accessible`
addresses and all writes among the `writable`, and outside the writable ones
the region has the bytes it had. -/
structure Within (before : ρ → UInt32 → UInt8) (region : ρ)
    (accessible writable : Set UInt32) (m : Memory ρ) : Prop where
  access : ∀ a ∈ m.accesses, a.region = region → span a.address a.length ⊆ accessible
  write : ∀ a ∈ m.accesses, a.region = region → a.write = true →
    span a.address a.length ⊆ writable
  frame : ∀ x ∉ writable, m.bytes region x = before region x

variable {before : ρ → UInt32 → UInt8} {region : ρ} {accessible writable : Set UInt32}
  {m : Memory ρ}

omit [DecidableEq ρ] in
/-- Before the first access. -/
theorem within_start : (Memory.mk before []).Within before region accessible writable where
  access _ ha := absurd ha List.not_mem_nil
  write _ ha := absurd ha List.not_mem_nil
  frame _ _ := rfl

omit [DecidableEq ρ] in
/-- A read keeps a footprint when it stays among the accessible addresses. -/
theorem Within.load {r : ρ} {address : UInt32} {n : ℕ}
    (h : m.Within before region accessible writable)
    (hspan : r = region → span address n ⊆ accessible) :
    (m.load r address n).2.Within before region accessible writable where
  access a ha hr := by
    rcases List.mem_append.mp ha with ha | ha
    · exact h.access a ha hr
    · rw [List.mem_singleton.mp ha] at hr ⊢
      exact hspan hr
  write a ha hr hw := by
    rcases List.mem_append.mp ha with ha | ha
    · exact h.write a ha hr hw
    · rw [List.mem_singleton.mp ha] at hw
      exact absurd hw Bool.false_ne_true
  frame := h.frame

/-- A write keeps a footprint when it stays among the writable addresses. -/
theorem Within.store {r : ρ} {address : UInt32} {n : ℕ} {f : ℕ → UInt8}
    (h : m.Within before region accessible writable)
    (hspan : r = region → span address n ⊆ accessible ∩ writable) :
    (m.store r address n f).Within before region accessible writable where
  access a ha hr := by
    rcases List.mem_append.mp ha with ha | ha
    · exact h.access a ha hr
    · rw [List.mem_singleton.mp ha] at hr ⊢
      exact fun x hx => (hspan hr hx).1
  write a ha hr hw := by
    rcases List.mem_append.mp ha with ha | ha
    · exact h.write a ha hr hw
    · rw [List.mem_singleton.mp ha] at hr ⊢
      exact fun x hx => (hspan hr hx).2
  frame x hx := by
    have hout : ¬ (region = r ∧ (x - address).toNat < n) := by
      rintro ⟨hr, hlt⟩
      exact hx (hspan hr.symm hlt).2
    show (if region = r ∧ (x - address).toNat < n then _ else m.bytes region x) = _
    rw [if_neg hout]
    exact h.frame x hx

/-- A copy keeps a footprint when its source and its destination stay in it. -/
theorem Within.copyMem {r s : ρ} {destination source : UInt32} {n : ℕ}
    (h : m.Within before region accessible writable)
    (hsource : s = region → span source n ⊆ accessible)
    (hdest : r = region → span destination n ⊆ accessible ∩ writable) :
    (m.copyMem r destination s source n).Within before region accessible writable :=
  (h.load hsource).store hdest

/-- A copy records its write. -/
theorem mem_accesses_copyMem (r s : ρ) (destination source : UInt32) (n : ℕ) :
    ⟨r, true, destination, n⟩ ∈ (m.copyMem r destination s source n).accesses :=
  List.mem_append_right _ (List.mem_singleton_self _)

/-- Accesses recorded before a copy are recorded after it. -/
theorem mem_accesses_of_copyMem {r s : ρ} {destination source : UInt32} {n : ℕ}
    {a : Access ρ} (h : a ∈ m.accesses) :
    a ∈ (m.copyMem r destination s source n).accesses :=
  List.mem_append_left _ (List.mem_append_left _ h)

end Memory

end
