import HtcLeo.BootShim.Machine
import HtcLeo.Lib.Copy
import Mathlib.Algebra.Group.Nat.Defs

/-!
# The relocation of the payload

The shim is put in front of a payload and the two are loaded together, at
whatever address the loader chooses. The payload expects to run at `UefiBase`,
so the shim compares the address it finds the payload at with that one, copies
the payload word by word if they differ, and jumps to `UefiBase`.

The copy goes upwards from the first word to the last, and the loop, the jump
and the literal with the address lie in memory just below the payload. So it
comes right when the payload is at its place already, when the target range
starts in the two words between `UefiSize` and the payload, and when it starts
at or after the end of the payload and ends, counting addresses modulo
`2 ^ 32`, before the second instruction of the loop (`relocates_iff`). When it
starts inside the payload the copy overwrites what it has yet to read, and when
it reaches the loop or the literal the shim loses its own text.
-/

namespace BootShim

open Run Copy

/-! ## The image -/

/-- The text from `_relocate` on, under the offsets in the image. -/
def relocate : UInt32 → Option Instr
  | 0x1018 => some (.adr .r0 .payload)
  | 0x101C => some (.ldrLiteral .r1 .uefiBase)
  | 0x1020 => some (.cmp .r0 .r1)
  | 0x1024 => some (.beq .entry)
  | 0x1028 => some (.ldrLiteral .r2 .uefiSize)
  -- `_CopyLoop`
  | 0x102C => some (.ldrPost .r3 .r0 4)
  | 0x1030 => some (.strPost .r3 .r1 4)
  | 0x1034 => some (.subs .r2 .r2 4)
  | 0x1038 => some (.bgt .copyLoop)
  -- `_Entry`
  | 0x103C => some (.ldrLiteral .r5 .uefiBase)
  | 0x1040 => some (.bx .r5)
  | _ => none

/-- **What the shim is built with**: `UEFI_BASE` and `UEFI_SIZE`, for a payload
of whole words, more than one of them and at most 1 GiB. -/
structure Build where
  uefiBase : UInt32
  uefiSize : UInt32
  base_aligned : 4 ∣ uefiBase.toNat
  size_aligned : 4 ∣ uefiSize.toNat
  size_ge : 8 ≤ uefiSize.toNat
  size_le : uefiSize.toNat ≤ 1073741824

/-- The build of `build_boot_shim.sh`. -/
def buildBootShim : Build where
  uefiBase := 0x2C000000
  uefiSize := 0x00100000
  base_aligned := by decide
  size_aligned := by decide
  size_ge := by decide
  size_le := by decide

/-- The number of words of the payload. -/
def Build.words (b : Build) : ℕ := b.uefiSize.toNat / 4

/-- A word-aligned address at which the image is loaded. -/
structure LoadAddress where
  address : UInt32
  aligned : 4 ∣ address.toNat

/-- The address of a label of the loaded image. -/
def LoadAddress.label (load : LoadAddress) (l : Label) : UInt32 := load.address + l.offset

/-- The address of word `i` from an address on. -/
def wordAt (address : UInt32) (i : ℕ) : UInt32 := UInt32.ofNat (address.toNat + 4 * i)

section

variable (b : Build) (load : LoadAddress)

/-- The words of the payload, where it was loaded. -/
def source (i : ℕ) : UInt32 := wordAt (load.label .payload) i

/-- The words of the payload, where it is expected. -/
def target (i : ℕ) : UInt32 := wordAt b.uefiBase i

/-- The memory with the image in it: any content, but for the two literals. What
it has at the words of `source` is the payload. -/
def loaded (memory : UInt32 → UInt32) : UInt32 → UInt32 :=
  Function.update (Function.update memory (load.label .uefiBase) b.uefiBase)
    (load.label .uefiSize) b.uefiSize

/-- The machine at `_relocate`, with whatever `reset` left in the registers. -/
def start (s : State) : State where
  regs := s.regs
  negative := s.negative
  zero := s.zero
  overflow := s.overflow
  pc := 0x1018
  memory := loaded b load s.memory
  accesses := []

/-- **The payload is relocated**: the shim jumps to `UefiBase`, the words from
there on are those of the payload as it was loaded, and no instruction or
literal of the shim was used after it was written to. -/
def Relocates (s : State) : Prop :=
  ∃ t, Reaches (step load.address relocate) (.running (start b load s)) (.branched b.uefiBase t)
    ∧ (∀ i < b.words, t.memory (target b i) = loaded b load s.memory (source load i))
    ∧ Unspoilt t.accesses

end

/-! ## Addresses -/

theorem toNat_wordAt (address : UInt32) (i : ℕ) :
    (wordAt address i).toNat = (address.toNat + 4 * i) % 2 ^ 32 := UInt32.toNat_ofNat

theorem wordAt_zero (address : UInt32) : wordAt address 0 = address := UInt32.ofNat_toNat

theorem wordAt_succ (address : UInt32) (i : ℕ) : wordAt address (i + 1) = wordAt address i + 4 := by
  unfold wordAt
  rw [Nat.mul_succ, ← Nat.add_assoc, UInt32.ofNat_add]
  rfl

theorem toNat_label (load : LoadAddress) (l : Label) :
    (load.label l).toNat = (load.address.toNat + l.offset.toNat) % 2 ^ 32 := UInt32.toNat_add _ _

/-- The literals are where the image has them. -/
theorem loaded_literals (b : Build) (load : LoadAddress) (m : UInt32 → UInt32) :
    loaded b load m (load.label .uefiBase) = b.uefiBase
      ∧ loaded b load m (load.label .uefiSize) = b.uefiSize := by
  have hne : load.label .uefiBase ≠ load.label .uefiSize := by
    intro heq
    have hload := load.address.toNat_lt
    have heq' := congrArg UInt32.toNat heq
    rw [toNat_label, toNat_label, show Label.uefiBase.offset.toNat = 0x1044 from rfl,
      show Label.uefiSize.offset.toNat = 0x1048 from rfl] at heq'
    omega
  unfold loaded
  rw [Function.update_of_ne hne, Function.update_self, Function.update_self]
  exact ⟨rfl, rfl⟩

/-- The words of the target are distinct. -/
theorem target_injective (b : Build) :
    ∀ i < b.words, ∀ j < b.words, target b i = target b j → i = j := by
  intro i hi j hj heq
  have hsize := b.size_le
  have heq' := congrArg UInt32.toNat heq
  unfold target at heq'
  rw [toNat_wordAt, toNat_wordAt] at heq'
  unfold Build.words at hi hj
  omega

/-! ## The three parts of the run -/

section Run

variable (b : Build) (load : LoadAddress) (m : UInt32 → UInt32)

/-- The targets of the copied words are all that has been written. -/
def Wrote (copied : ℕ) (s : State) : Prop := ∀ a, s.Stored a ↔ ∃ i < copied, a = target b i

/-- **The state in the loop**: where it is, how many words have been copied, and
how many bytes are left to count. The targets of the copied words are all that
has been written, and nothing that was written has been used. -/
structure InLoop (pc : UInt32) (copied left : ℕ) (s : State) : Prop where
  pc : s.pc = pc
  r0 : s.regs .r0 = source load copied
  r1 : s.regs .r1 = target b copied
  r2 : (s.regs .r2).toNat = left
  memory : s.memory = copyWords (source load) (target b) copied m
  wrote : Wrote b copied s
  unspoilt : Unspoilt s.accesses

/-- The state before round `j`, or behind the loop after the last. -/
def AtRound (j : ℕ) : State → Prop :=
  InLoop b load m (if j < b.words then Label.copyLoop.offset else Label.entry.offset) j
    (b.uefiSize.toNat - 4 * j)

/-- **The state at `_Entry`**, with some words copied. -/
structure AtEntry (copied : ℕ) (s : State) : Prop where
  pc : s.pc = Label.entry.offset
  memory : s.memory = copyWords (source load) (target b) copied m
  wrote : Wrote b copied s
  unspoilt : Unspoilt s.accesses

/-- None of the copied words went to one of two addresses. -/
def Spared (x y : UInt32) (copied : ℕ) : Prop := ∀ i < copied, x ≠ target b i ∧ y ≠ target b i

/-- What a round needs: the load and the store have been spared in the earlier
rounds, and the subtraction and the branch in this one, too. -/
def RoundIntact (j : ℕ) : Prop :=
  Spared b (load.address + 0x102C) (load.address + 0x1030) j
    ∧ Spared b (load.address + 0x1034) (load.address + 0x1038) (j + 1)

section Spared

variable {b} {copied : ℕ} {s t : State} {x y : UInt32}

theorem Wrote.not_spared_left (h : Wrote b copied s) (hx : s.Stored x) :
    ¬Spared b x y copied := by
  obtain ⟨i, hi, heq⟩ := (h x).1 hx
  exact fun hspared => (hspared i hi).1 heq

theorem Wrote.not_spared_right (h : Wrote b copied s) (hy : s.Stored y) :
    ¬Spared b x y copied := by
  obtain ⟨i, hi, heq⟩ := (h y).1 hy
  exact fun hspared => (hspared i hi).2 heq

/-- Two addresses that were not written, each at its time. -/
theorem Wrote.spared (h : Wrote b copied s) (h' : Wrote b copied t) (hx : ¬s.Stored x)
    (hy : ¬t.Stored y) : Spared b x y copied :=
  fun i hi => ⟨fun heq => hx ((h x).2 ⟨i, hi, heq⟩), fun heq => hy ((h' y).2 ⟨i, hi, heq⟩)⟩

/-- A fetch or a read writes nothing. -/
theorem Wrote.of_accesses (h : Wrote b copied s) {l : List Access}
    (hl : ∀ a, Access.write a ∉ l) (ht : t.accesses = l ++ s.accesses) : Wrote b copied t := by
  intro a
  rw [← h]
  unfold State.Stored
  rw [ht, List.mem_append]
  exact or_iff_right (hl a)

end Spared

/-- **The comparison** of the place of the payload with `UefiBase`. -/
theorem compare_reaches (s : State) :
    ∃ t, Reaches (step load.address relocate) (.running (start b load s)) (.running t)
      ∧ t.pc = (if load.label .payload = b.uefiBase then Label.entry.offset else 0x1028)
      ∧ t.regs .r0 = load.label .payload
      ∧ t.regs .r1 = b.uefiBase
      ∧ t.memory = loaded b load s.memory
      ∧ Wrote b 0 t
      ∧ Unspoilt t.accesses := by
  have hreach : Reaches (step load.address relocate) (.running (start b load s))
    (.running (start b load s)) := .refl _
  rcases adr_cases hreach (show (start b load s).pc = 0x1018 from rfl) rfl with
    ⟨hstored, -⟩ | ⟨-, s₁, hreach, hpc, hregs₁, hmemory₁, hlog₁⟩
  · exact absurd hstored (List.not_mem_nil)
  rcases ldrLiteral_cases hreach hpc rfl with
    ⟨hstored, -⟩ | ⟨-, s₂, hreach, hpc, hregs₂, hmemory₂, hlog₂⟩
  · simp [State.Stored, hlog₁, start] at hstored
  rcases cmp_cases hreach hpc rfl with
    ⟨hstored, -⟩ | ⟨-, s₃, hreach, hpc, hzero, hregs₃, hmemory₃, hlog₃⟩
  · simp [State.Stored, hlog₁, hlog₂, start] at hstored
  rcases beq_cases hreach hpc rfl with
    ⟨hstored, -⟩ | ⟨-, s₄, hreach, hpc, hregs₄, hmemory₄, hlog₄⟩
  · simp [State.Stored, hlog₁, hlog₂, hlog₃, start] at hstored
  have hr0 : s₂.regs .r0 = load.label .payload := by
    simp [hregs₂, hregs₁, Function.update, LoadAddress.label]
  have hr1 : s₂.regs .r1 = b.uefiBase := by
    rw [hregs₂, Function.update_self, hmemory₁,
      show (start b load s).memory = loaded b load s.memory from rfl,
      show load.address + Label.uefiBase.offset = load.label .uefiBase from rfl,
      (loaded_literals b load s.memory).1]
  refine ⟨s₄, hreach, ?_, ?_, ?_, ?_, ?_, ?_⟩
  · rw [hpc, hzero, hr0, hr1]
    simp only [decide_eq_true_eq]
    rfl
  · rw [hregs₄, hregs₃, hr0]
  · rw [hregs₄, hregs₃, hr1]
  · rw [hmemory₄, hmemory₃, hmemory₂, hmemory₁]
    rfl
  · simp [Wrote, State.Stored, hlog₁, hlog₂, hlog₃, hlog₄, start]
  · simp [Unspoilt, hlog₁, hlog₂, hlog₃, hlog₄, start]

/-- **The start**: the machine gets to the entry where the payload is at its place,
and to the loop where it is not. -/
theorem start_cases (s : State) :
    (load.label .payload = b.uefiBase
        ∧ ∃ t, Reaches (step load.address relocate) (.running (start b load s)) (.running t)
          ∧ AtEntry b load (loaded b load s.memory) 0 t)
      ∨ load.label .payload ≠ b.uefiBase
        ∧ ∃ t, Reaches (step load.address relocate) (.running (start b load s)) (.running t)
          ∧ AtRound b load (loaded b load s.memory) 0 t := by
  obtain ⟨t, hreach, hpc, hr0, hr1, hmemory, hwrote, hunspoilt⟩ := compare_reaches b load s
  by_cases hplace : load.label .payload = b.uefiBase
  · rw [if_pos hplace] at hpc
    exact Or.inl ⟨hplace, t, hreach, hpc, hmemory, hwrote, hunspoilt⟩
  · rw [if_neg hplace] at hpc
    have hnothing (a : UInt32) : ¬t.Stored a := fun ha => by simpa using (hwrote a).1 ha
    rcases ldrLiteral_cases hreach hpc rfl with
      ⟨hstored, -⟩ | ⟨-, u, hreach, hpc, hregs, hmemory', hlog⟩
    · exact absurd hstored (hnothing _)
    have hwords : 0 < b.words := by
      have hge := b.size_ge
      unfold Build.words
      omega
    refine Or.inr ⟨hplace, u, hreach, ?_⟩
    constructor
    · rw [hpc, if_pos hwords]
      rfl
    · rw [hregs, Function.update_of_ne (by decide), hr0, source, wordAt_zero]
    · rw [hregs, Function.update_of_ne (by decide), hr1, target, wordAt_zero]
    · rw [hregs, Function.update_self, hmemory,
        show load.address + Label.uefiSize.offset = load.label .uefiSize from rfl,
        (loaded_literals b load s.memory).2]
      rfl
    · exact hmemory'.trans hmemory
    · exact hwrote.of_accesses (l := [_, _]) (by simp) hlog
    · rw [hlog]
      refine ⟨fun hmem => ?_, hnothing _, hunspoilt⟩
      rcases List.mem_cons.1 hmem with hfetch | hwrite
      · cases hfetch
      · exact hnothing _ hwrite

/-- **The first half of a round** copies a word. -/
theorem copy_cases {j left : ℕ} {o : Outcome} {s : State}
    (hs : InLoop b load m Label.copyLoop.offset j left s)
    (hreach : Reaches (step load.address relocate) o (.running s)) :
    (¬Spared b (load.address + 0x102C) (load.address + 0x1030) j
        ∧ Strays load.address relocate o)
      ∨ Spared b (load.address + 0x102C) (load.address + 0x1030) j
        ∧ ∃ t, Reaches (step load.address relocate) o (.running t)
          ∧ InLoop b load m 0x1034 (j + 1) left t := by
  rcases ldrPost_cases hreach hs.pc rfl with
    ⟨hstored, hstrays⟩ | ⟨hldr, s₁, hreach, hpc, hregs₁, hmemory₁, hlog₁⟩
  · exact Or.inl ⟨hs.wrote.not_spared_left hstored, hstrays⟩
  have hwrote₁ : Wrote b j s₁ := hs.wrote.of_accesses (l := [_, _]) (by simp) hlog₁
  rcases strPost_cases hreach hpc rfl with
    ⟨hstored, hstrays⟩ | ⟨hstr, s₂, hreach, hpc, hregs₂, hmemory₂, hlog₂⟩
  · exact Or.inl ⟨hwrote₁.not_spared_right hstored, hstrays⟩
  have hr1 : s₁.regs .r1 = target b j := by simp [hregs₁, Function.update, hs.r1]
  have hr3 : s₁.regs .r3 = s.memory (source load j) := by
    simp [hregs₁, Function.update, hs.r0]
  have hunspoilt : Unspoilt s₁.accesses := hlog₁ ▸ ⟨hldr, hs.unspoilt⟩
  refine Or.inr ⟨hs.wrote.spared hwrote₁ hldr hstr, s₂, hreach, hpc, ?_, ?_, ?_, ?_, ?_, ?_⟩
  · simp [hregs₂, hregs₁, Function.update, hs.r0, source, wordAt_succ]
  · simp [hregs₂, hr1, Function.update, target, wordAt_succ]
  · simp [hregs₂, hregs₁, Function.update, hs.r2]
  · rw [hmemory₂, hmemory₁, hr1, hr3, hs.memory]
    rfl
  · intro a
    rw [Nat.exists_lt_succ_right, ← hwrote₁]
    simp [State.Stored, hlog₂, hr1, or_comm]
  · exact hlog₂ ▸ ⟨hstr, hunspoilt⟩

/-- **The second half of a round** counts it. -/
theorem count_cases {j : ℕ} {o : Outcome} {s : State} (hj : j < b.words)
    (hs : InLoop b load m 0x1034 (j + 1) (b.uefiSize.toNat - 4 * j) s)
    (hreach : Reaches (step load.address relocate) o (.running s)) :
    (¬Spared b (load.address + 0x1034) (load.address + 0x1038) (j + 1)
        ∧ Strays load.address relocate o)
      ∨ Spared b (load.address + 0x1034) (load.address + 0x1038) (j + 1)
        ∧ ∃ t, Reaches (step load.address relocate) o (.running t)
          ∧ AtRound b load m (j + 1) t := by
  rcases subs_cases hreach hs.pc rfl with
    ⟨hstored, hstrays⟩ | ⟨hsubs, s₁, hreach, hpc, hgreater, hregs₁, hmemory₁, hlog₁⟩
  · exact Or.inl ⟨hs.wrote.not_spared_left hstored, hstrays⟩
  have hwrote₁ : Wrote b (j + 1) s₁ := hs.wrote.of_accesses (l := [_]) (by simp) hlog₁
  rcases bgt_cases hreach hpc rfl with
    ⟨hstored, hstrays⟩ | ⟨hbgt, s₂, hreach, hpc, hregs₂, hmemory₂, hlog₂⟩
  · exact Or.inl ⟨hwrote₁.not_spared_right hstored, hstrays⟩
  have hleft := hs.r2
  have hsize := b.size_le
  have haligned := b.size_aligned
  have hwords : b.words = b.uefiSize.toNat / 4 := rfl
  have hfour : (4 : UInt32) ≤ s.regs .r2 := by
    rw [UInt32.le_iff_toNat_le, hleft]
    show 4 ≤ _
    omega
  have hmore : s.regs .r2 ≠ 4 ↔ j + 1 < b.words := by
    rw [ne_eq, ← UInt32.toNat_inj, hleft, show (4 : UInt32).toNat = 4 from rfl]
    omega
  have hunspoilt : Unspoilt s₁.accesses := hlog₁ ▸ ⟨hsubs, hs.unspoilt⟩
  refine Or.inr ⟨hs.wrote.spared hwrote₁ hsubs hbgt, s₂, hreach, ?_, ?_, ?_, ?_, ?_, ?_, ?_⟩
  · rw [hpc, hgreater, greater_setFlags s (by rw [hleft]; omega) hfour]
    exact if_congr (decide_eq_true_iff.trans hmore) rfl rfl
  · simp [hregs₂, hregs₁, Function.update, hs.r0]
  · simp [hregs₂, hregs₁, Function.update, hs.r1]
  · rw [hregs₂, hregs₁, Function.update_self, UInt32.toNat_sub_of_le _ _ hfour, hleft]
    show _ - 4 = _
    omega
  · rw [hmemory₂, hmemory₁, hs.memory]
  · exact hwrote₁.of_accesses (l := [_]) (by simp) hlog₂
  · exact hlog₂ ▸ ⟨hbgt, hunspoilt⟩

/-- **A round**: its text is intact and one more word has been copied, or it is
not and the machine strays. -/
theorem round_cases {j : ℕ} {o : Outcome} {s : State} (hj : j < b.words)
    (hs : AtRound b load m j s)
    (hreach : Reaches (step load.address relocate) o (.running s)) :
    (¬RoundIntact b load j ∧ Strays load.address relocate o)
      ∨ RoundIntact b load j
        ∧ ∃ t, Reaches (step load.address relocate) o (.running t)
          ∧ AtRound b load m (j + 1) t := by
  unfold AtRound at hs
  rw [if_pos hj] at hs
  rcases copy_cases b load m hs hreach with ⟨hbad, hstrays⟩ | ⟨hcopy, t, hreach, ht⟩
  · exact Or.inl ⟨fun hintact => hbad hintact.1, hstrays⟩
  rcases count_cases b load m hj ht hreach with ⟨hbad, hstrays⟩ | ⟨hcount, u, hreach, hu⟩
  · exact Or.inl ⟨fun hintact => hbad hintact.2, hstrays⟩
  · exact Or.inr ⟨⟨hcopy, hcount⟩, u, hreach, hu⟩

/-- **The entry**: its two instructions have been spared and the machine jumps to
the address that the literal has by now, or they have not and the machine strays. -/
theorem entry_cases {j : ℕ} {o : Outcome} {s : State} (hs : AtEntry b load m j s)
    (hreach : Reaches (step load.address relocate) o (.running s)) :
    (¬Spared b (load.address + 0x103C) (load.address + 0x1040) j
        ∧ Strays load.address relocate o)
      ∨ Spared b (load.address + 0x103C) (load.address + 0x1040) j
        ∧ ∃ t, Reaches (step load.address relocate) o
            (.branched (copyWords (source load) (target b) j m (load.label .uefiBase)) t)
          ∧ t.memory = copyWords (source load) (target b) j m
          ∧ (Unspoilt t.accesses ↔ ∀ i < j, load.label .uefiBase ≠ target b i) := by
  rcases ldrLiteral_cases hreach hs.pc rfl with
    ⟨hstored, hstrays⟩ | ⟨hldr, s₁, hreach, hpc, hregs, hmemory, hlog⟩
  · exact Or.inl ⟨hs.wrote.not_spared_left hstored, hstrays⟩
  have hwrote₁ : Wrote b j s₁ := hs.wrote.of_accesses (l := [_, _]) (by simp) hlog
  rcases bx_cases hreach hpc rfl with ⟨hstored, hstrays⟩ | ⟨hbx, t, hreach, hmemory', hlog'⟩
  · exact Or.inl ⟨hwrote₁.not_spared_right hstored, hstrays⟩
  have hr5 : s₁.regs .r5 = copyWords (source load) (target b) j m (load.label .uefiBase) := by
    rw [hregs, Function.update_self, hs.memory]
    rfl
  rw [hr5] at hreach
  refine Or.inr ⟨hs.wrote.spared hwrote₁ hldr hbx, t, hreach,
    hmemory'.trans (hmemory.trans hs.memory), ?_⟩
  rw [hlog']
  constructor
  · intro hunspoilt i hi heq
    have hliteral : Unspoilt s₁.accesses := hunspoilt.2
    rw [hlog] at hliteral
    exact hliteral.1 (List.mem_cons_of_mem _ ((hs.wrote _).2 ⟨i, hi, heq⟩))
  · intro hspared
    refine ⟨hbx, ?_⟩
    rw [hlog]
    refine ⟨fun hmem => ?_, hldr, hs.unspoilt⟩
    rcases List.mem_cons.1 hmem with hfetch | hwrite
    · cases hfetch
    · obtain ⟨i, hi, heq⟩ := (hs.wrote _).1 hwrite
      exact hspared i hi heq

end Run

/-! ## Whole runs -/

section Whole

variable (b : Build) (load : LoadAddress)

/-- The text and the literal of the jump are intact for as long as they are used. -/
structure Intact : Prop where
  rounds (j : ℕ) (hj : j < b.words) : RoundIntact b load j
  entry : Spared b (load.address + 0x103C) (load.address + 0x1040) b.words
  literal (i : ℕ) (hi : i < b.words) : load.label .uefiBase ≠ target b i

variable {b load}

/-- A machine that strays relocates nothing. -/
theorem not_relocates_of_strays {s : State}
    (hstrays : Strays load.address relocate (.running (start b load s))) :
    ¬Relocates b load s := by
  rintro ⟨t, hreach, -⟩
  obtain ⟨_, hreach', u, rfl⟩ := hstrays
  cases hreach.eq_of_halted hreach' rfl rfl

/-- What a machine that jumps out has relocated can be read off the state it
jumps in. -/
theorem relocates_iff_of_branched {s t : State} {address : UInt32}
    (hreach : Reaches (step load.address relocate) (.running (start b load s))
      (.branched address t)) :
    Relocates b load s
      ↔ address = b.uefiBase
        ∧ (∀ i < b.words, t.memory (target b i) = loaded b load s.memory (source load i))
        ∧ Unspoilt t.accesses := by
  constructor
  · rintro ⟨u, hreach', hu⟩
    cases hreach.eq_of_halted hreach' rfl rfl
    exact ⟨rfl, hu⟩
  · rintro ⟨rfl, ht⟩
    exact ⟨t, hreach, ht⟩

/-- A payload at its place is left there. -/
theorem relocates_of_place (hplace : load.label .payload = b.uefiBase) (s : State) :
    Relocates b load s := by
  rcases start_cases b load s with ⟨-, t, hreach, ht⟩ | ⟨hne, -⟩
  · rcases entry_cases b load _ ht hreach with ⟨hbad, -⟩ | ⟨-, u, hreach, hmemory, hunspoilt⟩
    · exact absurd (fun i hi => absurd hi (Nat.not_lt_zero i)) hbad
    · rw [show copyWords (source load) (target b) 0 (loaded b load s.memory)
        (load.label .uefiBase) = b.uefiBase from (loaded_literals b load s.memory).1] at hreach
      refine ⟨u, hreach, fun i _ => ?_, hunspoilt.2 fun i hi => absurd hi (Nat.not_lt_zero i)⟩
      rw [hmemory, source, hplace]
      rfl
  · exact absurd hplace hne

/-- A payload that is not at its place is relocated where the text and the literal
stay intact and the copy is the original. -/
theorem relocates_iff_of_ne (hne : load.label .payload ≠ b.uefiBase) (s : State) :
    Relocates b load s
      ↔ Intact b load ∧ ∀ i < b.words,
          copyWords (source load) (target b) b.words (loaded b load s.memory) (target b i)
            = loaded b load s.memory (source load i) := by
  rcases start_cases b load s with ⟨hplace, -⟩ | ⟨-, t, hreach, ht⟩
  · exact absurd hplace hne
  have hround : ∀ j o, j < b.words →
      (∃ s', o = .running s' ∧ AtRound b load (loaded b load s.memory) j s') →
      (¬RoundIntact b load j ∧ ∃ p, Reaches (step load.address relocate) o p ∧ ∃ u, p = .strayed u)
        ∨ RoundIntact b load j ∧ ∃ p, Reaches (step load.address relocate) o p
          ∧ ∃ s', p = .running s' ∧ AtRound b load (loaded b load s.memory) (j + 1) s' := by
    rintro j _ hj ⟨s', rfl, hs'⟩
    rcases round_cases b load _ hj hs' (.refl _) with hstrays | ⟨hintact, u, hreach, hu⟩
    · exact Or.inl hstrays
    · exact Or.inr ⟨hintact, .running u, hreach, u, rfl, hu⟩
  rcases reaches_rounds hround ⟨t, rfl, ht⟩ with
    ⟨hbad, hstrays⟩ | ⟨hrounds, _, hreach', u, rfl, hu⟩
  · obtain ⟨p, hp, hstrayed⟩ := hstrays
    refine ⟨fun h => absurd h (not_relocates_of_strays ⟨p, hreach.trans hp, hstrayed⟩), ?_⟩
    exact fun h => absurd h.1.rounds hbad
  have hentry : AtEntry b load (loaded b load s.memory) b.words u := by
    refine ⟨hu.pc.trans (if_neg (Nat.lt_irrefl _)), hu.memory, hu.wrote, hu.unspoilt⟩
  rcases entry_cases b load _ hentry (hreach.trans hreach') with
    ⟨hbad, hstrays⟩ | ⟨hspared, v, hreach, hmemory, hunspoilt⟩
  · exact ⟨fun h => absurd h (not_relocates_of_strays hstrays), fun h => absurd h.1.entry hbad⟩
  rw [relocates_iff_of_branched hreach, hmemory, hunspoilt]
  constructor
  · rintro ⟨-, hcopy, hliteral⟩
    exact ⟨⟨hrounds, hspared, hliteral⟩, hcopy⟩
  · rintro ⟨hintact, hcopy⟩
    refine ⟨?_, hcopy, hintact.literal⟩
    rw [copyWords_of_ne _ hintact.literal]
    exact (loaded_literals b load s.memory).1

end Whole

/-! ## Where the image has to be loaded -/

section Placement

variable (b : Build) (load : LoadAddress)

/-- How far the target lies above the payload, modulo `2 ^ 32`. -/
def distance : ℕ := (b.uefiBase - load.label .payload).toNat

/-- **The placements of which the relocation comes right**: the payload is at its
place, or the target starts at or after the end of the payload and ends before
the second instruction of the loop, or it starts in the two words just below
the payload. -/
def Placed : Prop :=
  distance b load = 0
    ∨ b.uefiSize.toNat ≤ distance b load ∧ distance b load + b.uefiSize.toNat ≤ 2 ^ 32 - 0x20
    ∨ 2 ^ 32 - 8 ≤ distance b load

instance : Decidable (Placed b load) := inferInstanceAs (Decidable (_ ∨ _ ∧ _ ∨ _))

/-- The distance, out of the two addresses. -/
theorem distance_eq :
    distance b load
      = (2 ^ 32 - (load.address.toNat + 0x1050) % 2 ^ 32 + b.uefiBase.toNat) % 2 ^ 32 := by
  unfold distance
  rw [UInt32.toNat_sub, toNat_label]
  rfl

theorem distance_eq_zero_iff : distance b load = 0 ↔ load.label .payload = b.uefiBase := by
  have hbase := b.uefiBase.toNat_lt
  rw [distance_eq, ← UInt32.toNat_inj, toNat_label,
    show Label.payload.offset.toNat = 0x1050 from rfl]
  omega

theorem distance_aligned : 4 ∣ distance b load := by
  have hload := load.aligned
  have hbase := b.base_aligned
  rw [distance_eq]
  omega

/-- When a word of the target falls on a word below the payload. -/
theorem eq_target_iff {offset : UInt32} {below i : ℕ} (hoffset : offset.toNat + below = 0x1050)
    (hbelow : 0 < below) (hi : i < b.words) :
    load.address + offset = target b i ↔ distance b load + 4 * i + below = 2 ^ 32 := by
  have hsize := b.size_le
  have hbase := b.uefiBase.toNat_lt
  have hload := load.address.toNat_lt
  unfold Build.words at hi
  unfold target
  rw [distance_eq, ← UInt32.toNat_inj, toNat_wordAt, UInt32.toNat_add]
  omega

/-- **When no target is the source of a later turn.** -/
theorem apart_iff (hne : distance b load ≠ 0) :
    Apart (source load) (target b) b.words ↔ b.uefiSize.toNat ≤ distance b load := by
  have hsize := b.size_le
  have haligned := b.size_aligned
  have hdistance := distance_aligned b load
  have hbase := b.uefiBase.toNat_lt
  have hmeet {i j : ℕ} (hi : i < b.words) (hj : j < i) :
      target b j = source load i ↔ distance b load + 4 * j = 4 * i := by
    unfold Build.words at hi
    unfold target source
    rw [distance_eq, ← UInt32.toNat_inj, toNat_wordAt, toNat_wordAt, toNat_label,
      show Label.payload.offset.toNat = 0x1050 from rfl]
    omega
  have hwords : b.words = b.uefiSize.toNat / 4 := rfl
  constructor
  · intro hapart
    by_contra hlt
    have hi : distance b load / 4 < b.words := by omega
    exact hapart _ hi 0 (by omega) ((hmeet hi (by omega)).2 (by omega))
  · intro hle i hi j hj heq
    have heq' := (hmeet hi hj).1 heq
    omega

/-- A target that reaches the text, or the literal of the jump, from below writes
to some word of them too early. -/
theorem clear_of_intact (hintact : Intact b load) :
    distance b load + b.uefiSize.toNat ≤ 2 ^ 32 - 0x20 ∨ 2 ^ 32 - 8 ≤ distance b load := by
  have hsize := b.size_ge
  have haligned := b.size_aligned
  have hdistance := distance_aligned b load
  have hwords : b.words = b.uefiSize.toNat / 4 := rfl
  by_contra hreaches
  have hone : 1 < b.words := by omega
  have hzero : 0 < b.words := by omega
  have hwritten {offset : UInt32} {n i : ℕ} (hoffset : offset.toNat + n = 0x1050)
      (hn : 0 < n) (hi : i < b.words)
      (heq : distance b load + 4 * i + n = 2 ^ 32) : load.address + offset = target b i :=
    (eq_target_iff b load hoffset hn hi).2 heq
  rcases Nat.lt_or_ge (distance b load) (2 ^ 32 - 32) with hbelow | habove
  · -- a store on the load of the loop, with rounds to come
    have hi : (2 ^ 32 - 36 - distance b load) / 4 + 1 < b.words := by omega
    exact ((hintact.rounds _ hi).1 _ (Nat.lt_succ_self _)).1
      (hwritten (n := 36) rfl (by decide) (by omega) (by omega))
  · -- the first store is on the text or on the literal
    obtain h | h | h | h | h | h : distance b load = 2 ^ 32 - 32 ∨ distance b load = 2 ^ 32 - 28
        ∨ distance b load = 2 ^ 32 - 24 ∨ distance b load = 2 ^ 32 - 20
        ∨ distance b load = 2 ^ 32 - 16 ∨ distance b load = 2 ^ 32 - 12 := by omega
    · exact ((hintact.rounds 1 hone).1 0 (by decide)).2
        (hwritten (n := 32) rfl (by decide) hzero (by omega))
    · exact ((hintact.rounds 0 hzero).2 0 (by decide)).1
        (hwritten (n := 28) rfl (by decide) hzero (by omega))
    · exact ((hintact.rounds 0 hzero).2 0 (by decide)).2
        (hwritten (n := 24) rfl (by decide) hzero (by omega))
    · exact (hintact.entry 0 hzero).1 (hwritten (n := 20) rfl (by decide) hzero (by omega))
    · exact (hintact.entry 0 hzero).2 (hwritten (n := 16) rfl (by decide) hzero (by omega))
    · exact hintact.literal 0 hzero (hwritten (n := 12) rfl (by decide) hzero (by omega))

/-- A target that ends before the second instruction of the loop, or starts behind
the literal of the jump, leaves them intact. -/
theorem intact_of_clear
    (hclear : distance b load + b.uefiSize.toNat ≤ 2 ^ 32 - 0x20 ∨ 2 ^ 32 - 8 ≤ distance b load) :
    Intact b load := by
  have hwords : b.words = b.uefiSize.toNat / 4 := rfl
  have hspared {offset : UInt32} {n i : ℕ} (hoffset : offset.toNat + n = 0x1050)
      (hn : 0 < n) (hi : i < b.words)
      (hne : distance b load + 4 * i + n ≠ 2 ^ 32) : load.address + offset ≠ target b i :=
    mt (eq_target_iff b load hoffset hn hi).1 hne
  refine ⟨fun j hj => ⟨fun i hi => ⟨?_, ?_⟩, fun i hi => ⟨?_, ?_⟩⟩, fun i hi => ⟨?_, ?_⟩,
    fun i hi => ?_⟩
  · exact hspared (n := 36) rfl (by decide) (by omega) (by omega)
  · exact hspared (n := 32) rfl (by decide) (by omega) (by omega)
  · exact hspared (n := 28) rfl (by decide) (by omega) (by omega)
  · exact hspared (n := 24) rfl (by decide) (by omega) (by omega)
  · exact hspared (n := 20) rfl (by decide) hi (by omega)
  · exact hspared (n := 16) rfl (by decide) hi (by omega)
  · exact hspared (n := 12) rfl (by decide) hi (by omega)

/-- The payload is what the memory had there. -/
theorem loaded_source (m : UInt32 → UInt32) {i : ℕ} (hi : i < b.words) :
    loaded b load m (source load i) = m (source load i) := by
  have hsize := b.size_le
  have hload := load.address.toNat_lt
  unfold Build.words at hi
  have hne {l : Label} (hl : l.offset.toNat < 0x1050) : source load i ≠ load.label l := by
    intro heq
    have heq' := congrArg UInt32.toNat heq
    unfold source at heq'
    rw [toNat_wordAt, toNat_label, toNat_label,
      show Label.payload.offset.toNat = 0x1050 from rfl] at heq'
    omega
  unfold loaded
  rw [Function.update_of_ne (hne (by decide)), Function.update_of_ne (hne (by decide))]

/-- The words of the payload are distinct. -/
theorem source_ne {i j : ℕ} (hi : i < b.words) (hj : j < i) : source load i ≠ source load j := by
  intro heq
  have hsize := b.size_le
  have heq' := congrArg UInt32.toNat heq
  unfold Build.words at hi
  unfold source at heq'
  rw [toNat_wordAt, toNat_wordAt] at heq'
  omega

/-- Where every payload is relocated, no target is the source of a later turn:
else there is a payload that tells the two words apart that the copy mixes up. -/
theorem apart_of_relocates (hplace : load.label .payload ≠ b.uefiBase)
    (h : ∀ s, Relocates b load s) : Apart (source load) (target b) b.words := by
  have hcopies (m : UInt32 → UInt32) : ∀ i < b.words,
      copyWords (source load) (target b) b.words (loaded b load m) (target b i)
        = loaded b load m (source load i) :=
    ((relocates_iff_of_ne hplace ⟨fun _ => 0, false, false, false, 0, m, []⟩).1 (h _)).2
  by_contra hmeets
  obtain ⟨i, hi, j, hj, hcopied⟩ := copyWords_eq_of_meets (target_injective b) hmeets
  have hcopy := hcopies (Function.update (fun _ => 0) (source load i) 1) i hi
  rw [hcopied, loaded_source b load _ hi, loaded_source b load _ (Nat.lt_trans hj hi),
    Function.update_self, Function.update_of_ne (source_ne b load hi hj).symm] at hcopy
  exact absurd hcopy (by decide)

/-- **When every payload is relocated**: whatever the payload is, and whatever
`reset` left in the registers, precisely at the placements that leave the source
and the text alone for as long as they are used. -/
theorem relocates_iff : (∀ s, Relocates b load s) ↔ Placed b load := by
  by_cases hplace : load.label .payload = b.uefiBase
  · have hzero := (distance_eq_zero_iff b load).2 hplace
    exact ⟨fun _ => Or.inl hzero, fun _ => relocates_of_place hplace⟩
  have hne : distance b load ≠ 0 := mt (distance_eq_zero_iff b load).1 hplace
  constructor
  · intro h
    have hintact := ((relocates_iff_of_ne hplace
      ⟨fun _ => 0, false, false, false, 0, fun _ => 0, []⟩).1 (h _)).1
    have hafter := (apart_iff b load hne).1 (apart_of_relocates b load hplace h)
    rcases clear_of_intact b load hintact with hbefore | habove
    · exact Or.inr (Or.inl ⟨hafter, hbefore⟩)
    · exact Or.inr (Or.inr habove)
  · intro hplaced s
    have hclear : b.uefiSize.toNat ≤ distance b load
        ∧ (distance b load + b.uefiSize.toNat ≤ 2 ^ 32 - 0x20 ∨ 2 ^ 32 - 8 ≤ distance b load) := by
      have hsize := b.size_le
      rcases hplaced with hzero | ⟨hafter, hbefore⟩ | habove
      · exact absurd hzero hne
      · exact ⟨hafter, Or.inl hbefore⟩
      · exact ⟨by omega, Or.inr habove⟩
    rw [relocates_iff_of_ne hplace]
    refine ⟨intact_of_clear b load hclear.2, fun i hi => ?_⟩
    exact copyWords_eq_of_apart (target_injective b) ((apart_iff b load hne).2 hclear.1) _ hi

end Placement

/-- The image as it is built, loaded so that the payload lies one word below its
place: the first word of the payload is copied over the second before the second
is read. -/
theorem not_relocates_oneWordBelow :
    ¬∀ (load : LoadAddress) (s : State), Relocates buildBootShim load s := by
  intro h
  have hplace : (⟨0x2BFFEFAC, by decide⟩ : LoadAddress).label .payload
      ≠ buildBootShim.uefiBase := by decide
  have hdistance : distance buildBootShim ⟨0x2BFFEFAC, by decide⟩ = 4 := by decide
  have hapart := apart_of_relocates buildBootShim ⟨0x2BFFEFAC, by decide⟩ hplace (h _)
  rw [apart_iff _ _ (by rw [hdistance]; decide), hdistance] at hapart
  exact absurd hapart (by decide)

end BootShim
