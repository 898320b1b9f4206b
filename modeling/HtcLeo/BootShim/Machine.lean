import HtcLeo.Lib.Run
import Mathlib.Data.Int.Notation
import Mathlib.Logic.Function.Basic

/-!
# The machine under the boot shim

The shim runs before anything else does, on a processor with its caches and its
translation switched off. What it is made of is a dozen instructions: an
address relative to the program counter, loads of literals, a load and a
store that move their pointer on, a comparison, a subtraction that sets the
flags, two branches on the flags and the jump out.

The machine executes a text that lies in the memory it writes to. It keeps a
record of its accesses, so that one can say when a word of the text was
fetched, when a literal was read and when either was stored to; an
instruction that has been stored to is none of the text any more, and the
machine leaves the model (`Outcome.strayed`).
-/

namespace BootShim

/-! ## Instructions -/

/-- The registers the shim uses. -/
inductive Reg where
  | r0
  | r1
  | r2
  | r3
  | r5
  deriving DecidableEq

/-- The labels of the shim, from `_CopyLoop` to `_Payload`. -/
inductive Label where
  | copyLoop
  | entry
  | uefiBase
  | uefiSize
  | payload
  deriving DecidableEq

/-- Where a label lies in the image. `_relocate` comes after the 24 bytes of
`reset` at `0x1000`, and `_Payload` is aligned to 16 bytes. -/
def Label.offset : Label → UInt32
  | .copyLoop => 0x102C
  | .entry => 0x103C
  | .uefiBase => 0x1044
  | .uefiSize => 0x1048
  | .payload => 0x1050

/-- The instructions of the shim. -/
inductive Instr where
  | adr (rd : Reg) (label : Label)
  | ldrLiteral (rt : Reg) (label : Label)
  | cmp (rn rm : Reg)
  | beq (label : Label)
  | ldrPost (rt rn : Reg) (offset : UInt32)
  | strPost (rt rn : Reg) (offset : UInt32)
  | subs (rd rn : Reg) (value : UInt32)
  | bgt (label : Label)
  | bx (rm : Reg)

/-! ## The state -/

/-- An access to a word: an instruction fetched, a literal read, a word read or
written through a register. -/
inductive Access where
  | fetch (address : UInt32)
  | literal (address : UInt32)
  | read (address : UInt32)
  | write (address : UInt32)
  deriving DecidableEq

/-- **The state**: registers, flags, the offset in the image of the next
instruction, the words of the memory under their addresses, and the accesses
so far, the last one first. -/
structure State where
  regs : Reg → UInt32
  negative : Bool
  zero : Bool
  overflow : Bool
  pc : UInt32
  memory : UInt32 → UInt32
  accesses : List Access

/-- What a step leads to: the next state, or the jump out of the text, or an
instruction that is none. -/
inductive Outcome where
  | running (s : State)
  | branched (target : UInt32) (s : State)
  | strayed (s : State)

/-- A word read as a signed number. -/
def signed (w : UInt32) : ℤ := w.toBitVec.toInt

namespace State

/-- A register is written. -/
def setReg (s : State) (r : Reg) (w : UInt32) : State :=
  { s with regs := Function.update s.regs r w }

/-- The flags of the subtraction of two words. -/
def setFlags (s : State) (a b : UInt32) : State :=
  { s with
    negative := decide (signed (a - b) < 0)
    zero := decide (a = b)
    overflow := decide (signed (a - b) ≠ signed a - signed b) }

/-- The condition `gt`. -/
def greater (s : State) : Bool := !s.zero && s.negative == s.overflow

/-- The program counter goes to an offset in the image. -/
def goto (s : State) (offset : UInt32) : State := { s with pc := offset }

/-- The program counter goes to the next instruction. -/
def advance (s : State) : State := s.goto (s.pc + 4)

/-- Something is accessed. -/
def access (s : State) (a : Access) : State := { s with accesses := a :: s.accesses }

/-- A word of the memory is written. -/
def store (s : State) (address w : UInt32) : State :=
  { s.access (.write address) with memory := Function.update s.memory address w }

/-- The word at an address has been stored to. -/
def Stored (s : State) (address : UInt32) : Prop := Access.write address ∈ s.accesses

instance (s : State) (address : UInt32) : Decidable (s.Stored address) :=
  inferInstanceAs (Decidable (_ ∈ _))

end State

/-! ## Execution -/

section Execution

variable (load : UInt32)

/-- One instruction of an image loaded at `load`. -/
def execute : Instr → State → Outcome
  | .adr rd label, s => .running (s.setReg rd (load + label.offset)).advance
  | .ldrLiteral rt label, s =>
    let address := load + label.offset
    .running ((s.access (.literal address)).setReg rt (s.memory address)).advance
  | .cmp rn rm, s => .running (s.setFlags (s.regs rn) (s.regs rm)).advance
  | .beq label, s => .running (if s.zero then s.goto label.offset else s.advance)
  | .ldrPost rt rn offset, s =>
    let address := s.regs rn
    .running
      (((s.access (.read address)).setReg rt (s.memory address)).setReg rn
        (address + offset)).advance
  | .strPost rt rn offset, s =>
    let address := s.regs rn
    .running ((s.store address (s.regs rt)).setReg rn (address + offset)).advance
  | .subs rd rn value, s =>
    .running ((s.setFlags (s.regs rn) value).setReg rd (s.regs rn - value)).advance
  | .bgt label, s =>
    .running (if s.greater then s.goto label.offset else s.advance)
  | .bx rm, s => .branched (s.regs rm) s

/-- One step, with the text by offsets in the image. -/
def step (text : UInt32 → Option Instr) : Outcome → Outcome
  | .running s =>
    if s.Stored (load + s.pc) then .strayed s
    else
      match text s.pc with
      | some i => execute load i (s.access (.fetch (load + s.pc)))
      | none => .strayed s
  | .branched target s => .branched target s
  | .strayed s => .strayed s

variable {load} {text : UInt32 → Option Instr} {s : State}

/-- An instruction of the text that nothing was stored to is executed. -/
theorem step_of_not_stored {i : Instr} (htext : text s.pc = some i)
    (hstored : ¬s.Stored (load + s.pc)) :
    step load text (.running s) = execute load i (s.access (.fetch (load + s.pc))) := by
  rw [step, if_neg hstored, htext]

/-- An instruction that was stored to is none. -/
theorem step_of_stored (hstored : s.Stored (load + s.pc)) :
    step load text (.running s) = .strayed s := by
  rw [step, if_pos hstored]

/-- The machine has left the text by an instruction that is none. -/
def Strays (load : UInt32) (text : UInt32 → Option Instr) (s : Outcome) : Prop :=
  ∃ t, Run.Reaches (step load text) s t ∧ ∃ u, t = .strayed u

/-- **The rule for one instruction** of the text, at the end of a run: it has been
stored to, and the machine strays, or it is executed. -/
theorem strays_or_executes {o o' : Outcome} (hreach : Run.Reaches (step load text) o (.running s))
    {i : Instr} (htext : text s.pc = some i)
    (hexecute : execute load i (s.access (.fetch (load + s.pc))) = o') :
    s.Stored (load + s.pc) ∧ Strays load text o
      ∨ ¬s.Stored (load + s.pc) ∧ Run.Reaches (step load text) o o' := by
  by_cases hstored : s.Stored (load + s.pc)
  · exact Or.inl ⟨hstored, .strayed s, hreach.trans ⟨1, step_of_stored hstored⟩, s, rfl⟩
  · exact Or.inr ⟨hstored,
      hreach.trans ⟨1, (step_of_not_stored htext hstored).trans hexecute⟩⟩

/-! What each instruction leaves in each part of the state. -/

section Instructions

variable {o : Outcome} (hreach : Run.Reaches (step load text) o (.running s))
  {pc : UInt32} (hpc : s.pc = pc)

include hreach hpc

theorem adr_cases {rd : Reg} {label : Label} (htext : text pc = some (.adr rd label)) :
    s.Stored (load + pc) ∧ Strays load text o ∨ ¬s.Stored (load + pc)
      ∧ ∃ t, Run.Reaches (step load text) o (.running t)
        ∧ t.pc = pc + 4
        ∧ t.regs = Function.update s.regs rd (load + label.offset)
        ∧ t.memory = s.memory
        ∧ t.accesses = .fetch (load + pc) :: s.accesses := by
  subst hpc
  exact (strays_or_executes hreach htext rfl).imp_right fun ⟨hstored, hreach⟩ =>
    ⟨hstored, _, hreach, rfl, rfl, rfl, rfl⟩

theorem ldrLiteral_cases {rt : Reg} {label : Label}
    (htext : text pc = some (.ldrLiteral rt label)) :
    s.Stored (load + pc) ∧ Strays load text o ∨ ¬s.Stored (load + pc)
      ∧ ∃ t, Run.Reaches (step load text) o (.running t)
        ∧ t.pc = pc + 4
        ∧ t.regs = Function.update s.regs rt (s.memory (load + label.offset))
        ∧ t.memory = s.memory
        ∧ t.accesses = .literal (load + label.offset) :: .fetch (load + pc) :: s.accesses := by
  subst hpc
  exact (strays_or_executes hreach htext rfl).imp_right fun ⟨hstored, hreach⟩ =>
    ⟨hstored, _, hreach, rfl, rfl, rfl, rfl⟩

theorem cmp_cases {rn rm : Reg} (htext : text pc = some (.cmp rn rm)) :
    s.Stored (load + pc) ∧ Strays load text o ∨ ¬s.Stored (load + pc)
      ∧ ∃ t, Run.Reaches (step load text) o (.running t)
        ∧ t.pc = pc + 4 ∧ t.zero = decide (s.regs rn = s.regs rm)
        ∧ t.regs = s.regs
        ∧ t.memory = s.memory
        ∧ t.accesses = .fetch (load + pc) :: s.accesses := by
  subst hpc
  exact (strays_or_executes hreach htext rfl).imp_right fun ⟨hstored, hreach⟩ =>
    ⟨hstored, _, hreach, rfl, rfl, rfl, rfl, rfl⟩

theorem beq_cases {label : Label} (htext : text pc = some (.beq label)) :
    s.Stored (load + pc) ∧ Strays load text o ∨ ¬s.Stored (load + pc)
      ∧ ∃ t, Run.Reaches (step load text) o (.running t)
        ∧ t.pc = (if s.zero then label.offset else pc + 4)
        ∧ t.regs = s.regs
        ∧ t.memory = s.memory
        ∧ t.accesses = .fetch (load + pc) :: s.accesses := by
  subst hpc
  refine (strays_or_executes hreach htext rfl).imp_right fun ⟨hstored, hreach⟩ =>
    ⟨hstored, _, hreach, ?_⟩
  have hzero : (s.access (.fetch (load + s.pc))).zero = s.zero := rfl
  rw [hzero]
  cases s.zero <;> exact ⟨rfl, rfl, rfl, rfl⟩

theorem ldrPost_cases {rt rn : Reg} {offset : UInt32}
    (htext : text pc = some (.ldrPost rt rn offset)) :
    s.Stored (load + pc) ∧ Strays load text o ∨ ¬s.Stored (load + pc)
      ∧ ∃ t, Run.Reaches (step load text) o (.running t)
        ∧ t.pc = pc + 4
        ∧ t.regs = Function.update (Function.update s.regs rt (s.memory (s.regs rn))) rn
          (s.regs rn + offset)
        ∧ t.memory = s.memory
        ∧ t.accesses = .read (s.regs rn) :: .fetch (load + pc) :: s.accesses := by
  subst hpc
  exact (strays_or_executes hreach htext rfl).imp_right fun ⟨hstored, hreach⟩ =>
    ⟨hstored, _, hreach, rfl, rfl, rfl, rfl⟩

theorem strPost_cases {rt rn : Reg} {offset : UInt32}
    (htext : text pc = some (.strPost rt rn offset)) :
    s.Stored (load + pc) ∧ Strays load text o ∨ ¬s.Stored (load + pc)
      ∧ ∃ t, Run.Reaches (step load text) o (.running t)
        ∧ t.pc = pc + 4
        ∧ t.regs = Function.update s.regs rn (s.regs rn + offset)
        ∧ t.memory = Function.update s.memory (s.regs rn) (s.regs rt)
        ∧ t.accesses = .write (s.regs rn) :: .fetch (load + pc) :: s.accesses := by
  subst hpc
  exact (strays_or_executes hreach htext rfl).imp_right fun ⟨hstored, hreach⟩ =>
    ⟨hstored, _, hreach, rfl, rfl, rfl, rfl⟩

theorem subs_cases {rd rn : Reg} {value : UInt32} (htext : text pc = some (.subs rd rn value)) :
    s.Stored (load + pc) ∧ Strays load text o ∨ ¬s.Stored (load + pc)
      ∧ ∃ t, Run.Reaches (step load text) o (.running t)
        ∧ t.pc = pc + 4 ∧ t.greater = (s.setFlags (s.regs rn) value).greater
        ∧ t.regs = Function.update s.regs rd (s.regs rn - value)
        ∧ t.memory = s.memory
        ∧ t.accesses = .fetch (load + pc) :: s.accesses := by
  subst hpc
  exact (strays_or_executes hreach htext rfl).imp_right fun ⟨hstored, hreach⟩ =>
    ⟨hstored, _, hreach, rfl, rfl, rfl, rfl, rfl⟩

theorem bgt_cases {label : Label} (htext : text pc = some (.bgt label)) :
    s.Stored (load + pc) ∧ Strays load text o ∨ ¬s.Stored (load + pc)
      ∧ ∃ t, Run.Reaches (step load text) o (.running t)
        ∧ t.pc = (if s.greater then label.offset else pc + 4)
        ∧ t.regs = s.regs
        ∧ t.memory = s.memory
        ∧ t.accesses = .fetch (load + pc) :: s.accesses := by
  subst hpc
  refine (strays_or_executes hreach htext rfl).imp_right fun ⟨hstored, hreach⟩ =>
    ⟨hstored, _, hreach, ?_⟩
  have hgreater : (s.access (.fetch (load + s.pc))).greater = s.greater := rfl
  rw [hgreater]
  cases s.greater <;> exact ⟨rfl, rfl, rfl, rfl⟩

theorem bx_cases {rm : Reg} (htext : text pc = some (.bx rm)) :
    s.Stored (load + pc) ∧ Strays load text o ∨ ¬s.Stored (load + pc)
      ∧ ∃ t, Run.Reaches (step load text) o (.branched (s.regs rm) t)
        ∧ t.memory = s.memory
        ∧ t.accesses = .fetch (load + pc) :: s.accesses := by
  subst hpc
  exact (strays_or_executes hreach htext rfl).imp_right fun ⟨hstored, hreach⟩ =>
    ⟨hstored, _, hreach, rfl, rfl⟩

end Instructions

end Execution

/-! ## Accesses -/

/-- **Nothing is used after it was stored to**: no word is fetched, and no
literal read, once it has been written. -/
def Unspoilt : List Access → Prop
  | [] => True
  | .fetch a :: l => Access.write a ∉ l ∧ Unspoilt l
  | .literal a :: l => Access.write a ∉ l ∧ Unspoilt l
  | .read _ :: l => Unspoilt l
  | .write _ :: l => Unspoilt l

/-- A word below half the range is read as it is. -/
theorem signed_of_lt {w : UInt32} (h : w.toNat < 2147483648) : signed w = Int.ofNat w.toNat := by
  unfold signed
  rw [BitVec.toInt_eq_toNat_cond, UInt32.toNat_toBitVec, if_pos (by omega)]
  rfl

/-- **The flags of a count**: the subtraction from a number that is at least the
one subtracted, both below half the range, says whether anything is left. -/
theorem greater_setFlags (s : State) {a b : UInt32} (ha : a.toNat < 2147483648) (hb : b ≤ a) :
    (s.setFlags a b).greater = decide (a ≠ b) := by
  have hle : b.toNat ≤ a.toNat := UInt32.le_iff_toNat_le.1 hb
  have hsub : (a - b).toNat = a.toNat - b.toNat := UInt32.toNat_sub_of_le a b hb
  have hdiff : signed (a - b) = Int.ofNat (a.toNat - b.toNat) := by
    rw [signed_of_lt (by omega), hsub]
  have hnegative : ¬signed (a - b) < 0 := by
    rw [hdiff]
    exact Int.not_lt.2 (Int.natCast_nonneg _)
  have hoverflow : signed (a - b) = signed a - signed b := by
    rw [hdiff, signed_of_lt ha, signed_of_lt (Nat.lt_of_le_of_lt hle ha)]
    exact Int.ofNat_sub hle
  show (!decide (a = b) && decide (signed (a - b) < 0)
    == decide (signed (a - b) ≠ signed a - signed b)) = decide (a ≠ b)
  rw [decide_eq_false hnegative, decide_eq_false (not_not_intro hoverflow)]
  simp

end BootShim
