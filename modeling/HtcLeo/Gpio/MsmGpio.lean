import HtcLeo.Lib.Word
import Mathlib.Data.List.FinRange

/-!
# The gpio registers

The gpios of the chip lie in eight banks, each with registers of its own and
as many bits in them as the bank has gpios. `find_gpio` says in which bank a
gpio is, and by which bit.

A bank keeps the words that the driver writes and reads back – which gpios
may interrupt (`int_en`), on an edge or on a level (`int_edge`), and on the
rising or the falling one (`int_pos`). The levels of its inputs and its
interrupt status are the hardware's: each read may return something new, so
they are the sequences of the values the reads to come are going to return.
-/

namespace MsmGpio

/-! ## The banks -/

/-- `gpioregs`, without the addresses: the first gpio of a bank and its last
one (`end`). -/
structure Gpioregs where
  start : ℕ
  last : ℕ

/-- `GPIO_REGS`. -/
def gpioRegs : Fin 8 → Gpioregs
  | 0 => ⟨0, 15⟩
  | 1 => ⟨16, 42⟩
  | 2 => ⟨43, 67⟩
  | 3 => ⟨68, 94⟩
  | 4 => ⟨95, 103⟩
  | 5 => ⟨104, 121⟩
  | 6 => ⟨122, 152⟩
  | 7 => ⟨153, 164⟩

/-- `n >= ret->start && n <= ret->end`. -/
def Gpioregs.has (ret : Gpioregs) (n : ℕ) : Bool := n ≥ ret.start && n ≤ ret.last

/-- `find_gpio`: the bank of a gpio, and its bit there. -/
def findGpio (n : ℕ) : Option (Fin 8 × UInt32) :=
  if n > (gpioRegs 7).last then none
  else match (List.finRange 8).find? fun i => (gpioRegs i).has n with
    | some i => some (i, Word.one (UInt32.ofNat (n - (gpioRegs i).start)))
    | none => some (7, 0)

/-! ## The registers -/

/-- **The registers of a bank.** -/
structure Bank where
  intEn : UInt32
  intEdge : UInt32
  intPos : UInt32
  gpioIn : ℕ → UInt32
  intStatus : ℕ → UInt32

/-- **The registers of all banks**, and the words written to `int_clear`, with
the bank of each. -/
structure Gpio where
  banks : Fin 8 → Bank
  intClear : List (Fin 8 × UInt32)

/-- The registers of one bank change. -/
def Gpio.updateBank (s : Gpio) (i : Fin 8) (f : Bank → Bank) : Gpio :=
  { s with banks := Function.update s.banks i (f (s.banks i)) }

/-- The bank once a turn of the loop in `msm_gpio_update_both_edge_detect` has
sampled its inputs twice and its status in between. -/
def Bank.updateTurn (r : Bank) : Bank :=
  { r with
    intPos := r.intPos ||| ~~~r.gpioIn 0
    gpioIn := fun n => r.gpioIn (n + 2)
    intStatus := fun n => r.intStatus (n + 1) }

/-- `((val ^ val2) & ~intstat) == 0`, for the samples of the turn `k`. -/
def Bank.stable (r : Bank) (k : ℕ) : Bool :=
  (r.gpioIn (2 * k) ^^^ r.gpioIn (2 * k + 1)) &&& ~~~r.intStatus k = 0

/-- The loop of `msm_gpio_update_both_edge_detect`, with `loop_limit` turns left
after the next: the last sample of the inputs when it leaves by the `return`,
and the bank. -/
def Bank.updateLoop : ℕ → Bank → Option UInt32 × Bank
  | loopLimit, r =>
    if r.stable 0 then (some (r.gpioIn 1), r.updateTurn)
    else match loopLimit with
      | 0 => (none, r.updateTurn)
      | loopLimit + 1 => r.updateTurn.updateLoop loopLimit

/-- `msm_gpio_update_both_edge_detect`. -/
def msmGpioUpdateBothEdgeDetect (gpio : ℕ) (s : Gpio) : Gpio :=
  match findGpio gpio with
  | none => s
  | some (r, _) => s.updateBank r fun bank => (bank.updateLoop 100).2

/-- `msm_gpio_irq_clear`. -/
def msmGpioIrqClear (gpio : ℕ) (s : Gpio) : Gpio :=
  match findGpio gpio with
  | none => s
  | some (r, b) => { s with intClear := s.intClear ++ [(r, b)] }

/-- `msm_gpio_irq_ack`. -/
def msmGpioIrqAck (gpio : ℕ) (s : Gpio) : Gpio :=
  msmGpioUpdateBothEdgeDetect gpio (msmGpioIrqClear gpio s)

/-- `GPIO_IRQF_RISING`. -/
def gpioIrqfRising : UInt32 := 1
/-- `GPIO_IRQF_FALLING`. -/
def gpioIrqfFalling : UInt32 := 2

/-- The flags ask for both edges. -/
def bothEdges (flags : UInt32) : Bool :=
  flags &&& (gpioIrqfFalling ||| gpioIrqfRising) = gpioIrqfFalling ||| gpioIrqfRising

/-- `msm_set_gpio_irq_trigger`. -/
def msmSetGpioIrqTrigger (gpio : ℕ) (flags : UInt32) (s : Gpio) : Gpio :=
  match findGpio gpio with
  | none => s
  | some (r, b) =>
    let s := s.updateBank r fun bank =>
      if Word.flag flags (gpioIrqfFalling ||| gpioIrqfRising) then
        { bank with intEdge := bank.intEdge ||| b }
      else { bank with intEdge := bank.intEdge &&& ~~~b }
    if bothEdges flags then msmGpioUpdateBothEdgeDetect gpio s
    else s.updateBank r fun bank =>
      if Word.flag flags gpioIrqfRising then { bank with intPos := bank.intPos ||| b }
      else { bank with intPos := bank.intPos &&& ~~~b }

/-! ## Where a gpio is -/

/-- The gpio is the bit `j` of the bank `i`. -/
def At (gpio : ℕ) (i : Fin 8) (j : ℕ) : Prop :=
  gpio = (gpioRegs i).start + j ∧ gpio ≤ (gpioRegs i).last

/-- The banks do not overlap. -/
theorem gpioRegs_disjoint :
    ∀ i k : Fin 8, i ≠ k →
      (gpioRegs i).last < (gpioRegs k).start ∨ (gpioRegs k).last < (gpioRegs i).start := by
  decide

/-- No bank has more gpios than its registers have bits, and none lies past the
last. -/
theorem gpioRegs_last :
    ∀ i : Fin 8, (gpioRegs i).last < (gpioRegs i).start + 32 ∧ (gpioRegs i).last ≤ 164 := by
  decide

theorem At.lt {gpio j : ℕ} {i : Fin 8} (h : At gpio i j) : j < 32 := by
  obtain ⟨hstart, hlast⟩ := h
  have hwidth := (gpioRegs_last i).1
  omega

theorem At.le {gpio j : ℕ} {i : Fin 8} (h : At gpio i j) : gpio ≤ 164 :=
  Nat.le_trans h.2 (gpioRegs_last i).2

/-- A gpio is in one bank only. -/
theorem At.bank_unique {gpio j j' : ℕ} {i i' : Fin 8} (h : At gpio i j) (h' : At gpio i' j') :
    i = i' ∧ j = j' := by
  have hi : i = i' := by
    by_contra hne
    have hdisjoint := gpioRegs_disjoint i i' hne
    obtain ⟨hstart, hlast⟩ := h
    obtain ⟨hstart', hlast'⟩ := h'
    omega
  subst hi
  exact ⟨rfl, by have hstart := h.1; have hstart' := h'.1; omega⟩

/-- **`find_gpio` of a gpio** is its bank, and its bit there. -/
theorem At.findGpio {gpio j : ℕ} {i : Fin 8} (h : At gpio i j) :
    findGpio gpio = some (i, Word.one (UInt32.ofNat j)) := by
  have hle : ¬ gpio > (gpioRegs 7).last := Nat.not_lt.mpr h.le
  have hhas : (gpioRegs i).has gpio = true := by
    obtain ⟨rfl, hlast⟩ := h
    simp [Gpioregs.has, hlast]
  unfold MsmGpio.findGpio
  rw [if_neg hle]
  cases hfind : (List.finRange 8).find? fun i => (gpioRegs i).has gpio with
  | none => exact absurd hhas (List.find?_eq_none.mp hfind i (List.mem_finRange i))
  | some k =>
    have hk := List.find?_some hfind
    have hat : At gpio k (gpio - (gpioRegs k).start) := by
      simp only [Gpioregs.has, ge_iff_le, Bool.and_eq_true, decide_eq_true_eq] at hk
      exact ⟨(Nat.add_sub_cancel' hk.1).symm, hk.2⟩
    obtain ⟨rfl, rfl⟩ := h.bank_unique hat
    rfl

/-- Every gpio up to the last has its bank. -/
theorem exists_at {gpio : ℕ} (h : gpio ≤ 164) : ∃ i j, At gpio i j := by
  by_contra hnone
  have hout : ∀ i : Fin 8, gpio < (gpioRegs i).start ∨ (gpioRegs i).last < gpio := by
    intro i
    by_contra hin
    exact hnone ⟨i, gpio - (gpioRegs i).start, by omega, by omega⟩
  have h0 := hout 0
  have h1 := hout 1
  have h2 := hout 2
  have h3 := hout 3
  have h4 := hout 4
  have h5 := hout 5
  have h6 := hout 6
  have h7 := hout 7
  simp only [gpioRegs] at h0 h1 h2 h3 h4 h5 h6 h7
  omega

/-- `find_gpio` knows no gpio past the last. -/
theorem findGpio_eq_none {gpio : ℕ} (h : 164 < gpio) : findGpio gpio = none := if_pos h

/-- **A gpio is in a bank, or unknown.** -/
theorem at_or_findGpio_eq_none (gpio : ℕ) : (∃ i j, At gpio i j) ∨ findGpio gpio = none := by
  by_cases h : gpio ≤ 164
  · exact .inl (exists_at h)
  · exact .inr (findGpio_eq_none (by omega))

/-- A test under the bit of a gpio. -/
theorem flag_one_ofNat (w : UInt32) {j : ℕ} (hj : j < 32) :
    Word.flag w (Word.one (UInt32.ofNat j)) = Word.bit w j := by
  have hmod : (UInt32.ofNat j).toNat % 32 = j := by
    rw [UInt32.toNat_ofNat']
    omega
  rw [Word.flag_one, hmod]

end MsmGpio
