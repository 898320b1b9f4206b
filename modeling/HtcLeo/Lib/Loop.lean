import Mathlib.Data.List.Range
import Mathlib.Tactic.Common

/-!
# Counted loops over machine words

`for (i = start; i < bound; i++)` with a 32-bit counter runs its body once for
each value from `start` up to `bound`, and not at all when `bound` lies below
`start` – as it does when the sum that gave it went past the width of the
word. `forLoop` is the state after such a loop. `forLoop_eq` is what the C
statement does at its head, and `forLoop_inv` is the rule for a property that
counts the turns.
-/

variable {σ : Type}

/-- The state after `n` turns of a loop whose counter starts at `start`. -/
def loopTurns (start : UInt32) (body : UInt32 → σ → σ) : ℕ → σ → σ
  | 0, s => s
  | n + 1, s => loopTurns (start + 1) body n (body start s)

/-- **`for (i = start; i < bound; i++)`**: the state after it. -/
def forLoop (start bound : UInt32) (body : UInt32 → σ → σ) (s : σ) : σ :=
  loopTurns start body (bound.toNat - start.toNat) s

/-- What the statement does at its head: while the counter is below the bound the
body runs and the counter goes up. -/
theorem forLoop_eq (start bound : UInt32) (body : UInt32 → σ → σ) (s : σ) :
    forLoop start bound body s
      = if start < bound then forLoop (start + 1) bound body (body start s) else s := by
  unfold forLoop
  by_cases h : start < bound
  · have hlt : start.toNat < bound.toNat := UInt32.lt_iff_toNat_lt.mp h
    have hnext : (start + 1).toNat = start.toNat + 1 := by
      have hbound := bound.toNat_lt
      rw [UInt32.toNat_add, UInt32.toNat_one]
      omega
    rw [if_pos h, show bound.toNat - start.toNat = (bound.toNat - (start + 1).toNat) + 1 by omega]
    rfl
  · have hle : bound.toNat ≤ start.toNat := Nat.le_of_not_lt fun hlt =>
      h (UInt32.lt_iff_toNat_lt.mpr hlt)
    rw [if_neg h, Nat.sub_eq_zero_of_le hle]
    rfl

/-- The last turn of a loop comes after the others. -/
theorem loopTurns_succ (start : UInt32) (body : UInt32 → σ → σ) (n : ℕ) (s : σ) :
    loopTurns start body (n + 1) s
      = body (start + UInt32.ofNat n) (loopTurns start body n s) := by
  induction n generalizing start s with
  | zero =>
    show body start s = body (start + 0) s
    rw [UInt32.add_zero]
  | succ n ih =>
    show loopTurns (start + 1) body (n + 1) (body start s) = _
    have hcounter : start + 1 + UInt32.ofNat n = start + UInt32.ofNat (n + 1) := by
      rw [UInt32.ofNat_add, UInt32.add_assoc, UInt32.add_comm 1]
      rfl
    rw [ih, hcounter]
    rfl

/-- **The loop rule.** What holds before the first turn, and after each turn
holds for one turn more, holds after the loop for all of its turns. -/
theorem forLoop_inv {start bound : UInt32} {body : UInt32 → σ → σ} {s : σ}
    (motive : ℕ → σ → Prop) (first : motive 0 s)
    (turn : ∀ k, k < bound.toNat - start.toNat → ∀ t, motive k t →
      motive (k + 1) (body (start + UInt32.ofNat k) t)) :
    motive (bound.toNat - start.toNat) (forLoop start bound body s) := by
  unfold forLoop
  generalize bound.toNat - start.toNat = n at turn ⊢
  induction n with
  | zero => exact first
  | succ n ih =>
    rw [loopTurns_succ]
    exact turn n (by omega) _ (ih fun k hk => turn k (by omega))

/-- A property that every turn keeps holds after the loop. -/
theorem forLoop_keeps {start bound : UInt32} {body : UInt32 → σ → σ} {s : σ}
    {motive : σ → Prop} (first : motive s)
    (turn : ∀ i t, motive t → motive (body i t)) :
    motive (forLoop start bound body s) :=
  forLoop_inv (fun _ => motive) first fun _ _ t ht => turn _ t ht

/-- The rule for a loop from zero of which the body does not look at the counter. -/
theorem forLoop_count {turns : UInt32} {count : ℕ} (hcount : turns.toNat = count)
    {body : UInt32 → σ → σ} {s : σ} (motive : ℕ → σ → Prop) (first : motive 0 s)
    (turn : ∀ k < count, ∀ i t, motive k t → motive (k + 1) (body i t)) :
    motive count (forLoop 0 turns body s) := by
  have hrun := @forLoop_inv σ 0 turns body s motive first fun k hk t ht => by
    rw [UInt32.toNat_zero, Nat.sub_zero, hcount] at hk
    exact turn k hk _ t ht
  rwa [UInt32.toNat_zero, Nat.sub_zero, hcount] at hrun

/-- **The rule for two loops** of as many turns: a relation that every turn keeps holds
after them. -/
theorem forLoop_rel {τ : Type} {start bound : UInt32} {body : UInt32 → σ → σ}
    {body' : UInt32 → τ → τ} {s : σ} {t : τ} {motive : σ → τ → Prop} (first : motive s t)
    (turn : ∀ i s t, motive s t → motive (body i s) (body' i t)) :
    motive (forLoop start bound body s) (forLoop start bound body' t) := by
  unfold forLoop
  generalize bound.toNat - start.toNat = n
  induction n generalizing start s t with
  | zero => exact first
  | succ n ih => exact ih (turn start s t first)

/-! ## Pointers that go up turn by turn -/

theorem add_ofNat_succ (p : UInt32) (k : ℕ) :
    p + UInt32.ofNat (k + 1) = p + UInt32.ofNat k + 1 := by
  rw [UInt32.ofNat_add, UInt32.add_assoc]
  rfl

theorem add_ofNat_zero_mul (p stride : UInt32) : p + UInt32.ofNat 0 * stride = p := by
  show p + 0 * stride = p
  rw [UInt32.zero_mul, UInt32.add_zero]

theorem add_ofNat_succ_mul (p stride : UInt32) (k : ℕ) :
    p + UInt32.ofNat (k + 1) * stride = p + UInt32.ofNat k * stride + stride := by
  rw [UInt32.ofNat_add, UInt32.add_mul, ← UInt32.add_assoc]
  show p + UInt32.ofNat k * stride + 1 * stride = _
  rw [UInt32.one_mul]
