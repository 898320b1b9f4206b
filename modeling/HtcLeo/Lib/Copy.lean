import Mathlib.Data.Nat.Find
import Mathlib.Logic.Function.Basic
import Mathlib.Tactic.Common

/-!
# Copying word by word

A loop that copies a sequence of words, one after the other, from `src 0`,
`src 1`, … to `dst 0`, `dst 1`, …, in a memory that maps addresses to words.
Nothing is assumed of how the two sequences lie to each other, so a word may
be overwritten before its turn comes.

`copyWords_dst` says what each target ends up with: the word its source held when
its turn came. From that the two halves of the exact condition follow. Where no
target is a source of a later turn the copy is the original
(`copyWords_eq_of_apart`); where one is, some target ends up with the word of
another source, whatever the memory held (`copyWords_eq_of_meets`).
-/

namespace Copy

variable {A W : Type} [DecidableEq A] (src dst : ℕ → A)

/-- The memory after the first `n` words have been copied. -/
def copyWords : ℕ → (A → W) → A → W
  | 0, m => m
  | n + 1, m => Function.update (copyWords n m) (dst n) (copyWords n m (src n))

/-- No target is the source of a later turn. -/
def Apart (n : ℕ) : Prop := ∀ i < n, ∀ j < i, dst j ≠ src i

variable {src dst}

/-- **The frame**: what is no target stays as it was. -/
theorem copyWords_of_ne {a : A} {n : ℕ} (m : A → W) (h : ∀ i < n, a ≠ dst i) :
    copyWords src dst n m a = m a := by
  induction n with
  | zero => rfl
  | succ n ih =>
    rw [copyWords, Function.update_of_ne (h n (Nat.lt_succ_self n))]
    exact ih fun i hi => h i (Nat.lt_succ_of_lt hi)

/-- **What a target ends up with**: the word its source held at its turn. -/
theorem copyWords_dst {n : ℕ} (hdst : ∀ i < n, ∀ j < n, dst i = dst j → i = j) (m : A → W) {i : ℕ}
    (hi : i < n) : copyWords src dst n m (dst i) = copyWords src dst i m (src i) := by
  induction n with
  | zero => exact absurd hi (Nat.not_lt_zero i)
  | succ n ih =>
    rw [copyWords]
    rcases Nat.lt_succ_iff_lt_or_eq.1 hi with hlt | rfl
    · have hne : dst i ≠ dst n := fun heq =>
        Nat.ne_of_lt hlt (hdst i hi n (Nat.lt_succ_self n) heq)
      rw [Function.update_of_ne hne]
      exact ih (fun i hi j hj => hdst i (Nat.lt_succ_of_lt hi) j (Nat.lt_succ_of_lt hj)) hlt
    · rw [Function.update_self]

/-- A copy whose targets are no sources of later turns is the original. -/
theorem copyWords_eq_of_apart {n : ℕ} (hdst : ∀ i < n, ∀ j < n, dst i = dst j → i = j)
    (hapart : Apart src dst n) (m : A → W) {i : ℕ} (hi : i < n) :
    copyWords src dst n m (dst i) = m (src i) := by
  rw [copyWords_dst hdst m hi]
  exact copyWords_of_ne m fun j hj => (hapart i hi j hj).symm

/-- A copy one of whose targets is the source of a later turn has the word of an
earlier source twice: the first such turn reads what an earlier turn wrote. -/
theorem copyWords_eq_of_meets {n : ℕ} (hdst : ∀ i < n, ∀ j < n, dst i = dst j → i = j)
    (hmeets : ¬Apart src dst n) :
    ∃ i < n, ∃ j < i, ∀ m : A → W, copyWords src dst n m (dst i) = m (src j) := by
  have hsome : ∃ i, i < n ∧ ∃ j < i, dst j = src i := by
    simpa only [Apart, not_forall, ne_eq, not_not, exists_prop] using hmeets
  classical
  obtain ⟨hi, j, hji, heq⟩ := Nat.find_spec hsome
  refine ⟨Nat.find hsome, hi, j, hji, fun m => ?_⟩
  -- the earlier turn itself read an original word
  have hearlier : ∀ k < j, src j ≠ dst k := fun k hk hmeet =>
    Nat.find_min hsome hji ⟨Nat.lt_trans hji hi, k, hk, hmeet.symm⟩
  rw [copyWords_dst hdst m hi, ← heq,
    copyWords_dst (fun a ha b hb => hdst a (Nat.lt_trans ha hi) b (Nat.lt_trans hb hi)) m hji]
  exact copyWords_of_ne m hearlier

end Copy
