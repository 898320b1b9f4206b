import Mathlib.Data.List.Range
import Mathlib.Tactic.Common

/-!
# All or none

A program may take the same step at one place after the other, and when it fails at one
take back those before, the last one first: `tryEach`. Where a step moves on by one place
or stays, and taking one back moves back by one, the program has gone through all of the
places in the end, or it has failed and is back at the first (`tryEach_range`).
-/

section

variable {ι σ ε : Type} (failed : ε → Bool) (done : ε) (act : ι → σ → Option (ε × σ))
  (undo : ι → σ → Option σ)

/-- **One place after the other**, and back again when one of them fails. -/
def tryEach : List ι → σ → Option (ε × σ)
  | [], s => some (done, s)
  | i :: rest, s => do
    let (status, s) ← act i s
    if failed status then some (status, s)
    else do
      let (status, s) ← tryEach rest s
      if failed status then do
        let s ← undo i s
        some (status, s)
      else some (status, s)

end

section

variable {σ ε : Type} {failed : ε → Bool} {done : ε} {act : ℕ → σ → Option (ε × σ)}
  {undo : ℕ → σ → Option σ}

/-- **The rule for all or none** of `0`, …, `n - 1`: where the program stands is `motive`. -/
theorem tryEach_range (motive : ℕ → σ → Prop) {n : ℕ} (hdone : failed done = false)
    (forth : ∀ k < n, ∀ s, motive k s → ∃ status s', act k s = some (status, s')
      ∧ motive (if failed status then k else k + 1) s')
    (back : ∀ k < n, ∀ s, motive (k + 1) s → ∃ s', undo k s = some s' ∧ motive k s')
    {s : σ} (first : motive 0 s) :
    ∃ status s', tryEach failed done act undo (List.range n) s = some (status, s')
      ∧ motive (if failed status then 0 else n) s' := by
  -- from any place on
  have hfrom : ∀ m k s, k + m = n → motive k s →
      ∃ status s', tryEach failed done act undo (List.range' k m) s = some (status, s')
        ∧ motive (if failed status then k else n) s' := by
    intro m
    induction m with
    | zero =>
      intro k s hk hs
      refine ⟨done, s, rfl, ?_⟩
      rw [hdone, if_neg Bool.false_ne_true, ← hk]
      exact hs
    | succ m ih =>
      intro k s hk hs
      obtain ⟨status, s₁, hact, hs₁⟩ := forth k (by omega) s hs
      rw [List.range'_succ]
      unfold tryEach
      rw [hact]
      dsimp only [Option.bind_eq_bind, Option.bind_some]
      by_cases hfailed : failed status = true
      · rw [if_pos hfailed] at hs₁ ⊢
        refine ⟨status, s₁, rfl, ?_⟩
        rwa [if_pos hfailed]
      · rw [if_neg hfailed] at hs₁ ⊢
        obtain ⟨status', s₂, hrest, hs₂⟩ := ih (k + 1) s₁ (by omega) hs₁
        rw [hrest]
        dsimp only [Option.bind_some]
        by_cases hfailed' : failed status' = true
        · rw [if_pos hfailed'] at hs₂ ⊢
          obtain ⟨s₃, hundo, hs₃⟩ := back k (by omega) s₂ hs₂
          rw [hundo]
          refine ⟨status', s₃, rfl, ?_⟩
          rwa [if_pos hfailed']
        · rw [if_neg hfailed'] at hs₂ ⊢
          refine ⟨status', s₂, rfl, ?_⟩
          rwa [if_neg hfailed']
  rw [List.range_eq_range']
  exact hfrom n 0 s (Nat.zero_add n) first

end
