import HtcLeo.Lib.Run
import Mathlib.Data.List.Induction

/-!
# What a state remembers of its run

A flag of a state that some steps raise and others take down says something of
the run that led there: that a step raised it, and that none since took it down.
`Since` is that property of a run, and `since_iff` exchanges it for the flag. A
flag that is never taken down says that a step of the run raised it (`once_iff`).

A record that is only ever added to is a list. What is said of each of its entries, and
of those before it, is `Recorded`.
-/

namespace Run

variable {σ ι : Type} {step : σ → ι → σ}

/-- **Some step of the run meets `P`, and none after it meets `Q`.** -/
def Since (step : σ → ι → σ) (P Q : σ → ι → Prop) (s : σ) (l : List ι) : Prop :=
  ∃ before a after, l = before ++ a :: after ∧ P (run step s before) a
    ∧ Along step (fun s a => ¬ Q s a) (run step s (before ++ [a])) after

/-- Some step of the run meets `P`. -/
def Once (step : σ → ι → σ) (P : σ → ι → Prop) (s : σ) (l : List ι) : Prop :=
  ∃ before a after, l = before ++ a :: after ∧ P (run step s before) a

variable {P Q : σ → ι → Prop}

theorem run_snoc (s : σ) (l : List ι) (a : ι) : run step s (l ++ [a]) = step (run step s l) a := by
  rw [run_append]
  rfl

/-- One more step: it meets `P` itself, or does not meet `Q`. -/
theorem since_snoc (s : σ) (l : List ι) (b : ι) :
    Since step P Q s (l ++ [b])
      ↔ P (run step s l) b ∨ Since step P Q s l ∧ ¬ Q (run step s l) b := by
  constructor
  · rintro ⟨before, a, after, hl, hP, hnone⟩
    rcases List.eq_nil_or_concat after with rfl | ⟨after, c, rfl⟩
    · obtain ⟨rfl, hb⟩ := List.append_inj' hl rfl
      obtain rfl := (List.cons.inj hb).1
      exact Or.inl hP
    · rw [List.concat_eq_append, ← List.cons_append, ← List.append_assoc] at hl
      obtain ⟨rfl, hb⟩ := List.append_inj' hl rfl
      obtain rfl := (List.cons.inj hb).1
      rw [List.concat_eq_append, along_append] at hnone
      refine Or.inr ⟨⟨before, a, after, rfl, hP, hnone.1⟩, ?_⟩
      have hlast := hnone.2.1
      rwa [← run_append, List.append_assoc] at hlast
  · rintro (hP | ⟨⟨before, a, after, rfl, hP, hnone⟩, hlast⟩)
    · exact ⟨l, b, [], rfl, hP, trivial⟩
    · refine ⟨before, a, after ++ [b], by rw [List.append_assoc]; rfl, hP, ?_⟩
      rw [along_append]
      refine ⟨hnone, ?_, trivial⟩
      rwa [← run_append, List.append_assoc]

theorem not_since_nil (s : σ) : ¬ Since step P Q s [] := by
  rintro ⟨before, a, after, hl, -⟩
  cases before <;> cases hl

theorem once_snoc (s : σ) (l : List ι) (b : ι) :
    Once step P s (l ++ [b]) ↔ Once step P s l ∨ P (run step s l) b := by
  constructor
  · rintro ⟨before, a, after, hl, hP⟩
    rcases List.eq_nil_or_concat after with rfl | ⟨after, c, rfl⟩
    · obtain ⟨rfl, hb⟩ := List.append_inj' hl rfl
      obtain rfl := (List.cons.inj hb).1
      exact Or.inr hP
    · rw [List.concat_eq_append, ← List.cons_append, ← List.append_assoc] at hl
      obtain ⟨rfl, -⟩ := List.append_inj' hl rfl
      exact Or.inl ⟨before, a, after, rfl, hP⟩
  · rintro (⟨before, a, after, rfl, hP⟩ | hP)
    · exact ⟨before, a, after ++ [b], by rw [List.append_assoc]; rfl, hP⟩
    · exact ⟨l, b, [], rfl, hP⟩

theorem not_once_nil (s : σ) : ¬ Once step P s [] := by
  rintro ⟨before, a, after, hl, -⟩
  cases before <;> cases hl

section

variable {I F : σ → Prop} {s : σ}

/-- **A flag that is raised and taken down**, under an invariant of the steps. -/
theorem since_iff (keep : ∀ s a, I s → I (step s a))
    (flag : ∀ s a, I s → (F (step s a) ↔ P s a ∨ F s ∧ ¬ Q s a)) (hs : I s) (hF : ¬ F s)
    (l : List ι) : F (run step s l) ↔ Since step P Q s l := by
  induction l using List.reverseRecOn with
  | nil => exact iff_of_false hF (not_since_nil s)
  | append_singleton l b ih =>
    rw [run_snoc, flag _ b (inv_run keep l hs), since_snoc, ih]

/-- **A flag that is never taken down**, under an invariant of the steps. -/
theorem once_iff (keep : ∀ s a, I s → I (step s a))
    (flag : ∀ s a, I s → (F (step s a) ↔ F s ∨ P s a)) (hs : I s) (hF : ¬ F s) (l : List ι) :
    F (run step s l) ↔ Once step P s l := by
  induction l using List.reverseRecOn with
  | nil => exact iff_of_false hF (not_once_nil s)
  | append_singleton l b ih =>
    rw [run_snoc, flag _ b (inv_run keep l hs), once_snoc, ih]

end

/-! ## Records -/

/-- **Every entry meets `P`** with the entries before it. -/
def Recorded {α : Type} (P : List α → α → Prop) (l : List α) : Prop :=
  ∀ before a after, l = before ++ a :: after → P before a

section

variable {α : Type} {P : List α → α → Prop} {l : List α}

theorem recorded_nil : Recorded P [] := fun before a after h => by cases before <;> cases h

/-- One more entry. -/
theorem recorded_snoc (a : α) : Recorded P (l ++ [a]) ↔ Recorded P l ∧ P l a := by
  constructor
  · intro h
    refine ⟨fun before b after heq => h before b (after ++ [a]) ?_, h l a [] rfl⟩
    rw [heq, List.append_assoc]
    rfl
  · rintro ⟨h, ha⟩ before b after heq
    rcases List.eq_nil_or_concat after with rfl | ⟨after, c, rfl⟩
    · obtain ⟨rfl, hb⟩ := List.append_inj' heq rfl
      obtain rfl := (List.cons.inj hb).1
      exact ha
    · rw [List.concat_eq_append, ← List.cons_append, ← List.append_assoc] at heq
      obtain ⟨rfl, -⟩ := List.append_inj' heq rfl
      exact h before b after rfl

/-- An entry meets `P` with some of the others. -/
theorem Recorded.of_mem (h : Recorded P l) {a : α} (ha : a ∈ l) : ∃ before ⊆ l, P before a := by
  obtain ⟨before, after, rfl⟩ := List.append_of_mem ha
  exact ⟨before, List.subset_append_left _ _, h before a after rfl⟩

/-- More entries, all of which meet `P` whatever comes between. -/
theorem Recorded.append (h : Recorded P l) (more : List α)
    (hmore : ∀ a ∈ more, ∀ between, P (l ++ between) a) : Recorded P (l ++ more) := by
  induction more using List.reverseRecOn with
  | nil => rwa [List.append_nil]
  | append_singleton more a ih =>
    rw [← List.append_assoc, recorded_snoc]
    exact ⟨ih fun b hb => hmore b (List.mem_append_left _ hb),
      hmore a (List.mem_append_right _ (List.mem_singleton.2 rfl)) _⟩

end

end Run
