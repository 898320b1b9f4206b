import Mathlib.Tactic.Common
import Mathlib.Data.List.Basic
import Mathlib.Logic.Function.Iterate

/-!
# Runs of a step function

A system that answers a sequence of inputs is a step function `σ → ι → σ`,
and a run of it is a fold over the inputs. Two things are said of a run:
what holds of the state it reaches, and what holds of each of its steps – of
the pair of the state a step starts in and the input it answers. The second
is `Along`, and it is the form both sides of an exact condition take: a
property of every step on the one side, a condition on every step on the
other. `Along.inv_mem` carries an invariant through a run whose steps all meet a
condition, and `along_congr` exchanges one property of the steps for another
under an invariant that either of them keeps.

A system that answers as it steps is a function `σ → ι → ο × σ`, and
`outputs` are its answers along a run. Two such systems give the same answers
when a relation between their states is kept by every step
(`outputs_eq_of_simulation`).

A step that need not come back is a function `σ → ι → Option σ`. Such a system
refines another where every step from related states comes back and is followed
by the other (`runOption_of_refines`).

A machine that takes no inputs is a function `σ → σ`, and stays for good where a step
changes nothing: two such states that it reaches are one
(`Reaches.eq_of_halted`). `reaches_rounds` is the rule for a loop of which every
round goes on or stops.
-/

namespace Run

variable {σ ι : Type}

/-- The state a run reaches. -/
def run (step : σ → ι → σ) (s : σ) (l : List ι) : σ := l.foldl step s

/-- **Every step of the run meets `P`**: a property of the state the step
starts in and of the input it answers. -/
def Along (step : σ → ι → σ) (P : σ → ι → Prop) : σ → List ι → Prop
  | _, [] => True
  | s, a :: l => P s a ∧ Along step P (step s a) l

variable {step : σ → ι → σ} {P Q : σ → ι → Prop}

@[simp] theorem run_nil (s : σ) : run step s [] = s := rfl

@[simp] theorem run_cons (s : σ) (a : ι) (l : List ι) :
    run step s (a :: l) = run step (step s a) l := rfl

theorem run_append (s : σ) (l l' : List ι) :
    run step s (l ++ l') = run step (run step s l) l' :=
  List.foldl_append

@[simp] theorem along_nil (s : σ) : Along step P s [] := trivial

@[simp] theorem along_cons (s : σ) (a : ι) (l : List ι) :
    Along step P s (a :: l) ↔ P s a ∧ Along step P (step s a) l := Iff.rfl

/-- A property holds along a run in two parts when it holds along either part. -/
theorem along_append (s : σ) (l l' : List ι) :
    Along step P s (l ++ l') ↔ Along step P s l ∧ Along step P (run step s l) l' := by
  induction l generalizing s with
  | nil => simp
  | cons a l ih => simp [ih, and_assoc]

/-- A property of the inputs alone holds along a run when it holds of every
input. -/
theorem along_input_iff {R : ι → Prop} (s : σ) (l : List ι) :
    Along step (fun _ a => R a) s l ↔ ∀ a ∈ l, R a := by
  induction l generalizing s with
  | nil => simp
  | cons a l ih => simp [ih]

/-- **The invariant rule.** Where every step on an input of the run that
meets `P` keeps `I`, a run whose steps all meet `P` ends in `I`. -/
theorem Along.inv_mem {I : σ → Prop} {s : σ} {l : List ι}
    (keep : ∀ s a, a ∈ l → I s → P s a → I (step s a)) (hs : I s)
    (h : Along step P s l) : I (run step s l) := by
  induction l generalizing s with
  | nil => exact hs
  | cons a l ih =>
    exact ih (fun s b hb => keep s b (List.mem_cons_of_mem a hb))
      (keep s a List.mem_cons_self hs h.1) h.2

/-- An invariant every step keeps holds along the whole run. -/
theorem inv_run {I : σ → Prop} (keep : ∀ s a, I s → I (step s a)) {s : σ}
    (l : List ι) (hs : I s) : I (run step s l) := by
  induction l generalizing s with
  | nil => exact hs
  | cons a l ih => exact ih (keep s a hs)

/-- An invariant that every step on an input of the run keeps. -/
theorem inv_run_mem {I : σ → Prop} {s : σ} {l : List ι}
    (keep : ∀ s a, a ∈ l → I s → I (step s a)) (hs : I s) : I (run step s l) :=
  Along.inv_mem (P := fun _ _ => True) (fun s a ha hI _ => keep s a ha hI) hs
    ((along_input_iff s l).mpr fun _ _ => trivial)

/-- **Exchanging a property of the steps.** Two properties of steps that
agree on the states of an invariant kept by the steps that meet the first
hold along the same runs. -/
theorem along_congr {I : σ → Prop}
    (keep : ∀ s a, I s → P s a → I (step s a))
    (agree : ∀ s a, I s → (P s a ↔ Q s a)) {s : σ} (hs : I s) (l : List ι) :
    Along step P s l ↔ Along step Q s l := by
  induction l generalizing s with
  | nil => exact Iff.rfl
  | cons a l ih =>
    constructor
    · rintro ⟨ha, hl⟩
      exact ⟨(agree s a hs).mp ha, (ih (keep s a hs ha)).mp hl⟩
    · rintro ⟨ha, hl⟩
      have hP := (agree s a hs).mpr ha
      exact ⟨hP, (ih (keep s a hs hP)).mpr hl⟩

/-- Two properties that agree on the inputs of the run hold along it
together. -/
theorem along_congr_mem (s : σ) (l : List ι)
    (agree : ∀ s a, a ∈ l → (P s a ↔ Q s a)) :
    Along step P s l ↔ Along step Q s l := by
  induction l generalizing s with
  | nil => exact Iff.rfl
  | cons a l ih =>
    exact and_congr (agree s a List.mem_cons_self)
      (ih (step s a) (fun s b hb => agree s b (List.mem_cons_of_mem a hb)))

/-- Two properties that agree on the inputs of the run and the states of an
invariant hold along it together. -/
theorem along_congr_inv_mem {I : σ → Prop} {s : σ} {l : List ι}
    (keep : ∀ s a, a ∈ l → I s → I (step s a))
    (agree : ∀ s a, a ∈ l → I s → (P s a ↔ Q s a)) (hs : I s) :
    Along step P s l ↔ Along step Q s l := by
  induction l generalizing s with
  | nil => exact Iff.rfl
  | cons a l ih =>
    exact and_congr (agree s a List.mem_cons_self hs)
      (ih (fun s b hb => keep s b (List.mem_cons_of_mem a hb))
        (fun s b hb => agree s b (List.mem_cons_of_mem a hb))
        (keep s a List.mem_cons_self hs))

/-! ## Answers -/

/-- The state a system that answers steps to. -/
def next {ο : Type} (answer : σ → ι → ο × σ) (s : σ) (a : ι) : σ := (answer s a).2

/-- The answers along a run. -/
def outputs {ο : Type} (answer : σ → ι → ο × σ) : σ → List ι → List ο
  | _, [] => []
  | s, a :: l => (answer s a).1 :: outputs answer (answer s a).2 l

/-- **The simulation rule.** Where every step from related states gives the
same answer and leads to related states, the answers along a run are the
same, and the states it reaches are related. -/
theorem outputs_eq_of_simulation {τ ο : Type} {answer : σ → ι → ο × σ}
    {answer' : τ → ι → ο × τ} {R : σ → τ → Prop}
    (sim : ∀ s t a, R s t →
      (answer s a).1 = (answer' t a).1 ∧ R (answer s a).2 (answer' t a).2)
    {s : σ} {t : τ} (h : R s t) (l : List ι) :
    outputs answer s l = outputs answer' t l
      ∧ R (run (next answer) s l) (run (next answer') t l) := by
  induction l generalizing s t with
  | nil => exact ⟨rfl, h⟩
  | cons a l ih =>
    obtain ⟨hout, hnext⟩ := sim s t a h
    obtain ⟨houts, hrel⟩ := ih hnext
    unfold outputs
    rw [hout, houts]
    exact ⟨rfl, hrel⟩

/-! ## Steps that need not come back -/

/-- The state a run reaches, if all of its steps come back. -/
def runOption (step : σ → ι → Option σ) (s : σ) (l : List ι) : Option σ := l.foldlM step s

@[simp] theorem runOption_nil (step : σ → ι → Option σ) (s : σ) :
    runOption step s [] = some s := rfl

theorem runOption_cons (step : σ → ι → Option σ) (s : σ) (a : ι) (l : List ι) :
    runOption step s (a :: l) = (step s a).bind fun s => runOption step s l :=
  List.foldlM_cons

theorem runOption_append (step : σ → ι → Option σ) (s : σ) (l l' : List ι) :
    runOption step s (l ++ l') = (runOption step s l).bind fun s => runOption step s l' :=
  List.foldlM_append

/-- **The refinement rule.** Where every step from related states comes back, to a
state related to what the other system steps to, every run comes back, to a
state related to what the other system reaches. -/
theorem runOption_of_refines {τ : Type} {step : σ → ι → Option σ} {step' : τ → ι → τ}
    {R : σ → τ → Prop}
    (keep : ∀ s t a, R s t → ∃ s', step s a = some s' ∧ R s' (step' t a))
    {s : σ} {t : τ} (h : R s t) (l : List ι) :
    ∃ s', runOption step s l = some s' ∧ R s' (run step' t l) := by
  induction l generalizing s t with
  | nil => exact ⟨s, rfl, h⟩
  | cons a l ih =>
    obtain ⟨s', hs', hrel⟩ := keep s t a h
    rw [runOption_cons, hs']
    exact ih hrel

/-- The refinement rule for runs of which the steps of the other system all meet `P`. -/
theorem runOption_of_refines_along {τ : Type} {step : σ → ι → Option σ} {step' : τ → ι → τ}
    {R : σ → τ → Prop} {P : τ → ι → Prop} {s : σ} {t : τ} {l : List ι}
    (keep : ∀ s t, ∀ a ∈ l, R s t → P t a → ∃ s', step s a = some s' ∧ R s' (step' t a))
    (h : R s t) (halong : Along step' P t l) :
    ∃ s', runOption step s l = some s' ∧ R s' (run step' t l) := by
  induction l generalizing s t with
  | nil => exact ⟨s, rfl, h⟩
  | cons a l ih =>
    obtain ⟨s', hs', hrel⟩ := keep s t a List.mem_cons_self h halong.1
    rw [runOption_cons, hs']
    exact ih (fun s t b hb => keep s t b (List.mem_cons_of_mem a hb)) hrel halong.2

/-- **The invariant rule** where every step comes back. -/
theorem runOption_inv {step : σ → ι → Option σ} {I : σ → Prop} {s : σ} {l : List ι}
    (keep : ∀ s, ∀ a ∈ l, I s → ∃ s', step s a = some s' ∧ I s') (hs : I s) :
    ∃ s', runOption step s l = some s' ∧ I s' := by
  induction l generalizing s with
  | nil => exact ⟨s, rfl, hs⟩
  | cons a l ih =>
    obtain ⟨s', hstep, hs'⟩ := keep s a List.mem_cons_self hs
    rw [runOption_cons, hstep]
    exact ih (fun s b hb => keep s b (List.mem_cons_of_mem a hb)) hs'

/-- **Every step of the run comes back and meets `P`**: a property of the state it
starts in, of the input it answers and of the state it leads to. -/
def AlongOption (step : σ → ι → Option σ) (P : σ → ι → σ → Prop) : σ → List ι → Prop
  | _, [] => True
  | s, a :: l => ∃ s', step s a = some s' ∧ P s a s' ∧ AlongOption step P s' l

/-- Two properties of steps that agree on the states of an invariant kept by every
step hold along the same runs. -/
theorem alongOption_congr {step : σ → ι → Option σ} {P Q : σ → ι → σ → Prop} {I : σ → Prop}
    (keep : ∀ s a s', I s → step s a = some s' → I s')
    (agree : ∀ s a s', I s → step s a = some s' → (P s a s' ↔ Q s a s')) {s : σ} (hs : I s)
    (l : List ι) : AlongOption step P s l ↔ AlongOption step Q s l := by
  induction l generalizing s with
  | nil => exact Iff.rfl
  | cons a l ih =>
    unfold AlongOption
    refine exists_congr fun s' => and_congr_right fun hstep => ?_
    exact and_congr (agree s a s' hs hstep) (ih (keep s a s' hs hstep))

/-- An invariant of the steps that meet `P`. -/
theorem AlongOption.inv {step : σ → ι → Option σ} {P : σ → ι → σ → Prop} {I : σ → Prop} {s t : σ}
    {l : List ι} (keep : ∀ s a s', I s → step s a = some s' → P s a s' → I s') (hs : I s)
    (h : AlongOption step P s l) (hrun : runOption step s l = some t) : I t := by
  induction l generalizing s with
  | nil => exact Option.some.inj hrun ▸ hs
  | cons a l ih =>
    obtain ⟨s', hstep, hP, hrest⟩ := h
    rw [runOption_cons, hstep] at hrun
    exact ih (keep s a s' hs hstep hP) hrest hrun

/-- A step of a run meets what holds along the run. -/
theorem AlongOption.step_of_append {step : σ → ι → Option σ} {P : σ → ι → σ → Prop} {s t u : σ}
    {l : List ι} {a : ι} (h : AlongOption step P s (l ++ [a]))
    (hrun : runOption step s l = some t) (hstep : step t a = some u) : P t a u := by
  induction l generalizing s with
  | nil =>
    cases hrun
    obtain ⟨u', hu', hP, -⟩ := h
    rw [hstep] at hu'
    exact Option.some.inj hu' ▸ hP
  | cons b l ih =>
    obtain ⟨s', hs', -, hrest⟩ := h
    rw [runOption_cons, hs'] at hrun
    exact ih hrest hrun

/-! ## Machines -/

/-- The machine gets from one state to the other. -/
def Reaches (step : σ → σ) (s t : σ) : Prop := ∃ k, step^[k] s = t

namespace Reaches

variable {step : σ → σ} {s t u : σ}

theorem refl (s : σ) : Reaches step s s := ⟨0, rfl⟩

theorem trans (hst : Reaches step s t) (htu : Reaches step t u) : Reaches step s u := by
  obtain ⟨k, rfl⟩ := hst
  obtain ⟨l, rfl⟩ := htu
  exact ⟨l + k, Function.iterate_add_apply step l k s⟩

/-- **The machine halts in one state at most.** -/
theorem eq_of_halted (ht : Reaches step s t) (hu : Reaches step s u) (hhalt : step t = t)
    (hhalt' : step u = u) : t = u := by
  obtain ⟨k, rfl⟩ := ht
  obtain ⟨l, rfl⟩ := hu
  have hk : step^[l] (step^[k] s) = step^[k] s := Function.iterate_fixed hhalt l
  have hl : step^[k] (step^[l] s) = step^[l] s := Function.iterate_fixed hhalt' k
  rw [← hk, ← Function.iterate_add_apply, Nat.add_comm, Function.iterate_add_apply, hl]

end Reaches

/-- **The rule for rounds.** Where every round that meets `G` keeps `I`, and every
one that does not stops, `n` rounds that meet `G` keep `I`, and others stop on
the way. -/
theorem reaches_rounds {step : σ → σ} {Stops : σ → Prop} {I : ℕ → σ → Prop} {G : ℕ → Prop} {n : ℕ}
    (round : ∀ j s, j < n → I j s → (¬G j ∧ ∃ t, Reaches step s t ∧ Stops t)
      ∨ G j ∧ ∃ t, Reaches step s t ∧ I (j + 1) t)
    {s : σ} (hs : I 0 s) :
    ((¬∀ j < n, G j) ∧ ∃ t, Reaches step s t ∧ Stops t)
      ∨ (∀ j < n, G j) ∧ ∃ t, Reaches step s t ∧ I n t := by
  induction n with
  | zero => exact Or.inr ⟨fun j hj => absurd hj (Nat.not_lt_zero j), s, Reaches.refl s, hs⟩
  | succ n ih =>
    rcases ih (fun j s hj => round j s (Nat.lt_succ_of_lt hj)) with
      ⟨hbad, hstops⟩ | ⟨hgood, t, hst, ht⟩
    · exact Or.inl ⟨fun h => hbad fun j hj => h j (Nat.lt_succ_of_lt hj), hstops⟩
    · rcases round n t (Nat.lt_succ_self n) ht with ⟨hbad, u, htu, hu⟩ | ⟨hn, u, htu, hu⟩
      · exact Or.inl ⟨fun h => hbad (h n (Nat.lt_succ_self n)), u, hst.trans htu, hu⟩
      · refine Or.inr ⟨fun j hj => ?_, u, hst.trans htu, hu⟩
        rcases Nat.lt_succ_iff_lt_or_eq.1 hj with hlt | rfl
        · exact hgood j hlt
        · exact hn

end Run
