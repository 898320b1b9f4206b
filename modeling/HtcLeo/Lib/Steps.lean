import HtcLeo.Lib.Routine

/-!
# Routines that follow steps

A long routine that gives up at the first thing that fails is, to an observer who
knows only what the device shows, a list of steps. A **step** is two relations between
what is shown before it and after it: how it may pass, and how it may fail. A list of
steps is either completed or cut short, and `Routine.Follows` says of a routine that it
ends badly just where the steps are cut short, and well just where they are completed.

The rules follow the shape of the code. What shows nothing is no step
(`Routine.follows_of_silent`), a sequence follows one list and then the other, if all it
does after a bad result is to give up (`Routine.Follows.bind`), and a loop follows the steps of
its rounds, be they so many (`Routine.follows_loop`) or without end
(`Routine.follows_endless`).
-/

/-- **A step**, as the relations of what is shown before it and after it. -/
structure Step (τ : Type) where
  passes : τ → τ → Prop
  fails : τ → τ → Prop

namespace Step

variable {τ : Type}

/-- All steps pass. -/
def Completes : List (Step τ) → τ → τ → Prop
  | [], s, t => s = t
  | step :: rest, s, t => ∃ u, step.passes s u ∧ Completes rest u t

/-- One of the steps fails. -/
def CutShort : List (Step τ) → τ → τ → Prop
  | [], _, _ => False
  | step :: rest, s, t => step.fails s t ∨ ∃ u, step.passes s u ∧ CutShort rest u t

/-- The steps are over, one way or the other. -/
def Ends (steps : List (Step τ)) (s t : τ) : Prop := CutShort steps s t ∨ Completes steps s t

/-- Steps that are followed by the next however they end. -/
def tried (steps : List (Step τ)) : Step τ where
  passes := Ends steps
  fails _ _ := False

/-- So many rounds of steps. -/
def rounds (steps : List (Step τ)) (n : ℕ) : List (Step τ) := (List.replicate n steps).flatten

/-- Rounds of steps that go on until one is cut short. -/
def endless (steps : List (Step τ)) : Step τ where
  passes _ _ := False
  fails s t := ∃ n, CutShort (rounds steps n) s t

theorem rounds_succ (steps : List (Step τ)) (n : ℕ) :
    rounds steps (n + 1) = steps ++ rounds steps n := rfl

variable (steps steps' : List (Step τ)) {s t : τ}

theorem completes_singleton (step : Step τ) : Completes [step] s t ↔ step.passes s t :=
  ⟨fun ⟨_, h, heq⟩ => heq ▸ h, fun h => ⟨t, h, rfl⟩⟩

theorem cutShort_singleton (step : Step τ) : CutShort [step] s t ↔ step.fails s t :=
  ⟨fun h => h.elim id fun ⟨_, _, h⟩ => h.elim, Or.inl⟩

theorem completes_append :
    Completes (steps ++ steps') s t ↔ ∃ u, Completes steps s u ∧ Completes steps' u t := by
  induction steps generalizing s with
  | nil => exact ⟨fun h => ⟨s, rfl, h⟩, fun ⟨_, hs, h⟩ => hs ▸ h⟩
  | cons step rest ih =>
    constructor
    · rintro ⟨v, hstep, h⟩
      obtain ⟨u, hrest, h'⟩ := ih.mp h
      exact ⟨u, ⟨v, hstep, hrest⟩, h'⟩
    · rintro ⟨u, ⟨v, hstep, hrest⟩, h'⟩
      exact ⟨v, hstep, ih.mpr ⟨u, hrest, h'⟩⟩

theorem cutShort_append :
    CutShort (steps ++ steps') s t
      ↔ CutShort steps s t ∨ ∃ u, Completes steps s u ∧ CutShort steps' u t := by
  induction steps generalizing s with
  | nil => exact ⟨fun h => Or.inr ⟨s, rfl, h⟩, fun h => h.elim False.elim fun ⟨_, hs, h⟩ => hs ▸ h⟩
  | cons step rest ih =>
    constructor
    · rintro (hfails | ⟨v, hstep, h⟩)
      · exact Or.inl (Or.inl hfails)
      · rcases ih.mp h with hcut | ⟨u, hrest, h'⟩
        · exact Or.inl (Or.inr ⟨v, hstep, hcut⟩)
        · exact Or.inr ⟨u, ⟨v, hstep, hrest⟩, h'⟩
    · rintro ((hfails | ⟨v, hstep, hcut⟩) | ⟨u, ⟨v, hstep, hrest⟩, h'⟩)
      · exact Or.inl hfails
      · exact Or.inr ⟨v, hstep, ih.mpr (Or.inl hcut)⟩
      · exact Or.inr ⟨v, hstep, ih.mpr (Or.inr ⟨u, hrest, h'⟩)⟩

/-- **A step keeps `I`**, however it ends. -/
def Keeps (I : τ → Prop) (step : Step τ) : Prop :=
  ∀ s t, step.passes s t ∨ step.fails s t → I s → I t

variable {steps} {I : τ → Prop}

theorem keeps_completes (h : ∀ step ∈ steps, Keeps I step) (hrun : Completes steps s t) (hs : I s) :
    I t := by
  induction steps generalizing s with
  | nil => exact hrun ▸ hs
  | cons step rest ih =>
    obtain ⟨hstep, hrest⟩ := List.forall_mem_cons.mp h
    obtain ⟨u, hpasses, hrun⟩ := hrun
    exact ih hrest hrun (hstep s u (Or.inl hpasses) hs)

theorem keeps_cutShort (h : ∀ step ∈ steps, Keeps I step) (hrun : CutShort steps s t) (hs : I s) :
    I t := by
  induction steps generalizing s with
  | nil => exact hrun.elim
  | cons step rest ih =>
    obtain ⟨hstep, hrest⟩ := List.forall_mem_cons.mp h
    rcases hrun with hfails | ⟨u, hpasses, hrun⟩
    · exact hstep s t (Or.inr hfails) hs
    · exact ih hrest hrun (hstep s u (Or.inl hpasses) hs)

theorem keeps_tried (h : ∀ step ∈ steps, Keeps I step) : Keeps I (tried steps) := by
  rintro s t ((hcut | hdone) | hfalse) hs
  · exact keeps_cutShort h hcut hs
  · exact keeps_completes h hdone hs
  · exact hfalse.elim

theorem keeps_rounds (h : ∀ step ∈ steps, Keeps I step) (n : ℕ) :
    ∀ step ∈ rounds steps n, Keeps I step := by
  intro step hstep
  obtain ⟨l, hl, hmem⟩ := List.mem_flatten.mp hstep
  rw [List.eq_of_mem_replicate hl] at hmem
  exact h step hmem

theorem keeps_endless (h : ∀ step ∈ steps, Keeps I step) : Keeps I (endless steps) := by
  rintro s t (hfalse | ⟨n, hcut⟩) hs
  · exact hfalse.elim
  · exact keeps_cutShort (keeps_rounds h n) hcut hs

end Step

namespace Routine

open Step

variable {σ τ β γ : Type} {view : σ → τ} {P : σ → Prop}

/-- **From the states in `P`, the routine follows the steps**: it ends badly just where they
are cut short, and well just where they are completed, and then it leaves `Q`. -/
structure Follows (view : σ → τ) (P : σ → Prop) (steps : List (Step τ)) (x : Routine σ β)
    (bad : β → Prop) (Q : β → σ → Prop) : Prop where
  cut : ∀ s, P s → ∀ t, (∃ b s', x s = (some b, s') ∧ bad b ∧ view s' = t)
    ↔ CutShort steps (view s) t
  completes : ∀ s, P s → ∀ t, (∃ b s', x s = (some b, s') ∧ ¬ bad b ∧ view s' = t)
    ↔ Completes steps (view s) t
  post : ∀ s, P s → ∀ b s', x s = (some b, s') → ¬ bad b → Q b s'

/-- A routine that returns without having shown anything follows no steps. -/
theorem follows_of_silent {x : Routine σ β} {bad : β → Prop} {Q : β → σ → Prop}
    (h : ∀ s, P s → ∃ b s', x s = (some b, s') ∧ ¬ bad b ∧ view s' = view s ∧ Q b s') :
    Follows view P [] x bad Q where
  cut s hs t := by
    obtain ⟨b, s', hx, hgood, -, -⟩ := h s hs
    refine iff_of_false ?_ False.elim
    rintro ⟨b', s'', hx', hbad, -⟩
    cases hx.symm.trans hx'
    exact hgood hbad
  completes s hs t := by
    obtain ⟨b, s', hx, hgood, hview, -⟩ := h s hs
    constructor
    · rintro ⟨b', s'', hx', -, rfl⟩
      cases hx.symm.trans hx'
      exact hview.symm
    · rintro rfl
      exact ⟨b, s', hx, hgood, hview⟩
  post s hs b s' hx _ := by
    obtain ⟨b', s'', hx', -, -, hQ⟩ := h s hs
    cases hx'.symm.trans hx
    exact hQ

/-- What returns as it stands. -/
theorem follows_pure {bad : β → Prop} {Q : β → σ → Prop} (b : β) (hgood : ¬ bad b)
    (hQ : ∀ s, P s → Q b s) : Follows view P [] (pure b) bad Q :=
  follows_of_silent fun s hs => ⟨b, s, rfl, hgood, rfl, hQ s hs⟩

variable {steps steps' : List (Step τ)} {x : Routine σ β} {f : β → Routine σ γ}
  {bad : β → Prop} {bad' : γ → Prop} {Q : β → σ → Prop} {R : γ → σ → Prop}

/-- A routine that is one step. -/
theorem follows_step {step : Step τ}
    (hfails : ∀ s, P s → ∀ t, (∃ b s', x s = (some b, s') ∧ bad b ∧ view s' = t)
      ↔ step.fails (view s) t)
    (hpasses : ∀ s, P s → ∀ t, (∃ b s', x s = (some b, s') ∧ ¬ bad b ∧ view s' = t)
      ↔ step.passes (view s) t)
    (hpost : ∀ s, P s → ∀ b s', x s = (some b, s') → ¬ bad b → Q b s') :
    Follows view P [step] x bad Q where
  cut s hs t := (hfails s hs t).trans (cutShort_singleton step).symm
  completes s hs t := (hpasses s hs t).trans (completes_singleton step).symm
  post := hpost

/-- **The rule for a sequence**, of which a bad first part is the end. -/
theorem Follows.bind (hx : Follows view P steps x bad Q)
    (hbad : ∀ b, bad b → ∃ e, f b = pure e ∧ bad' e)
    (hf : ∀ b, ¬ bad b → Follows view (Q b) steps' (f b) bad' R) :
    Follows view P (steps ++ steps') (x >>= f) bad' R where
  cut s hs t := by
    rw [cutShort_append]
    constructor
    · rintro ⟨c, s'', hrun, hend, rfl⟩
      obtain ⟨b, s', hfirst, hrest⟩ := bind_eq_some_iff.mp hrun
      by_cases hb : bad b
      · obtain ⟨e, he, -⟩ := hbad b hb
        rw [he] at hrest
        cases hrest
        exact Or.inl ((hx.cut s hs _).mp ⟨b, _, hfirst, hb, rfl⟩)
      · refine Or.inr ⟨view s', (hx.completes s hs _).mp ⟨b, s', hfirst, hb, rfl⟩, ?_⟩
        exact ((hf b hb).cut s' (hx.post s hs b s' hfirst hb) _).mp ⟨c, s'', hrest, hend, rfl⟩
    · rintro (hcut | ⟨u, hpassed, hcut⟩)
      · obtain ⟨b, s', hfirst, hb, rfl⟩ := (hx.cut s hs t).mpr hcut
        obtain ⟨e, he, hend⟩ := hbad b hb
        refine ⟨e, s', ?_, hend, rfl⟩
        rw [bind_of_returns hfirst, he]
        rfl
      · obtain ⟨b, s', hfirst, hb, rfl⟩ := (hx.completes s hs u).mpr hpassed
        obtain ⟨c, s'', hrest, hend, hview⟩ :=
          ((hf b hb).cut s' (hx.post s hs b s' hfirst hb) t).mpr hcut
        exact ⟨c, s'', (bind_of_returns hfirst).trans hrest, hend, hview⟩
  completes s hs t := by
    rw [completes_append]
    constructor
    · rintro ⟨c, s'', hrun, hend, rfl⟩
      obtain ⟨b, s', hfirst, hrest⟩ := bind_eq_some_iff.mp hrun
      have hb : ¬ bad b := fun hb => by
        obtain ⟨e, he, hend'⟩ := hbad b hb
        rw [he] at hrest
        cases hrest
        exact hend hend'
      refine ⟨view s', (hx.completes s hs _).mp ⟨b, s', hfirst, hb, rfl⟩, ?_⟩
      exact ((hf b hb).completes s' (hx.post s hs b s' hfirst hb) _).mp ⟨c, s'', hrest, hend, rfl⟩
    · rintro ⟨u, hpassed, hcompletes⟩
      obtain ⟨b, s', hfirst, hb, rfl⟩ := (hx.completes s hs u).mpr hpassed
      obtain ⟨c, s'', hrest, hend, hview⟩ :=
        ((hf b hb).completes s' (hx.post s hs b s' hfirst hb) t).mpr hcompletes
      exact ⟨c, s'', (bind_of_returns hfirst).trans hrest, hend, hview⟩
  post s hs c s'' hrun hend := by
    obtain ⟨b, s', hfirst, hrest⟩ := bind_eq_some_iff.mp hrun
    by_cases hb : bad b
    · obtain ⟨e, he, hend'⟩ := hbad b hb
      rw [he] at hrest
      cases hrest
      exact absurd hend' hend
    · exact (hf b hb).post s' (hx.post s hs b s' hfirst hb) c s'' hrest hend

/-- A first step, and the others. -/
theorem Follows.step {step : Step τ} (hx : Follows view P [step] x bad Q)
    (hbad : ∀ b, bad b → ∃ e, f b = pure e ∧ bad' e)
    (hf : ∀ b, ¬ bad b → Follows view (Q b) steps' (f b) bad' R) :
    Follows view P (step :: steps') (x >>= f) bad' R := hx.bind hbad hf

/-- A step that ends the routine if it fails. -/
theorem Follows.attempt {step : Step τ} {p : β → Prop} [DecidablePred p] {e : γ}
    {rest : β → Routine σ γ} (hx : Follows view P [step] x p Q) (he : bad' e)
    (hrest : ∀ b, ¬ p b → Follows view (Q b) steps' (rest b) bad' R) :
    Follows view P (step :: steps') (x >>= fun b => if p b then pure e else rest b) bad' R := by
  refine hx.step (fun b hb => ⟨e, if_pos hb, he⟩) fun b hb => ?_
  rw [if_neg hb]
  exact hrest b hb

/-- What is known of the values before a routine may be used of it. -/
theorem follows_of_known {φ : Prop} (h : φ → Follows view P steps x bad Q) :
    Follows view (fun s => φ ∧ P s) steps x bad Q where
  cut s hs := (h hs.1).cut s hs.2
  completes s hs := (h hs.1).completes s hs.2
  post s hs := (h hs.1).post s hs.2

/-- What a routine follows from every state of its own. -/
theorem follows_of_state (h : ∀ s, P s → Follows view (fun s' => s' = s) steps x bad Q) :
    Follows view P steps x bad Q where
  cut s hs := (h s hs).cut s rfl
  completes s hs := (h s hs).completes s rfl
  post s hs := (h s hs).post s rfl

/-- What shows nothing, and the steps after it. -/
theorem Follows.silent (hx : Follows view P [] x (fun _ => False) Q)
    (hf : ∀ b, Follows view (Q b) steps' (f b) bad' R) :
    Follows view P steps' (x >>= f) bad' R :=
  hx.bind (fun _ hb => hb.elim) fun b _ => hf b

/-- Less may be known before, and more after. -/
theorem Follows.mono (hx : Follows view P steps x bad Q) {P' : σ → Prop} {Q' : β → σ → Prop}
    (hP : ∀ s, P' s → P s) (hQ : ∀ s, P' s → ∀ b s', x s = (some b, s') → Q b s' → Q' b s') :
    Follows view P' steps x bad Q' where
  cut s hs := hx.cut s (hP s hs)
  completes s hs := hx.completes s (hP s hs)
  post s hs b s' hrun hb := hQ s hs b s' hrun (hx.post s (hP s hs) b s' hrun hb)

/-! ## Routines that end somehow -/

/-- **From the states in `P`, the routine tries the steps**: it returns just where they are over. -/
def Tries (view : σ → τ) (P : σ → Prop) (steps : List (Step τ)) (x : Routine σ β) : Prop :=
  ∀ s, P s → ∀ t, (∃ b s', x s = (some b, s') ∧ view s' = t) ↔ Ends steps (view s) t

theorem tries_pure (b : β) : Tries view P [] (pure b : Routine σ β) := by
  intro s _ t
  constructor
  · rintro ⟨b', s', h, rfl⟩
    cases h
    exact Or.inr rfl
  · rintro (hcut | heq)
    · exact hcut.elim
    · exact ⟨b, s, rfl, heq⟩

theorem tries_of_known {φ : Prop} (h : φ → Tries view P steps x) :
    Tries view (fun s => φ ∧ P s) steps x := fun s hs => h hs.1 s hs.2

/-- What follows steps tries them. -/
theorem Follows.tries (hx : Follows view P steps x bad Q) : Tries view P steps x := by
  intro s hs t
  constructor
  · rintro ⟨b, s', hrun, hview⟩
    by_cases hb : bad b
    · exact Or.inl ((hx.cut s hs t).mp ⟨b, s', hrun, hb, hview⟩)
    · exact Or.inr ((hx.completes s hs t).mp ⟨b, s', hrun, hb, hview⟩)
  · rintro (hcut | hcompletes)
    · obtain ⟨b, s', hrun, -, hview⟩ := (hx.cut s hs t).mpr hcut
      exact ⟨b, s', hrun, hview⟩
    · obtain ⟨b, s', hrun, -, hview⟩ := (hx.completes s hs t).mpr hcompletes
      exact ⟨b, s', hrun, hview⟩

/-- Steps to be followed, and others to be tried after them. -/
theorem Follows.bind_tries (hx : Follows view P steps x bad Q)
    (hbad : ∀ b, bad b → ∃ e, f b = pure e)
    (hf : ∀ b, ¬ bad b → Tries view (Q b) steps' (f b)) :
    Tries view P (steps ++ steps') (x >>= f) := by
  intro s hs t
  unfold Ends
  rw [cutShort_append, completes_append]
  constructor
  · rintro ⟨c, s'', hrun, rfl⟩
    obtain ⟨b, s', hfirst, hrest⟩ := bind_eq_some_iff.mp hrun
    by_cases hb : bad b
    · obtain ⟨e, he⟩ := hbad b hb
      rw [he] at hrest
      cases hrest
      exact Or.inl (Or.inl ((hx.cut s hs _).mp ⟨b, _, hfirst, hb, rfl⟩))
    · have hpassed := (hx.completes s hs _).mp ⟨b, s', hfirst, hb, rfl⟩
      rcases (hf b hb s' (hx.post s hs b s' hfirst hb) _).mp ⟨c, s'', hrest, rfl⟩ with hcut | hdone
      · exact Or.inl (Or.inr ⟨_, hpassed, hcut⟩)
      · exact Or.inr ⟨_, hpassed, hdone⟩
  · -- the rest ends from where the first part has passed
    have hrest : ∀ u, Completes steps (view s) u → Ends steps' u t →
        ∃ c s'', (x >>= f) s = (some c, s'') ∧ view s'' = t := by
      intro u hpassed hends
      obtain ⟨b, s', hfirst, hb, rfl⟩ := (hx.completes s hs u).mpr hpassed
      obtain ⟨c, s'', hrest, hview⟩ :=
        (hf b hb s' (hx.post s hs b s' hfirst hb) t).mpr hends
      exact ⟨c, s'', (bind_of_returns hfirst).trans hrest, hview⟩
    rintro ((hcut | ⟨u, hpassed, hcut⟩) | ⟨u, hpassed, hdone⟩)
    · obtain ⟨b, s', hfirst, hb, rfl⟩ := (hx.cut s hs t).mpr hcut
      obtain ⟨e, he⟩ := hbad b hb
      refine ⟨e, s', ?_, rfl⟩
      rw [bind_of_returns hfirst, he]
      rfl
    · exact hrest u hpassed (Or.inl hcut)
    · exact hrest u hpassed (Or.inr hdone)

/-- What shows nothing, and steps to be tried after it. -/
theorem Follows.silent_tries (hx : Follows view P [] x (fun _ => False) Q)
    (hf : ∀ b, Tries view (Q b) steps (f b)) : Tries view P steps (x >>= f) :=
  hx.bind_tries (fun _ hb => hb.elim) fun b _ => hf b

/-- Steps that are tried are one step, which does not fail. -/
theorem Tries.follows (hx : Tries view P steps x)
    (hpost : ∀ s, P s → ∀ b s', x s = (some b, s') → Q b s') :
    Follows view P [tried steps] x (fun _ => False) Q where
  cut s _ t := by
    rw [cutShort_singleton]
    exact iff_of_false (fun ⟨_, _, _, h, _⟩ => h) id
  completes s hs t := by
    rw [completes_singleton]
    refine Iff.trans ?_ (hx s hs t)
    exact exists_congr fun b => exists_congr fun s' =>
      and_congr_right fun _ => and_iff_right not_false
  post s hs b s' hrun _ := hpost s hs b s' hrun

/-! ## Loops -/

section Loop

variable {fuel : β → σ → ℕ} {body : β → Routine σ (β ⊕ γ)} {b : ℕ → β} {P : ℕ → σ → Prop}

/-- A round from the variables `b n`, in the states `P n`, goes round again if its steps are
completed. -/
def GoesRound (view : σ → τ) (P : ℕ → σ → Prop) (steps : List (Step τ))
    (body : β → Routine σ (β ⊕ γ)) (b : ℕ → β) (bad : γ → Prop) (n : ℕ) : Prop :=
  Follows view (P n) steps (body (b n)) (fun r => ∃ a, r = .inr a ∧ bad a)
    fun r s => r = .inl (b (n + 1)) ∧ P (n + 1) s

variable {bad : γ → Prop} {Q : γ → σ → Prop}

/-- **A loop that is left after `n` rounds.** -/
theorem follows_loop (hconsumes : Consumes fuel body) (n : ℕ)
    (hround : ∀ j < n, GoesRound view P steps body b bad j)
    (hlast : ∀ s, P n s → ∃ a, body (b n) s = (some (.inr a), s) ∧ ¬ bad a ∧ Q a s) :
    Follows view (P 0) (rounds steps n) (loop fuel body (b 0)) bad Q := by
  induction n generalizing b P with
  | zero =>
    refine follows_of_silent fun s hs => ?_
    obtain ⟨a, hleaves, hgood, hQ⟩ := hlast s hs
    exact ⟨a, s, loop_of_leaves hconsumes hleaves, hgood, rfl, hQ⟩
  | succ n ih =>
    rw [loop_step hconsumes, rounds_succ]
    refine (hround 0 (Nat.succ_pos n)).bind ?_ fun r hr => ?_
    · rintro r ⟨a, rfl, ha⟩
      exact ⟨a, rfl, ha⟩
    · refine follows_of_known fun heq => ?_
      subst heq
      exact ih (b := fun j => b (j + 1)) (P := fun j => P (j + 1))
        (fun j hj => hround (j + 1) (Nat.succ_lt_succ hj)) hlast

/-- **A loop that is never left** unless a round is cut short. -/
theorem follows_endless (hconsumes : Consumes fuel body)
    (hround : ∀ n, GoesRound view P steps body b bad n) :
    Follows view (P 0) [endless steps] (loop fuel body (b 0)) bad Q := by
  -- the rounds end in one that is cut short
  have hends : ∀ n s, P n s → ∀ a s', Rounds body (b n) s a s' →
      bad a ∧ ∃ m, CutShort (rounds steps m) (view s) (view s') := by
    intro n s hs a s' h
    generalize hb : b n = v at h
    induction h generalizing n with
    | @leaves v s s' a hrun =>
      subst hb
      by_cases ha : bad a
      · have hcut := ((hround n).cut s hs _).mp ⟨_, s', hrun, ⟨a, rfl, ha⟩, rfl⟩
        refine ⟨ha, 1, ?_⟩
        rw [rounds_succ]
        exact (cutShort_append steps _).mpr (Or.inl hcut)
      · have hgood : ¬ ∃ a', (Sum.inr a : β ⊕ γ) = .inr a' ∧ bad a' := by
          rintro ⟨a', heq, ha'⟩
          cases heq
          exact ha ha'
        cases ((hround n).post s hs _ s' hrun hgood).1
    | @again v v' s s₁ s' a hrun _ ih =>
      subst hb
      have hgood : ¬ ∃ a, (Sum.inl v' : β ⊕ γ) = .inr a ∧ bad a := by
        rintro ⟨a, heq, -⟩
        cases heq
      obtain ⟨heq, hs₁⟩ := (hround n).post s hs _ s₁ hrun hgood
      obtain ⟨ha, m, hcut⟩ := ih (n + 1) hs₁ (Sum.inl.inj heq).symm
      have hpassed := ((hround n).completes s hs _).mp ⟨_, s₁, hrun, hgood, rfl⟩
      refine ⟨ha, m + 1, ?_⟩
      rw [rounds_succ]
      exact (cutShort_append steps _).mpr (Or.inr ⟨_, hpassed, hcut⟩)
  have hcut : ∀ m n s, P n s → ∀ t, CutShort (rounds steps m) (view s) t →
      ∃ a s', Rounds body (b n) s a s' ∧ bad a ∧ view s' = t := by
    intro m
    induction m with
    | zero => exact fun _ _ _ _ h => h.elim
    | succ m ih =>
      intro n s hs t h
      rw [rounds_succ, cutShort_append] at h
      rcases h with hcut | ⟨u, hpassed, hcut⟩
      · obtain ⟨_, s', hrun, ⟨a, rfl, ha⟩, hview⟩ := ((hround n).cut s hs t).mpr hcut
        exact ⟨a, s', .leaves hrun, ha, hview⟩
      · obtain ⟨r, s₁, hrun, hgood, rfl⟩ := ((hround n).completes s hs u).mpr hpassed
        obtain ⟨rfl, hs₁⟩ := (hround n).post s hs r s₁ hrun hgood
        obtain ⟨a, s', hrounds, ha, hview⟩ := ih (n + 1) s₁ hs₁ t hcut
        exact ⟨a, s', .again hrun hrounds, ha, hview⟩
  constructor
  · intro s hs t
    rw [cutShort_singleton]
    constructor
    · rintro ⟨a, s', hrun, -, rfl⟩
      exact (hends 0 s hs a s' ((loop_eq_some_iff hconsumes).mp hrun)).2
    · rintro ⟨m, h⟩
      obtain ⟨a, s', hrounds, ha, hview⟩ := hcut m 0 s hs t h
      exact ⟨a, s', (loop_eq_some_iff hconsumes).mpr hrounds, ha, hview⟩
  · intro s hs t
    rw [completes_singleton]
    refine iff_of_false ?_ id
    rintro ⟨a, s', hrun, hgood, -⟩
    exact hgood (hends 0 s hs a s' ((loop_eq_some_iff hconsumes).mp hrun)).1
  · intro s hs a s' hrun hgood
    exact absurd (hends 0 s hs a s' ((loop_eq_some_iff hconsumes).mp hrun)).1 hgood

end Loop

end Routine
