import Mathlib.Tactic.Common

/-!
# Routines that wait on a device

A driver routine reads and writes a device, and a good part of what it does
is *wait*: it polls a register until the device has come round. Whether it
ever returns is up to the device, so a routine over a device state `σ` is a
function `σ → Option α × σ`: either it returns a value, or the observed
behaviour of the device ends while the routine is still waiting. The device
state is kept in both cases, so that what a waiting routine has already
written can be spoken of.

Loops carry a *fuel* read off the loop variables and the device state. It is
not part of the program: `Routine.loop_eq` says that a loop whose body consumes fuel whenever
it goes round again satisfies the equation of the loop it stands for, in
which no fuel occurs. Two rules carry properties across a whole loop:
`Routine.loop_keeps` for what every iteration keeps, returned or not, and
`Routine.loop_sound` for what holds when the loop returns.
-/

/-- **A routine over a device with states `σ`**: the value it returns, or
`none` when it is still waiting at the end of the observation, and the state
it leaves the device in. -/
def Routine (σ α : Type) : Type := σ → Option α × σ

namespace Routine

variable {σ α β γ : Type}

instance : Monad (Routine σ) where
  pure a := fun s => (some a, s)
  bind x f := fun s => match x s with
    | (some a, s') => f a s'
    | (none, s') => (none, s')

/-- The routine that never returns. -/
def wait : Routine σ α := fun s => (none, s)

/-- Replace the device state. -/
def modify (f : σ → σ) : Routine σ Unit := fun s => (some (), f s)

/-- Read a value off the device, leaving it as it is. -/
def look (f : σ → α) : Routine σ α := fun s => (some (f s), s)

@[simp] theorem pure_apply (a : α) (s : σ) :
    (pure a : Routine σ α) s = (some a, s) := rfl

@[simp] theorem wait_apply (s : σ) : (wait : Routine σ α) s = (none, s) := rfl

@[simp] theorem modify_apply (f : σ → σ) (s : σ) :
    modify f s = (some (), f s) := rfl

@[simp] theorem look_apply (f : σ → α) (s : σ) :
    look f s = (some (f s), s) := rfl

/-- A sequence runs on from where its first part returns. -/
theorem bind_of_returns {x : Routine σ α} {f : α → Routine σ β} {s s' : σ}
    {a : α} (h : x s = (some a, s')) : (x >>= f) s = f a s' := by
  show (match x s with | (some a, s') => f a s' | (none, s') => (none, s')) = _
  rw [h]

/-- A sequence whose first part is still waiting is still waiting. -/
theorem bind_of_waits {x : Routine σ α} {f : α → Routine σ β} {s s' : σ}
    (h : x s = (none, s')) : (x >>= f) s = (none, s') := by
  show (match x s with | (some a, s') => f a s' | (none, s') => (none, s')) = _
  rw [h]

@[simp] theorem pure_bind_apply (a : α) (f : α → Routine σ β) (s : σ) :
    ((pure a : Routine σ α) >>= f) s = f a s := rfl

@[simp] theorem modify_bind_apply (g : σ → σ) (f : Unit → Routine σ β) (s : σ) :
    (modify g >>= f) s = f () (g s) := rfl

@[simp] theorem look_bind_apply (g : σ → α) (f : α → Routine σ β) (s : σ) :
    (look g >>= f) s = f (g s) s := rfl

theorem map_id_apply (x : Routine σ α) : id <$> x = x := by
  funext s
  show (match x s with | (some a, s') => (some a, s') | (none, s') => (none, s')) = x s
  obtain ⟨o, s', h⟩ : ∃ o s', x s = (o, s') := ⟨_, _, rfl⟩
  rw [h]
  cases o <;> rfl

theorem bind_bind (x : Routine σ α) (f : α → Routine σ β) (g : β → Routine σ γ) :
    x >>= f >>= g = x >>= fun a => f a >>= g := by
  funext s
  obtain ⟨o, s', h⟩ : ∃ o s', x s = (o, s') := ⟨_, _, rfl⟩
  cases o with
  | none => rw [bind_of_waits (bind_of_waits h), bind_of_waits h]
  | some a =>
    rw [bind_of_returns h]
    -- the left-hand side runs `f a` from where `x` returned, and `g` after it
    exact congrArg
      (fun r : Option β × σ => match r with
        | (some b, s'') => g b s''
        | (none, s'') => (none, s''))
      (bind_of_returns h)

instance : LawfulMonad (Routine σ) :=
  LawfulMonad.mk' (Routine σ) map_id_apply (fun _ _ => rfl) bind_bind

/-- **Peeling a sequence that returned**: its first part returned, and the
rest returned from there. -/
theorem bind_eq_some_iff {x : Routine σ α} {f : α → Routine σ β} {s s'' : σ}
    {b : β} :
    (x >>= f) s = (some b, s'')
      ↔ ∃ a s', x s = (some a, s') ∧ f a s' = (some b, s'') := by
  constructor
  · intro h
    obtain ⟨o, s', hx⟩ : ∃ o s', x s = (o, s') := ⟨_, _, rfl⟩
    cases o with
    | some a => exact ⟨a, s', hx, (bind_of_returns hx).symm.trans h⟩
    | none =>
      have hn := (bind_of_waits (f := f) hx).symm.trans h
      exact absurd (congrArg Prod.fst hn) (by simp)
  · rintro ⟨a, s', hx, hf⟩
    exact (bind_of_returns hx).trans hf

/-- A result that is thrown away changes nothing on the device. -/
theorem discard_snd (x : Routine σ α) (s : σ) :
    ((do let _ ← x : Routine σ Unit) s).2 = (x s).2 := by
  obtain ⟨o, s', h⟩ : ∃ o s', x s = (o, s') := ⟨_, _, rfl⟩
  cases o with
  | none => rw [bind_of_waits h, h]
  | some a => rw [bind_of_returns h, h]; rfl

/-! ## What a routine keeps -/

/-- **`x` keeps `I`**: from a state in `I` the device is left in `I`, whether
the routine returns or is still waiting. -/
def Keeps (I : σ → Prop) (x : Routine σ α) : Prop := ∀ s, I s → I (x s).2

theorem keeps_pure (I : σ → Prop) (a : α) : Keeps I (pure a : Routine σ α) :=
  fun _ h => h

theorem keeps_look (I : σ → Prop) (f : σ → α) : Keeps I (look f) :=
  fun _ h => h

theorem Keeps.bind {I : σ → Prop} {x : Routine σ α} {f : α → Routine σ β}
    (hx : Keeps I x) (hf : ∀ a, Keeps I (f a)) : Keeps I (x >>= f) := by
  intro s hs
  have hI := hx s hs
  obtain ⟨o, s', h⟩ : ∃ o s', x s = (o, s') := ⟨_, _, rfl⟩
  rw [h] at hI
  cases o with
  | some a => rw [bind_of_returns h]; exact hf a s' hI
  | none => rw [bind_of_waits h]; exact hI

/-! ## Loops -/

/-- At most `n` rounds of a loop: the body goes round again with `Sum.inl`
and leaves the loop with `Sum.inr`. -/
def iter (body : β → Routine σ (β ⊕ α)) : ℕ → β → Routine σ α
  | 0, _ => wait
  | n + 1, b => do
    match ← body b with
    | .inl b' => iter body n b'
    | .inr a => pure a

/-- **A loop**, with as many rounds as the fuel of its start allows. -/
def loop (fuel : β → σ → ℕ) (body : β → Routine σ (β ⊕ α)) (b : β) : Routine σ α :=
  fun s => iter body (fuel b s + 1) b s

section Fuel

variable {fuel : β → σ → ℕ} {body : β → Routine σ (β ⊕ α)}

/-- The body consumes fuel whenever it goes round again. -/
def Consumes (fuel : β → σ → ℕ) (body : β → Routine σ (β ⊕ α)) : Prop :=
  ∀ b s b' s', body b s = (some (.inl b'), s') → fuel b' s' < fuel b s

/-- A round goes on in the same way where what comes after it agrees on less fuel. -/
theorem round_congr (h : Consumes fuel body) {f g : β → Routine σ α} {b : β} {s : σ}
    (hfg : ∀ b' s', fuel b' s' < fuel b s → f b' s' = g b' s') :
    (body b >>= fun r => match r with
        | .inl b' => f b'
        | .inr a => pure a) s
      = (body b >>= fun r => match r with
          | .inl b' => g b'
          | .inr a => pure a) s := by
  obtain ⟨o, s', hb⟩ : ∃ o s', body b s = (o, s') := ⟨_, _, rfl⟩
  cases o with
  | none => rw [bind_of_waits hb, bind_of_waits hb]
  | some r =>
    rw [bind_of_returns hb, bind_of_returns hb]
    cases r with
    | inl b' => exact hfg b' s' (h b s b' s' hb)
    | inr a => rfl

/-- Fuel beyond the state's own changes nothing. -/
theorem iter_eq_iter (h : Consumes fuel body) :
    ∀ (n m : ℕ) (b : β) (s : σ), fuel b s < n → fuel b s < m →
      iter body n b s = iter body m b s := by
  intro n
  induction n with
  | zero => intro m b s hn; omega
  | succ n ih =>
    intro m b s hn hm
    obtain ⟨m, rfl⟩ : ∃ k, m = k + 1 := ⟨m - 1, by omega⟩
    exact round_congr h fun b' s' hlt => ih m b' s' (by omega) (by omega)

/-- **The equation of a loop**, free of fuel: run the body, and either go
round again or leave. -/
theorem loop_eq (h : Consumes fuel body) (b : β) (s : σ) :
    loop fuel body b s
      = (body b >>= fun r => match r with
          | .inl b' => loop fuel body b'
          | .inr a => pure a) s :=
  round_congr h fun b' s' hlt => iter_eq_iter h _ _ b' s' (by omega) (by omega)

/-- The equation of a loop, as an equation of routines. -/
theorem loop_step (h : Consumes fuel body) (b : β) :
    loop fuel body b
      = body b >>= fun r => match r with
          | .inl b' => loop fuel body b'
          | .inr a => pure a :=
  funext fun s => loop_eq h b s

/-- A round that goes round again. -/
theorem loop_of_again (h : Consumes fuel body) {b b' : β} {s s' : σ}
    (hb : body b s = (some (.inl b'), s')) :
    loop fuel body b s = loop fuel body b' s' := by
  rw [loop_eq h, bind_of_returns hb]

/-- A round that leaves the loop. -/
theorem loop_of_leaves (h : Consumes fuel body) {b : β} {a : α} {s s' : σ}
    (hb : body b s = (some (.inr a), s')) :
    loop fuel body b s = (some a, s') := by
  rw [loop_eq h, bind_of_returns hb]
  rfl

/-- A round that is still waiting. -/
theorem loop_of_waits (h : Consumes fuel body) {b : β} {s s' : σ}
    (hb : body b s = (none, s')) : loop fuel body b s = (none, s') := by
  rw [loop_eq h, bind_of_waits hb]

/-- A loop that is left, round by round. -/
inductive Rounds (body : β → Routine σ (β ⊕ α)) : β → σ → α → σ → Prop
  | leaves {b : β} {s s' : σ} {a : α} : body b s = (some (.inr a), s') → Rounds body b s a s'
  | again {b b' : β} {s s' s'' : σ} {a : α} : body b s = (some (.inl b'), s') →
    Rounds body b' s' a s'' → Rounds body b s a s''

/-- The first round, and the others. -/
theorem rounds_of_eq {b : β} {s s₁ s' : σ} {a : α} {r : β ⊕ α} (hb : body b s = (some r, s₁)) :
    Rounds body b s a s' ↔ match r with
      | .inl b' => Rounds body b' s₁ a s'
      | .inr a' => a' = a ∧ s₁ = s' := by
  constructor
  · intro h
    cases h with
    | leaves h =>
      cases hb.symm.trans h
      exact ⟨rfl, rfl⟩
    | again h hrest =>
      cases hb.symm.trans h
      exact hrest
  · intro h
    cases r with
    | inl b' => exact .again hb h
    | inr a' =>
      obtain ⟨rfl, rfl⟩ := h
      exact .leaves hb

/-- A first round that does not come back. -/
theorem not_rounds_of_waits {b : β} {s s₁ s' : σ} {a : α} (hb : body b s = (none, s₁)) :
    ¬ Rounds body b s a s' := by
  intro h
  cases h with
  | leaves h => cases hb.symm.trans h
  | again h _ => cases hb.symm.trans h

/-- **A loop returns just where its rounds come to an end.** -/
theorem loop_eq_some_iff (h : Consumes fuel body) {b : β} {s s' : σ} {a : α} :
    loop fuel body b s = (some a, s') ↔ Rounds body b s a s' := by
  constructor
  · intro hloop
    change iter body (fuel b s + 1) b s = (some a, s') at hloop
    generalize fuel b s + 1 = n at hloop
    induction n generalizing b s with
    | zero => exact absurd (congrArg Prod.fst hloop) (by simp [iter])
    | succ n ih =>
      unfold iter at hloop
      obtain ⟨r, s₁, hb, hr⟩ := bind_eq_some_iff.mp hloop
      cases r with
      | inl b' => exact .again hb (ih hr)
      | inr a' =>
        cases hr
        exact .leaves hb
  · intro hrounds
    induction hrounds with
    | leaves hb => exact loop_of_leaves h hb
    | again hb _ ih => exact (loop_of_again h hb).trans ih

end Fuel

/-- **What every round keeps, the loop keeps.** -/
theorem loop_keeps {I : σ → Prop} {fuel : β → σ → ℕ}
    {body : β → Routine σ (β ⊕ α)} (h : ∀ b, Keeps I (body b)) (b : β) :
    Keeps I (loop fuel body b) := by
  intro s hs
  show I (iter body (fuel b s + 1) b s).2
  generalize fuel b s + 1 = n
  induction n generalizing b s with
  | zero => exact hs
  | succ n ih =>
    refine Keeps.bind (h b) (fun r => ?_) s hs
    cases r with
    | inl b' => exact fun s hs => ih b' s hs
    | inr a => exact keeps_pure I a

/-- **The loop rule.** An invariant of the rounds, relating the loop
variables to the device, holds of the state the last round starts in; what
that round establishes holds when the loop returns. -/
theorem loop_sound {fuel : β → σ → ℕ} {body : β → Routine σ (β ⊕ α)}
    (Inv : β → σ → Prop) (Post : α → σ → Prop)
    (again : ∀ b s b' s', Inv b s → body b s = (some (.inl b'), s') → Inv b' s')
    (leaves : ∀ b s a s', Inv b s → body b s = (some (.inr a), s') → Post a s')
    {b : β} {s s' : σ} {a : α} (hs : Inv b s)
    (h : loop fuel body b s = (some a, s')) : Post a s' := by
  change iter body (fuel b s + 1) b s = (some a, s') at h
  generalize fuel b s + 1 = n at h
  induction n generalizing b s with
  | zero => exact absurd (congrArg Prod.fst h) (by simp [iter])
  | succ n ih =>
    unfold iter at h
    obtain ⟨r, s₁, hb, hr⟩ := bind_eq_some_iff.mp h
    cases r with
    | inl b' => exact ih (again b s b' s₁ hs hb) hr
    | inr a' =>
      obtain ⟨rfl, rfl⟩ : a' = a ∧ s₁ = s' := by
        simpa [Prod.ext_iff] using hr
      exact leaves b s a' s₁ hs hb

end Routine
