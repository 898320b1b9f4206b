import Mathlib.Data.List.Basic
import Mathlib.Logic.Function.Basic
import Mathlib.Tactic.Common

/-!
# Ring buffers

A ring of `n` cells keeps a queue between two indices: `head` is the cell of
the oldest entry and `tail` the first free cell, and both go round from
`n - 1` to `0`. One cell always stays free, so that `head = tail` can only
mean that the queue is empty.

`Ring.Holds` relates the cells and the two indices to the queue they stand
for. Its rules are the operations of the ring: `Holds.pop` and `Holds.push`
move one index, and `Holds.pushOver` is the push of a ring that gives up its
oldest entry when it is full, which keeps the *newest* entries
(`Ring.pushNewest`).
-/

namespace Ring

variable {α : Type} {n : ℕ}

/-- **The cells between two indices hold a queue**, oldest entry first. -/
structure Holds (n : ℕ) (cells : ℕ → α) (head tail : ℕ) (l : List α) : Prop where
  head_lt : head < n
  length_lt : l.length < n
  tail_eq : tail = (head + l.length) % n
  cell : ∀ i (h : i < l.length), cells ((head + i) % n) = l[i]

/-- The queue of at most `cap` entries after a push: a full queue gives up
its oldest entry. -/
def pushNewest (cap : ℕ) (l : List α) (a : α) : List α :=
  if l.length < cap then l ++ [a] else l.tail ++ [a]

/-- A push on a queue that is not full adds the entry. -/
theorem pushNewest_of_lt {cap : ℕ} {l : List α} (h : l.length < cap) (a : α) :
    pushNewest cap l a = l ++ [a] := if_pos h

/-- A push on a full queue drops exactly the oldest entry. -/
theorem pushNewest_of_ge {cap : ℕ} {l : List α} (h : cap ≤ l.length) (a : α) :
    pushNewest cap l a = l.tail ++ [a] := if_neg (by omega)

/-- A push never makes the queue longer than its bound. -/
theorem length_pushNewest_le {cap : ℕ} (hcap : 0 < cap) {l : List α} (h : l.length ≤ cap)
    (a : α) : (pushNewest cap l a).length ≤ cap := by
  unfold pushNewest
  split <;> simp <;> omega

/-- The entry pushed is in the queue. -/
theorem mem_of_mem_pushNewest {cap : ℕ} {l : List α} {a b : α} (h : b ∈ pushNewest cap l a) :
    b = a ∨ b ∈ l := by
  unfold pushNewest at h
  split at h
  · rcases List.mem_append.mp h with hl | ha
    · exact Or.inr hl
    · exact Or.inl (List.mem_singleton.mp ha)
  · rcases List.mem_append.mp h with hl | ha
    · exact Or.inr (List.mem_of_mem_tail hl)
    · exact Or.inl (List.mem_singleton.mp ha)

theorem mem_pushNewest_self (cap : ℕ) (l : List α) (a : α) : a ∈ pushNewest cap l a := by
  unfold pushNewest
  split <;> simp

/-! ## Going round -/

/-- An index that is at most one round ahead. -/
theorem wrap {h i : ℕ} (hh : h < n) (hi : i ≤ n) :
    (h + i) % n = if h + i < n then h + i else h + i - n := by
  split
  · next hlt => exact Nat.mod_eq_of_lt hlt
  · next hge =>
    rw [Nat.mod_eq_sub_mod (by omega)]
    exact Nat.mod_eq_of_lt (by omega)

/-- The next index. -/
theorem next {h : ℕ} (hh : h < n) : (h + 1) % n = if h + 1 < n then h + 1 else 0 := by
  rw [wrap hh (by omega)]
  split <;> omega

theorem next_lt {h : ℕ} (hh : h < n) : (h + 1) % n < n := Nat.mod_lt _ (by omega)

/-- Two different distances lead to different cells. -/
theorem wrap_ne {h i j : ℕ} (hh : h < n) (hij : i < j) (hj : j < n) :
    (h + i) % n ≠ (h + j) % n := by
  rw [wrap hh (by omega), wrap hh (by omega)]
  split <;> split <;> omega

/-- Starting one cell later is one step less. -/
theorem wrap_next {h i : ℕ} (hh : h < n) (hi : i < n) :
    ((h + 1) % n + i) % n = (h + (i + 1)) % n := by
  rw [wrap (next_lt hh) (by omega), next hh, wrap hh (by omega)]
  split <;> split <;> split <;> omega

/-! ## The rules -/

namespace Holds

variable {cells : ℕ → α} {head tail : ℕ} {l : List α}

/-- The indices stay inside the ring. -/
theorem tail_lt (h : Holds n cells head tail l) : tail < n := by
  have hn := h.head_lt
  rw [h.tail_eq]
  exact Nat.mod_lt _ (by omega)

/-- Equal indices hold the empty queue. -/
theorem nil (h : head < n) (cells : ℕ → α) : Holds n cells head head [] where
  head_lt := h
  length_lt := by simp; omega
  tail_eq := (Nat.mod_eq_of_lt h).symm
  cell := by simp

/-- **The queue is empty exactly when the indices meet.** -/
theorem head_eq_tail_iff (h : Holds n cells head tail l) : head = tail ↔ l = [] := by
  have hl := h.length_lt
  have hh := h.head_lt
  rw [h.tail_eq, wrap hh (by omega), ← List.length_eq_zero_iff]
  split <;> omega

/-- **The queue is full exactly when the next tail is the head.** -/
theorem next_tail_eq_head_iff (h : Holds n cells head tail l) :
    (tail + 1) % n = head ↔ l.length + 1 = n := by
  have hl := h.length_lt
  have hh := h.head_lt
  rw [next h.tail_lt, h.tail_eq, wrap hh (by omega)]
  split <;> split <;> omega

/-- The head cell has the oldest entry. -/
theorem front {a : α} (h : Holds n cells head tail (a :: l)) : cells head = a := by
  have hcell := h.cell 0 (by simp)
  rw [Nat.add_zero, Nat.mod_eq_of_lt h.head_lt] at hcell
  exact hcell

/-- **Removing the oldest entry** moves the head on. -/
theorem pop {a : α} (h : Holds n cells head tail (a :: l)) :
    Holds n cells ((head + 1) % n) tail l := by
  have hl : l.length + 1 < n := by simpa using h.length_lt
  refine ⟨next_lt h.head_lt, by omega, ?_, fun i hi => ?_⟩
  · rw [wrap_next h.head_lt (by omega), h.tail_eq, List.length_cons]
  · rw [wrap_next h.head_lt (by omega), h.cell (i + 1) (by simp; omega)]
    simp

/-- **Adding an entry** to a queue that is not full writes it to the tail cell
and moves the tail on. -/
theorem push (h : Holds n cells head tail l) (hl : l.length + 1 < n) (a : α) :
    Holds n (Function.update cells tail a) head ((tail + 1) % n) (l ++ [a]) := by
  have hh := h.head_lt
  refine ⟨hh, by simpa using hl, ?_, fun i hi => ?_⟩
  · rw [h.tail_eq, List.length_append, List.length_singleton, ← Nat.add_assoc,
      Nat.mod_add_mod]
  · rw [List.length_append, List.length_singleton] at hi
    by_cases hlast : i < l.length
    · have hne : (head + i) % n ≠ tail := by
        rw [h.tail_eq]
        exact wrap_ne hh hlast (by omega)
      rw [Function.update_of_ne hne, h.cell i hlast, List.getElem_append_left hlast]
    · obtain rfl : i = l.length := by omega
      rw [← h.tail_eq, Function.update_self]
      simp

/-- **The push that gives up the oldest entry**: of the head only when the
ring is full, and of the tail. -/
theorem pushOver (hn : 1 < n) (h : Holds n cells head tail l) (a : α) :
    Holds n (Function.update cells tail a)
      (if (tail + 1) % n = head then (head + 1) % n else head) ((tail + 1) % n)
      (pushNewest (n - 1) l a) := by
  by_cases hfull : (tail + 1) % n = head
  · have hlen := h.next_tail_eq_head_iff.mp hfull
    rw [if_pos hfull, pushNewest_of_ge (by omega)]
    cases l with
    | nil => simp at hlen; omega
    | cons b l => exact h.pop.push (by simp at hlen; omega) a
  · have hlen : l.length + 1 ≠ n := fun he => hfull (h.next_tail_eq_head_iff.mpr he)
    have hlt := h.length_lt
    rw [if_neg hfull, pushNewest_of_lt (by omega)]
    exact h.push (by omega) a

/-- **Two indices inside the ring hold a queue**, whatever is in the cells. -/
theorem exists_of_lt {head tail : ℕ} (cells : ℕ → α) (hh : head < n) (ht : tail < n) :
    ∃ l, Holds n cells head tail l := by
  set len : ℕ := if head ≤ tail then tail - head else n + tail - head with hlen
  have hlt : len < n := by rw [hlen]; split <;> omega
  refine ⟨(List.range len).map fun i => cells ((head + i) % n), hh, by simpa using hlt, ?_, ?_⟩
  · rw [List.length_map, List.length_range, wrap hh (by omega), hlen]
    split <;> split <;> omega
  · intro i hi
    simp

/-- **The queue is determined** by the cells and the indices. -/
theorem unique {l' : List α} (h : Holds n cells head tail l) (h' : Holds n cells head tail l') :
    l = l' := by
  have hl := h.length_lt
  have hl' := h'.length_lt
  have hlen : l.length = l'.length := by
    have heq := h.tail_eq.symm.trans h'.tail_eq
    rw [wrap h.head_lt (by omega), wrap h.head_lt (by omega)] at heq
    split at heq <;> split at heq <;> omega
  refine List.ext_getElem hlen fun i hi hi' => ?_
  rw [← h.cell i hi, ← h'.cell i hi']

end Holds

end Ring
