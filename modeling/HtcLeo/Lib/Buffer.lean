import HtcLeo.Lib.Word

/-!
# Buffers filled word by word

A `Buffer` records which bytes of a caller's buffer a routine has written,
and with what: `none` at an offset means that nothing was written there, so
that a statement can say that a byte was left alone as well as what it
became. A device hands out words and the driver stores them one after the
other; `Buffer.storeWords_of_bytes` says that storing the words of a run of
bytes writes exactly these bytes.
-/

/-- What has been written at each offset of a buffer. -/
abbrev Buffer : Type := ℕ → Option UInt8

namespace Buffer

/-- A buffer nothing has been written to. -/
def untouched : Buffer := fun _ => none

/-- Write the `n` bytes `f 0`, `f 1`, … at `dst`. -/
def put (b : Buffer) (dst n : ℕ) (f : ℕ → UInt8) : Buffer := fun i =>
  if dst ≤ i ∧ i < dst + n then some (f (i - dst)) else b i

/-- Store words one after the other from `dst` on. -/
def storeWords (b : Buffer) (dst : ℕ) : List UInt32 → Buffer
  | [] => b
  | w :: ws => storeWords (b.put dst 4 (Word.byte w)) (dst + 4) ws

theorem put_of_mem {b : Buffer} {dst n i : ℕ} (f : ℕ → UInt8) (h₁ : dst ≤ i)
    (h₂ : i < dst + n) : b.put dst n f i = some (f (i - dst)) := if_pos ⟨h₁, h₂⟩

theorem put_of_not_mem {b : Buffer} {dst n i : ℕ} (f : ℕ → UInt8)
    (h : ¬ (dst ≤ i ∧ i < dst + n)) : b.put dst n f i = b i := if_neg h

/-- Two writes that meet are one write. -/
theorem put_put (b : Buffer) (dst m n : ℕ) (f : ℕ → UInt8) :
    (b.put dst m f).put (dst + m) n (fun j => f (m + j)) = b.put dst (m + n) f := by
  funext i
  unfold put
  by_cases h₁ : dst ≤ i ∧ i < dst + m
  · rw [if_neg (by omega), if_pos h₁, if_pos (by omega)]
  · by_cases h₂ : dst + m ≤ i ∧ i < dst + m + n
    · have hi : m + (i - (dst + m)) = i - dst := by omega
      rw [if_pos h₂, if_pos (by omega)]
      exact congrArg (fun j => some (f j)) hi
    · rw [if_neg h₂, if_neg h₁, if_neg (by omega)]

theorem storeWords_append (b : Buffer) (dst : ℕ) (ws ws' : List UInt32) :
    b.storeWords dst (ws ++ ws')
      = (b.storeWords dst ws).storeWords (dst + 4 * ws.length) ws' := by
  induction ws generalizing b dst with
  | nil => rfl
  | cons w ws ih =>
    show (b.put dst 4 (Word.byte w)).storeWords (dst + 4) (ws ++ ws') = _
    rw [ih, List.length_cons, show dst + 4 + 4 * ws.length = dst + 4 * (ws.length + 1) by omega]
    rfl

/-- The first `n` words of a run of bytes. -/
def wordsOf (f : ℕ → UInt8) (n : ℕ) : List UInt32 :=
  (List.range n).map fun k => Word.ofBytes fun j => f (4 * k + j)

@[simp] theorem length_wordsOf (f : ℕ → UInt8) (n : ℕ) : (wordsOf f n).length = n := by
  simp [wordsOf]

theorem wordsOf_succ (f : ℕ → UInt8) (n : ℕ) :
    wordsOf f (n + 1) = wordsOf f n ++ [Word.ofBytes fun j => f (4 * n + j)] := by
  simp [wordsOf, List.range_succ]

/-- Storing a word writes the four bytes it was made of. -/
theorem put_ofBytes (b : Buffer) (dst : ℕ) (f : ℕ → UInt8) :
    b.put dst 4 (Word.byte (Word.ofBytes f)) = b.put dst 4 f := by
  funext i
  by_cases h : dst ≤ i ∧ i < dst + 4
  · rw [put_of_mem _ h.1 h.2, put_of_mem _ h.1 h.2, Word.byte_ofBytes f (by omega)]
  · rw [put_of_not_mem _ h, put_of_not_mem _ h]

/-- **Storing the words of a run of bytes writes these bytes**, and nothing
else. -/
theorem storeWords_of_bytes (b : Buffer) (dst : ℕ) (f : ℕ → UInt8) (n : ℕ) :
    b.storeWords dst (wordsOf f n) = b.put dst (4 * n) f := by
  induction n with
  | zero =>
    funext i
    exact (put_of_not_mem f (by omega)).symm
  | succ n ih =>
    rw [wordsOf_succ, storeWords_append, ih, length_wordsOf]
    show (b.put dst (4 * n) f).put (dst + 4 * n) 4 (Word.byte (Word.ofBytes _)) = _
    rw [put_ofBytes, put_put]
    rfl

end Buffer
