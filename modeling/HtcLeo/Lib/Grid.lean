import Mathlib.Data.Fin.Basic
import Mathlib.Data.Int.Notation
import Mathlib.Data.List.Range
import Mathlib.Tactic.Common

/-!
# Grids

A grid is an array of rows that is read and written at signed coordinates, as
programs do that add offsets to a position. `Grid.get_set` and `Grid.ext` say
all there is to know about it, and `Grid.get_setAll` is the rule for a number
of fields set to one value.

The second half is about the rows of a grid as a list. `settle` keeps the
rows a test accepts, at the end and in their order, and puts empty rows before
them. It can be done a row at a time from the end, which is what a program does
that pulls the rows above down over the one it drops.
-/

/-- A grid of `h` rows of `w` fields each. -/
abbrev Grid (h w : ℕ) (α : Type) : Type := Fin h → Fin w → α

namespace Grid

variable {h w : ℕ} {α : Type}

/-- The coordinates of a grid. -/
def Inside (h w : ℕ) (x y : ℤ) : Prop := (0 ≤ x ∧ x < w) ∧ 0 ≤ y ∧ y < h

instance (x y : ℤ) : Decidable (Inside h w x y) :=
  inferInstanceAs (Decidable ((0 ≤ x ∧ x < w) ∧ 0 ≤ y ∧ y < h))

/-- The field at column `x` of row `y`. -/
def get [Inhabited α] (g : Grid h w α) (x y : ℤ) : α :=
  if hin : Inside h w x y then
    g ⟨y.toNat, (Int.toNat_lt hin.2.1).mpr hin.2.2⟩ ⟨x.toNat, (Int.toNat_lt hin.1.1).mpr hin.1.2⟩
  else default

/-- The grid with the field at column `x` of row `y` set. -/
def set (g : Grid h w α) (x y : ℤ) (value : α) : Grid h w α :=
  fun r c => if (r : ℤ) = y ∧ (c : ℤ) = x then value else g r c

section

variable [Inhabited α]

/-- Two grids with the same fields are equal. -/
theorem ext {g g' : Grid h w α} (heq : ∀ x y, Inside h w x y → g.get x y = g'.get x y) :
    g = g' := by
  funext r c
  have hin : Inside h w c r :=
    ⟨⟨Int.natCast_nonneg _, by exact_mod_cast c.isLt⟩,
      Int.natCast_nonneg _, by exact_mod_cast r.isLt⟩
  have hfield := heq c r hin
  unfold get at hfield
  rw [dif_pos hin, dif_pos hin] at hfield
  exact hfield

/-- What is read after a write. -/
theorem get_set (g : Grid h w α) {x y : ℤ} (hin : Inside h w x y) (x' y' : ℤ) (value : α) :
    (g.set x' y' value).get x y = if x = x' ∧ y = y' then value else g.get x y := by
  unfold get set
  rw [dif_pos hin, dif_pos hin]
  have hx : ((x.toNat : ℕ) : ℤ) = x := Int.toNat_of_nonneg hin.1.1
  have hy : ((y.toNat : ℕ) : ℤ) = y := Int.toNat_of_nonneg hin.2.1
  show (if ((y.toNat : ℕ) : ℤ) = y' ∧ ((x.toNat : ℕ) : ℤ) = x' then _ else _) = _
  rw [hx, hy]
  exact if_congr and_comm rfl rfl

/-- The same value at a number of coordinates. -/
def setAll (l : List (ℤ × ℤ)) (value : α) (g : Grid h w α) : Grid h w α :=
  l.foldl (fun g p => g.set p.1 p.2 value) g

theorem get_setAll (l : List (ℤ × ℤ)) (value : α) (g : Grid h w α) {x y : ℤ}
    (hin : Inside h w x y) :
    (setAll l value g).get x y = if (x, y) ∈ l then value else g.get x y := by
  induction l generalizing g with
  | nil => rfl
  | cons p l ih =>
    show (setAll l value (g.set p.1 p.2 value)).get x y = _
    rw [ih, get_set g hin]
    by_cases hl : (x, y) ∈ l
    · rw [if_pos hl, if_pos (List.mem_cons_of_mem p hl)]
    · rw [if_neg hl]
      refine if_congr ?_ rfl rfl
      rw [List.mem_cons, Prod.ext_iff]
      exact ⟨.inl, fun hp => hp.resolve_right hl⟩

end

end Grid

/-! ## Rows that are kept -/

section

variable {β : Type} (keep : β → Bool) (empty : β)

/-- **The rows that are kept**, at the end and in their order, below empty ones. -/
def settle (rows : List β) : List β :=
  List.replicate (rows.length - (rows.filter keep).length) empty ++ rows.filter keep

theorem length_settle (rows : List β) : (settle keep empty rows).length = rows.length := by
  have hle := List.length_filter_le keep rows
  unfold settle
  rw [List.length_append, List.length_replicate]
  omega

/-- A last row that is kept stays where it is. -/
theorem settle_concat_of_keep (rows : List β) {row : β} (hrow : keep row = true) :
    settle keep empty (rows ++ [row]) = settle keep empty rows ++ [row] := by
  unfold settle
  rw [List.filter_append, List.filter_cons_of_pos hrow, List.filter_nil, List.length_append,
    List.length_append, List.append_assoc]
  congr 2
  show rows.length + 1 - ((rows.filter keep).length + 1) = _
  omega

/-- A last row that is dropped makes room for an empty one at the top. -/
theorem settle_concat_of_drop (rows : List β) {row : β} (hrow : keep row = false)
    (hempty : keep empty = true) :
    settle keep empty (rows ++ [row]) = settle keep empty (empty :: rows) := by
  have hle := List.length_filter_le keep rows
  unfold settle
  rw [List.filter_append, List.filter_cons_of_neg (by rw [hrow]; decide), List.filter_nil,
    List.append_nil, List.filter_cons_of_pos hempty, List.length_append, List.length_cons,
    List.length_cons]
  show List.replicate (rows.length + 1 - _) empty ++ _ = _
  rw [show rows.length + 1 - (rows.filter keep).length
      = rows.length + 1 - ((rows.filter keep).length + 1) + 1 by omega, List.replicate_succ',
    List.append_assoc]
  rfl

end
