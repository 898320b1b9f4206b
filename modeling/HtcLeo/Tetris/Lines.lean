import HtcLeo.Tetris.Board
import Mathlib.Data.List.Count

/-!
# Lines

What `checkAndRemoveLines` comes to. It goes over the lines from the last one
up and, for a full one, draws every line above one line lower; the line is then
looked at again, for it is a new one. With nothing in the hidden rows the lines
that are not full end up at the bottom, in their order, below empty ones
(`checkAndRemoveLines_spec`) – and it does end, since every turn leaves either
fewer lines to look at or fewer full ones.
-/

namespace Tetris

open Grid

variable {b : Board} {f : Fields}

/-! ## Drawing a line -/

/-- `redrawField` draws in the rows that are shown. -/
theorem redrawField_of_onBoard {x y : ℤ} (h : OnBoard x y) (color : UInt8) :
    redrawField x y color b
      = if y ≥ invisibleRowsCount then { b with fields := b.fields.set x y color } else b := by
  unfold redrawField
  rw [if_pos h]

/-- A field of a line, by its number. -/
theorem onBoard_natCast {k i : ℕ} (hk : k < boardWidth) (hi : i < boardHeight) :
    OnBoard k i :=
  ⟨⟨Int.natCast_nonneg k, by exact_mod_cast hk⟩, Int.natCast_nonneg i, by exact_mod_cast hi⟩

/-- The first `n` fields of a line redrawn. -/
theorem redrawFields_spec {i : ℕ} (hi : i < boardHeight) {color : Board → ℕ → UInt8}
    {want : ℤ → UInt8}
    (hcolor : ∀ f : Fields, (∀ x y, OnBoard x y → y ≠ i → f.get x y = b.fields.get x y) →
      ∀ k < boardWidth, color { b with fields := f } k = want k) {n : ℕ} (hn : n ≤ boardWidth) :
    ∃ f : Fields, (List.range n).foldl (fun b (k : ℕ) => redrawField k i (color b k) b) b
        = { b with fields := f }
      ∧ ∀ x y, OnBoard x y → f.get x y
        = if (y = i ∧ (invisibleRowsCount : ℤ) ≤ i) ∧ x < n then want x else b.fields.get x y := by
  induction n with
  | zero =>
    refine ⟨b.fields, rfl, fun x y hin => ?_⟩
    rw [if_neg fun hx => absurd hx.2 (by have := hin.1.1; omega)]
  | succ n ih =>
    obtain ⟨f, hf, hget⟩ := ih (by omega)
    have hwant := hcolor f (fun x y hin hy => by
      rw [hget x y hin, if_neg fun h => hy h.1.1]) n hn
    rw [List.range_succ, List.foldl_append, hf]
    show ∃ g : Fields, redrawField n i (color { b with fields := f } n) { b with fields := f }
      = { b with fields := g } ∧ _
    rw [hwant, redrawField_of_onBoard (onBoard_natCast hn hi)]
    split
    · rename_i hshown
      refine ⟨f.set n i (want n), rfl, fun x y hin => ?_⟩
      rw [get_set f hin, hget x y hin]
      by_cases hx : x = n ∧ y = i
      · rw [if_pos hx, if_pos ⟨⟨hx.2, hshown⟩, by omega⟩, hx.1]
      · rw [if_neg hx]
        refine if_congr ?_ rfl rfl
        omega
    · rename_i hhidden
      refine ⟨f, rfl, fun x y hin => ?_⟩
      rw [hget x y hin, if_neg fun h => hhidden h.1.2, if_neg fun h => hhidden h.1.2]

/-- **A line redrawn**, in colours `want` that do not depend on the line itself. -/
theorem redrawLine_spec {i : ℕ} (hi : i < boardHeight) {color : Board → ℕ → UInt8}
    {want : ℤ → UInt8}
    (hcolor : ∀ f : Fields, (∀ x y, OnBoard x y → y ≠ i → f.get x y = b.fields.get x y) →
      ∀ k < boardWidth, color { b with fields := f } k = want k) :
    ∃ f : Fields, redrawLine i color b = { b with fields := f }
      ∧ ∀ x y, OnBoard x y →
        f.get x y = if y = i ∧ (invisibleRowsCount : ℤ) ≤ i then want x else b.fields.get x y := by
  obtain ⟨f, hf, hget⟩ := redrawFields_spec hi hcolor (le_refl boardWidth)
  refine ⟨f, hf, fun x y hin => ?_⟩
  rw [hget x y hin]
  exact if_congr (and_iff_left hin.1.2) rfl rfl

/-- The lines from line `i` up, `m` of them, each drawn as the line above it, which
is then still as it was. -/
theorem linesDown_spec {i m : ℕ} (hlast : i < boardHeight) (hm : m ≤ i) :
    ∃ f : Fields,
      (List.range m).foldl (fun b n =>
        redrawLine (i - n) (fun b k => b.fields.get k (((i - n : ℕ) : ℤ) - 1)) b) b
          = { b with fields := f }
      ∧ ∀ x y, OnBoard x y → f.get x y
        = if (invisibleRowsCount : ℤ) ≤ y ∧ (i : ℤ) - m < y ∧ y ≤ i then b.fields.get x (y - 1)
          else b.fields.get x y := by
  induction m with
  | zero =>
    refine ⟨b.fields, rfl, fun x y _ => ?_⟩
    rw [if_neg fun h => by omega]
  | succ m ih =>
    obtain ⟨f, hf, hget⟩ := ih (by omega)
    have habove : ((i - m : ℕ) : ℤ) = (i : ℤ) - m := by omega
    have hkept : ∀ f' : Fields,
        (∀ x y, OnBoard x y → y ≠ (i - m : ℕ) → f'.get x y = f.get x y) →
        ∀ k < boardWidth, f'.get k (((i - m : ℕ) : ℤ) - 1) = b.fields.get k ((i : ℤ) - m - 1) := by
      intro f' hf' k hk
      have hin : OnBoard k ((i : ℤ) - m - 1) := by
        have hfield := onBoard_natCast hk (show i - m - 1 < boardHeight by omega)
        rwa [show ((i - m - 1 : ℕ) : ℤ) = (i : ℤ) - m - 1 by omega] at hfield
      rw [habove, hf' _ _ hin (by omega), hget _ _ hin, if_neg fun h => by omega]
    obtain ⟨g, hg, hgGet⟩ := @redrawLine_spec { b with fields := f } (i - m) (by omega)
      (fun b k => b.fields.get k (((i - m : ℕ) : ℤ) - 1))
      (fun x => b.fields.get x ((i : ℤ) - m - 1)) hkept
    refine ⟨g, ?_, fun x y hin => ?_⟩
    · rw [List.range_succ, List.foldl_append, hf]
      exact hg
    · rw [hgGet x y hin]
      show (if _ then _ else f.get x y) = _
      rw [hget x y hin, habove]
      by_cases hy : y = (i : ℤ) - m ∧ (invisibleRowsCount : ℤ) ≤ (i : ℤ) - m
      · rw [if_pos hy, if_pos (by omega), hy.1]
      · rw [if_neg hy]
        refine if_congr ?_ rfl rfl
        omega

/-- **A full line is taken out**: each line above it comes one line lower. -/
theorem removeLine_spec {i : ℕ} (hi : invisibleRowsCount ≤ i) (hlast : i < boardHeight) :
    ∃ f : Fields, removeLine i b = { b with fields := f }
      ∧ ∀ x y, OnBoard x y → f.get x y
        = if (invisibleRowsCount : ℤ) ≤ y ∧ y ≤ i then b.fields.get x (y - 1)
          else b.fields.get x y := by
  obtain ⟨black, hblack, hblackGet⟩ := @redrawLine_spec b i hlast (fun _ _ => efiBlack)
    (fun _ => efiBlack) fun _ _ _ _ => rfl
  obtain ⟨f, hf, hget⟩ := @linesDown_spec { b with fields := black } i i hlast (le_refl i)
  refine ⟨f, ?_, fun x y hin => ?_⟩
  · unfold removeLine
    rw [hblack]
    exact hf
  · rw [hget x y hin]
    dsimp only
    by_cases hy : (invisibleRowsCount : ℤ) ≤ y ∧ y ≤ i
    · have hcount : (invisibleRowsCount : ℤ) = 2 := rfl
      have habove : OnBoard x (y - 1) := ⟨hin.1, by omega, by have := hin.2.2; omega⟩
      rw [if_pos hy, if_pos (by omega), hblackGet _ _ habove, if_neg fun h => by omega]
    · rw [if_neg hy, if_neg (by omega), hblackGet x y hin, if_neg fun h => by omega]

/-! ## The lines as a list -/

/-- A row of fields. -/
abbrev Row : Type := Fin boardWidth → UInt8

/-- A row without a piece in it. -/
def emptyRow : Row := fun _ => emptyField

/-- There is room in the row. -/
def notFull (row : Row) : Bool := decide (∃ k, row k = emptyField)

theorem notFull_emptyRow : notFull emptyRow = true := by decide

/-- The row at `y`. -/
def rowAt (f : Fields) (y : ℤ) : Row := fun k => f.get (k : ℕ) y

/-- The first `n` rows that are shown, from the top. -/
def rowsTo (f : Fields) (n : ℕ) : List Row :=
  (List.range n).map fun k : ℕ => rowAt f (k + invisibleRowsCount)

/-- The rows that are shown. -/
def visibleRows (f : Fields) : List Row := rowsTo f (boardHeight - invisibleRowsCount)

theorem rowsTo_succ (f : Fields) (n : ℕ) :
    rowsTo f (n + 1) = rowsTo f n ++ [rowAt f ((n : ℤ) + invisibleRowsCount)] := by
  unfold rowsTo
  rw [List.range_succ, List.map_append]
  rfl

@[simp] theorem length_rowsTo (f : Fields) (n : ℕ) : (rowsTo f n).length = n := by
  rw [rowsTo, List.length_map, List.length_range]

/-- Rows are equal when their fields are. -/
theorem rowAt_congr {g : Fields} {y y' : ℤ} (hy : 0 ≤ y ∧ y < boardHeight)
    (h : ∀ x, OnBoard x y → f.get x y = g.get x y') : rowAt f y = rowAt g y' := by
  funext k
  exact h _ ⟨⟨Int.natCast_nonneg _, by exact_mod_cast k.isLt⟩, hy⟩

/-- The loop over a line finds out whether there is room in it. -/
theorem lineWasFull_eq (b : Board) (i : ℕ) : lineWasFull b i = !notFull (rowAt b.fields i) := by
  rw [Bool.eq_iff_iff, Bool.not_eq_true', lineWasFull, List.all_eq_true]
  unfold notFull
  rw [decide_eq_false_iff_not, not_exists]
  constructor
  · intro h k
    exact of_decide_eq_true (h k (List.mem_range.mpr k.isLt))
  · intro h j hj
    exact decide_eq_true (h ⟨j, List.mem_range.mp hj⟩)

/-- Nothing is in the hidden rows. -/
def HiddenEmpty (f : Fields) : Prop :=
  ∀ x y, OnBoard x y → y < invisibleRowsCount → f.get x y = emptyField

/-- How many of the rows are full. -/
def fullRows (rows : List Row) : ℕ := rows.countP fun row => !notFull row

theorem fullRows_concat (rows : List Row) (row : Row) :
    fullRows (rows ++ [row]) = fullRows rows + if notFull row then 0 else 1 := by
  unfold fullRows
  rw [List.countP_append, List.countP_singleton]
  cases notFull row <;> rfl

/-- The rows above a line that is taken out. -/
theorem rowsTo_of_removed {g : Fields} {m : ℕ} (hm : m + invisibleRowsCount < boardHeight)
    (hhidden : HiddenEmpty f)
    (hget : ∀ x y, OnBoard x y → g.get x y
      = if (invisibleRowsCount : ℤ) ≤ y ∧ y ≤ (m + invisibleRowsCount : ℕ) then f.get x (y - 1)
        else f.get x y) :
    rowsTo g (m + 1) = emptyRow :: rowsTo f m := by
  have hcount : (invisibleRowsCount : ℤ) = 2 := rfl
  have hheight : (boardHeight : ℤ) = 22 := rfl
  unfold rowsTo
  rw [List.range_succ_eq_map, List.map_cons, List.map_map]
  congr 1
  · funext k
    have hin : OnBoard (k : ℕ) ((0 : ℕ) + (invisibleRowsCount : ℤ)) := by
      exact onBoard_natCast k.isLt (show 0 + invisibleRowsCount < boardHeight by omega)
    have habove : OnBoard (k : ℕ) ((0 : ℕ) + (invisibleRowsCount : ℤ) - 1) :=
      ⟨hin.1, by omega, by omega⟩
    show g.get _ _ = emptyField
    rw [hget _ _ hin, if_pos (by omega)]
    exact hhidden _ _ habove (by omega)
  · refine List.map_congr_left fun k hk => ?_
    have hlt := List.mem_range.mp hk
    refine rowAt_congr (by push_cast; omega) fun x hin => ?_
    rw [hget x _ hin, if_pos (by push_cast; omega)]
    congr 1
    push_cast
    omega

/-- With nothing in the hidden rows an empty line comes in for the one taken out. -/
theorem removeLine_rows {m : ℕ} (hm : m + invisibleRowsCount < boardHeight)
    (hhidden : HiddenEmpty b.fields) :
    ∃ g : Fields, removeLine (m + invisibleRowsCount) b = { b with fields := g }
      ∧ HiddenEmpty g
      ∧ rowsTo g (m + 1) = emptyRow :: rowsTo b.fields m
      ∧ ∀ x y, OnBoard x y →
        y < invisibleRowsCount ∨ ((m + 1 : ℕ) : ℤ) + invisibleRowsCount ≤ y →
        g.get x y = b.fields.get x y := by
  obtain ⟨g, hg, hget⟩ := @removeLine_spec b (m + invisibleRowsCount) (Nat.le_add_left _ _) hm
  refine ⟨g, hg, fun x y hin hy => ?_, rowsTo_of_removed hm hhidden hget, fun x y hin hy => ?_⟩
  · rw [hget x y hin, if_neg fun h => by omega]
    exact hhidden x y hin hy
  · rw [hget x y hin, if_neg fun h => by push_cast at h hy; omega]

/-! ## The loop over the lines -/

/-- **The loop over the lines**, from line `n + 1` up. -/
theorem removeLines_spec {fuel n : ℕ} (counter : ℕ) (hn : n + invisibleRowsCount ≤ boardHeight)
    (hhidden : HiddenEmpty b.fields) (hfuel : n + fullRows (rowsTo b.fields n) < fuel) :
    ∃ f : Fields,
      removeLines fuel (n + invisibleRowsCount - 1) counter b
        = some (counter + fullRows (rowsTo b.fields n), { b with fields := f })
      ∧ rowsTo f n = settle notFull emptyRow (rowsTo b.fields n)
      ∧ ∀ x y, OnBoard x y → y < invisibleRowsCount ∨ (n : ℤ) + invisibleRowsCount ≤ y →
        f.get x y = b.fields.get x y := by
  have hcount : invisibleRowsCount = 2 := rfl
  induction fuel generalizing b n counter with
  | zero => exact absurd hfuel (Nat.not_lt_zero _)
  | succ fuel ih =>
    rw [removeLines]
    cases n with
    | zero =>
      rw [if_pos (by omega)]
      exact ⟨b.fields, rfl, rfl, fun _ _ _ _ => rfl⟩
    | succ m =>
      have hline : m + 1 + invisibleRowsCount - 1 = m + invisibleRowsCount := by omega
      have hrow : rowsTo b.fields (m + 1)
          = rowsTo b.fields m ++ [rowAt b.fields ((m + invisibleRowsCount : ℕ) : ℤ)] := by
        rw [rowsTo_succ]
        push_cast
        rfl
      rw [hline, if_neg (by omega), lineWasFull_eq]
      rw [hrow, fullRows_concat] at hfuel
      rw [hrow, fullRows_concat]
      cases hfull : notFull (rowAt b.fields ((m + invisibleRowsCount : ℕ) : ℤ)) with
      | false =>
        -- the line is taken out, and the same line is looked at again
        obtain ⟨g, hg, hghidden, hrows, hkept⟩ := @removeLine_rows b m (by omega) hhidden
        have hgfull : fullRows (rowsTo g (m + 1)) = fullRows (rowsTo b.fields m) := by
          rw [hrows]
          exact List.countP_cons_of_neg (by rw [notFull_emptyRow]; decide)
        rw [hfull] at hfuel
        obtain ⟨f, hf, hsettled, hframe⟩ := @ih { b with fields := g } (m + 1) (counter + 1) hn
          hghidden (by rw [hgfull]; exact Nat.lt_of_succ_lt_succ hfuel)
        refine ⟨f, ?_, ?_, fun x y hin hy => ?_⟩
        · rw [hgfull, hline] at hf
          show removeLines fuel _ (counter + 1) (removeLine _ b) = _
          rw [hg, hf]
          show some (counter + 1 + _, _) = some (counter + (_ + 1), _)
          rw [Nat.add_right_comm]
          rfl
        · rw [hsettled, hrows, settle_concat_of_drop notFull emptyRow _ hfull notFull_emptyRow]
        · rw [hframe x y hin hy]
          exact hkept x y hin hy
      | true =>
        rw [hfull] at hfuel
        obtain ⟨f, hf, hsettled, hframe⟩ := @ih b m counter (by omega) hhidden (by
          exact Nat.lt_of_succ_lt_succ (by rwa [Nat.add_right_comm] at hfuel))
        refine ⟨f, hf, ?_, fun x y hin hy => hframe x y hin (by push_cast at hy; omega)⟩
        rw [rowsTo_succ, hsettled, settle_concat_of_keep notFull emptyRow _ hfull]
        congr 2
        refine rowAt_congr (by omega) fun x hin => ?_
        rw [hframe x _ hin (.inr (le_refl _))]
        push_cast
        rfl

/-! ## Clearing a board -/

/-- **The board with its full lines taken out**: the other rows at the bottom, in
their order, and nothing above them. -/
def clearLines (f : Fields) : Fields := fun r =>
  if (r : ℕ) < invisibleRowsCount then emptyRow
  else (settle notFull emptyRow (visibleRows f)).getD (r - invisibleRowsCount) emptyRow

/-- A row that is given by its number. -/
theorem rowAt_natCast (f : Fields) (r : Fin boardHeight) : rowAt f (r : ℕ) = f r := by
  funext k
  show f.get (k : ℕ) (r : ℕ) = f r k
  unfold Grid.get
  rw [dif_pos (onBoard_natCast k.isLt r.isLt)]
  rfl

theorem hiddenEmpty_clearLines (f : Fields) : HiddenEmpty (clearLines f) := by
  intro x y hin hy
  unfold Grid.get
  rw [dif_pos hin]
  have hrow : y.toNat < invisibleRowsCount := (Int.toNat_lt hin.2.1).mpr hy
  show clearLines f _ _ = _
  unfold clearLines
  rw [if_pos hrow]
  rfl

/-- The rows that are shown are the rows that were not full. -/
theorem visibleRows_clearLines (f : Fields) :
    visibleRows (clearLines f) = settle notFull emptyRow (visibleRows f) := by
  have hlength : (settle notFull emptyRow (visibleRows f)).length = 20 := by
    rw [length_settle]
    exact length_rowsTo f 20
  refine List.ext_getElem (by rw [hlength]; exact length_rowsTo _ 20) fun k hk hk' => ?_
  have hlt : k < 20 := by rwa [hlength] at hk'
  have hrow : visibleRows (clearLines f) = (List.range 20).map fun k : ℕ =>
    rowAt (clearLines f) (k + invisibleRowsCount) := rfl
  simp only [hrow, List.getElem_map, List.getElem_range]
  have hr : k + invisibleRowsCount < boardHeight := Nat.add_lt_add_right hlt 2
  have hnumber : rowAt (clearLines f) ((k : ℤ) + invisibleRowsCount)
      = clearLines f ⟨k + invisibleRowsCount, hr⟩ := by
    rw [← rowAt_natCast (clearLines f) ⟨k + invisibleRowsCount, hr⟩]
    push_cast
    rfl
  rw [hnumber]
  unfold clearLines
  rw [if_neg (by show ¬ k + invisibleRowsCount < invisibleRowsCount; omega)]
  show List.getD _ (k + invisibleRowsCount - invisibleRowsCount) _ = _
  rw [Nat.add_sub_cancel, List.getD_eq_getElem?_getD, List.getElem?_eq_getElem hk',
    Option.getD_some]

/-- Boards with nothing in the hidden rows are equal when the rows shown are. -/
theorem fields_ext {g : Fields} (hf : HiddenEmpty f) (hg : HiddenEmpty g)
    (h : visibleRows f = visibleRows g) : f = g := by
  refine Grid.ext fun x y hin => ?_
  by_cases hy : y < invisibleRowsCount
  · rw [hf x y hin hy, hg x y hin hy]
  · have hcount : (invisibleRowsCount : ℤ) = 2 := rfl
    have hheight : (boardHeight : ℤ) = 22 := rfl
    have hrange := hin.2
    have hlt : (y - 2).toNat < 20 := by omega
    have hrow : ∀ f' : Fields, (visibleRows f')[(y - 2).toNat]? = some (rowAt f' y) := by
      intro f'
      show ((List.range 20).map fun k : ℕ => rowAt f' (k + invisibleRowsCount))[_]? = _
      rw [List.getElem?_map, List.getElem?_range hlt, Option.map_some]
      congr 2
      omega
    have hrows : rowAt f y = rowAt g y := by
      refine Option.some.inj ?_
      rw [← hrow f, ← hrow g, h]
    have hfield := congrFun hrows ⟨x.toNat, (Int.toNat_lt hin.1.1).mpr hin.1.2⟩
    unfold rowAt at hfield
    rwa [Int.toNat_of_nonneg hin.1.1] at hfield

/-- As many turns as the loop over the lines ever takes. -/
def lineTurns : ℕ := 2 * boardHeight

/-- The loop over all the lines, of a board with nothing in its hidden rows. -/
theorem removeLines_all (fuel : ℕ) (hhidden : HiddenEmpty b.fields) :
    removeLines (fuel + lineTurns) (boardHeight - 1) 0 b
      = some (fullRows (visibleRows b.fields), { b with fields := clearLines b.fields }) := by
  have hfull : fullRows (visibleRows b.fields) ≤ 20 := by
    have hle := List.countP_le_length (p := fun row => !notFull row) (l := visibleRows b.fields)
    rwa [show (visibleRows b.fields).length = 20 from length_rowsTo _ 20] at hle
  obtain ⟨f, hf, hsettled, hframe⟩ := @removeLines_spec b (fuel + lineTurns) 20 0 (le_refl _)
    hhidden (by
      show 20 + fullRows (visibleRows b.fields) < fuel + 44
      omega)
  have hcleared : f = clearLines b.fields := by
    refine fields_ext (fun x y hin hy => ?_) (hiddenEmpty_clearLines _) ?_
    · rw [hframe x y hin (.inl hy)]
      exact hhidden x y hin hy
    · rw [visibleRows_clearLines]
      exact hsettled
  rw [← hcleared]
  refine Eq.trans hf ?_
  rw [Nat.zero_add]
  rfl

/-- **`checkAndRemoveLines` takes out the full lines** of a board with nothing in its
hidden rows, counts them, and takes nothing off the score. -/
theorem checkAndRemoveLines_spec (fuel : ℕ) (hhidden : HiddenEmpty b.fields) :
    ∃ score, (0 ≤ b.level → b.score ≤ score)
      ∧ checkAndRemoveLines (fuel + lineTurns) b
        = some { b with
            fields := clearLines b.fields
            lines := b.lines + fullRows (visibleRows b.fields)
            score := score } := by
  unfold checkAndRemoveLines
  rw [removeLines_all fuel hhidden]
  dsimp only [Option.map_some]
  generalize fullRows (visibleRows b.fields) = counter
  split
  · refine ⟨_, fun hlevel => ?_, rfl⟩
    have hpower : (0 : ℤ) ≤ 2 ^ (counter - 1) := Int.pow_nonneg (by decide)
    unfold lineClearScore lineClearLevelBonusScore
    omega
  · exact ⟨b.score, fun _ => le_refl _, rfl⟩

end Tetris
