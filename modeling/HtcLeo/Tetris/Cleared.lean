import HtcLeo.Tetris.Picture
import Mathlib.Data.List.Perm.Subperm

/-!
# What clearing the lines leaves

`checkAndRemoveLines` as a player sees it: the lines that are not full, in
their order, at the bottom of the board, as many empty lines above them as
lines have gone, and ten fields fewer for each line that has gone
(`checkAndRemoveLines_clears`). A piece that is laid down on a board without full
lines fills four at most, for it has four fields and a line it has none in stays
as it was. And there are no full lines on a board between two pieces, in any
run of the game (`noFullRow_run`).
-/

namespace Tetris

open Grid

variable {b : Board} {f : Fields}

/-! ## Fields that are occupied -/

/-- How many fields of a row are occupied. -/
def occupiedInRow (row : Row) : ℕ := (List.finRange boardWidth).countP fun k => row k ≠ emptyField

/-- How many fields of some rows are occupied. -/
def occupiedInRows : List Row → ℕ
  | [] => 0
  | row :: rows => occupiedInRow row + occupiedInRows rows

/-- How many fields of the board are occupied. -/
def occupied (f : Fields) : ℕ :=
  occupiedInRows ((List.range boardHeight).map fun k : ℕ => rowAt f k)

theorem occupiedInRows_append (rows rows' : List Row) :
    occupiedInRows (rows ++ rows') = occupiedInRows rows + occupiedInRows rows' := by
  induction rows with
  | nil => exact (Nat.zero_add _).symm
  | cons row rows ih =>
    rw [List.cons_append, occupiedInRows, occupiedInRows, ih, Nat.add_assoc]

/-- A full row is occupied in all of its fields. -/
theorem occupiedInRow_of_full {row : Row} (hfull : notFull row = false) :
    occupiedInRow row = boardWidth := by
  have hroom : ¬∃ k, row k = emptyField := of_decide_eq_false hfull
  have hall : ∀ k ∈ List.finRange boardWidth, decide (row k ≠ emptyField) = true :=
    fun k _ => decide_eq_true fun h => hroom ⟨k, h⟩
  unfold occupiedInRow
  rw [List.countP_eq_length.2 hall, List.length_finRange]

/-- Empty rows have nothing in them. -/
theorem occupiedInRows_empty (n : ℕ) : occupiedInRows (List.replicate n emptyRow) = 0 := by
  have hempty : occupiedInRow emptyRow = 0 := by decide
  induction n with
  | zero => rfl
  | succ n ih => rw [List.replicate_succ, occupiedInRows, hempty, ih]

/-- Each full row that is dropped takes its fields with it. -/
theorem occupiedInRows_filter (rows : List Row) :
    occupiedInRows rows
      = occupiedInRows (rows.filter notFull) + boardWidth * fullRows rows := by
  induction rows with
  | nil => rfl
  | cons row rows ih =>
    unfold fullRows at ih ⊢
    cases hrow : notFull row with
    | true =>
      rw [List.filter_cons_of_pos hrow, List.countP_cons_of_neg (by simp [hrow]), occupiedInRows,
        occupiedInRows, ih, Nat.add_assoc]
    | false =>
      rw [List.filter_cons_of_neg (by simp [hrow]), List.countP_cons_of_pos (by simp [hrow]),
        occupiedInRows, ih, occupiedInRow_of_full hrow, Nat.mul_succ]
      omega

/-- With nothing in the hidden rows, all that is occupied is shown. -/
theorem occupied_of_hiddenEmpty (hhidden : HiddenEmpty f) :
    occupied f = occupiedInRows (visibleRows f) := by
  have hrows : (List.range boardHeight).map (fun k : ℕ => rowAt f k)
      = List.replicate invisibleRowsCount emptyRow ++ visibleRows f := by
    have hempty (k : ℕ) (hk : k < invisibleRowsCount) : rowAt f k = emptyRow := by
      funext c
      exact hhidden _ _ (onBoard_natCast c.isLt (Nat.lt_trans hk (by decide)))
        (by exact_mod_cast hk)
    show (List.range (2 + 20)).map _ = _
    rw [List.range_add, List.map_append, List.map_map]
    unfold visibleRows rowsTo
    refine congrArg₂ (· ++ ·) ?_ (List.map_congr_left fun k _ => ?_)
    · show [rowAt f (0 : ℕ), rowAt f (1 : ℕ)] = [emptyRow, emptyRow]
      rw [hempty 0 (by decide), hempty 1 (by decide)]
    · show rowAt f ((2 + k : ℕ) : ℤ) = rowAt f (k + invisibleRowsCount)
      rw [Nat.add_comm]
      push_cast
      rfl
  unfold occupied
  rw [hrows, occupiedInRows_append, occupiedInRows_empty, Nat.zero_add]

/-! ## Full lines -/

/-- No line that is shown is full. -/
def NoFullRow (f : Fields) : Prop := ∀ row ∈ visibleRows f, notFull row = true

/-- The rows that are left are not full. -/
theorem noFullRow_clearLines (f : Fields) : NoFullRow (clearLines f) := by
  unfold NoFullRow
  rw [visibleRows_clearLines]
  intro row hrow
  rcases List.mem_append.1 hrow with hempty | hkept
  · rw [List.eq_of_mem_replicate hempty]
    exact notFull_emptyRow
  · exact (List.mem_filter.1 hkept).2

/-- The rows that were full and the others are all there are. -/
theorem fullRows_add_length (rows : List Row) :
    fullRows rows + (rows.filter notFull).length = rows.length := by
  have hcount := rows.length_eq_countP_add_countP notFull
  have hfull : fullRows rows = rows.countP fun row => ¬notFull row = true :=
    List.countP_congr fun row _ => by simp
  rw [hcount, hfull, ← List.countP_eq_length_filter, Nat.add_comm]

/-- **What clearing leaves**, where `removed` lines have gone. -/
structure Clears (b b' : Board) (removed : ℕ) : Prop where
  removed_eq : removed = fullRows (visibleRows b.fields)
  rows : visibleRows b'.fields
    = List.replicate removed emptyRow ++ (visibleRows b.fields).filter notFull
  hidden : HiddenEmpty b'.fields
  noFullRow : NoFullRow b'.fields
  occupied : occupied b.fields = occupied b'.fields + boardWidth * removed
  lines : b'.lines = b.lines + removed

theorem clears_clearLines (hhidden : HiddenEmpty b.fields) {b' : Board}
    (hfields : b'.fields = clearLines b.fields)
    (hlines : b'.lines = b.lines + fullRows (visibleRows b.fields)) :
    Clears b b' (fullRows (visibleRows b.fields)) := by
  have hsettled : visibleRows b'.fields
      = List.replicate (fullRows (visibleRows b.fields)) emptyRow
        ++ (visibleRows b.fields).filter notFull := by
    rw [hfields, visibleRows_clearLines, settle, ← fullRows_add_length, Nat.add_sub_cancel]
  refine ⟨rfl, hsettled, hfields ▸ hiddenEmpty_clearLines _, hfields ▸ noFullRow_clearLines _,
    ?_, hlines⟩
  rw [occupied_of_hiddenEmpty hhidden,
    occupied_of_hiddenEmpty (hfields ▸ hiddenEmpty_clearLines b.fields), hsettled,
    occupiedInRows_append, occupiedInRows_empty, Nat.zero_add]
  exact occupiedInRows_filter _

/-! ## Lines that a piece fills -/

/-- A shape has four points. -/
theorem Piece.length_cells (p : Piece) : p.cells.length = 4 := by
  have hbody : ∀ r : Fin bodyCount, (p.shape.bodies r).length = 4 := by
    cases p.shape <;> decide
  unfold Piece.cells Piece.body
  rw [List.length_map, hbody]

/-- As many of distinct numbers meet a condition as there are things that give
them, at most. -/
theorem countP_le_length {α : Type} {l : List ℕ} (hnodup : l.Nodup) (p : ℕ → Bool) {things : List α}
    (number : α → ℕ) (hp : ∀ k ∈ l, p k = true → ∃ c ∈ things, number c = k) :
    l.countP p ≤ things.length := by
  have hsubset : l.filter p ⊆ things.map number := by
    intro k hk
    obtain ⟨hmem, hpk⟩ := List.mem_filter.1 hk
    exact List.mem_map.2 (hp k hmem hpk)
  have hle := (List.subperm_of_subset (hnodup.filter p) hsubset).length_le
  rwa [List.length_map, ← List.countP_eq_length_filter] at hle

/-- **A piece fills four lines at most**: every line that has none of its fields is
what it was. -/
theorem fullRows_setAll_le (p : Piece) (color : UInt8) (hnone : NoFullRow f) :
    fullRows (visibleRows (setAll p.cells color f)) ≤ 4 := by
  unfold fullRows visibleRows rowsTo
  rw [List.countP_map, ← p.length_cells]
  refine countP_le_length List.nodup_range _ (fun c => (c.2 - invisibleRowsCount).toNat)
    fun k hk hfull => ?_
  by_contra hmissed
  have hlt := List.mem_range.1 hk
  have hkept : rowAt (setAll p.cells color f) (k + invisibleRowsCount)
      = rowAt f (k + invisibleRowsCount) := by
    refine rowAt_congr ?_ fun x hin => ?_
    · show 0 ≤ (k : ℤ) + 2 ∧ (k : ℤ) + 2 < 22
      change k < 20 at hlt
      omega
    · rw [get_setAll _ _ _ hin, if_neg fun hc => hmissed ⟨_, hc, ?_⟩]
      show ((k : ℤ) + 2 - 2).toNat = k
      omega
  have hroom : notFull (rowAt f (k + invisibleRowsCount)) = true :=
    hnone _ (List.mem_map.2 ⟨k, hk, rfl⟩)
  simp only [Function.comp_apply, hkept, hroom] at hfull
  exact absurd hfull (by decide)

/-- A piece that is shown as a whole leaves the hidden rows empty. -/
theorem hiddenEmpty_mark (hhidden : HiddenEmpty b.fields) (hover : isGameOver b = false)
    (color : UInt8) : HiddenEmpty (markFieldsOccupiedByPiece color b).fields := by
  intro x y hin hy
  rw [markFieldsOccupiedByPiece_eq]
  show (setAll b.activePiece.cells color b.fields).get x y = emptyField
  rw [get_setAll _ _ _ hin, if_neg fun hc => ?_]
  · exact hhidden x y hin hy
  · have hshown := List.any_eq_false.1 hover _ hc
    exact hshown (decide_eq_true hy)

/-- **Clearing the lines.** On a board with nothing in its hidden rows
`checkAndRemoveLines` comes back, and leaves the lines that were not full, in their
order, below empty ones, ten fields fewer for each line that has gone, and as
many lines more on the count. Where a piece has just been laid down on a board
without full lines, four have gone at most. -/
theorem checkAndRemoveLines_clears (b : Board) (hhidden : HiddenEmpty b.fields) :
    ∃ b' removed, (∀ fuel, checkAndRemoveLines (fuel + lineTurns) b = some b')
      ∧ Clears b b' removed
      ∧ ∀ before : Board, NoFullRow before.fields →
        b = markFieldsOccupiedByPiece before.activePiece.color before → removed ≤ 4 := by
  have hcomes (fuel : ℕ) : checkAndRemoveLines (fuel + lineTurns) b
      = checkAndRemoveLines (0 + lineTurns) b := by
    unfold checkAndRemoveLines
    rw [removeLines_all fuel hhidden, removeLines_all 0 hhidden]
  obtain ⟨score, -, hclears⟩ := checkAndRemoveLines_spec 0 hhidden
  refine ⟨_, fullRows (visibleRows b.fields), fun fuel => (hcomes fuel).trans hclears,
    clears_clearLines hhidden rfl rfl, fun before hnone hmark => ?_⟩
  rw [hmark, markFieldsOccupiedByPiece_eq]
  exact fullRows_setAll_le before.activePiece _ hnone

/-- A new board with its last line filled. -/
def lastLineFilled : Board :=
  { constructBoard .i .j .l with
    fields := fun r _ => if (r : ℕ) = 21 then efiGreen else emptyField }

theorem hiddenEmpty_lastLineFilled : HiddenEmpty lastLineFilled.fields := by
  intro x y hin hy
  have hrow : ¬y.toNat = 21 := by
    have hcount : (invisibleRowsCount : ℤ) = 2 := rfl
    omega
  unfold Grid.get
  rw [dif_pos hin]
  exact if_neg hrow

/-- The last line of the board goes. -/
theorem checkAndRemoveLines_clears_lastLine :
    ∃ b' removed, (∀ fuel, checkAndRemoveLines (fuel + lineTurns) lastLineFilled = some b')
      ∧ Clears lastLineFilled b' removed
      ∧ ∀ before : Board, NoFullRow before.fields →
        lastLineFilled = markFieldsOccupiedByPiece before.activePiece.color before →
        removed ≤ 4 :=
  checkAndRemoveLines_clears lastLineFilled hiddenEmpty_lastLineFilled

/-! ## Lines in a game -/

/-- **Laying a piece down** on a board without full lines adds four lines to the
count at most. -/
theorem placePiece_lines {before : Board} (hhidden : HiddenEmpty before.fields)
    (hnone : NoFullRow before.fields) (hover : isGameOver before = false) (fuel : ℕ)
    (shape : Tetrimino) :
    ∃ b', placePiece (fuel + lineTurns) shape
        (markFieldsOccupiedByPiece before.activePiece.color before) = some b'
      ∧ before.lines ≤ b'.lines ∧ b'.lines ≤ before.lines + 4 := by
  have hmark := hiddenEmpty_mark hhidden hover before.activePiece.color
  obtain ⟨hlines, hfew, hover'⟩ :
      (markFieldsOccupiedByPiece before.activePiece.color before).lines = before.lines
        ∧ fullRows (visibleRows
            (markFieldsOccupiedByPiece before.activePiece.color before).fields) ≤ 4
        ∧ isGameOver (markFieldsOccupiedByPiece before.activePiece.color before) = false := by
    rw [markFieldsOccupiedByPiece_eq]
    exact ⟨rfl, fullRows_setAll_le before.activePiece _ hnone, hover⟩
  obtain ⟨score, -, hclears⟩ := checkAndRemoveLines_spec fuel hmark
  unfold placePiece
  rw [if_neg (by rw [hover']; decide), hclears]
  refine ⟨_, rfl, ?_, ?_⟩
  · show before.lines ≤ (markFieldsOccupiedByPiece _ before).lines + (fullRows _ : ℕ)
    omega
  · show (markFieldsOccupiedByPiece _ before).lines + (fullRows _ : ℕ) ≤ before.lines + 4
    omega

namespace Game

variable {g : Game}

theorem noFullRow_place (p : Piece) (h : NoFullRow g.locked) : NoFullRow (g.place p).locked := by
  unfold place
  split <;> exact h

theorem noFullRow_fall (shape : Tetrimino) (h : NoFullRow g.locked) :
    NoFullRow (g.fall shape).locked := by
  unfold fall
  split_ifs
  · exact noFullRow_place _ h
  · exact h
  · exact noFullRow_clearLines _

theorem noFullRow_drop (shape : Tetrimino) (h : NoFullRow g.locked) :
    NoFullRow (g.drop shape).locked := by
  induction g using Game.drop.induct with
  | case1 g hfits ih =>
    rw [drop_of_fits shape hfits]
    exact ih (noFullRow_place _ h)
  | case2 g hfits =>
    rw [drop_of_not_fits shape hfits]
    exact noFullRow_fall shape h

theorem noFullRow_move (g : Game) (m : Move × Tetrimino) (h : NoFullRow g.locked) :
    NoFullRow (g.move m).locked := by
  obtain ⟨kind, shape⟩ := m
  cases kind with
  | rotate | left | right => exact noFullRow_place _ h
  | down => exact noFullRow_fall shape h
  | drop => exact noFullRow_drop shape h

/-- **No full line lies between two pieces**, whatever moves are made and whatever
shapes come up. -/
theorem noFullRow_run (first second : Tetrimino) (moves : List (Move × Tetrimino)) :
    NoFullRow (Run.run Game.move (start first second) moves).locked := by
  refine Run.inv_run (fun g m => noFullRow_move g m) moves fun row hrow => ?_
  obtain ⟨k, hk, rfl⟩ := List.mem_map.1 hrow
  have hin : OnBoard (0 : ℕ) ((k + invisibleRowsCount : ℕ) : ℤ) :=
    onBoard_natCast (by decide) (Nat.add_lt_add_right (List.mem_range.1 hk) 2)
  refine decide_eq_true ⟨⟨0, by decide⟩, ?_⟩
  show Grid.get (fun _ _ => emptyField) ((0 : ℕ) : ℤ) ((k : ℤ) + invisibleRowsCount) = emptyField
  rw [show (k : ℤ) + invisibleRowsCount = ((k + invisibleRowsCount : ℕ) : ℤ) by push_cast; rfl]
  unfold Grid.get
  rw [dif_pos hin]

end Game

end Tetris
