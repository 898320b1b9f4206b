import HtcLeo.Lib.Run
import HtcLeo.Tetris.Game

/-!
# The board shows the game

Between two moves the board is a picture of the game: in the rows that are
shown its fields are those of what lies with the piece laid over it, and in the
hidden rows there is at most the piece – which may or may not be drawn there,
since one of the two ways to put it leaves the hidden rows alone. Taking the
piece out leaves what lies, exactly (`Pictures.erase`), and from there every
move is the move of the game.
-/

namespace Tetris

open Grid

/-! ## Putting the piece -/

/-- The fields of a piece in the rows that are shown. -/
def shownCells (p : Piece) : List Point :=
  p.cells.filter fun c => (invisibleRowsCount : ℤ) ≤ c.2

/-- `markFieldsOccupiedByPiece` writes all fields of the piece. -/
theorem markFieldsOccupiedByPiece_eq (color : UInt8) (b : Board) :
    markFieldsOccupiedByPiece color b
      = { b with fields := setAll b.activePiece.cells color b.fields } := by
  unfold markFieldsOccupiedByPiece setAll
  generalize b.activePiece.cells = cells
  induction cells generalizing b with
  | nil => rfl
  | cons c cells ih => exact ih _

/-- `drawFieldsOccupiedByPiece` writes those that are shown. -/
theorem drawFieldsOccupiedByPiece_eq (color : UInt8) {b : Board}
    (h : ∀ c ∈ b.activePiece.cells, OnBoard c.1 c.2) :
    drawFieldsOccupiedByPiece color b
      = { b with fields := setAll (shownCells b.activePiece) color b.fields } := by
  unfold drawFieldsOccupiedByPiece setAll shownCells
  generalize b.activePiece.cells = cells at h ⊢
  induction cells generalizing b with
  | nil => rfl
  | cons c cells ih =>
    have hrest : ∀ c' ∈ cells, OnBoard c'.1 c'.2 := fun c' hc' => h c' (List.mem_cons_of_mem c hc')
    rw [List.foldl_cons, redrawField_of_onBoard (h c List.mem_cons_self)]
    by_cases hc : (invisibleRowsCount : ℤ) ≤ c.2
    · rw [List.filter_cons_of_pos (by simpa using hc), if_pos hc]
      exact ih hrest
    · rw [List.filter_cons_of_neg (by simpa using hc), if_neg hc]
      exact ih hrest

/-- `isMovePossible` looks whether there is room. -/
theorem isMovePossible_iff (b : Board) (x y : ℤ) :
    isMovePossible b x y = true ↔ Fits b.fields (b.activePiece.shift x y) := by
  unfold isMovePossible Fits
  rw [List.all_eq_true, Piece.cells_shift, List.forall_mem_map]
  refine forall₂_congr fun c _ => ?_
  simp only [Bool.not_eq_true', Bool.or_eq_false_iff, decide_eq_false_iff_not, ne_eq, not_not,
    not_lt, ge_iff_le, not_le]
  constructor
  · rintro ⟨⟨⟨⟨hx, hx'⟩, hy⟩, hy'⟩, hfield⟩
    exact ⟨⟨⟨hx, hx'⟩, hy, hy'⟩, hfield⟩
  · rintro ⟨⟨⟨hx, hx'⟩, hy, hy'⟩, hfield⟩
    exact ⟨⟨⟨⟨hx, hx'⟩, hy⟩, hy'⟩, hfield⟩

/-! ## Pictures -/

/-- **The fields are a picture** of what lies and of the piece over it. -/
structure Pictures (f locked : Fields) (p : Piece) : Prop where
  visible : ∀ x y, OnBoard x y → (invisibleRowsCount : ℤ) ≤ y →
    f.get x y = if (x, y) ∈ p.cells then p.color else locked.get x y
  hidden : ∀ x y, OnBoard x y → y < invisibleRowsCount → f.get x y ≠ emptyField →
    (x, y) ∈ p.cells

section

variable {f locked : Fields} {p : Piece}

/-- **Taking the piece out** leaves what lies. -/
theorem Pictures.erase (h : Pictures f locked p) (hfits : Fits locked p)
    (hhidden : HiddenEmpty locked) : setAll p.cells emptyField f = locked := by
  refine Grid.ext fun x y hin => ?_
  rw [get_setAll _ _ _ hin]
  by_cases hc : (x, y) ∈ p.cells
  · rw [if_pos hc, (hfits _ hc).2]
  · rw [if_neg hc]
    by_cases hy : y < invisibleRowsCount
    · rw [hhidden x y hin hy]
      exact not_not.mp fun hne => hc (h.hidden x y hin hy hne)
    · rw [h.visible x y hin (not_lt.mp hy), if_neg hc]

/-- The piece drawn over what lies. -/
theorem pictures_draw (hhidden : HiddenEmpty locked) :
    Pictures (setAll (shownCells p) p.color locked) locked p where
  visible x y hin hy := by
    rw [get_setAll _ _ _ hin]
    refine if_congr ?_ rfl rfl
    rw [shownCells, List.mem_filter]
    exact and_iff_left (decide_eq_true hy)
  hidden x y hin hy hne := by
    rw [get_setAll _ _ _ hin] at hne
    split at hne
    · rename_i hc
      exact (List.mem_filter.mp hc).1
    · exact absurd (hhidden x y hin hy) hne

/-- What lies, with no piece over it in the rows that are shown. -/
theorem pictures_of_hidden (hhidden : HiddenEmpty locked)
    (hp : ∀ c ∈ p.cells, c.2 < invisibleRowsCount) : Pictures locked locked p where
  visible x y _ hy := by
    rw [if_neg fun hc => absurd (hp _ hc) (not_lt.mpr hy)]
  hidden x y hin hy hne := absurd (hhidden x y hin hy) hne

/-- Marking the piece in a picture of it. -/
theorem Pictures.mark (h : Pictures f locked p) :
    Pictures (setAll p.cells p.color f) locked p where
  visible x y hin hy := by
    rw [get_setAll _ _ _ hin]
    split
    · rfl
    · rename_i hc
      rw [h.visible x y hin hy, if_neg hc]
  hidden x y hin hy hne := by
    rw [get_setAll _ _ _ hin] at hne
    split at hne
    · rename_i hc
      exact hc
    · exact h.hidden x y hin hy hne

/-- The piece marked over what lies. -/
theorem pictures_mark (hhidden : HiddenEmpty locked) :
    Pictures (lay p locked) locked p where
  visible x y hin _ := get_setAll _ _ _ hin
  hidden x y hin hy hne := by
    rw [lay, get_setAll _ _ _ hin] at hne
    split at hne
    · rename_i hc
      exact hc
    · exact absurd (hhidden x y hin hy) hne

/-- Where there is room for a piece, drawing it black changes nothing. -/
theorem setAll_black (hfits : Fits locked p) :
    setAll (shownCells p) efiBlack locked = locked := by
  refine Grid.ext fun x y hin => ?_
  rw [get_setAll _ _ _ hin]
  split
  · rename_i hc
    exact ((hfits _ (List.mem_filter.mp hc).1).2).symm
  · rfl

end

/-- **The board shows the game.** -/
structure Shows (b : Board) (g : Game) : Prop where
  active : b.activePiece = g.active
  nextPiece : b.nextPiece.shape = g.next ∧ b.nextPiece.rotation = 0
  pictures : Pictures b.fields g.locked g.active
  assertFired : b.assertFired = false
  level : 0 ≤ b.level

variable {b : Board} {g : Game}

/-- A board that shows the game, with the piece taken out. -/
theorem Shows.erase (h : Shows b g) :
    markFieldsOccupiedByPiece emptyField b = { b with fields := g.locked } := by
  rw [markFieldsOccupiedByPiece_eq, h.active, h.pictures.erase g.fits g.hidden]

/-- The piece put back. -/
theorem Shows.putBack (h : Shows b g) :
    Shows { b with fields := lay g.active g.locked } g where
  active := h.active
  nextPiece := h.nextPiece
  pictures := pictures_mark g.hidden
  assertFired := h.assertFired
  level := h.level

/-- The piece drawn at another place: black where it was, and in its colour where it
is. -/
theorem Shows.redraw (h : Shows b g) {p : Piece} (hp : Fits g.locked p) :
    Shows { b with
      activePiece := p
      fields := setAll (shownCells p) p.color g.locked } (g.place p) := by
  rw [Game.place_of_fits hp]
  exact ⟨rfl, h.nextPiece, pictures_draw g.hidden, h.assertFired, h.level⟩

/-- What drawing the piece at another place comes to. -/
theorem Shows.redraw_eq (h : Shows b g) (f : Piece → Piece) (hp : Fits g.locked (f g.active)) :
    drawFieldsOccupiedByPiece
        (changePiece f (drawFieldsOccupiedByPiece efiBlack { b with fields := g.locked })
          ).activePiece.color
        (changePiece f (drawFieldsOccupiedByPiece efiBlack { b with fields := g.locked }))
      = { b with
          activePiece := f g.active
          fields := setAll (shownCells (f g.active)) (f g.active).color g.locked } := by
  have hactive : ∀ c ∈ ({ b with fields := g.locked } : Board).activePiece.cells,
      OnBoard c.1 c.2 := fun c hc => (g.fits c (h.active ▸ hc)).1
  have hblack : setAll (shownCells b.activePiece) efiBlack g.locked = g.locked := by
    rw [h.active]
    exact setAll_black g.fits
  rw [drawFieldsOccupiedByPiece_eq efiBlack hactive]
  dsimp only [changePiece]
  rw [hblack, h.active]
  exact drawFieldsOccupiedByPiece_eq _ fun c hc => (hp c hc).1

/-- With the piece taken out the board knows where there is room for it. -/
theorem Shows.room (h : Shows b g) (x y : ℤ) :
    isMovePossible { b with fields := g.locked } x y = true
      ↔ Fits g.locked (g.active.shift x y) := by
  rw [isMovePossible_iff]
  show Fits g.locked (b.activePiece.shift x y) ↔ _
  rw [h.active]

/-- The piece put back where it was. -/
theorem Shows.mark_eq (h : Shows b g) :
    markFieldsOccupiedByPiece b.activePiece.color { b with fields := g.locked }
      = { b with fields := lay g.active g.locked } := by
  rw [markFieldsOccupiedByPiece_eq]
  show { b with fields := lay b.activePiece _ } = _
  rw [h.active]

/-- Turning the active piece back undoes the turn. -/
theorem changePiece_back (b : Board) :
    changePiece Piece.rotateCCW (changePiece Piece.rotateCW b) = b := by
  unfold changePiece
  rw [Piece.rotateCCW_rotateCW]

/-! ## What a move does -/

section

variable (h : Shows b g)

include h

/-- A turn looks whether there is room for the piece as it is then. -/
theorem Shows.room_rotate :
    isMovePossible (changePiece Piece.rotateCW { b with fields := g.locked }) 0 0 = true
      ↔ Fits g.locked g.active.rotateCW := by
  rw [isMovePossible_iff, Piece.shift_zero]
  show Fits g.locked b.activePiece.rotateCW ↔ _
  rw [h.active]

theorem rotatePiece_of_fits (hfits : Fits g.locked g.active.rotateCW) :
    rotatePiece b = { b with
      activePiece := g.active.rotateCW
      fields := setAll (shownCells g.active.rotateCW) g.active.rotateCW.color g.locked } := by
  unfold rotatePiece
  rw [h.erase]
  dsimp only
  rw [h.room_rotate.mpr hfits, changePiece_back]
  exact h.redraw_eq Piece.rotateCW hfits

theorem rotatePiece_of_not_fits (hfits : ¬ Fits g.locked g.active.rotateCW) :
    rotatePiece b = { b with fields := lay g.active g.locked } := by
  unfold rotatePiece
  rw [h.erase]
  dsimp only
  rw [Bool.eq_false_iff.mpr (mt h.room_rotate.mp hfits), changePiece_back]
  exact h.mark_eq

theorem movePieceSideways_of_fits {x : ℤ} (hfits : Fits g.locked (g.active.shift x 0)) :
    movePieceSideways x b = { b with
      activePiece := g.active.shift x 0
      fields := lay (g.active.shift x 0)
        (setAll (shownCells (g.active.shift x 0)) (g.active.shift x 0).color g.locked) } := by
  unfold movePieceSideways
  rw [h.erase]
  dsimp only
  rw [if_pos ((h.room x 0).mpr hfits), h.redraw_eq (Piece.shift x 0) hfits]
  exact markFieldsOccupiedByPiece_eq _ _

theorem movePieceSideways_of_not_fits {x : ℤ} (hfits : ¬ Fits g.locked (g.active.shift x 0)) :
    movePieceSideways x b = { b with fields := lay g.active g.locked } := by
  unfold movePieceSideways
  rw [h.erase]
  dsimp only
  rw [if_neg (mt (h.room x 0).mp hfits)]
  exact h.mark_eq

/-- The game is over when part of the piece is hidden. -/
theorem Shows.isGameOver_iff (f : Fields) :
    isGameOver { b with fields := f } = true ↔ ∃ c ∈ g.active.cells, c.2 < invisibleRowsCount := by
  unfold isGameOver
  rw [h.active, List.any_eq_true]
  simp only [decide_eq_true_eq]

theorem movePieceDown_of_fits (hfits : Fits g.locked g.lowered) (fuel : ℕ) (shape : Tetrimino) :
    movePieceDown fuel shape b = some (true, { b with
      activePiece := g.lowered
      fields := setAll (shownCells g.lowered) g.lowered.color g.locked }) := by
  unfold movePieceDown
  rw [h.erase]
  dsimp only
  rw [if_pos ((h.room 0 1).mpr hfits), h.redraw_eq (Piece.shift 0 1) hfits]
  rfl

theorem movePieceDown_of_over (hfits : ¬ Fits g.locked g.lowered)
    (hover : ∃ c ∈ g.active.cells, c.2 < invisibleRowsCount) (fuel : ℕ) (shape : Tetrimino) :
    movePieceDown fuel shape b
      = some (false, { b with fields := lay g.active g.locked, blocked := true }) := by
  unfold movePieceDown
  rw [h.erase]
  dsimp only
  rw [if_neg (mt (h.room 0 1).mp hfits), h.mark_eq, placePiece,
    if_pos ((h.isGameOver_iff _).mpr hover)]
  rfl

theorem movePieceDown_of_land (hfits : ¬ Fits g.locked g.lowered)
    (hover : ¬ ∃ c ∈ g.active.cells, c.2 < invisibleRowsCount) (fuel : ℕ) (shape : Tetrimino) :
    ∃ lines score, b.score ≤ score ∧ movePieceDown (fuel + lineTurns) shape b
      = some (false, { b with
          activePiece := spawn g.next
          nextPiece := b.activePiece.randomize shape
          fields := clearLines (lay g.active g.locked)
          lines := lines
          score := score }) := by
  have hhidden : HiddenEmpty (lay g.active g.locked) := by
    intro x y hin hy
    rw [lay, get_setAll _ _ _ hin, if_neg fun hc => hover ⟨_, hc, hy⟩]
    exact g.hidden x y hin hy
  have hspawn : ({ b.nextPiece with pos := pieceStartingPos } : Piece) = spawn g.next := by
    show Piece.mk b.nextPiece.shape b.nextPiece.rotation pieceStartingPos = _
    rw [h.nextPiece.1, h.nextPiece.2]
    rfl
  obtain ⟨score, hmore, hscore⟩ :=
    @checkAndRemoveLines_spec { b with fields := lay g.active g.locked } fuel hhidden
  unfold movePieceDown
  rw [h.erase]
  dsimp only
  rw [if_neg (mt (h.room 0 1).mp hfits), h.mark_eq, placePiece,
    if_neg (mt (h.isGameOver_iff _).mp hover), hscore]
  refine ⟨b.lines + fullRows (visibleRows (lay g.active g.locked)), score, hmore h.level, ?_⟩
  rw [← hspawn]
  rfl

end

/-! ## The moves of the game -/

theorem rotatePiece_shows (h : Shows b g) : Shows (rotatePiece b) (g.place g.active.rotateCW) := by
  by_cases hfits : Fits g.locked g.active.rotateCW
  · rw [rotatePiece_of_fits h hfits]
    exact h.redraw hfits
  · rw [rotatePiece_of_not_fits h hfits, Game.place_of_not_fits hfits]
    exact h.putBack

/-- A step to the side. -/
theorem movePieceSideways_shows (h : Shows b g) (x : ℤ) :
    Shows (movePieceSideways x b) (g.place (g.active.shift x 0)) := by
  by_cases hfits : Fits g.locked (g.active.shift x 0)
  · have hdrawn := h.redraw hfits
    rw [movePieceSideways_of_fits h hfits]
    rw [Game.place_of_fits hfits] at hdrawn ⊢
    exact ⟨rfl, hdrawn.nextPiece, hdrawn.pictures.mark, hdrawn.assertFired, h.level⟩
  · rw [movePieceSideways_of_not_fits h hfits, Game.place_of_not_fits hfits]
    exact h.putBack

/-- **The piece moves down or is laid down**, as in the game, and the board says
which. -/
theorem movePieceDown_shows (h : Shows b g) (fuel : ℕ) (shape : Tetrimino) :
    ∃ b', movePieceDown (fuel + lineTurns) shape b = some (decide (Fits g.locked g.lowered), b')
      ∧ Shows b' (g.fall shape) := by
  unfold Game.fall
  by_cases hfits : Fits g.locked g.lowered
  · rw [if_pos hfits, decide_eq_true hfits]
    exact ⟨_, movePieceDown_of_fits h hfits _ shape, h.redraw hfits⟩
  · rw [if_neg hfits, decide_eq_false hfits]
    split
    · rename_i hover
      have hblocked := h.putBack
      exact ⟨_, movePieceDown_of_over h hfits hover _ shape,
        ⟨hblocked.active, hblocked.nextPiece, hblocked.pictures, hblocked.assertFired, h.level⟩⟩
    · rename_i hover
      obtain ⟨lines, score, -, hland⟩ := movePieceDown_of_land h hfits hover fuel shape
      refine ⟨_, hland, rfl, ⟨rfl, rfl⟩, ?_, h.assertFired, h.level⟩
      exact pictures_of_hidden (hiddenEmpty_clearLines _) fun c hc => (onBoard_of_mem_spawn hc).2

/-- The loop of a drop ends, with the piece laid down. -/
theorem dropLoop_shows (h : Shows b g) (fuel : ℕ) (shape : Tetrimino) {turns : ℕ}
    (hturns : ((boardHeight : ℤ) - g.active.pos.2).toNat < turns) (height : ℤ) :
    ∃ height' b', dropLoop (fuel + lineTurns) shape turns height b = some (height', b')
      ∧ Shows b' (g.drop shape) := by
  induction turns generalizing b g height with
  | zero => exact absurd hturns (Nat.not_lt_zero _)
  | succ turns ih =>
    obtain ⟨b', hb', hshows⟩ := movePieceDown_shows h fuel shape
    rw [dropLoop, hb']
    dsimp only [Option.bind_some]
    by_cases hfits : Fits g.locked g.lowered
    · have hrow := (row_of_fits hfits).2
      change g.active.pos.2 + 1 < boardHeight at hrow
      rw [Game.fall, if_pos hfits] at hshows
      rw [decide_eq_true hfits, if_pos rfl, Game.drop_of_fits shape hfits]
      refine ih hshows ?_ (height + 1)
      rw [Game.place_of_fits hfits]
      show ((boardHeight : ℤ) - (g.active.pos.2 + 1)).toNat < turns
      omega
    · rw [decide_eq_false hfits, if_neg Bool.false_ne_true, Game.drop_of_not_fits shape hfits]
      exact ⟨height, b', rfl, hshows⟩

/-- The piece is dropped, as in the game. -/
theorem dropPiece_shows (h : Shows b g) (fuel : ℕ) (shape : Tetrimino) :
    ∃ b', dropPiece (fuel + lineTurns) shape b = some b' ∧ Shows b' (g.drop shape) := by
  have hrow := (row_of_fits g.fits).1
  obtain ⟨height, b', hb', hshows⟩ := @dropLoop_shows b g h fuel shape (fuel + lineTurns) (by
    show ((22 : ℤ) - g.active.pos.2).toNat < fuel + 44
    omega) 0
  unfold dropPiece
  rw [hb']
  exact ⟨_, rfl, ⟨hshows.active, hshows.nextPiece, hshows.pictures, hshows.assertFired,
    hshows.level⟩⟩

/-- **A move of the board is the move of the game.** -/
theorem move_shows (h : Shows b g) (fuel : ℕ) (m : Move × Tetrimino) :
    ∃ b', move (fuel + lineTurns) b m = some b' ∧ Shows b' (g.move m) := by
  obtain ⟨kind, shape⟩ := m
  cases kind with
  | rotate => exact ⟨_, rfl, rotatePiece_shows h⟩
  | left => exact ⟨_, rfl, movePieceSideways_shows h (-1)⟩
  | right => exact ⟨_, rfl, movePieceSideways_shows h 1⟩
  | down =>
    obtain ⟨b', hb', hshows⟩ := movePieceDown_shows h fuel shape
    refine ⟨b', ?_, hshows⟩
    show (movePieceDown (fuel + lineTurns) shape b).map Prod.snd = some b'
    rw [hb']
    rfl
  | drop => exact dropPiece_shows h fuel shape

/-- A new board shows a new game. -/
theorem constructBoard_shows (next active then_ : Tetrimino) :
    Shows (constructBoard next active then_) (Game.start next then_) where
  active := rfl
  nextPiece := ⟨rfl, rfl⟩
  pictures := pictures_of_hidden (Game.start next then_).hidden
    fun _ hc => (onBoard_of_mem_spawn hc).2
  assertFired := rfl
  level := show (0 : ℤ) ≤ 1 by decide

/-! ## Runs -/

/-- **A board in order**, where `locked` are the fields that lie. -/
structure InOrder (b : Board) (locked : Fields) : Prop where
  onBoard : ∀ c ∈ b.activePiece.cells, OnBoard c.1 c.2
  apart : ∀ c ∈ b.activePiece.cells, locked.get c.1 c.2 = emptyField
  visible : ∀ x y, OnBoard x y → (invisibleRowsCount : ℤ) ≤ y →
    (b.fields.get x y ≠ emptyField
      ↔ locked.get x y ≠ emptyField ∨ (x, y) ∈ b.activePiece.cells)
  hidden : ∀ x y, OnBoard x y → y < invisibleRowsCount →
    b.fields.get x y ≠ emptyField → (x, y) ∈ b.activePiece.cells
  noAssert : b.assertFired = false

theorem Shows.inOrder (h : Shows b g) : InOrder b g.locked := by
  refine ⟨?_, ?_, fun x y hin hy => ?_, fun x y hin hy hne => ?_, h.assertFired⟩
  · rw [h.active]
    exact fun c hc => (g.fits c hc).1
  · rw [h.active]
    exact fun c hc => (g.fits c hc).2
  · rw [h.active, h.pictures.visible x y hin hy]
    split
    · rename_i hc
      exact iff_of_true g.active.color_ne_black (.inr hc)
    · rename_i hc
      exact ⟨.inl, fun hne => hne.resolve_right hc⟩
  · rw [h.active]
    exact h.pictures.hidden x y hin hy hne

/-- **Every run leaves the board in order.** Whatever moves are made on a new board
and whatever shapes come up, each move comes back, and the piece that is moved –
one that has just come up among them – is on the board and apart from all that
lies; the fields that are shown are what lies and the piece, those that are not are
the piece at most, and no assertion fails. What lies is what lies in the game.
The moves need not stop when the board is blocked. -/
theorem moves_inOrder (fuel : ℕ) (next active then_ : Tetrimino)
    (moves : List (Move × Tetrimino)) :
    ∃ b, Run.runOption (move (fuel + lineTurns)) (constructBoard next active then_) moves = some b
      ∧ InOrder b (Run.run Game.move (Game.start next then_) moves).locked := by
  obtain ⟨b, hb, hshows⟩ := Run.runOption_of_refines (R := Shows)
    (fun _ _ m h => move_shows h fuel m) (constructBoard_shows next active then_) moves
  exact ⟨b, hb, hshows.inOrder⟩

end Tetris
