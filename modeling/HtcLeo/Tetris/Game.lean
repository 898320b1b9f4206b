import HtcLeo.Tetris.Lines

/-!
# The game

What the board is a picture of: pieces that lie, one piece that is moved, and
the shape that comes next. The piece that is moved is no part of what lies until
it is laid down, so there is nothing to take out or put back, and a `Game` in
which it overlaps what lies, or leaves the board, cannot be built.
-/

namespace Tetris

open Grid

/-- **There is room for the piece**: it is on the board, where nothing lies. -/
def Fits (locked : Fields) (p : Piece) : Prop :=
  ∀ c ∈ p.cells, OnBoard c.1 c.2 ∧ locked.get c.1 c.2 = emptyField

instance (locked : Fields) (p : Piece) : Decidable (Fits locked p) :=
  inferInstanceAs (Decidable (∀ c ∈ p.cells, _))

/-- What lies once the piece is laid down. -/
def lay (p : Piece) (locked : Fields) : Fields := setAll p.cells p.color locked

/-- A piece as it comes up. -/
def spawn (shape : Tetrimino) : Piece := ⟨shape, 0, pieceStartingPos⟩

/-- A piece comes up in the hidden rows. -/
theorem onBoard_of_mem_spawn {shape : Tetrimino} {c : Point} (hc : c ∈ (spawn shape).cells) :
    OnBoard c.1 c.2 ∧ c.2 < invisibleRowsCount := by
  obtain ⟨q, hq, rfl⟩ := Piece.mem_cells.mp hc
  obtain ⟨hx, hy⟩ := (shape.bodies_spec 0).2 q hq
  have hlow : q.2 < 2 := shape.bodies_zero_lt q hq
  show OnBoard (q.1 + 4) (q.2 + 0) ∧ q.2 + 0 < 2
  rw [Int.add_zero]
  refine ⟨⟨⟨by omega, ?_⟩, hy.1, ?_⟩, hlow⟩
  · show q.1 + 4 < 10
    omega
  · show q.2 < 22
    omega

/-- **There is always room for a new piece** where nothing lies in the hidden rows. -/
theorem fits_spawn {locked : Fields} (h : HiddenEmpty locked) (shape : Tetrimino) :
    Fits locked (spawn shape) := by
  intro c hc
  obtain ⟨hin, hy⟩ := onBoard_of_mem_spawn hc
  exact ⟨hin, h c.1 c.2 hin hy⟩

/-- A piece that fits is neither far above the board nor below it. -/
theorem row_of_fits {locked : Fields} {p : Piece} (h : Fits locked p) :
    -4 < p.pos.2 ∧ p.pos.2 < boardHeight := by
  obtain ⟨c, hc, hrow⟩ := p.exists_mem_cells
  have hin := (h c hc).1.2
  omega

/-- **The game.** -/
structure Game where
  /-- What lies. -/
  locked : Fields
  /-- The piece that is moved. -/
  active : Piece
  /-- The shape that comes next. -/
  next : Tetrimino
  /-- There is room for the piece. -/
  fits : Fits locked active
  /-- Nothing lies in the hidden rows. -/
  hidden : HiddenEmpty locked

namespace Game

/-- A new game, with the two shapes that come first. -/
def start (first second : Tetrimino) : Game where
  locked := fun _ _ => emptyField
  active := spawn first
  next := second
  fits := fits_spawn (fun x y hin _ => by unfold Grid.get; rw [dif_pos hin]) first
  hidden := fun x y hin _ => by unfold Grid.get; rw [dif_pos hin]

/-- The piece is moved where there is room for it. -/
def place (p : Piece) (g : Game) : Game :=
  if h : Fits g.locked p then { g with active := p, fits := h } else g

/-- The piece is laid down, full lines go, and the next piece comes up. -/
def land (shape : Tetrimino) (g : Game) : Game where
  locked := clearLines (lay g.active g.locked)
  active := spawn g.next
  next := shape
  fits := fits_spawn (hiddenEmpty_clearLines _) _
  hidden := hiddenEmpty_clearLines _

/-- The piece one row lower. -/
def lowered (g : Game) : Piece := g.active.shift 0 1

/-- The piece falls by a row, or is laid down; in the hidden rows it is left. -/
def fall (shape : Tetrimino) (g : Game) : Game :=
  if Fits g.locked g.lowered then g.place g.lowered
  else if ∃ c ∈ g.active.cells, c.2 < invisibleRowsCount then g
  else g.land shape

/-- The piece falls as far as it can and is laid down. -/
def drop (shape : Tetrimino) (g : Game) : Game :=
  if Fits g.locked g.lowered then drop shape (g.place g.lowered) else g.fall shape
termination_by (boardHeight - g.active.pos.2).toNat
decreasing_by
  rename_i h
  have hrow := (row_of_fits h).2
  have hplaced : (g.place g.lowered).active = g.lowered := by
    unfold place
    rw [dif_pos h]
  rw [hplaced]
  change g.active.pos.2 + 1 < boardHeight at hrow
  show ((boardHeight : ℤ) - (g.active.pos.2 + 1)).toNat < _
  omega

/-- **A move of the game**, with the shape that comes up. -/
def move (g : Game) (m : Move × Tetrimino) : Game :=
  match m.1 with
  | .rotate => g.place g.active.rotateCW
  | .left => g.place (g.active.shift (-1) 0)
  | .right => g.place (g.active.shift 1 0)
  | .down => g.fall m.2
  | .drop => g.drop m.2

theorem place_of_fits {g : Game} {p : Piece} (h : Fits g.locked p) :
    g.place p = { g with active := p, fits := h } :=
  dif_pos h

theorem place_of_not_fits {g : Game} {p : Piece} (h : ¬ Fits g.locked p) : g.place p = g :=
  dif_neg h

theorem drop_of_fits (shape : Tetrimino) {g : Game} (h : Fits g.locked g.lowered) :
    g.drop shape = (g.place g.lowered).drop shape := by
  rw [drop, if_pos h]

theorem drop_of_not_fits (shape : Tetrimino) {g : Game} (h : ¬ Fits g.locked g.lowered) :
    g.drop shape = g.fall shape := by
  rw [drop, if_neg h]

end Game

end Tetris
