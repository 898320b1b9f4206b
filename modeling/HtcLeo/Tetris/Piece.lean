import Mathlib.Algebra.GroupWithZero.Nat
import Mathlib.Data.Fin.VecNotation
import Mathlib.Data.Int.Notation
import Mathlib.Tactic.Common

/-!
# The pieces of the game

A piece of the Tetris application has four bodies, one for each rotation, of
four points each. A body never leaves the square of four by four its points
are given in, and the first body keeps to the two upper rows of it: a piece
that is put at row 0 of the board in its first rotation lies in the two rows
that are not shown (`Tetrimino.bodies_zero_lt`).
-/

namespace Tetris

/-- `Point`: a column and a row. -/
abbrev Point : Type := ℤ × ℤ

/-! ## Colours -/

def efiBlack : UInt8 := 0x00
def efiGreen : UInt8 := 0x02
def efiMagenta : UInt8 := 0x05
def efiLightblue : UInt8 := 0x09
def efiLightgreen : UInt8 := 0x0a
def efiLightcyan : UInt8 := 0x0b
def efiLightmagenta : UInt8 := 0x0d
def efiYellow : UInt8 := 0x0e

/-! ## Shapes -/

/-- The seven shapes, by the number `rand () % 7` gives them. -/
inductive Tetrimino where
  | i
  | j
  | l
  | o
  | s
  | t
  | z
  deriving DecidableEq, Repr

/-- A shape has a body for each rotation. -/
def bodyCount : ℕ := 4

instance : NeZero bodyCount := ⟨by decide⟩

namespace Tetrimino

/-- `TETRIMINO_I_BODY`, …: the four bodies. -/
def bodies : Tetrimino → Fin bodyCount → List Point
  | i => ![[(0, 1), (1, 1), (2, 1), (3, 1)], [(2, 0), (2, 1), (2, 2), (2, 3)],
      [(0, 2), (1, 2), (2, 2), (3, 2)], [(1, 0), (1, 1), (1, 2), (1, 3)]]
  | j => ![[(0, 0), (0, 1), (1, 1), (2, 1)], [(1, 2), (1, 1), (1, 0), (2, 0)],
      [(0, 1), (1, 1), (2, 1), (2, 2)], [(0, 2), (1, 2), (1, 1), (1, 0)]]
  | l => ![[(0, 1), (1, 1), (2, 1), (2, 0)], [(1, 2), (1, 1), (1, 0), (2, 2)],
      [(0, 1), (1, 1), (2, 1), (0, 2)], [(0, 0), (1, 2), (1, 1), (1, 0)]]
  | o => ![[(1, 0), (1, 1), (2, 0), (2, 1)], [(1, 0), (1, 1), (2, 0), (2, 1)],
      [(1, 0), (1, 1), (2, 0), (2, 1)], [(1, 0), (1, 1), (2, 0), (2, 1)]]
  | s => ![[(0, 1), (1, 1), (1, 0), (2, 0)], [(1, 0), (1, 1), (2, 1), (2, 2)],
      [(0, 2), (1, 2), (1, 1), (2, 1)], [(0, 0), (0, 1), (1, 1), (1, 2)]]
  | t => ![[(0, 1), (1, 1), (2, 1), (1, 0)], [(1, 0), (1, 1), (1, 2), (2, 1)],
      [(0, 1), (1, 1), (2, 1), (1, 2)], [(1, 0), (1, 1), (1, 2), (0, 1)]]
  | z => ![[(2, 1), (1, 1), (1, 0), (0, 0)], [(1, 2), (1, 1), (2, 1), (2, 0)],
      [(2, 2), (1, 2), (1, 1), (0, 1)], [(0, 2), (0, 1), (1, 1), (1, 0)]]

/-- `TETRIMINO_I_COLOR`, …. -/
def color : Tetrimino → UInt8
  | i => efiLightcyan
  | j => efiLightblue
  | l => efiGreen
  | o => efiYellow
  | s => efiLightgreen
  | t => efiMagenta
  | z => efiLightmagenta

/-- A shape has points in every rotation, in a square of four by four. -/
theorem bodies_spec (shape : Tetrimino) (r : Fin bodyCount) :
    shape.bodies r ≠ [] ∧ ∀ p ∈ shape.bodies r, (0 ≤ p.1 ∧ p.1 < 4) ∧ 0 ≤ p.2 ∧ p.2 < 4 := by
  cases shape <;> revert r <;> decide

/-- The first body keeps to the two upper rows. -/
theorem bodies_zero_lt (shape : Tetrimino) : ∀ p ∈ shape.bodies 0, p.2 < 2 := by
  cases shape <;> decide

/-- No shape has the colour of an empty field. -/
theorem color_ne_black (shape : Tetrimino) : shape.color ≠ efiBlack := by
  cases shape <;> decide

end Tetrimino

/-! ## Pieces -/

/-- **`Piece`.** Of the bodies and the colour it copies from its shape it keeps the
shape; `body` points at the body of the rotation. -/
structure Piece where
  shape : Tetrimino
  rotation : Fin bodyCount
  pos : Point
  deriving DecidableEq

namespace Piece

/-- `color`. -/
def color (p : Piece) : UInt8 := p.shape.color

/-- `*body`. -/
def body (p : Piece) : List Point := p.shape.bodies p.rotation

/-- `randomize`, with the shape the random number gives. -/
def randomize (shape : Tetrimino) (p : Piece) : Piece := { p with shape := shape, rotation := 0 }

/-- `rotateCW`. -/
def rotateCW (p : Piece) : Piece := { p with rotation := p.rotation + 1 }

/-- `rotateCCW`. -/
def rotateCCW (p : Piece) : Piece :=
  { p with rotation := if p.rotation = 0 then 3 else p.rotation - 1 }

/-- `ConstructPiece`. -/
def constructPiece (shape : Tetrimino) : Piece := randomize shape ⟨shape, 0, (0, 0)⟩

/-- The points of the board a piece lies on. -/
def cells (p : Piece) : List Point := p.body.map fun q => (q.1 + p.pos.1, q.2 + p.pos.2)

/-- The piece moved by `x` columns and `y` rows. -/
def shift (x y : ℤ) (p : Piece) : Piece := { p with pos := (p.pos.1 + x, p.pos.2 + y) }

/-- Turning back undoes a turn. -/
@[simp] theorem rotateCCW_rotateCW (p : Piece) : p.rotateCW.rotateCCW = p := by
  have hturn : ∀ r : Fin bodyCount, (if r + 1 = 0 then 3 else r + 1 - 1) = r := by decide
  obtain ⟨shape, r, pos⟩ := p
  exact congrArg (Piece.mk shape · pos) (hturn r)

@[simp] theorem shift_zero (p : Piece) : p.shift 0 0 = p := by
  unfold shift
  rw [Int.add_zero, Int.add_zero]

theorem mem_cells {p : Piece} {c : Point} :
    c ∈ p.cells ↔ ∃ q ∈ p.body, (q.1 + p.pos.1, q.2 + p.pos.2) = c :=
  List.mem_map

/-- The points of a piece that is moved. -/
theorem cells_shift (x y : ℤ) (p : Piece) :
    (p.shift x y).cells = p.cells.map fun c => (c.1 + x, c.2 + y) := by
  unfold cells
  rw [List.map_map]
  refine List.map_congr_left fun q _ => ?_
  simp only [shift, Function.comp_apply, Int.add_assoc]

/-- A piece lies somewhere, within four rows of its position. -/
theorem exists_mem_cells (p : Piece) : ∃ c ∈ p.cells, p.pos.2 ≤ c.2 ∧ c.2 < p.pos.2 + 4 := by
  obtain ⟨hne, hrange⟩ := p.shape.bodies_spec p.rotation
  obtain ⟨q, hq⟩ := List.exists_mem_of_ne_nil _ hne
  refine ⟨_, mem_cells.mpr ⟨q, hq, rfl⟩, ?_⟩
  have hrow := (hrange q hq).2
  show p.pos.2 ≤ q.2 + p.pos.2 ∧ q.2 + p.pos.2 < p.pos.2 + 4
  omega

/-- No piece has the colour of an empty field. -/
theorem color_ne_black (p : Piece) : p.color ≠ efiBlack := p.shape.color_ne_black

end Piece

end Tetris
