import HtcLeo.Lib.Grid
import HtcLeo.Tetris.Piece
import Mathlib.Algebra.Group.Int.Defs

/-!
# The board

The board of the Tetris application keeps the piece that is moved in the same
fields as the pieces that lie. Every move takes it out, looks whether there is
room for it elsewhere, and puts it back, and there are two ways to put it:
`markFieldsOccupiedByPiece` writes all its fields, `drawFieldsOccupiedByPiece`
only those in the rows that are shown.

What is drawn on the screen is left out. An `ASSERT` that fails is kept, as
`assertFired`, and the program goes on as it does where they are compiled out.
The loop over the lines need not end on every board – a full hidden line is
copied down for ever – and is given a number of turns it may take.
-/

namespace Tetris

open Grid

/-- `BOARD_HEIGHT`. -/
def boardHeight : ℕ := 22
/-- `INVISIBLE_ROWS_COUNT`. -/
def invisibleRowsCount : ℕ := 2
/-- `BOARD_WIDTH`. -/
def boardWidth : ℕ := 10
/-- `PIECE_STARTING_POS`. -/
def pieceStartingPos : Point := (4, 0)
/-- `EMPTY_FIELD`. -/
def emptyField : UInt8 := efiBlack
/-- `DROP_BONUS_SCORE_PER_LINE`. -/
def dropBonusScorePerLine : ℤ := 2
/-- `LINE_CLEAR_SCORE`. -/
def lineClearScore : ℤ := 100
/-- `LINE_CLEAR_LEVEL_BONUS_SCORE`. -/
def lineClearLevelBonusScore : ℤ := 50

/-- The fields of the board, row by row. -/
abbrev Fields : Type := Grid boardHeight boardWidth UInt8

/-- The point is on the board. -/
abbrev OnBoard (x y : ℤ) : Prop := Inside boardHeight boardWidth x y

/-- **`Board`.** -/
structure Board where
  nextPiece : Piece
  activePiece : Piece
  fields : Fields
  blocked : Bool
  level : ℤ
  lines : ℤ
  score : ℤ
  assertFired : Bool

/-! ## Fields under the piece -/

/-- `isMovePossible`. -/
def isMovePossible (b : Board) (x y : ℤ) : Bool :=
  b.activePiece.cells.all fun c =>
    let fx := c.1 + x
    let fy := c.2 + y
    !(fx < 0 || fx ≥ boardWidth || fy < 0 || fy ≥ boardHeight
      || b.fields.get fx fy ≠ emptyField)

/-- `markFieldsOccupiedByPiece`. -/
def markFieldsOccupiedByPiece (color : UInt8) (b : Board) : Board :=
  b.activePiece.cells.foldl (fun b c => { b with fields := b.fields.set c.1 c.2 color }) b

/-- `redrawField`. -/
def redrawField (x y : ℤ) (color : UInt8) (b : Board) : Board :=
  let b := if OnBoard x y then b else { b with assertFired := true }
  if y ≥ invisibleRowsCount then { b with fields := b.fields.set x y color } else b

/-- `drawFieldsOccupiedByPiece`. -/
def drawFieldsOccupiedByPiece (color : UInt8) (b : Board) : Board :=
  b.activePiece.cells.foldl (fun b c => redrawField c.1 c.2 color b) b

/-- The active piece replaced by what `f` makes of it. -/
def changePiece (f : Piece → Piece) (b : Board) : Board :=
  { b with activePiece := f b.activePiece }

/-! ## Moves that keep the piece -/

/-- `rotatePiece`. -/
def rotatePiece (b : Board) : Board :=
  let b := markFieldsOccupiedByPiece emptyField b
  let b := changePiece Piece.rotateCW b
  if !isMovePossible b 0 0 then
    let b := changePiece Piece.rotateCCW b
    markFieldsOccupiedByPiece b.activePiece.color b
  else
    let b := changePiece Piece.rotateCCW b
    let b := drawFieldsOccupiedByPiece efiBlack b
    let b := changePiece Piece.rotateCW b
    drawFieldsOccupiedByPiece b.activePiece.color b

/-- `movePieceLeft` and `movePieceRight`, which move by `x`. -/
def movePieceSideways (x : ℤ) (b : Board) : Board :=
  let b := markFieldsOccupiedByPiece emptyField b
  let b :=
    if isMovePossible b x 0 then
      let b := drawFieldsOccupiedByPiece efiBlack b
      let b := changePiece (Piece.shift x 0) b
      drawFieldsOccupiedByPiece b.activePiece.color b
    else b
  markFieldsOccupiedByPiece b.activePiece.color b

/-- `movePieceLeft`. -/
def movePieceLeft : Board → Board := movePieceSideways (-1)

/-- `movePieceRight`. -/
def movePieceRight : Board → Board := movePieceSideways 1

/-! ## Lines -/

/-- The loop of `checkAndRemoveLines` over a line. -/
def lineWasFull (b : Board) (i : ℕ) : Bool :=
  (List.range boardWidth).all fun j => b.fields.get j i ≠ emptyField

/-- A line is redrawn, each field in the colour `color` reads for it. -/
def redrawLine (i : ℕ) (color : Board → ℕ → UInt8) (b : Board) : Board :=
  (List.range boardWidth).foldl (fun b (k : ℕ) => redrawField k i (color b k) b) b

/-- What `checkAndRemoveLines` does with a full line: it is drawn black, and then
each line from it up to the second is drawn as the line above it. -/
def removeLine (i : ℕ) (b : Board) : Board :=
  let b := redrawLine i (fun _ _ => efiBlack) b
  (List.range i).foldl (fun b n =>
    let j := i - n
    redrawLine j (fun b k => b.fields.get k ((j : ℤ) - 1)) b) b

/-- The loop of `checkAndRemoveLines` over the lines, from line `i` up, in at most
`fuel` turns: the counter and the board. -/
def removeLines : ℕ → ℕ → ℕ → Board → Option (ℕ × Board)
  | 0, _, _, _ => none
  | fuel + 1, i, counter, b =>
    if i < invisibleRowsCount then some (counter, b)
    else if lineWasFull b i then removeLines fuel i (counter + 1) (removeLine i b)
    else removeLines fuel (i - 1) counter b

/-- **`checkAndRemoveLines`.** -/
def checkAndRemoveLines (fuel : ℕ) (b : Board) : Option Board :=
  (removeLines fuel (boardHeight - 1) 0 b).map fun (counter, b) =>
    let b := { b with lines := b.lines + counter }
    if counter ≠ 0 then
      { b with score := b.score + lineClearScore * 2 ^ (counter - 1)
          + lineClearLevelBonusScore * b.level }
    else b

/-! ## Moves that may lay the piece down -/

/-- `loadNextPiece`, with the shape that comes up. -/
def loadNextPiece (shape : Tetrimino) (b : Board) : Board :=
  let tmp := b.activePiece
  { b with
    activePiece := { b.nextPiece with pos := pieceStartingPos }
    nextPiece := tmp.randomize shape }

/-- `isGameOver`. -/
def isGameOver (b : Board) : Bool :=
  b.activePiece.cells.any fun c => c.2 < invisibleRowsCount

/-- `placePiece`. -/
def placePiece (fuel : ℕ) (shape : Tetrimino) (b : Board) : Option Board :=
  if isGameOver b then some { b with blocked := true }
  else (checkAndRemoveLines fuel b).map (loadNextPiece shape)

/-- **`movePieceDown`**: what it returns, and the board. -/
def movePieceDown (fuel : ℕ) (shape : Tetrimino) (b : Board) : Option (Bool × Board) :=
  let b := markFieldsOccupiedByPiece emptyField b
  if isMovePossible b 0 1 then
    let b := drawFieldsOccupiedByPiece efiBlack b
    let b := changePiece (Piece.shift 0 1) b
    some (true, drawFieldsOccupiedByPiece b.activePiece.color b)
  else
    let b := markFieldsOccupiedByPiece b.activePiece.color b
    (placePiece fuel shape b).map fun b => (false, b)

/-- The loop of `dropPiece`, in at most `turns` turns: the height and the board. -/
def dropLoop (fuel : ℕ) (shape : Tetrimino) : ℕ → ℤ → Board → Option (ℤ × Board)
  | 0, _, _ => none
  | turns + 1, height, b =>
    (movePieceDown fuel shape b).bind fun (moved, b) =>
      if moved then dropLoop fuel shape turns (height + 1) b else some (height, b)

/-- **`dropPiece`.** -/
def dropPiece (fuel : ℕ) (shape : Tetrimino) (b : Board) : Option Board :=
  (dropLoop fuel shape fuel 0 b).map fun (height, b) =>
    { b with score := b.score + dropBonusScorePerLine * height }

/-! ## The board as a whole -/

/-- `ConstructBoard`, with the three shapes that come up. -/
def constructBoard (next active then_ : Tetrimino) : Board :=
  loadNextPiece then_
    { nextPiece := Piece.constructPiece next
      activePiece := Piece.constructPiece active
      fields := fun _ _ => 0
      blocked := false
      level := 1
      lines := 0
      score := 0
      assertFired := false }

/-- The moves of a board. -/
inductive Move where
  | rotate
  | left
  | right
  | down
  | drop
  deriving DecidableEq, Repr

/-- **A move**, with the shape that comes up if the piece is laid down. -/
def move (fuel : ℕ) (b : Board) (m : Move × Tetrimino) : Option Board :=
  match m.1 with
  | .rotate => some (rotatePiece b)
  | .left => some (movePieceLeft b)
  | .right => some (movePieceRight b)
  | .down => (movePieceDown fuel m.2 b).map Prod.snd
  | .drop => dropPiece fuel m.2 b

end Tetris
