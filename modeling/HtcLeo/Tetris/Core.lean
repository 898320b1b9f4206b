import HtcLeo.Keypad.KeyStatus
import HtcLeo.Keypad.TextIn
import HtcLeo.Tetris.Board

/-!
# The core of the game

The application reads a key and draws the window, over and over, while a timer
counts a tick counter down. A piece comes down by itself when the window is
drawn with the counter at 0. The keys ask for the state of the game before they
move anything, and the timer asks for it before it counts; drawing asks for
nothing but the counter.

What is printed is left out. The key of a read that fails is whatever the
variable holds: the assertion on the status is compiled out with the others.
-/

namespace Tetris

open Keypad (EfiInputKey scanUp scanDown scanHome scanEsc charBackspace charTab charCarriageReturn)

/-- `GAME_REFRESH_PERIOD`. -/
def gameRefreshPeriod : ℤ := 35

/-- `GAME_STATE`. -/
inductive GameState where
  | waitingForStart
  | running
  | paused
  | over
  | exit
  deriving DecidableEq, Repr

/-- **`Core`.** -/
structure Core where
  gameState : GameState
  board : Board
  tickCounter : ℤ

/-- `ConstructCore`, with the three shapes that come up. -/
def constructCore (next active then_ : Tetrimino) : Core where
  gameState := .waitingForStart
  board := constructBoard next active then_
  tickCounter := gameRefreshPeriod

/-- `timerCallback`. -/
def timerCallback (c : Core) : Core :=
  if c.gameState = .running ∧ c.tickCounter ≠ 0 then { c with tickCounter := c.tickCounter - 1 }
  else c

/-- `togglePause`. -/
def togglePause (c : Core) : Core :=
  { c with gameState := if c.gameState = .paused then .running else .paused }

/-- `gameOver`. -/
def gameOver (c : Core) : Core := { c with gameState := .over }

/-- `startGame`. -/
def startGame (c : Core) : Core := { c with gameState := .running }

/-- `resetTickCounter`. -/
def resetTickCounter (c : Core) : Core :=
  { c with tickCounter := (gameRefreshPeriod * (11 - c.board.level)).tdiv 10 }

/-- **`handleInput`**, with what `ReadKeyStroke` returns and the shape that comes up. -/
def handleInput (fuel : ℕ) (status : EfiStatus) (key : EfiInputKey) (shape : Tetrimino)
    (c : Core) : Option Core :=
  if status ≠ .efiNotReady then
    if c.gameState = .waitingForStart then some (startGame c)
    else if key.scanCode = scanHome then
      if c.gameState = .running then
        (dropPiece fuel shape c.board).map fun b => resetTickCounter { c with board := b }
      else some c
    else if key.scanCode = scanUp then
      some (if c.gameState = .running then { c with board := movePieceLeft c.board } else c)
    else if key.scanCode = scanDown then
      some (if c.gameState = .running then { c with board := movePieceRight c.board } else c)
    else if key.scanCode = scanEsc then some { c with gameState := .exit }
    else if key.unicodeChar = charCarriageReturn then
      if c.gameState = .running then
        (movePieceDown fuel shape c.board).map fun (moved, b) =>
          if !moved then resetTickCounter { c with board := b } else { c with board := b }
      else some c
    else if key.unicodeChar = charTab then
      some (if c.gameState = .running then { c with board := rotatePiece c.board } else c)
    else if key.unicodeChar = charBackspace then
      some (if c.gameState = .running ∨ c.gameState = .paused then togglePause c else c)
    else some c
  else some c

/-- **`drawWindow`**, with the shape that comes up. `drawBoard` leaves the board. -/
def drawWindow (fuel : ℕ) (shape : Tetrimino) (c : Core) : Option Core :=
  let c := if c.gameState = .running ∧ c.board.blocked = true then gameOver c else c
  if c.tickCounter = 0 then
    (movePieceDown fuel shape c.board).map fun (_, b) => resetTickCounter { c with board := b }
  else some c

/-- What the core is called for. With an input comes what `ReadKeyStroke` returns,
and with all that may lay a piece down the shape that comes up. -/
inductive Event where
  | input (status : EfiStatus) (key : EfiInputKey) (shape : Tetrimino)
  | timer
  | draw (shape : Tetrimino)
  deriving DecidableEq

/-- **A step of the core.** -/
def coreStep (fuel : ℕ) (c : Core) : Event → Option Core
  | .input status key shape => handleInput fuel status key shape c
  | .timer => some (timerCallback c)
  | .draw shape => drawWindow fuel shape c

/-! ## The move a step makes -/

/-- The move a key asks for. -/
def keyMove (key : EfiInputKey) : Option Move :=
  if key.scanCode = scanHome then some .drop
  else if key.scanCode = scanUp then some .left
  else if key.scanCode = scanDown then some .right
  else if key.scanCode = scanEsc then none
  else if key.unicodeChar = charCarriageReturn then some .down
  else if key.unicodeChar = charTab then some .rotate
  else none

/-- The move a step makes, if it makes one. -/
def Core.moveOf (c : Core) : Event → Option (Move × Tetrimino)
  | .input status key shape =>
    if status ≠ .efiNotReady ∧ c.gameState = .running then (keyMove key).map (·, shape) else none
  | .timer => none
  | .draw shape => if c.tickCounter = 0 then some (.down, shape) else none

/-- The board after the move, if there is one. -/
def boardAfter (fuel : ℕ) (b : Board) : Option (Move × Tetrimino) → Option Board
  | none => some b
  | some m => move fuel b m

/-- The key that pauses leaves the board. -/
theorem board_pauseKey (c : Core) :
    (if c.gameState = .running ∨ c.gameState = .paused then togglePause c else c).board
      = c.board := by
  split <;> rfl

/-- A key moves what it asks for while the game is running. -/
theorem handleInput_board_of_running (fuel : ℕ) {status : EfiStatus} (key : EfiInputKey)
    (shape : Tetrimino) {c : Core} (hstatus : status ≠ .efiNotReady)
    (hrunning : c.gameState = .running) :
    (handleInput fuel status key shape c).map Core.board
      = boardAfter fuel c.board ((keyMove key).map (·, shape)) := by
  have hstarted : ¬ c.gameState = .waitingForStart := by
    rw [hrunning]
    decide
  unfold handleInput keyMove
  rw [if_pos hstatus, if_neg hstarted]
  by_cases hhome : key.scanCode = scanHome
  · rw [if_pos hhome, if_pos hhome, if_pos hrunning, Option.map_map]
    exact Option.map_id'
  rw [if_neg hhome, if_neg hhome]
  by_cases hup : key.scanCode = scanUp
  · rw [if_pos hup, if_pos hup, if_pos hrunning]
    rfl
  rw [if_neg hup, if_neg hup]
  by_cases hdown : key.scanCode = scanDown
  · rw [if_pos hdown, if_pos hdown, if_pos hrunning]
    rfl
  rw [if_neg hdown, if_neg hdown]
  by_cases hesc : key.scanCode = scanEsc
  · rw [if_pos hesc, if_pos hesc]
    rfl
  rw [if_neg hesc, if_neg hesc]
  by_cases hreturn : key.unicodeChar = charCarriageReturn
  · rw [if_pos hreturn, if_pos hreturn, if_pos hrunning, Option.map_map]
    refine Option.map_congr fun (moved, b) _ => ?_
    cases moved <;> rfl
  rw [if_neg hreturn, if_neg hreturn]
  by_cases htab : key.unicodeChar = charTab
  · rw [if_pos htab, if_pos htab, if_pos hrunning]
    rfl
  rw [if_neg htab, if_neg htab]
  split
  · exact congrArg some (board_pauseKey c)
  · rfl

/-- No key moves anything while the game is not running. -/
theorem handleInput_board_of_not_running (fuel : ℕ) (status : EfiStatus) (key : EfiInputKey)
    (shape : Tetrimino) {c : Core} (hrunning : ¬ c.gameState = .running) :
    (handleInput fuel status key shape c).map Core.board = some c.board := by
  have hkeeps : ∀ (p : Prop) [Decidable p] (t e : Option Core), t.map Core.board = some c.board →
      e.map Core.board = some c.board → (if p then t else e).map Core.board = some c.board := by
    intro p _ t e ht he
    split
    · exact ht
    · exact he
  unfold handleInput
  rw [if_neg hrunning, if_neg hrunning, if_neg hrunning, if_neg hrunning, if_neg hrunning]
  refine hkeeps _ _ _ (hkeeps _ _ _ rfl ?_) rfl
  refine hkeeps _ _ _ rfl (hkeeps _ _ _ rfl (hkeeps _ _ _ rfl (hkeeps _ _ _ rfl ?_)))
  refine hkeeps _ _ _ rfl (hkeeps _ _ _ rfl (hkeeps _ _ _ ?_ rfl))
  exact congrArg some (board_pauseKey c)

/-- **A step changes the board by the move it makes**, and by nothing else. -/
theorem coreStep_board (fuel : ℕ) (c : Core) (e : Event) :
    (coreStep fuel c e).map Core.board = boardAfter fuel c.board (c.moveOf e) := by
  cases e with
  | timer =>
    show some (timerCallback c).board = some c.board
    unfold timerCallback
    split <;> rfl
  | draw shape =>
    have hboard : (if c.gameState = .running ∧ c.board.blocked = true then gameOver c else c).board
        = c.board := by
      split <;> rfl
    have htick : (if c.gameState = .running ∧ c.board.blocked = true then gameOver c
        else c).tickCounter = c.tickCounter := by
      split <;> rfl
    unfold coreStep drawWindow Core.moveOf
    dsimp only
    rw [hboard, htick]
    split
    · exact Option.map_map _ _ _
    · show some _ = some c.board
      rw [hboard]
  | input status key shape =>
    unfold coreStep Core.moveOf
    dsimp only
    by_cases hmoves : status ≠ .efiNotReady ∧ c.gameState = .running
    · rw [if_pos hmoves]
      exact handleInput_board_of_running fuel key shape hmoves.1 hmoves.2
    · rw [if_neg hmoves]
      by_cases hrunning : c.gameState = .running
      · show (handleInput fuel status key shape c).map Core.board = _
        rw [handleInput, if_neg fun hstatus => hmoves ⟨hstatus, hrunning⟩]
        rfl
      · exact handleInput_board_of_not_running fuel status key shape hrunning

end Tetris
