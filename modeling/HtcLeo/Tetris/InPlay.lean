import HtcLeo.Tetris.Core
import HtcLeo.Tetris.Picture

/-!
# When the board may move

The board is in play while the game is running and the board is not blocked.
The rest of the time nothing should move – while the game waits for its start
or is paused, and from the moment the board is blocked. It does: a window that
is drawn with the tick counter at 0 lets the piece down whatever the state of
the game, so a pause that comes between the last tick and the drawing does not
keep the piece; and a key that is read before the window notices that the board
is blocked still moves the piece.

`onlyInPlay_iff` says when none of this happens: whenever a move is made out of
play it is idle, that is, there is no room for it, and putting the piece back
leaves all fields as they are.
-/

namespace Tetris

open Grid
open Keypad (charBackspace charCarriageReturn)

/-! ## Idle moves -/

/-- The fields, the piece that is moved and the score. -/
structure SameBoard (b b' : Board) : Prop where
  fields : b'.fields = b.fields
  activePiece : b'.activePiece = b.activePiece
  score : b'.score = b.score

/-- The piece is drawn in all of its fields. -/
def Marked (b : Board) : Prop :=
  ∀ c ∈ b.activePiece.cells, b.fields.get c.1 c.2 = b.activePiece.color

/-- There is room for a move, as the routine of the move finds out. -/
def roomFor (m : Move) (b : Board) : Bool :=
  let b := markFieldsOccupiedByPiece emptyField b
  match m with
  | .rotate => isMovePossible (changePiece Piece.rotateCW b) 0 0
  | .left => isMovePossible b (-1) 0
  | .right => isMovePossible b 1 0
  | .down | .drop => isMovePossible b 0 1

/-- **A move is idle**: there is no room for it, the piece is not laid down, and it is
drawn in all of its fields. -/
structure Idle (m : Move) (b : Board) : Prop where
  noRoom : roomFor m b = false
  marked : Marked b
  notLaid : m = .down ∨ m = .drop → isGameOver b = true

/-- The piece a move asks room for. -/
def Game.wanted (g : Game) : Move → Piece
  | .rotate => g.active.rotateCW
  | .left => g.active.shift (-1) 0
  | .right => g.active.shift 1 0
  | .down | .drop => g.lowered

/-- A move always asks for another piece. -/
theorem Game.wanted_ne (g : Game) (m : Move) : g.wanted m ≠ g.active := by
  have hturn : ∀ r : Fin bodyCount, r + 1 ≠ r := by decide
  cases m with
  | rotate => exact fun h => hturn _ (congrArg Piece.rotation h)
  | left =>
    intro h
    have hx : g.active.pos.1 + -1 = g.active.pos.1 := congrArg (fun p => p.pos.1) h
    omega
  | right =>
    intro h
    have hx : g.active.pos.1 + 1 = g.active.pos.1 := congrArg (fun p => p.pos.1) h
    omega
  | down | drop =>
    intro h
    have hy : g.active.pos.2 + 1 = g.active.pos.2 := congrArg (fun p => p.pos.2) h
    omega

section

variable {b : Board} {g : Game} (h : Shows b g)

include h

theorem Shows.roomFor_iff (m : Move) : roomFor m b = true ↔ Fits g.locked (g.wanted m) := by
  unfold roomFor
  rw [h.erase]
  cases m with
  | rotate => exact h.room_rotate
  | left => exact h.room (-1) 0
  | right => exact h.room 1 0
  | down | drop => exact h.room 0 1

/-- Putting the piece back changes nothing just when it is drawn already. -/
theorem Shows.lay_eq_iff : lay g.active g.locked = b.fields ↔ Marked b := by
  unfold Marked
  rw [h.active]
  constructor
  · intro heq c hc
    rw [← heq, lay, get_setAll _ _ _ (g.fits c hc).1, if_pos hc]
  · intro hmarked
    refine Grid.ext fun x y hin => ?_
    rw [lay, get_setAll _ _ _ hin]
    split
    · rename_i hc
      exact (hmarked _ hc).symm
    · rename_i hc
      by_cases hy : y < invisibleRowsCount
      · rw [g.hidden x y hin hy]
        exact (not_not.mp fun hne => hc (h.pictures.hidden x y hin hy hne)).symm
      · rw [h.pictures.visible x y hin (not_lt.mp hy), if_neg hc]

/-- A piece that is only put back. -/
theorem Shows.sameBoard_lay_iff (blocked : Bool) :
    SameBoard b { b with fields := lay g.active g.locked, blocked := blocked } ↔ Marked b :=
  ⟨fun hsame => h.lay_eq_iff.mp hsame.fields, fun hmarked => ⟨h.lay_eq_iff.mpr hmarked, rfl, rfl⟩⟩

/-- Where there is room the piece moves. -/
theorem Shows.not_sameBoard {b' : Board} {m : Move} (hb' : b'.activePiece = g.wanted m) :
    ¬ SameBoard b b' := fun hsame =>
  g.wanted_ne m (by rw [← hb', hsame.activePiece, h.active])

theorem Shows.not_idle {m : Move} (hroom : Fits g.locked (g.wanted m)) : ¬ Idle m b := fun hidle =>
  Bool.false_ne_true (hidle.noRoom.symm.trans ((h.roomFor_iff m).mpr hroom))

/-- A turn or a step to the side. -/
theorem Shows.sameBoard_keep_iff {b' : Board} {m : Move} (hkind : ¬ (m = .down ∨ m = .drop))
    (hfits : Fits g.locked (g.wanted m) → b'.activePiece = g.wanted m)
    (hnone : ¬ Fits g.locked (g.wanted m) → b' = { b with fields := lay g.active g.locked }) :
    SameBoard b b' ↔ Idle m b := by
  by_cases hroom : Fits g.locked (g.wanted m)
  · exact iff_of_false (h.not_sameBoard (hfits hroom)) (h.not_idle hroom)
  · rw [hnone hroom]
    refine (h.sameBoard_lay_iff b.blocked).trans ⟨fun hmarked => ?_, Idle.marked⟩
    exact ⟨Bool.eq_false_iff.mpr (mt (h.roomFor_iff m).mp hroom), hmarked,
      fun hdown => absurd hdown hkind⟩

/-- A step down. -/
theorem Shows.sameBoard_down_iff {fuel : ℕ} {shape : Tetrimino} {r : Bool × Board}
    (hr : movePieceDown (fuel + lineTurns) shape b = some r) : SameBoard b r.2 ↔ Idle .down b := by
  by_cases hfits : Fits g.locked g.lowered
  · rw [movePieceDown_of_fits h hfits] at hr
    obtain rfl := Option.some.inj hr
    exact iff_of_false (h.not_sameBoard (m := .down) rfl) (h.not_idle (m := .down) hfits)
  · have hroom : roomFor .down b = false :=
      Bool.eq_false_iff.mpr (mt (h.roomFor_iff .down).mp hfits)
    by_cases hover : ∃ c ∈ g.active.cells, c.2 < invisibleRowsCount
    · rw [movePieceDown_of_over h hfits hover] at hr
      obtain rfl := Option.some.inj hr
      refine (h.sameBoard_lay_iff true).trans ⟨fun hmarked => ?_, Idle.marked⟩
      exact ⟨hroom, hmarked, fun _ => (h.isGameOver_iff b.fields).mpr hover⟩
    · obtain ⟨lines, score, -, hland⟩ := movePieceDown_of_land h hfits hover fuel shape
      rw [hland] at hr
      obtain rfl := Option.some.inj hr
      refine iff_of_false (fun hsame => hover ?_) fun hidle =>
        hover ((h.isGameOver_iff b.fields).mp (hidle.notLaid (.inl rfl)))
      -- the piece that is laid down is not one that has just come up
      have hspawn : spawn g.next = g.active := hsame.activePiece.trans h.active
      obtain ⟨c, hc, -⟩ := (spawn g.next).exists_mem_cells
      exact ⟨c, hspawn ▸ hc, (onBoard_of_mem_spawn hc).2⟩

/-- A drop takes nothing off the score, and counts the rows the piece falls. -/
theorem Shows.dropLoop_score {fuel turns : ℕ} {shape : Tetrimino} {height : ℤ} {r : ℤ × Board}
    (hr : dropLoop (fuel + lineTurns) shape turns height b = some r) :
    (height ≤ r.1 ∧ b.score ≤ r.2.score) ∧ (Fits g.locked g.lowered → height < r.1) := by
  induction turns generalizing b g height with
  | zero => cases hr
  | succ turns ih =>
    rw [dropLoop] at hr
    by_cases hfits : Fits g.locked g.lowered
    · rw [movePieceDown_of_fits h hfits] at hr
      obtain ⟨⟨hheight, hscore⟩, -⟩ := ih (h.redraw hfits) hr
      exact ⟨⟨by omega, hscore⟩, fun _ => by omega⟩
    · by_cases hover : ∃ c ∈ g.active.cells, c.2 < invisibleRowsCount
      · rw [movePieceDown_of_over h hfits hover] at hr
        obtain rfl := Option.some.inj hr
        exact ⟨⟨le_refl _, le_refl _⟩, fun hroom => absurd hroom hfits⟩
      · obtain ⟨lines, score, hmore, hland⟩ := movePieceDown_of_land h hfits hover fuel shape
        rw [hland] at hr
        obtain rfl := Option.some.inj hr
        exact ⟨⟨le_refl _, hmore⟩, fun hroom => absurd hroom hfits⟩

/-- A drop. -/
theorem Shows.sameBoard_drop_iff {fuel : ℕ} {shape : Tetrimino} {b' : Board}
    (hb' : dropPiece (fuel + lineTurns) shape b = some b') : SameBoard b b' ↔ Idle .drop b := by
  obtain ⟨r, hr, rfl⟩ := Option.map_eq_some_iff.mp hb'
  by_cases hfits : Fits g.locked g.lowered
  · -- the rows it falls are on the score
    obtain ⟨⟨-, hscore⟩, hheight⟩ := h.dropLoop_score hr
    have hfell := hheight hfits
    refine iff_of_false (fun hsame => ?_) (h.not_idle (m := .drop) hfits)
    have hequal : r.2.score + 2 * r.1 = b.score := hsame.score
    omega
  · -- one turn of the loop, which is a step down
    obtain ⟨d, hd, -⟩ := movePieceDown_shows h fuel shape
    have hturn : dropLoop (fuel + lineTurns) shape (fuel + 43 + 1) 0 b = some (0, d) := by
      rw [dropLoop, hd, decide_eq_false hfits]
      rfl
    obtain rfl : r = (0, d) := Option.some.inj (hr.symm.trans hturn)
    have hdown := h.sameBoard_down_iff hd
    have hidle : Idle .drop b ↔ Idle .down b :=
      ⟨fun hi => ⟨hi.noRoom, hi.marked, fun _ => hi.notLaid (.inr rfl)⟩,
        fun hi => ⟨hi.noRoom, hi.marked, fun _ => hi.notLaid (.inl rfl)⟩⟩
    have hscore : d.score + dropBonusScorePerLine * 0 = d.score := by
      rw [Int.mul_zero, Int.add_zero]
    rw [hidle, ← hdown]
    exact ⟨fun hsame => ⟨hsame.fields, hsame.activePiece, hscore.symm.trans hsame.score⟩,
      fun hsame => ⟨hsame.fields, hsame.activePiece, hscore.trans hsame.score⟩⟩

/-- **A move leaves the board just when it is idle.** -/
theorem Shows.sameBoard_move_iff {fuel : ℕ} {m : Move × Tetrimino} {b' : Board}
    (hb' : move (fuel + lineTurns) b m = some b') : SameBoard b b' ↔ Idle m.1 b := by
  obtain ⟨kind, shape⟩ := m
  cases kind with
  | rotate =>
    obtain rfl := Option.some.inj hb'
    refine h.sameBoard_keep_iff (m := .rotate) (by decide) (fun hfits => ?_)
      (rotatePiece_of_not_fits h)
    rw [rotatePiece_of_fits h hfits]
    rfl
  | left =>
    obtain rfl := Option.some.inj hb'
    refine h.sameBoard_keep_iff (m := .left) (by decide) (fun hfits => ?_)
      (movePieceSideways_of_not_fits h)
    rw [movePieceLeft, movePieceSideways_of_fits h hfits]
    rfl
  | right =>
    obtain rfl := Option.some.inj hb'
    refine h.sameBoard_keep_iff (m := .right) (by decide) (fun hfits => ?_)
      (movePieceSideways_of_not_fits h)
    rw [movePieceRight, movePieceSideways_of_fits h hfits]
    rfl
  | down =>
    obtain ⟨r, hr, rfl⟩ := Option.map_eq_some_iff.mp hb'
    exact h.sameBoard_down_iff hr
  | drop => exact h.sameBoard_drop_iff hb'

end

/-! ## Play -/

/-- **The board is in play**: the game is running, and the board is not blocked. -/
def InPlay (c : Core) : Prop := c.gameState = .running ∧ c.board.blocked = false

/-- A step leaves the board unless it is in play. -/
def OnlyInPlay (c : Core) (_ : Event) (c' : Core) : Prop :=
  InPlay c ∨ SameBoard c.board c'.board

/-- **No move is made out of play, idle ones apart**: the window is not drawn with the
tick counter at 0, and no key is read that moves the piece of a blocked board. -/
def QuietOutOfPlay (c : Core) (e : Event) : Prop :=
  match e with
  | .timer => True
  | .draw _ => c.tickCounter = 0 → ¬ InPlay c → Idle .down c.board
  | .input status key _ => status ≠ .efiNotReady → c.gameState = .running →
      c.board.blocked = true → ∀ m, keyMove key = some m → Idle m c.board

/-- The two say the same of the move a step makes. -/
theorem quietOutOfPlay_iff (c : Core) (e : Event) :
    QuietOutOfPlay c e ↔ InPlay c ∨ ∀ m, c.moveOf e = some m → Idle m.1 c.board := by
  cases e with
  | timer => exact iff_of_true trivial (.inr fun m hm => by cases hm)
  | draw shape =>
    unfold QuietOutOfPlay Core.moveOf
    dsimp only
    by_cases hplay : InPlay c
    · exact iff_of_true (fun _ hout => absurd hplay hout) (.inl hplay)
    · by_cases htick : c.tickCounter = 0
      · rw [if_pos htick]
        constructor
        · rintro hidle
          refine .inr fun m hm => ?_
          obtain rfl := Option.some.inj hm
          exact hidle htick hplay
        · rintro hidle - -
          exact hidle.resolve_left hplay _ rfl
      · rw [if_neg htick]
        exact iff_of_true (fun hzero => absurd hzero htick) (.inr fun m hm => by cases hm)
  | input status key shape =>
    unfold QuietOutOfPlay Core.moveOf
    dsimp only
    by_cases hmoves : status ≠ .efiNotReady ∧ c.gameState = .running
    · rw [if_pos hmoves]
      cases hblocked : c.board.blocked with
      | false =>
        exact iff_of_true (fun _ _ hb => absurd hb Bool.false_ne_true)
          (.inl ⟨hmoves.2, hblocked⟩)
      | true =>
        have hout : ¬ InPlay c := fun hplay => by
          rw [hplay.2] at hblocked
          exact Bool.false_ne_true hblocked
        constructor
        · intro hidle
          refine .inr fun m hm => ?_
          obtain ⟨kind, hkind, rfl⟩ := Option.map_eq_some_iff.mp hm
          exact hidle hmoves.1 hmoves.2 rfl kind hkind
        · rintro hidle - - - kind hkind
          exact hidle.resolve_left hout (kind, shape) (by rw [hkind]; rfl)
    · rw [if_neg hmoves]
      exact iff_of_true (fun hstatus hrunning => absurd ⟨hstatus, hrunning⟩ hmoves)
        (.inr fun m hm => by cases hm)

/-- The board shows some game. -/
def ShowsGame (c : Core) : Prop := ∃ g, Shows c.board g

/-- Every step comes back, and the board still shows a game. -/
theorem coreStep_showsGame {c : Core} (h : ShowsGame c) (fuel : ℕ) (e : Event) :
    ∃ c', coreStep (fuel + lineTurns) c e = some c' ∧ ShowsGame c' := by
  obtain ⟨g, hg⟩ := h
  have hboard := coreStep_board (fuel + lineTurns) c e
  cases hmove : c.moveOf e with
  | none =>
    rw [hmove] at hboard
    obtain ⟨c', hc', hsame⟩ := Option.map_eq_some_iff.mp hboard
    exact ⟨c', hc', g, hsame ▸ hg⟩
  | some m =>
    obtain ⟨b', hb', hshows⟩ := move_shows hg fuel m
    rw [hmove] at hboard
    obtain ⟨c', hc', hsame⟩ := Option.map_eq_some_iff.mp (hboard.trans hb')
    exact ⟨c', hc', _, hsame ▸ hshows⟩

/-- **A step keeps to play just when it is quiet out of it.** -/
theorem onlyInPlay_step_iff {c c' : Core} (h : ShowsGame c) {fuel : ℕ} {e : Event}
    (hc' : coreStep (fuel + lineTurns) c e = some c') :
    OnlyInPlay c e c' ↔ QuietOutOfPlay c e := by
  obtain ⟨g, hg⟩ := h
  have hboard := coreStep_board (fuel + lineTurns) c e
  rw [hc', Option.map_some] at hboard
  rw [quietOutOfPlay_iff]
  refine or_congr_right ?_
  cases hmove : c.moveOf e with
  | none =>
    rw [hmove] at hboard
    have hsame : c'.board = c.board := Option.some.inj hboard
    rw [hsame]
    exact iff_of_true ⟨rfl, rfl, rfl⟩ fun m hm => by cases hm
  | some m =>
    rw [hmove] at hboard
    rw [hg.sameBoard_move_iff hboard.symm]
    exact ⟨fun hidle m' hm' => Option.some.inj hm' ▸ hidle, fun hidle => hidle m rfl⟩

/-- **When the board moves only in play.** Whatever the core is called for, in whatever
order, every step comes back; and the fields, the piece and the score change in play
only just when every move that is made out of play is idle. -/
theorem onlyInPlay_iff (fuel : ℕ) (next active then_ : Tetrimino) (events : List Event) :
    (∃ c, Run.runOption (coreStep (fuel + lineTurns)) (constructCore next active then_) events
        = some c)
      ∧ (Run.AlongOption (coreStep (fuel + lineTurns)) OnlyInPlay
          (constructCore next active then_) events
        ↔ Run.AlongOption (coreStep (fuel + lineTurns)) (fun c e _ => QuietOutOfPlay c e)
          (constructCore next active then_) events) := by
  have hstart : ShowsGame (constructCore next active then_) :=
    ⟨_, constructBoard_shows next active then_⟩
  constructor
  · obtain ⟨c, hc, -⟩ := @Run.runOption_of_refines Core Event Unit (coreStep (fuel + lineTurns))
      (fun u _ => u) (fun c _ => ShowsGame c) (fun _ _ e hc => coreStep_showsGame hc fuel e)
      _ () hstart events
    exact ⟨c, hc⟩
  · refine Run.alongOption_congr (I := ShowsGame) (fun c e c' hc hstep => ?_)
      (fun c e c' hc hstep => @onlyInPlay_step_iff c c' hc fuel e hstep) hstart events
    obtain ⟨c'', hc'', hshows⟩ := coreStep_showsGame hc fuel e
    rw [hstep] at hc''
    exact Option.some.inj hc'' ▸ hshows

/-- The timer counts down to 0 while the game is running. -/
theorem runOption_ticks (fuel : ℕ) (b : Board) (n : ℕ) :
    Run.runOption (coreStep fuel) ⟨.running, b, n⟩ (List.replicate n .timer)
      = some ⟨.running, b, 0⟩ := by
  induction n with
  | zero => rfl
  | succ n ih =>
    have htick : timerCallback ⟨.running, b, (n + 1 : ℕ)⟩ = ⟨.running, b, n⟩ := by
      unfold timerCallback
      rw [if_pos ⟨rfl, by dsimp only; omega⟩]
      congr 1
      push_cast
      omega
    rw [List.replicate_succ, Run.runOption_cons]
    show Run.runOption (coreStep fuel) (timerCallback _) _ = _
    rw [htick, ih]

/-- A game that is started and paused when the tick counter has come down to 0. -/
def pausedAtZero : List Event :=
  .input .efiSuccess ⟨0, charCarriageReturn⟩ .i :: List.replicate 35 .timer
    ++ [.input .efiSuccess ⟨0, charBackspace⟩ .i]

/-- A game paused after the last tick: the next drawing moves the piece all the same. -/
theorem not_onlyInPlay_paused :
    ¬ Run.AlongOption (coreStep lineTurns) OnlyInPlay (constructCore .o .i .t)
      (pausedAtZero ++ [.draw .i]) := by
  intro h
  have hrun : Run.runOption (coreStep lineTurns) (constructCore .o .i .t) pausedAtZero
      = some ⟨.paused, constructBoard .o .i .t, 0⟩ := by
    have hstart : coreStep lineTurns (constructCore .o .i .t)
        (.input .efiSuccess ⟨0, charCarriageReturn⟩ .i)
          = some ⟨.running, constructBoard .o .i .t, (35 : ℕ)⟩ := rfl
    have hpause : coreStep lineTurns ⟨.running, constructBoard .o .i .t, 0⟩
        (.input .efiSuccess ⟨0, charBackspace⟩ .i)
          = some ⟨.paused, constructBoard .o .i .t, 0⟩ := rfl
    rw [pausedAtZero, Run.runOption_append, Run.runOption_cons, hstart, Option.bind_some,
      runOption_ticks, Option.bind_some, Run.runOption_cons, hpause]
    rfl
  have hfits : Fits (Game.start .o .t).locked (Game.start .o .t).lowered := by decide
  have hdown := movePieceDown_of_fits (constructBoard_shows .o .i .t) hfits lineTurns .i
  have hboard := coreStep_board lineTurns ⟨.paused, constructBoard .o .i .t, 0⟩ (.draw .i)
  change _ = (movePieceDown lineTurns .i (constructBoard .o .i .t)).map Prod.snd at hboard
  rw [hdown] at hboard
  obtain ⟨c, hc, hc'⟩ := Option.map_eq_some_iff.mp hboard
  have hpos : c.board.activePiece.pos = (4, 1) := by
    rw [hc']
    rfl
  rcases h.step_of_append hrun hc with hplay | hsame
  · exact absurd hplay.1 (by decide)
  · have hmoved : ((4, 1) : Point) = (4, 0) := by
      rw [← hpos, hsame.activePiece]
      rfl
    exact absurd hmoved (by decide)

end Tetris
