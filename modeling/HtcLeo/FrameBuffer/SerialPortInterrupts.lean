import HtcLeo.FrameBuffer.SerialPortBounds

/-!
# Interrupts while the serial console writes

Both calls of the serial port turn interrupts off before the first character and
back on, if they were on, behind the last. In between, the routine for a character
does the same once more, with a local that holds the state to go back to: a
character that is drawn sets it, and within a call always to off. A new line goes
straight to the code behind, and finds the local as the stack had it.

`KeepsInterruptsOff` says that a call turns nothing on before its last character is
done, and leaves the interrupts as it found them. It does so just when no new line
finds the local set (`keepsInterruptsOff_iff`), wherever the cursor is.
-/

namespace FrameBufferSerialPort

/-- **Interrupts stay off** from the call that turns them off to the end of the last
character, and are as before on return. -/
def KeepsInterruptsOff (fuel : ℕ) (critical : Bool) (buffer : List (UInt8 × Bool)) (s : FbCon) :
    Prop :=
  ∃ t calls, writeBytes fuel buffer (enterWrite critical s) = some t
    ∧ t.interruptCalls = (enterWrite critical s).interruptCalls ++ calls ∧ true ∉ calls
    ∧ (leaveWrite critical s t).interrupts = s.interrupts

/-! ## The calls of a character -/

/-- **What a stretch of the routine does to the interrupts**, from `s` to `t`: it turns
them on if `on`, and if not it leaves them off. -/
structure Switches (s t : FbCon) (on : Prop) : Prop where
  made : ∃ calls, t.interruptCalls = s.interruptCalls ++ calls
    ∧ (on → true ∈ calls) ∧ (¬ on → s.interrupts = false → true ∉ calls)
  off : ¬ on → s.interrupts = false → t.interrupts = false

section

variable {s t u : FbCon} {on on' : Prop}

theorem Switches.refl (hon : ¬ on) (s : FbCon) : Switches s s on where
  made := ⟨[], (List.append_nil _).symm, fun h => absurd h hon, fun _ _ => List.not_mem_nil⟩
  off _ h := h

theorem Switches.congr (h : Switches s t on) (hon : on ↔ on') : Switches s t on' :=
  propext hon ▸ h

/-- One stretch and then another. -/
theorem Switches.trans (h : Switches s t on) (h' : Switches t u on') :
    Switches s u (on ∨ on') where
  made := by
    obtain ⟨calls, hmade, hset, hclear⟩ := h.made
    obtain ⟨calls', hmade', hset', hclear'⟩ := h'.made
    refine ⟨calls ++ calls', by rw [hmade', hmade, List.append_assoc], fun hon => ?_,
      fun hnot hoff => ?_⟩
    · exact List.mem_append.mpr (hon.imp hset hset')
    · obtain ⟨hnon, hnon'⟩ := not_or.mp hnot
      exact fun hmem => (List.mem_append.mp hmem).elim (hclear hnon hoff)
        (hclear' hnon' (h.off hnon hoff))
  off hnot hoff := h'.off (not_or.mp hnot).2 (h.off (not_or.mp hnot).1 hoff)

/-- What would turn them on only if they were on. -/
theorem Switches.of_on (h : Switches s t on) (hon : on → s.interrupts = true) (hnot : ¬ on') :
    Switches s t on' where
  made := by
    obtain ⟨calls, hmade, -, hclear⟩ := h.made
    exact ⟨calls, hmade, fun h => absurd h hnot, fun _ hoff =>
      hclear (fun hset => absurd (hoff.symm.trans (hon hset)) Bool.false_ne_true) hoff⟩
  off _ hoff := h.off (fun hset => absurd (hoff.symm.trans (hon hset)) Bool.false_ne_true) hoff

/-- The interrupts are not touched. -/
theorem switches_none (hcalls : t.interruptCalls = s.interruptCalls)
    (hsame : t.interrupts = s.interrupts) (hon : ¬ on) : Switches s t on where
  made := ⟨[], hcalls.trans (List.append_nil _).symm, fun h => absurd h hon,
    fun _ _ => List.not_mem_nil⟩
  off _ hoff := hsame.trans hoff

/-- The interrupts are turned off, whatever else is done. -/
theorem switches_disable (hcalls : t.interruptCalls = s.interruptCalls ++ [false])
    (hoff : t.interrupts = false) (hon : ¬ on) : Switches s t on where
  made := ⟨[false], hcalls, fun h => absurd h hon, fun _ _ => by decide⟩
  off _ _ := hoff

/-- They are turned on if the local says so. -/
theorem switches_enableIf (s : FbCon) (state : Bool) :
    Switches s (enableIf state s) (state = true) := by
  cases state with
  | false =>
    exact ⟨⟨[], (List.append_nil _).symm, nofun, fun _ _ => List.not_mem_nil⟩, fun _ hoff => hoff⟩
  | true =>
    exact ⟨⟨[true], rfl, fun _ => by decide, fun hnot => absurd rfl hnot⟩,
      fun hnot => absurd rfl hnot⟩

end

/-- What comes after the label `newline`. -/
theorem newline_switches (scaleFactor : UInt32) (intstate : Bool) (s : FbCon) :
    Switches s (newline scaleFactor intstate s).1 (intstate = true) := by
  have hmoved : ∀ position memory, Switches s (enableIf intstate
      { s with position := position, memory := memory }) (intstate = true) := by
    intro position memory
    have hrest : Switches s { s with position := position, memory := memory } False :=
      switches_none rfl rfl not_false
    exact (hrest.trans (switches_enableIf _ intstate)).congr (iff_of_eq (false_or _))
  unfold newline
  dsimp only
  split
  · exact hmoved _ _
  · exact hmoved _ _

/-- A new line that finds the local set. -/
def TurnsOn (c : UInt8) (intstate : Bool) : Prop := c = 10 ∧ intstate = true

/-- **One pass of the routine** turns the interrupts on just when it is a new line that
finds the local set, and such a line would find it again. -/
theorem paint_switches (c : UInt8) (type : FbConMsgType) (scaleFactor : UInt32) (intstate : Bool)
    (s : FbCon) :
    Switches s (paint c type scaleFactor intstate s).1 (TurnsOn c intstate)
      ∧ (TurnsOn c (paint c type scaleFactor intstate s).2.2 ↔ TurnsOn c intstate) := by
  have hother : c ≠ 10 → ∀ state, ¬ TurnsOn c state := fun hten _ h => hten h.1
  unfold paint
  split
  · rename_i hhigh
    have hten : c ≠ 10 := fun heq => absurd (heq ▸ hhigh) (by decide)
    exact ⟨switches_none rfl rfl (hother hten _), Iff.rfl⟩
  · split
    · split
      · rename_i hten
        exact ⟨(newline_switches scaleFactor intstate s).congr (and_iff_right hten).symm, Iff.rfl⟩
      · rename_i hten
        split
        · exact ⟨switches_none rfl rfl (hother hten _), Iff.rfl⟩
        · exact ⟨switches_none rfl rfl (hother hten _), Iff.rfl⟩
    · rename_i hlow
      have hten : c ≠ 10 := fun heq => hlow (heq ▸ by decide)
      split
      · exact ⟨switches_none rfl rfl (hother hten _), Iff.rfl⟩
      · -- the local is set here, to what the interrupts are
        dsimp only [armDisableInterrupts]
        generalize fbConDrawglyph _ _ _ _ _ _ _ = memory
        have hdrawn : Switches s { armDisableInterrupts s with
            memory := memory, position := ⟨s.position.x + 1, s.position.y⟩ } False :=
          switches_disable rfl rfl not_false
        split
        · refine ⟨?_, iff_of_false (hother hten _) (hother hten _)⟩
          exact (hdrawn.trans (newline_switches scaleFactor s.interrupts _)).of_on
            (fun h => h.resolve_left not_false) (hother hten _)
        · refine ⟨?_, iff_of_false (hother hten _) (hother hten _)⟩
          exact (hdrawn.trans (switches_enableIf _ s.interrupts)).of_on
            (fun h => h.resolve_left not_false) (hother hten _)

/-- All passes of a character. -/
theorem paintAgain_switches (c : UInt8) (type : FbConMsgType) (scaleFactor : UInt32) (fuel : ℕ)
    (intstate : Bool) {s t : FbCon} (h : paintAgain c type scaleFactor fuel intstate s = some t) :
    Switches s t (TurnsOn c intstate) := by
  induction fuel generalizing intstate s with
  | zero => cases h
  | succ fuel ih =>
    obtain ⟨hpass, hlocal⟩ := paint_switches c type scaleFactor intstate s
    rw [paintAgain] at h
    split at h
    · exact (hpass.trans ((ih _ h).congr hlocal)).congr (or_self_iff)
    · cases h
      exact hpass

/-! ## Every character ends -/

/-- The console has a page of the size of the screen, if it is initialised. -/
def Paged (s : FbCon) : Prop := s.initialized = true → s.maxPosition = ⟨40, 26⟩

@[simp] theorem enableIf_initialized (state : Bool) (s : FbCon) :
    (enableIf state s).initialized = s.initialized := by
  cases state <;> rfl

@[simp] theorem enableIf_maxPosition (state : Bool) (s : FbCon) :
    (enableIf state s).maxPosition = s.maxPosition := by
  cases state <;> rfl

/-- **Where the routine goes back**: it leaves the page as it is, goes back only with
the cursor at its start, and never from there. -/
structure Ends (s : FbCon) (result : FbCon × Bool) : Prop where
  initialized : result.1.initialized = s.initialized
  maxPosition : result.1.maxPosition = s.maxPosition
  back : result.2 = true → result.1.position = ⟨0, 0⟩ ∧ s.position.y ≠ 0

theorem newline_ends {s : FbCon} (hpage : s.maxPosition = ⟨40, 26⟩) (intstate : Bool) :
    Ends s (newline defaultScaleFactor intstate s) := by
  have hlast : UInt32.ofInt s.maxPosition.y - defaultScaleFactor = 25 := by
    rw [hpage]
    rfl
  unfold newline
  dsimp only
  split
  · rename_i hend
    rw [hlast] at hend
    refine ⟨by simp, by simp, fun _ => ⟨by simp, fun hline => ?_⟩⟩
    rw [hline] at hend
    exact absurd hend (by decide)
  · exact ⟨by simp, by simp, nofun⟩

theorem paint_ends {s : FbCon} (hpage : s.maxPosition = ⟨40, 26⟩) (c : UInt8)
    (type : FbConMsgType) (intstate : Bool) :
    Ends s ((paint c type defaultScaleFactor intstate s).1,
      (paint c type defaultScaleFactor intstate s).2.1) := by
  unfold paint
  split
  · exact ⟨rfl, rfl, nofun⟩
  · split
    · split
      · exact newline_ends hpage intstate
      · split
        · exact ⟨rfl, rfl, nofun⟩
        · exact ⟨rfl, rfl, nofun⟩
    · split
      · exact ⟨rfl, rfl, nofun⟩
      · dsimp only [armDisableInterrupts]
        generalize fbConDrawglyph _ _ _ _ _ _ _ = memory
        split
        · obtain ⟨hinitialized, hmax, hback⟩ := newline_ends
            (s := { armDisableInterrupts s with
              memory := memory, position := ⟨s.position.x + 1, s.position.y⟩ }) hpage s.interrupts
          exact ⟨hinitialized, hmax, hback⟩
        · exact ⟨by simp, by simp, nofun⟩

/-- A character ends, wherever the cursor is. -/
theorem fbConPutChar_ends {s : FbCon} (hpage : Paged s) (fuel : ℕ) (c : UInt8)
    (type : FbConMsgType) (intstate : Bool) :
    ∃ t, fbConPutCharWithFactor (fuel + 2) c type defaultScaleFactor intstate s = some t
      ∧ t.initialized = s.initialized ∧ Paged t := by
  unfold fbConPutCharWithFactor
  cases hinitialized : s.initialized with
  | false => exact ⟨s, rfl, hinitialized, hpage⟩
  | true =>
    have hmax := hpage hinitialized
    obtain ⟨hfirst, hfirstMax, hback⟩ := paint_ends hmax c type intstate
    show ∃ t, paintAgain c type defaultScaleFactor (fuel + 2) intstate s = some t ∧ _
    rw [paintAgain]
    split
    · rename_i hagain
      obtain ⟨hsecond, hsecondMax, hnever⟩ := paint_ends (hfirstMax.trans hmax) c type
        (paint c type defaultScaleFactor intstate s).2.2
      have hstart := congrArg FbConPosition.y (hback hagain).1
      rw [paintAgain, if_neg fun hthird => (hnever hthird).2 hstart]
      exact ⟨_, rfl, (hsecond.trans hfirst).trans hinitialized,
        fun _ => (hsecondMax.trans hfirstMax).trans hmax⟩
    · exact ⟨_, rfl, hfirst.trans hinitialized, fun _ => hfirstMax.trans hmax⟩

/-! ## Buffers and calls -/

/-- **The characters of a buffer** end, and turn the interrupts on just when one of
them is a new line that finds the local set. -/
theorem writeBytes_switches (fuel : ℕ) (buffer : List (UInt8 × Bool)) {s : FbCon}
    (hpage : Paged s) :
    ∃ t, writeBytes (fuel + 2) buffer s = some t
      ∧ Switches s t (s.initialized = true ∧ ∃ byte ∈ buffer, TurnsOn byte.1 byte.2) := by
  induction buffer generalizing s with
  | nil => exact ⟨s, rfl, .refl (fun ⟨_, _, hmem, _⟩ => absurd hmem List.not_mem_nil) s⟩
  | cons byte buffer ih =>
    obtain ⟨u, hu, hinitialized, hupage⟩ := fbConPutChar_ends hpage fuel byte.1 .common byte.2
    obtain ⟨t, ht, hrest⟩ := ih hupage
    refine ⟨t, by rw [writeBytes, hu]; exact ht, ?_⟩
    have hfirst : Switches s u (s.initialized = true ∧ TurnsOn byte.1 byte.2) := by
      unfold fbConPutCharWithFactor at hu
      cases hstate : s.initialized with
      | false =>
        rw [hstate] at hu
        cases hu
        exact .refl (fun h => absurd h.1 Bool.false_ne_true) s
      | true =>
        rw [hstate] at hu
        exact (paintAgain_switches byte.1 .common defaultScaleFactor (fuel + 2) byte.2 hu).congr
          (and_iff_right rfl).symm
    refine (hfirst.trans hrest).congr ?_
    have hcons : (∃ b ∈ byte :: buffer, TurnsOn b.1 b.2)
        ↔ TurnsOn byte.1 byte.2 ∨ ∃ b ∈ buffer, TurnsOn b.1 b.2 := by
      simp only [List.mem_cons, exists_eq_or_imp]
    rw [hinitialized, ← and_or_left, hcons]

/-- **When a call keeps the interrupts off**: for each cursor, each buffer and whatever
the interrupts are, just when no new line of the buffer finds the local set. -/
theorem keepsInterruptsOff_iff {s : FbCon} (hpage : s.initialized = true → s.maxPosition = ⟨40, 26⟩)
    (fuel : ℕ) (critical : Bool) (buffer : List (UInt8 × Bool)) :
    KeepsInterruptsOff (fuel + 2) critical buffer s
      ↔ (s.initialized = true → ∀ byte ∈ buffer, byte.1 = 10 → byte.2 = false) := by
  have hentered : Paged (enterWrite critical s) := by cases critical <;> exact hpage
  have hinitialized : (enterWrite critical s).initialized = s.initialized := by
    cases critical <;> rfl
  have hoff : (enterWrite critical s).interrupts = false := by cases critical <;> rfl
  obtain ⟨t, ht, hswitches⟩ := writeBytes_switches fuel buffer hentered
  rw [hinitialized] at hswitches
  have hcondition : ¬ (s.initialized = true ∧ ∃ byte ∈ buffer, TurnsOn byte.1 byte.2)
      ↔ (s.initialized = true → ∀ byte ∈ buffer, byte.1 = 10 → byte.2 = false) := by
    constructor
    · intro hnot hstate byte hmem hten
      exact Bool.eq_false_of_not_eq_true fun hset => hnot ⟨hstate, byte, hmem, hten, hset⟩
    · rintro h ⟨hstate, byte, hmem, hten, hset⟩
      exact absurd ((h hstate byte hmem hten).symm.trans hset) Bool.false_ne_true
  rw [← hcondition]
  constructor
  · rintro ⟨t', calls', ht', hmade', hclear', -⟩ hon
    obtain ⟨calls, hmade, hset, -⟩ := hswitches.made
    cases ht.symm.trans ht'
    rw [hmade] at hmade'
    exact hclear' (List.append_cancel_left hmade' ▸ hset hon)
  · intro hnot
    obtain ⟨calls, hmade, -, hclear⟩ := hswitches.made
    refine ⟨t, calls, ht, hmade, hclear hnot hoff, ?_⟩
    have hleft := hswitches.off hnot hoff
    unfold leaveWrite enableIf
    cases hbefore : s.interrupts with
    | false => cases critical <;> exact hleft
    | true => cases critical <;> rfl

/-- A character and a new line that finds the local clear. -/
theorem keepsInterruptsOff_line :
    KeepsInterruptsOff 2 true [(72, true), (10, false)]
      (serialPortInitialize (loaded true fun _ => 0)) :=
  (keepsInterruptsOff_iff (fun _ => rfl) 0 true [(72, true), (10, false)]).mpr
    fun _ => by simp

/-- A new line that finds the local set leaves the interrupts on for a caller that had
them off. -/
theorem not_keepsInterruptsOff_newline :
    (serialPortInitialize (loaded false fun _ => 0)).interrupts = false
      ∧ (serialPortWrite 2 false [(10, true)] (serialPortInitialize
        (loaded false fun _ => 0))).map FbCon.interrupts = some true
      ∧ ¬ KeepsInterruptsOff 2 false [(10, true)]
        (serialPortInitialize (loaded false fun _ => 0)) := by
  refine ⟨rfl, rfl, ?_⟩
  rintro ⟨t, calls, ht, -, -, hreturn⟩
  have hwrite : serialPortWrite 2 false [(10, true)] (serialPortInitialize
      (loaded false fun _ => 0)) = some (leaveWrite false (serialPortInitialize
        (loaded false fun _ => 0)) t) := by
    unfold serialPortWrite
    rw [ht]
    rfl
  have hon : some (leaveWrite false (serialPortInitialize (loaded false fun _ => 0)) t).interrupts
      = some true := (congrArg (Option.map FbCon.interrupts) hwrite).symm
  rw [hreturn] at hon
  exact absurd hon (by decide)

end FrameBufferSerialPort
