import HtcLeo.GraphicsConsole.Calls
import Mathlib.Data.List.GetD

/-!
# Sessions on the graphics console

A session is a sequence of calls to a console that has just been started, with
the modes `InitializeGraphicsConsoleTextMode` made for its screen. On a screen
of two columns at least all of them come back and the cursor stays in the
window, whatever the display does and whether or not there is memory for a line
buffer (`session_sound`).

A change of mode that is refused memory keeps the pointer to the line buffer it
freed, where a comment says that no changes have been made. `freedTwice_iff`
tells which sessions free a buffer twice: those with a change of mode that comes
after one that was refused, and with none in between.
-/

namespace GraphicsConsole

open FrameBufferBlt StatusCode

/-! ## The table the driver makes -/

/-- The device with the given modes. What is read outside the table is what lies
there. -/
def consoleDev (modes : List GraphicsConsoleModeData) (outside : GraphicsConsoleModeData) :
    GraphicsConsoleDev where
  modeData n := if n < 0 then outside else modes.getD n.toNatClampNeg outside

/-- A number of the table reads its mode. -/
theorem modeData_consoleDev {modes : List GraphicsConsoleModeData}
    {outside : GraphicsConsoleModeData} {n : UInt32} (hn : n.toNat < modes.length)
    (hlength : modes.length < 2 ^ 31) :
    (consoleDev modes outside).modeData n.toInt32 = modes[n.toNat] := by
  have hint : n.toInt32.toInt = n.toNat := by
    rw [toInt32_eq_ofNat, Int32.toInt_ofNat_of_lt (by omega)]
  have hneg : ¬ n.toInt32 < 0 := by
    rw [Int32.lt_iff_toInt_lt, hint, Int32.toInt_zero]
    omega
  have hnat : n.toInt32.toNatClampNeg = n.toNat := by
    rw [← Int32.toNat_toInt, hint, Int.toNat_natCast]
  show (if n.toInt32 < 0 then outside else modes.getD n.toInt32.toNatClampNeg outside) = _
  rw [if_neg hneg, hnat, List.getD_eq_getElem _ _ hn]

section

variable {horizontalResolution verticalResolution gopModeNumber : UInt32}

/-- A turn of the loop over the defined modes adds one the console can write in, where
the size it tries is of more than one column. -/
theorem usable_addMode {modes : List GraphicsConsoleModeData} {size : UInt32 × UInt32}
    (h : ∀ mode ∈ modes, ¬ mode.IsBlank → mode.Usable) (hsize : 2 ≤ size.1.toNat) :
    ∀ mode ∈ addMode horizontalResolution verticalResolution gopModeNumber modes size,
      ¬ mode.IsBlank → mode.Usable := by
  unfold addMode
  split
  · exact h
  · rename_i hvalid
    obtain ⟨-, hrows, hacross, hdown⟩ : ¬ size.1 = 0 ∧ ¬ size.2 = 0
        ∧ ¬ size.1 > horizontalResolution / efiGlyphWidth
        ∧ ¬ size.2 > verticalResolution / efiGlyphHeight := by
      simpa only [not_or] using hvalid
    split
    · exact h
    · intro mode hmode hblank
      rcases List.mem_append.mp hmode with hmode | hmode
      · exact h mode hmode hblank
      · obtain rfl := List.mem_singleton.mp hmode
        have hcolumnsLe : size.1.toNat * 8 ≤ horizontalResolution.toNat :=
          @mul_le_of_le_div _ _ efiGlyphWidth hacross
        have hrowsLe : size.2.toNat * 19 ≤ verticalResolution.toNat :=
          @mul_le_of_le_div _ _ efiGlyphHeight hdown
        have hhorizontal := horizontalResolution.toNat_lt
        have hvertical := verticalResolution.toNat_lt
        have hpos : size.2.toNat ≠ 0 := fun hzero => hrows (UInt32.toNat_inj.mp hzero)
        exact ⟨hsize, show size.1.toNat < _ by omega, show 0 < size.2.toNat by omega,
          show size.2.toNat < _ by omega⟩

theorem usable_foldl_addMode (sizes : List (UInt32 × UInt32))
    (hsizes : ∀ size ∈ sizes, 2 ≤ size.1.toNat) {modes : List GraphicsConsoleModeData}
    (h : ∀ mode ∈ modes, ¬ mode.IsBlank → mode.Usable) :
    ∀ mode ∈ sizes.foldl (addMode horizontalResolution verticalResolution gopModeNumber) modes,
      ¬ mode.IsBlank → mode.Usable := by
  induction sizes generalizing modes with
  | nil => exact h
  | cons size sizes ih =>
    exact ih (fun size hsize => hsizes size (List.mem_cons_of_mem _ hsize))
      (usable_addMode h (hsizes size List.mem_cons_self))

variable (horizontalResolution verticalResolution gopModeNumber)

/-- Every mode that is made is one the console can write in, or blank. -/
theorem usable_newModeBuffer (hscreen : 16 ≤ horizontalResolution.toNat) :
    ∀ mode ∈ newModeBuffer horizontalResolution verticalResolution gopModeNumber,
      ¬ mode.IsBlank → mode.Usable := by
  refine usable_foldl_addMode _ ?_ ?_
  · intro size hsize
    rcases List.mem_cons.mp hsize with rfl | hsize
    · decide
    rcases List.mem_cons.mp hsize with rfl | hsize
    · decide
    · obtain rfl := List.mem_singleton.mp hsize
      show 2 ≤ (horizontalResolution / efiGlyphWidth).toNat
      rw [UInt32.toNat_div, show efiGlyphWidth.toNat = 8 from rfl]
      omega
  · intro mode hmode hblank
    rcases List.mem_cons.mp hmode with rfl | hmode
    · exact ⟨show 2 ≤ 40 by decide, show 40 < 2 ^ 31 - 2 by decide, show 0 < 12 by decide,
        show 12 < 2 ^ 31 by decide⟩
    · obtain rfl := List.mem_singleton.mp hmode
      unfold secondMode at hblank ⊢
      split
      · exact ⟨show 2 ≤ 80 by decide, show 80 < 2 ^ 31 - 2 by decide, show 0 < 50 by decide,
          show 50 < 2 ^ 31 by decide⟩
      · rename_i hroom
        rw [if_neg hroom] at hblank
        exact absurd ⟨rfl, rfl⟩ hblank

/-- The device of a screen of the given resolution. -/
def initializedDev (outside : GraphicsConsoleModeData) : GraphicsConsoleDev :=
  consoleDev (newModeBuffer horizontalResolution verticalResolution gopModeNumber) outside

/-- `SimpleTextOutputMode.MaxMode`. -/
def initializedMaxMode : UInt32 :=
  UInt32.ofNat (newModeBuffer horizontalResolution verticalResolution gopModeNumber).length

/-- **The table the driver makes** is one the console can use. -/
theorem usableModes_initialized (outside : GraphicsConsoleModeData)
    (hscreen : 16 ≤ horizontalResolution.toNat) :
    (initializedDev horizontalResolution verticalResolution gopModeNumber outside).UsableModes
      (initializedMaxMode horizontalResolution verticalResolution gopModeNumber) := by
  intro n hn hblank
  have hlength := (foldl_addMode_grows horizontalResolution verticalResolution gopModeNumber
    (mGraphicsConsoleModeData (horizontalResolution / efiGlyphWidth)
      (verticalResolution / efiGlyphHeight))
    [newMode horizontalResolution verticalResolution gopModeNumber 40 12,
      secondMode horizontalResolution verticalResolution gopModeNumber]).2
  have hbound : (newModeBuffer horizontalResolution verticalResolution gopModeNumber).length ≤ 5 :=
    hlength
  unfold initializedMaxMode at hn
  rw [UInt32.lt_iff_toNat_lt, UInt32.toNat_ofNat',
    Nat.mod_eq_of_lt (Nat.lt_of_le_of_lt hbound (by decide))] at hn
  have hread := @modeData_consoleDev _ outside n hn (Nat.lt_of_le_of_lt hbound (by decide))
  unfold initializedDev at hblank ⊢
  rw [hread] at hblank ⊢
  exact usable_newModeBuffer _ _ _ hscreen _ (List.getElem_mem hn) hblank

end

/-! ## Sessions -/

section

variable {σ : Type} (dev : GraphicsConsoleDev) (maxMode : UInt32) (display : Display σ)

/-- What a session leaves, if it comes back. -/
def session (screen : σ) (calls : List Call) : Option (Console σ) :=
  Run.runOption (callStep dev maxMode display) (startedConsole screen) calls

/-- The mode a call asks for. -/
def Call.modeNumber : Call → Option UInt32
  | .reset _ => some 0
  | .setMode modeNumber _ => some modeNumber
  | _ => none

/-- Whether there is memory for a line buffer, at a call that asks for one. -/
def Call.granted : Call → Bool
  | .reset granted => granted
  | .setMode _ granted => granted
  | _ => true

/-- **A change of mode**: a console that was in a mode is asked for another one. -/
def Changes (c : Console σ) (call : Call) : Prop :=
  c.lineBuffer ≠ .null ∧ ∃ n, call.modeNumber = some n ∧ n < maxMode
    ∧ ¬ (dev.modeData n.toInt32).IsBlank ∧ n.toInt32 ≠ c.current.mode

/-- A change of mode there is no memory for. -/
def Refused (c : Console σ) (call : Call) : Prop :=
  Changes dev maxMode c call ∧ call.granted = false

variable {dev maxMode display} {c c' : Console σ} {call : Call}

variable (dev maxMode) in
/-- **What a call does to the line buffer.** -/
structure BufferStep (c : Console σ) (call : Call) (c' : Console σ) : Prop where
  freed : c'.lineBuffer = .freed
    ↔ Refused dev maxMode c call ∨ c.lineBuffer = .freed ∧ ¬ Changes dev maxMode c call
  freedTwice : c'.freedTwice = true
    ↔ c.freedTwice = true ∨ c.lineBuffer = .freed ∧ Changes dev maxMode c call

/-- A call that is no change of mode leaves the line buffer. -/
theorem bufferStep_of_not_changes (hchanges : ¬ Changes dev maxMode c call)
    (hkeeps : c'.lineBuffer = c.lineBuffer ∧ c'.freedTwice = c.freedTwice) :
    BufferStep dev maxMode c call c' where
  freed := by
    rw [hkeeps.1]
    exact ⟨fun hfreed => Or.inr ⟨hfreed, hchanges⟩,
      fun hor => hor.elim (fun hrefused => absurd hrefused.1 hchanges) And.left⟩
  freedTwice := by
    rw [hkeeps.2]
    exact ⟨Or.inl, fun hor => hor.elim id fun hand => absurd hand.2 hchanges⟩

/-- The buffer step depends on what is left of the buffer only. -/
theorem BufferStep.congr {c'' : Console σ} (h : BufferStep dev maxMode c call c')
    (hbuffer : c''.lineBuffer = c'.lineBuffer) (hfreedTwice : c''.freedTwice = c'.freedTwice) :
    BufferStep dev maxMode c call c'' where
  freed := by rw [hbuffer, h.freed]
  freedTwice := by rw [hfreedTwice, h.freedTwice]

variable (dev display) in
theorem keepsBuffer_clearScreen (c : Console σ) :
    (clearScreen dev display c).2.lineBuffer = c.lineBuffer
      ∧ (clearScreen dev display c).2.freedTwice = c.freedTwice := by
  unfold clearScreen
  split <;> exact ⟨rfl, rfl⟩

variable (display) in
theorem keepsBuffer_setAttribute (textAttribute : UInt32) (c : Console σ) :
    (setAttribute display textAttribute c).2.lineBuffer = c.lineBuffer
      ∧ (setAttribute display textAttribute c).2.freedTwice = c.freedTwice := by
  unfold setAttribute
  split
  · exact ⟨rfl, rfl⟩
  · split <;> exact ⟨rfl, rfl⟩

variable (dev display) in
theorem keepsBuffer_setCursorPosition (column row : UInt32) (c : Console σ) :
    (setCursorPosition dev display column row c).2.lineBuffer = c.lineBuffer
      ∧ (setCursorPosition dev display column row c).2.freedTwice = c.freedTwice := by
  unfold setCursorPosition
  split
  · exact ⟨rfl, rfl⟩
  · simp only
    split
    · exact ⟨rfl, rfl⟩
    · split <;> exact ⟨rfl, rfl⟩

variable (display) in
theorem keepsBuffer_enableCursor (visible : Bool) (c : Console σ) :
    (enableCursor display visible c).2.lineBuffer = c.lineBuffer
      ∧ (enableCursor display visible c).2.freedTwice = c.freedTwice := by
  unfold enableCursor
  split <;> exact ⟨rfl, rfl⟩

variable (display) in
theorem keepsBuffer_written (h : c.Sound dev maxMode) (wString : List UInt16) :
    (written dev display wString c).2.lineBuffer = c.lineBuffer
      ∧ (written dev display wString c).2.freedTwice = c.freedTwice := by
  by_cases hmode : c.current.mode = -1
  · unfold written
    rw [if_pos hmode]
    exact ⟨rfl, rfl⟩
  · obtain ⟨-, -, -, husable, hin⟩ := h.inMode hmode
    have hkeeps := (written_keeps dev display husable hin wString).1
    exact ⟨hkeeps.lineBuffer, hkeeps.freedTwice⟩

/-- **A mode is set**: by `SetMode`, or by a reset. -/
theorem bufferStep_setMode {n : UInt32} (hcall : call.modeNumber = some n) (c : Console σ) :
    BufferStep dev maxMode c call (setMode dev maxMode display call.granted n c).2 := by
  have hiff : Changes dev maxMode c call ↔ c.lineBuffer ≠ .null ∧ n < maxMode
      ∧ ¬ (dev.modeData n.toInt32).IsBlank ∧ n.toInt32 ≠ c.current.mode := by
    unfold Changes
    rw [hcall]
    exact and_congr_right fun _ => ⟨fun ⟨_, heq, h⟩ => Option.some.inj heq ▸ h,
      fun h => ⟨n, rfl, h⟩⟩
  rcases @setMode_cases σ dev maxMode display call.granted n c with
    ⟨hrefuses, heq⟩ | ⟨⟨hlt, hblank⟩, ⟨hsame, heq⟩ | ⟨hother, heq⟩⟩
  · rw [heq]
    refine bufferStep_of_not_changes ?_ ⟨rfl, rfl⟩
    rw [hiff]
    rintro ⟨-, hlt, hblank, -⟩
    exact hrefuses.elim (UInt32.not_le.mpr hlt) hblank
  · rw [heq]
    exact bufferStep_of_not_changes (fun hchanges => (hiff.mp hchanges).2.2.2 hsame.2)
      (keepsBuffer_clearScreen dev display c)
  · rw [heq]
    obtain ⟨freed, hfreed, hcases⟩ := @changeMode_cases σ dev display call.granted n c
    rcases hfreed with ⟨rfl, hnull⟩ | ⟨rfl, hnull⟩
    · have hnone : ¬ Changes dev maxMode freed call := fun hchanges => hchanges.1 hnull
      rcases hcases with ⟨-, heq⟩ | ⟨-, set, -, ⟨-, heq⟩ | ⟨-, heq⟩⟩
      · rw [heq]
        exact bufferStep_of_not_changes hnone ⟨rfl, rfl⟩
      all_goals
        rw [heq]
        refine ⟨iff_of_false LineBuffer.noConfusion ?_, ?_⟩
        · rintro (hrefused | hfreed)
          · exact hnone hrefused.1
          · exact LineBuffer.noConfusion (hnull.symm.trans hfreed.1)
        · exact ⟨Or.inl, fun hor => hor.elim id fun hand => absurd hand.2 hnone⟩
    · have hchanges : Changes dev maxMode c call :=
        hiff.mpr ⟨hnull, hlt, hblank, fun hsame => hother ⟨hnull, hsame⟩⟩
      have htwice : (c.freedTwice || c.lineBuffer == .freed) = true
          ↔ c.freedTwice = true ∨ c.lineBuffer = .freed ∧ Changes dev maxMode c call := by
        rw [Bool.or_eq_true, beq_iff_eq, and_iff_left hchanges]
      rcases hcases with ⟨hgranted, heq⟩ | ⟨hgranted, set, -, ⟨-, heq⟩ | ⟨-, heq⟩⟩
      · rw [heq]
        exact ⟨iff_of_true rfl (Or.inl ⟨hchanges, hgranted⟩), htwice⟩
      all_goals
        rw [heq]
        refine ⟨iff_of_false LineBuffer.noConfusion ?_, htwice⟩
        rintro (⟨-, hrefused⟩ | ⟨-, hnone⟩)
        · rw [hgranted] at hrefused
          exact Bool.noConfusion hrefused
        · exact hnone hchanges

/-- A call that asks for no mode is no change of mode. -/
theorem not_changes_of_none (hcall : call.modeNumber = none) : ¬ Changes dev maxMode c call := by
  rintro ⟨-, n, heq, -⟩
  rw [hcall] at heq
  cases heq

variable (display) in
/-- **One call**, and the line buffer. -/
theorem bufferStep_answered (h : c.Sound dev maxMode) (call : Call) :
    BufferStep dev maxMode c call (answered dev maxMode display c call).2 := by
  cases call with
  | reset granted =>
    have hset := @bufferStep_setMode σ dev maxMode display (.reset granted) 0 rfl c
    show BufferStep dev maxMode c _ (reset dev maxMode display granted c).2
    unfold reset
    simp only
    split
    · exact hset
    · obtain ⟨hbuffer, hfreedTwice⟩ := keepsBuffer_setAttribute display
        ((setMode dev maxMode display granted 0 c).2.current.textAttribute &&& 0x0F).toUInt32
        (setMode dev maxMode display granted 0 c).2
      exact hset.congr hbuffer hfreedTwice
  | outputString wString =>
    exact bufferStep_of_not_changes (not_changes_of_none rfl)
      (keepsBuffer_written display h wString)
  | setMode modeNumber granted =>
    exact @bufferStep_setMode σ dev maxMode display (.setMode modeNumber granted) modeNumber rfl c
  | setAttribute textAttribute =>
    exact bufferStep_of_not_changes (not_changes_of_none rfl)
      (keepsBuffer_setAttribute display textAttribute c)
  | clearScreen =>
    exact bufferStep_of_not_changes (not_changes_of_none rfl)
      (keepsBuffer_clearScreen dev display c)
  | setCursorPosition column row =>
    exact bufferStep_of_not_changes (not_changes_of_none rfl)
      (keepsBuffer_setCursorPosition dev display column row c)
  | enableCursor visible =>
    exact bufferStep_of_not_changes (not_changes_of_none rfl)
      (keepsBuffer_enableCursor display visible c)

/-! ## Whole sessions -/

/-- What a session that comes back leaves. -/
def sessionState (dev : GraphicsConsoleDev) (maxMode : UInt32) (display : Display σ) (screen : σ)
    (calls : List Call) : Console σ :=
  Run.run (Run.next (answered dev maxMode display)) (startedConsole screen) calls

end

section

variable {σ : Type} (horizontalResolution verticalResolution gopModeNumber : UInt32)
  (outside : GraphicsConsoleModeData) (display : Display σ) (screen : σ)

/-- **Sessions come back**, with the cursor in the window: on a screen of two columns at
least, for any display, any calls and any of them refused memory. -/
theorem session_sound (hscreen : 16 ≤ horizontalResolution.toNat) (calls : List Call) :
    ∃ c, session (initializedDev horizontalResolution verticalResolution gopModeNumber outside)
          (initializedMaxMode horizontalResolution verticalResolution gopModeNumber) display screen
          calls = some c
      ∧ c.Sound (initializedDev horizontalResolution verticalResolution gopModeNumber outside)
          (initializedMaxMode horizontalResolution verticalResolution gopModeNumber) := by
  obtain ⟨hrun, hsound⟩ := (sound_startedConsole screen).calls display
    (usableModes_initialized horizontalResolution verticalResolution gopModeNumber outside hscreen)
    calls
  exact ⟨_, hrun, hsound⟩

/-- A display that shows nothing. -/
def blindDisplay : Display Unit where
  flushCursor _ screen := screen
  stringToImage _ _ _ screen := (efiSuccess, screen)
  videoToVideo _ _ _ _ _ screen := (efiSuccess, screen)
  videoFill _ _ _ _ _ screen := (efiSuccess, screen)
  setMode _ screen := (efiSuccess, screen)
  mode _ := 0

/-- A line is written on a screen of 240 by 320 pixels, and a mode refused. -/
theorem session_sound_refused :
    ∃ c, session (initializedDev 240 320 0 ⟨0, 0, 0, 0, 0, 0, 0⟩) (initializedMaxMode 240 320 0)
          blindDisplay () [.setMode 2 true, .outputString [0x0041, 0x000A], .setMode 0 false]
          = some c
      ∧ c.Sound (initializedDev 240 320 0 ⟨0, 0, 0, 0, 0, 0, 0⟩) (initializedMaxMode 240 320 0) :=
  session_sound 240 320 0 ⟨0, 0, 0, 0, 0, 0, 0⟩ blindDisplay () (by decide) _

/-- **When a line buffer is freed twice**: just when a change of mode is asked for after
one that was refused memory, and with none in between. -/
theorem freedTwice_iff (hscreen : 16 ≤ horizontalResolution.toNat) (calls : List Call) :
    let dev := initializedDev horizontalResolution verticalResolution gopModeNumber outside
    let maxMode := initializedMaxMode horizontalResolution verticalResolution gopModeNumber
    ∃ c, session dev maxMode display screen calls = some c
      ∧ (c.freedTwice = true ↔ ∃ before call after, calls = before ++ call :: after
        ∧ Run.Since (Run.next (answered dev maxMode display)) (Refused dev maxMode)
            (Changes dev maxMode) (startedConsole screen) before
        ∧ Changes dev maxMode (sessionState dev maxMode display screen before) call) := by
  intro dev maxMode
  have husable := usableModes_initialized horizontalResolution verticalResolution gopModeNumber
    outside hscreen
  have hstart : (startedConsole screen).Sound dev maxMode := sound_startedConsole screen
  have hkeep : ∀ (c : Console σ) call, c.Sound dev maxMode →
      (Run.next (answered dev maxMode display) c call).Sound dev maxMode :=
    fun c call h => (h.answer display husable call).2
  obtain ⟨hrun, -⟩ := hstart.calls display husable calls
  refine ⟨_, hrun, ?_⟩
  have honce := Run.once_iff (F := fun c : Console σ => c.freedTwice = true)
    (P := fun (c : Console σ) call => c.lineBuffer = .freed ∧ Changes dev maxMode c call) hkeep
    (fun c call h => (bufferStep_answered display h call).freedTwice) hstart Bool.false_ne_true
      calls
  refine honce.trans ?_
  unfold Run.Once
  refine exists_congr fun before => exists_congr fun call => exists_congr fun after =>
    and_congr_right fun _ => and_congr_left fun _ => ?_
  exact Run.since_iff (F := fun c : Console σ => c.lineBuffer = .freed) hkeep
    (fun c call h => (bufferStep_answered display h call).freed) hstart LineBuffer.noConfusion
      before

/-- A change that is refused, and another one after a line has been written. -/
theorem freedTwice_iff_refused :
    let dev := initializedDev 240 320 0 ⟨0, 0, 0, 0, 0, 0, 0⟩
    let maxMode := initializedMaxMode 240 320 0
    let calls : List Call := [.setMode 2 true, .setMode 0 false, .outputString [0x0041],
      .reset true]
    ∃ c, session dev maxMode blindDisplay () calls = some c
      ∧ (c.freedTwice = true ↔ ∃ before call after, calls = before ++ call :: after
        ∧ Run.Since (Run.next (answered dev maxMode blindDisplay)) (Refused dev maxMode)
            (Changes dev maxMode) (startedConsole ()) before
        ∧ Changes dev maxMode (sessionState dev maxMode blindDisplay () before) call) :=
  freedTwice_iff 240 320 0 ⟨0, 0, 0, 0, 0, 0, 0⟩ blindDisplay () (by decide) _

/-- It frees the line buffer twice. -/
example :
    (session (initializedDev 240 320 0 ⟨0, 0, 0, 0, 0, 0, 0⟩) (initializedMaxMode 240 320 0)
      blindDisplay () [.setMode 2 true, .setMode 0 false, .outputString [0x0041], .reset true]).map
        Console.freedTwice = some true := by
  decide

end

end GraphicsConsole
