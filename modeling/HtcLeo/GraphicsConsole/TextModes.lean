import HtcLeo.Efi
import Mathlib.Data.List.Basic
import Mathlib.Tactic.Common

/-!
# The text modes of the graphics console

From the resolution of the screen `InitializeGraphicsConsoleTextMode` makes a
list of text modes: one of forty columns and twelve rows, one of eighty and
fifty where there is room for it, and then what the list of defined modes has
that fits the screen and is not there yet. A mode is centred on the screen by
half of what it leaves of it – a difference of unsigned words, which for a
mode that is larger than the screen is a very large number.

Sizes, offsets and resolutions are 32-bit words, as `UINTN` is on the device;
an offset is halved and so never negative as `INTN`.
-/

namespace GraphicsConsole

/-- `EFI_GLYPH_WIDTH`. -/
def efiGlyphWidth : UInt32 := 8
/-- `EFI_GLYPH_HEIGHT`. -/
def efiGlyphHeight : UInt32 := 19

/-- `GRAPHICS_CONSOLE_MODE_DATA`. -/
structure GraphicsConsoleModeData where
  columns : UInt32
  rows : UInt32
  deltaX : UInt32
  deltaY : UInt32
  gopWidth : UInt32
  gopHeight : UInt32
  gopModeNumber : UInt32
  deriving DecidableEq, Repr

/-! ## The list of modes -/

/-- `mGraphicsConsoleModeData`: columns and rows, the last entry being the one for
the full screen. -/
def mGraphicsConsoleModeData (maxColumns maxRows : UInt32) : List (UInt32 × UInt32) :=
  [(100, 31), (40, 12), (maxColumns, maxRows)]

/-- `(Resolution - (Cells * Glyph)) >> 1`. -/
def centred (resolution cells glyph : UInt32) : UInt32 := (resolution - cells * glyph) >>> 1

/-- An entry of the new buffer, for a mode of the given size. -/
def newMode (horizontalResolution verticalResolution gopModeNumber columns rows : UInt32) :
    GraphicsConsoleModeData where
  columns := columns
  rows := rows
  deltaX := centred horizontalResolution columns efiGlyphWidth
  deltaY := centred verticalResolution rows efiGlyphHeight
  gopWidth := horizontalResolution
  gopHeight := verticalResolution
  gopModeNumber := gopModeNumber

/-- Mode 1: what was allocated as zero, where the screen has no room for it. -/
def secondMode (horizontalResolution verticalResolution gopModeNumber : UInt32) :
    GraphicsConsoleModeData :=
  if horizontalResolution / efiGlyphWidth ≥ 80 ∧ verticalResolution / efiGlyphHeight ≥ 50 then
    newMode horizontalResolution verticalResolution gopModeNumber 80 50
  else
    { columns := 0
      rows := 0
      deltaX := 0
      deltaY := 0
      gopWidth := horizontalResolution
      gopHeight := verticalResolution
      gopModeNumber := gopModeNumber }

/-- One turn of the loop over the defined modes. -/
def addMode (horizontalResolution verticalResolution gopModeNumber : UInt32)
    (modes : List GraphicsConsoleModeData) (size : UInt32 × UInt32) :
    List GraphicsConsoleModeData :=
  if size.1 = 0 ∨ size.2 = 0 ∨ size.1 > horizontalResolution / efiGlyphWidth
      ∨ size.2 > verticalResolution / efiGlyphHeight then modes
  else if modes.any fun mode => size.1 = mode.columns ∧ size.2 = mode.rows then modes
  else modes ++ [newMode horizontalResolution verticalResolution gopModeNumber size.1 size.2]

/-- The entries of `NewModeBuffer` that are written, `ValidCount` of them. -/
def newModeBuffer (horizontalResolution verticalResolution gopModeNumber : UInt32) :
    List GraphicsConsoleModeData :=
  (mGraphicsConsoleModeData (horizontalResolution / efiGlyphWidth)
      (verticalResolution / efiGlyphHeight)).foldl
    (addMode horizontalResolution verticalResolution gopModeNumber)
    [newMode horizontalResolution verticalResolution gopModeNumber 40 12,
      secondMode horizontalResolution verticalResolution gopModeNumber]

/-- **`InitializeGraphicsConsoleTextMode`**, with `outputs` telling whether neither
`TextModeCount` nor `TextModeData` is `NULL`: the status, and the modes. -/
def initializeGraphicsConsoleTextMode
    (horizontalResolution verticalResolution gopModeNumber : UInt32) (outputs : Bool) :
    EfiStatus × Option (List GraphicsConsoleModeData) :=
  if !outputs then (.efiInvalidParameter, none)
  else (.efiSuccess, some (newModeBuffer horizontalResolution verticalResolution gopModeNumber))

/-- The entries `AllocateZeroPool` makes room for. -/
def allocatedModes : ℕ := (mGraphicsConsoleModeData 0 0).length + 2

/-! ## What is asked of a mode -/

/-- The mode has columns and rows. -/
def GraphicsConsoleModeData.Shown (mode : GraphicsConsoleModeData) : Prop :=
  mode.columns ≠ 0 ∧ mode.rows ≠ 0

/-- **The mode fits the screen.** -/
structure GraphicsConsoleModeData.Fits (mode : GraphicsConsoleModeData)
    (horizontalResolution verticalResolution : UInt32) : Prop where
  across : mode.deltaX.toNat + mode.columns.toNat * 8 ≤ horizontalResolution.toNat
  down : mode.deltaY.toNat + mode.rows.toNat * 19 ≤ verticalResolution.toNat

/-- The two modes are not of one size. -/
def GraphicsConsoleModeData.Differs (mode other : GraphicsConsoleModeData) : Prop :=
  mode.Shown → other.Shown → ¬ (mode.columns = other.columns ∧ mode.rows = other.rows)

/-- **The list is in order**: its modes fit the screen, no two of them are of one
size, and there was room for all of them. -/
structure ModesInOrder (horizontalResolution verticalResolution : UInt32)
    (modes : List GraphicsConsoleModeData) : Prop where
  fit : ∀ mode ∈ modes, mode.Shown → mode.Fits horizontalResolution verticalResolution
  distinct : modes.Pairwise GraphicsConsoleModeData.Differs
  room : modes.length ≤ allocatedModes

/-! ## Modes that fit -/

section

variable {horizontalResolution verticalResolution gopModeNumber columns rows : UInt32}
  {modes : List GraphicsConsoleModeData} {mode : GraphicsConsoleModeData} {size : UInt32 × UInt32}

/-- Half of what is left, and the cells themselves, are not more than there is. -/
theorem centred_le {resolution cells glyph : UInt32}
    (h : cells.toNat * glyph.toNat ≤ resolution.toNat) :
    (centred resolution cells glyph).toNat + cells.toNat * glyph.toNat ≤ resolution.toNat := by
  have hcells : (cells * glyph).toNat = cells.toNat * glyph.toNat := by
    rw [UInt32.toNat_mul]
    exact Nat.mod_eq_of_lt (Nat.lt_of_le_of_lt h resolution.toNat_lt)
  unfold centred
  rw [UInt32.toNat_shiftRight, UInt32.toNat_sub_of_le _ _ (by
    rw [UInt32.le_iff_toNat_le, hcells]
    exact h), hcells]
  show (_ - _) >>> 1 + _ ≤ _
  rw [Nat.shiftRight_eq_div_pow]
  omega

/-- **A centred mode fits** just when its cells do. -/
theorem fits_newMode_iff :
    (newMode horizontalResolution verticalResolution gopModeNumber columns rows).Fits
        horizontalResolution verticalResolution
      ↔ columns.toNat * 8 ≤ horizontalResolution.toNat
        ∧ rows.toNat * 19 ≤ verticalResolution.toNat := by
  constructor
  · intro h
    exact ⟨Nat.le_trans (Nat.le_add_left _ _) h.across, Nat.le_trans (Nat.le_add_left _ _) h.down⟩
  · rintro ⟨hacross, hdown⟩
    exact ⟨@centred_le _ columns efiGlyphWidth hacross, @centred_le _ rows efiGlyphHeight hdown⟩

/-- As many cells as there is room for. -/
theorem mul_le_of_le_div {resolution cells glyph : UInt32} (h : ¬ cells > resolution / glyph) :
    cells.toNat * glyph.toNat ≤ resolution.toNat := by
  have hle := UInt32.le_iff_toNat_le.mp (UInt32.not_lt.mp h)
  rw [UInt32.toNat_div] at hle
  exact Nat.le_trans (Nat.mul_le_mul_right _ hle) (Nat.div_mul_le_self _ _)

/-- **What a turn of the loop does**: it adds a mode that fits and that is not there
yet, or nothing. -/
theorem addMode_cases (horizontalResolution verticalResolution gopModeNumber : UInt32)
    (modes : List GraphicsConsoleModeData) (size : UInt32 × UInt32) :
    addMode horizontalResolution verticalResolution gopModeNumber modes size = modes
      ∨ addMode horizontalResolution verticalResolution gopModeNumber modes size
          = modes ++ [newMode horizontalResolution verticalResolution gopModeNumber size.1 size.2]
        ∧ (size.1.toNat * 8 ≤ horizontalResolution.toNat
          ∧ size.2.toNat * 19 ≤ verticalResolution.toNat)
        ∧ ∀ mode ∈ modes, ¬ (size.1 = mode.columns ∧ size.2 = mode.rows) := by
  unfold addMode
  split
  · exact .inl rfl
  · rename_i hvalid
    split
    · exact .inl rfl
    · rename_i hnew
      obtain ⟨-, -, hacross, hdown⟩ :
          ¬ size.1 = 0 ∧ ¬ size.2 = 0 ∧ ¬ size.1 > horizontalResolution / efiGlyphWidth
            ∧ ¬ size.2 > verticalResolution / efiGlyphHeight := by
        simpa only [not_or] using hvalid
      refine .inr ⟨rfl, ⟨mul_le_of_le_div hacross, mul_le_of_le_div hdown⟩,
        fun mode hmode heq => ?_⟩
      exact hnew (List.any_eq_true.mpr ⟨mode, hmode, decide_eq_true heq⟩)

/-- The modes made so far fit, and are of different sizes. -/
structure Sorted (horizontalResolution verticalResolution : UInt32)
    (modes : List GraphicsConsoleModeData) : Prop where
  fit : ∀ mode ∈ modes, mode.Shown → mode.Fits horizontalResolution verticalResolution
  distinct : modes.Pairwise GraphicsConsoleModeData.Differs

theorem Sorted.addMode (h : Sorted horizontalResolution verticalResolution modes) :
    Sorted horizontalResolution verticalResolution
      (addMode horizontalResolution verticalResolution gopModeNumber modes size) := by
  rcases addMode_cases horizontalResolution verticalResolution gopModeNumber modes size with
    heq | ⟨heq, hfits, hnew⟩
  · rwa [heq]
  · rw [heq]
    constructor
    · intro mode hmode hshown
      rcases List.mem_append.mp hmode with hmode | hmode
      · exact h.fit mode hmode hshown
      · rw [List.mem_singleton.mp hmode]
        exact fits_newMode_iff.mpr hfits
    · refine List.pairwise_append.mpr ⟨h.distinct, List.pairwise_singleton _ _, ?_⟩
      intro mode hmode other hother _ _ heq
      rw [List.mem_singleton.mp hother] at heq
      exact hnew mode hmode ⟨heq.1.symm, heq.2.symm⟩

/-- No turn takes a mode away, and each adds one at most. -/
theorem addMode_grows (horizontalResolution verticalResolution gopModeNumber : UInt32)
    (modes : List GraphicsConsoleModeData) (size : UInt32 × UInt32) :
    modes ⊆ addMode horizontalResolution verticalResolution gopModeNumber modes size
      ∧ (addMode horizontalResolution verticalResolution gopModeNumber modes size).length
        ≤ modes.length + 1 := by
  rcases addMode_cases horizontalResolution verticalResolution gopModeNumber modes size with
    heq | ⟨heq, -, -⟩
  · rw [heq]
    exact ⟨List.Subset.refl _, Nat.le_succ _⟩
  · rw [heq, List.length_append]
    exact ⟨List.subset_append_left _ _, Nat.le_refl _⟩

/-- The loop over the defined modes. -/
theorem foldl_addMode_grows (horizontalResolution verticalResolution gopModeNumber : UInt32)
    (sizes : List (UInt32 × UInt32)) (modes : List GraphicsConsoleModeData) :
    modes ⊆ sizes.foldl (addMode horizontalResolution verticalResolution gopModeNumber) modes
      ∧ (sizes.foldl (addMode horizontalResolution verticalResolution gopModeNumber) modes).length
        ≤ modes.length + sizes.length := by
  induction sizes generalizing modes with
  | nil => exact ⟨List.Subset.refl _, Nat.le_refl _⟩
  | cons size sizes ih =>
    obtain ⟨hkept, hlength⟩ :=
      addMode_grows horizontalResolution verticalResolution gopModeNumber modes size
    obtain ⟨hrest, hbound⟩ :=
      ih (addMode horizontalResolution verticalResolution gopModeNumber modes size)
    refine ⟨List.Subset.trans hkept hrest, ?_⟩
    rw [List.length_cons]
    exact Nat.le_trans hbound (by omega)

theorem Sorted.foldl (gopModeNumber : UInt32) (sizes : List (UInt32 × UInt32))
    (h : Sorted horizontalResolution verticalResolution modes) :
    Sorted horizontalResolution verticalResolution
      (sizes.foldl (GraphicsConsole.addMode horizontalResolution verticalResolution gopModeNumber)
        modes) := by
  induction sizes generalizing modes with
  | nil => exact h
  | cons size sizes ih => exact ih h.addMode

/-- The first two modes are in order where the first of them fits. -/
theorem sorted_first (gopModeNumber : UInt32) (hacross : 320 ≤ horizontalResolution.toNat)
    (hdown : 228 ≤ verticalResolution.toNat) :
    Sorted horizontalResolution verticalResolution
      [newMode horizontalResolution verticalResolution gopModeNumber 40 12,
        secondMode horizontalResolution verticalResolution gopModeNumber] := by
  have hsecond : (secondMode horizontalResolution verticalResolution gopModeNumber).Shown →
      (secondMode horizontalResolution verticalResolution gopModeNumber).columns = 80
        ∧ (secondMode horizontalResolution verticalResolution gopModeNumber).Fits
          horizontalResolution verticalResolution := by
    unfold secondMode
    split
    · rename_i hroom
      refine fun _ => ⟨rfl, fits_newMode_iff.mpr ⟨?_, ?_⟩⟩
      · exact @mul_le_of_le_div _ 80 efiGlyphWidth (UInt32.not_lt.mpr hroom.1)
      · exact @mul_le_of_le_div _ 50 efiGlyphHeight (UInt32.not_lt.mpr hroom.2)
    · exact fun hshown => absurd rfl hshown.1
  constructor
  · intro mode hmode hshown
    rcases List.mem_cons.mp hmode with rfl | hmode
    · exact fits_newMode_iff.mpr ⟨hacross, hdown⟩
    · rw [List.mem_singleton.mp hmode] at hshown ⊢
      exact (hsecond hshown).2
  · refine List.pairwise_pair.mpr fun _ hshown heq => ?_
    rw [(hsecond hshown).1] at heq
    exact absurd (show (40 : UInt32) = 80 from heq.1) (by decide)

end

/-- **When the text modes are in order**: just when the screen has room for the mode
of forty columns and twelve rows, which is put into the list whether there is
or not. -/
theorem modesInOrder_iff (horizontalResolution verticalResolution gopModeNumber : UInt32) :
    (∃ modes, initializeGraphicsConsoleTextMode horizontalResolution verticalResolution
          gopModeNumber true = (.efiSuccess, some modes)
        ∧ ModesInOrder horizontalResolution verticalResolution modes)
      ↔ 320 ≤ horizontalResolution.toNat ∧ 228 ≤ verticalResolution.toNat := by
  obtain ⟨hkept, hlength⟩ := foldl_addMode_grows horizontalResolution verticalResolution
    gopModeNumber (mGraphicsConsoleModeData (horizontalResolution / efiGlyphWidth)
      (verticalResolution / efiGlyphHeight))
    [newMode horizontalResolution verticalResolution gopModeNumber 40 12,
      secondMode horizontalResolution verticalResolution gopModeNumber]
  constructor
  · rintro ⟨modes, hmodes, hfit, -, -⟩
    cases hmodes
    exact fits_newMode_iff.mp (hfit _ (hkept List.mem_cons_self)
      ⟨show (40 : UInt32) ≠ 0 by decide, show (12 : UInt32) ≠ 0 by decide⟩)
  · rintro ⟨hacross, hdown⟩
    have hsorted := (sorted_first gopModeNumber hacross hdown).foldl gopModeNumber
      (mGraphicsConsoleModeData (horizontalResolution / efiGlyphWidth)
        (verticalResolution / efiGlyphHeight))
    exact ⟨_, rfl, hsorted.fit, hsorted.distinct, hlength⟩

/-- On the screen of the device, of 240 by 320 pixels, the first mode is 320 pixels
wide and starts in column `0x7FFFFFD8`. -/
theorem not_modesInOrder_240 :
    initializeGraphicsConsoleTextMode 240 320 0 true
        = (.efiSuccess, some (newModeBuffer 240 320 0))
      ∧ (newModeBuffer 240 320 0).head? = some ⟨40, 12, 0x7FFFFFD8, 46, 240, 320, 0⟩
      ∧ ¬ ModesInOrder 240 320 (newModeBuffer 240 320 0) := by
  refine ⟨rfl, by decide, fun h => ?_⟩
  have hfits := h.fit (newMode 240 320 0 40 12) (by decide) ⟨by decide, by decide⟩
  exact absurd hfits.across (by decide)

end GraphicsConsole
