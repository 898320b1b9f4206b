import HtcLeo.Lib.Block
import HtcLeo.StatusCode

/-!
# Lists of devices

A splitter lists the devices that are attached to it in a block, which grows by
`CONSOLE_SPLITTER_ALLOC_UNIT` entries when it is full. A device that goes is looked
for, and those behind it move up by one: of one that is attached twice it is the
earlier entry that goes, and the others keep their order
(`deleteDevice_spec`).
-/

namespace ConSplitter

open StatusCode Block

variable {α δ : Type}

/-- `CONSOLE_SPLITTER_ALLOC_UNIT`. -/
def consoleSplitterAllocUnit : ℕ := 32

/-- `ConSplitterGrowBuffer`. -/
def growBuffer (granted : ℕ → Bool) (elementSize : ℕ) (b : Block α) : StatusCode × Block α :=
  if granted (elementSize * (b.size + consoleSplitterAllocUnit)) then
    (efiSuccess, { b with size := b.size + consoleSplitterAllocUnit })
  else (efiOutOfResources, b)

theorem growBuffer_of_granted {granted : ℕ → Bool} (hgranted : ∀ n, granted n = true)
    (elementSize : ℕ) (b : Block α) :
    growBuffer granted elementSize b
      = (efiSuccess, { b with size := b.size + consoleSplitterAllocUnit }) := if_pos (hgranted _)

/-- A buffer grows, or it stays as it is. -/
theorem growBuffer_cases (granted : ℕ → Bool) (elementSize : ℕ) (b : Block α) :
    growBuffer granted elementSize b
        = (efiSuccess, { b with size := b.size + consoleSplitterAllocUnit })
      ∨ growBuffer granted elementSize b = (efiOutOfResources, b) := by
  unfold growBuffer
  split
  · exact Or.inl rfl
  · exact Or.inr rfl

section

variable [DecidableEq δ]

/-- Where the device is in the list. -/
def findDevice (device : δ) (list : Block δ) : List ℕ → Option (Option ℕ)
  | [] => some none
  | index :: rest => do
    let other ← list.read index
    if other = device then some (some index) else findDevice device list rest

/-- What `ConSplitterTextInDeleteDevice` and its like for other devices do to a list: the
entries behind that of the device are moved up, one by one. -/
def deleteDevice (device : δ) (number : ℕ) (list : Block δ) :
    Option (StatusCode × ℕ × Block δ) := do
  match ← findDevice device list (List.range number) with
  | none => some (efiNotFound, number, list)
  | some index => do
    let list ← (List.range' index (number - 1 - index)).foldlM (fun list index => do
      let next ← list.read (index + 1)
      list.write index next) list
    some (efiSuccess, number - 1, list)

/-- **The search** finds the first entry of the device, or there is none. -/
theorem findDevice_spec (device : δ) (list : Block δ) {number : ℕ} (hnumber : number ≤ list.size) :
    findDevice device list (List.range number) = some none ∧ device ∉ list.front number
      ∨ ∃ index < number, findDevice device list (List.range number) = some (some index)
        ∧ list.cell index = device ∧ ∀ j < index, list.cell j ≠ device := by
  have hfind : ∀ indices : List ℕ, (∀ i ∈ indices, i < list.size) →
      findDevice device list indices = some (indices.find? fun i => list.cell i = device) := by
    intro indices hindices
    induction indices with
    | nil => rfl
    | cons index rest ih =>
      unfold findDevice
      rw [read_of_lt (hindices index List.mem_cons_self), List.find?_cons]
      show (if list.cell index = device then some (some index) else findDevice device list rest) = _
      split
      · rename_i hfound
        rw [decide_eq_true hfound]
      · rename_i hother
        rw [decide_eq_false hother, ih fun i hi => hindices i (List.mem_cons_of_mem index hi)]
  rw [hfind _ fun i hi => Nat.lt_of_lt_of_le (List.mem_range.1 hi) hnumber]
  cases hindex : (List.range number).find? fun i => decide (list.cell i = device) with
  | none =>
    refine Or.inl ⟨rfl, fun hmem => ?_⟩
    obtain ⟨i, hi, hcell⟩ := mem_front.1 hmem
    exact List.find?_eq_none.1 hindex i (List.mem_range.2 hi) (decide_eq_true hcell)
  | some index =>
    obtain ⟨hfound, hmem, hfirst⟩ := List.find?_range_eq_some.1 hindex
    refine Or.inr ⟨index, List.mem_range.1 hmem, rfl, of_decide_eq_true hfound, fun j hj heq => ?_⟩
    have hother := hfirst j hj
    rw [decide_eq_true heq] at hother
    cases hother

/-- **A device goes**: the list is that of the others. -/
theorem deleteDevice_spec (device : δ) (list : Block δ) {number : ℕ}
    (hnumber : number ≤ list.size) :
    deleteDevice device number list = some (efiNotFound, number, list)
        ∧ device ∉ list.front number
      ∨ ∃ list', deleteDevice device number list = some (efiSuccess, number - 1, list')
        ∧ list'.size = list.size ∧ device ∈ list.front number
        ∧ list'.front (number - 1) = (list.front number).erase device := by
  unfold deleteDevice
  rcases findDevice_spec device list hnumber with
    ⟨hnone, hnot⟩ | ⟨index, hlt, hfind, hfound, hfirst⟩
  · rw [hnone]
    exact Or.inl ⟨rfl, hnot⟩
  · rw [hfind]
    dsimp only [Option.bind_eq_bind, Option.bind_some]
    obtain ⟨list', hrun, hsize, hkept, hmoved, -⟩ := foldlM_range'_inv
      (f := fun (list : Block δ) index => do
        let next ← list.read (index + 1)
        list.write index next) (b := list)
      (fun k t => t.size = list.size ∧ (∀ j < index, t.cell j = list.cell j)
        ∧ (∀ j, index ≤ j → j < k → t.cell j = list.cell (j + 1))
        ∧ ∀ j, k ≤ j → t.cell j = list.cell j) index (number - 1)
      ⟨rfl, fun _ _ => rfl, fun j hj hj' => absurd hj' (Nat.not_lt.2 hj), fun _ _ => rfl⟩
      (fun k hk hk' t ⟨hsize, hkept, hmoved, hrest⟩ => by
        have hread := read_of_lt (b := t) (i := k + 1) (by omega)
        have hwrite := write_of_lt (b := t) (i := k) (by omega) (t.cell (k + 1))
        refine ⟨{ t with cell := Function.update t.cell k (t.cell (k + 1)) },
          by rw [hread]; exact hwrite, hsize, fun j hj => ?_, fun j hj hj' => ?_, fun j hj => ?_⟩
        · exact (Function.update_of_ne (by omega) _ _).trans (hkept j hj)
        · rcases Nat.lt_succ_iff_lt_or_eq.1 hj' with hlt' | rfl
          · exact (Function.update_of_ne (by omega) _ _).trans (hmoved j hj hlt')
          · exact (Function.update_self _ _ _).trans (hrest _ (Nat.le_succ j))
        · exact (Function.update_of_ne (by omega) _ _).trans (hrest j (by omega)))
    have hfront := front_erase hlt hfound hfirst hkept fun j hj hj' =>
      hmoved j hj (Nat.lt_of_lt_of_le hj' (Nat.le_max_right _ _))
    exact Or.inr ⟨list', (congrArg (Option.bind · _) hrun).trans rfl, hsize,
      mem_front.2 ⟨index, hlt, hfound⟩, hfront⟩

end

end ConSplitter
