import HtcLeo.ConSplitter.TextOut

/-!
# The table of modes

`Agrees` says what the table is for: the rows are modes of the first device, in its
order, and an entry is a number under which the device of its column has a mode of the
same size. An intersection throws rows out, and keeps the others in order
(`getIntersection_spec`). `Synced` is what the column of a further device holds while its
modes are gone through, one by one (`syncTurn_spec`).

Modes 0 and 1 are never thrown out. All devices have mode 0 in the same size; an entry
for mode 1 may be missing.
-/

namespace ConSplitter

open StatusCode Block

/-- **What is asked of a device**: that it has mode 0, of forty columns and twelve rows, and
that a query of its modes fails for mode 1 only. -/
structure TextOutDevice.Lawful (device : TextOutDevice) : Prop where
  has_modes : 1 ≤ device.maxMode
  few_modes : device.maxMode ≤ 0xFF
  base : device.queryMode 0 = some ⟨40, 12⟩
  succeeds : ∀ mode < device.maxMode, mode ≠ 1 → device.queryMode mode ≠ none

/-! ## Growing -/

section

variable {granted : ℕ → Bool}

/-- The sizes get the room they need, and stay as they are. -/
theorem growQueryData_of_granted (hgranted : ∀ n, granted n = true) (maxMode : ℕ) :
    ∀ (turns : ℕ) (queryData : Block TextOutQueryData), maxMode ≤ queryData.size + turns →
      ∃ size, growQueryData granted maxMode turns queryData
          = (efiSuccess, { queryData with size := size })
        ∧ maxMode ≤ size ∧ queryData.size ≤ size
  | 0, queryData, h => ⟨queryData.size, rfl, h, Nat.le_refl _⟩
  | turns + 1, queryData, h => by
    unfold growQueryData
    split
    · obtain ⟨size, hgrown, hroom, hle⟩ := growQueryData_of_granted hgranted maxMode turns
        { queryData with size := queryData.size + consoleSplitterAllocUnit }
        (show maxMode ≤ queryData.size + 32 + turns by omega)
      refine ⟨size, ?_, hroom, ?_⟩
      · rw [growBuffer_of_granted hgranted]
        exact hgrown
      · exact Nat.le_trans (Nat.le_add_right _ _) hle
    · exact ⟨queryData.size, rfl, by omega, Nat.le_refl _⟩

variable {δ : Type}

/-- A table for no devices is empty. -/
theorem growMapTable_empty (hgranted : ∀ n, granted n = true) (s : TextOutSplitter δ)
    (hnone : s.textOutModeMap = none ∨ s.currentNumberOfConsoles = 0) :
    growMapTable granted s = some (efiSuccess, { s with
      textOutModeMap := some ⟨s.textOutList.size * s.textOutQueryData.size, fun _ => -1⟩ }) := by
  unfold growMapTable
  dsimp only
  rw [if_pos (hgranted _)]
  split
  · rfl
  · rename_i old hold
    have hzero := hnone.resolve_left (by rw [hold]; exact Option.some_ne_none _)
    have hcopy := foldlM_range_inv
      (f := fun (map : Block ℤ) index => map.copy (s.textOutList.size * index) old
        ((s.textOutList.size - consoleSplitterAllocUnit) * index) s.currentNumberOfConsoles)
      (fun _ map => map = ⟨s.textOutList.size * s.textOutQueryData.size, fun _ => -1⟩)
      (n := s.maxMode) rfl fun k _ map hmap => ⟨map, by rw [hzero, copy_zero], hmap⟩
    obtain ⟨map, hrun, rfl⟩ := hcopy
    rw [hrun]
    rfl

end

/-! ## Looking for a size -/

section

variable {queryData : Block TextOutQueryData} {map : Block ℤ} {stepSize : ℕ}

/-- The size of the mode of a row. -/
def rowSize (queryData : Block TextOutQueryData) (map : Block ℤ) (stepSize index : ℕ) :
    TextOutQueryData :=
  queryData.cell (map.cell (stepSize * index)).toNat

/-- The row has a number of the first device, and its size is in the table. -/
def HasNumber (queryData : Block TextOutQueryData) (map : Block ℤ) (stepSize index : ℕ) : Prop :=
  stepSize * index < map.size
    ∧ ∃ r : ℕ, map.cell (stepSize * index) = r ∧ r < queryData.size

theorem HasNumber.read {index : ℕ} (h : HasNumber queryData map stepSize index) :
    map.read (stepSize * index) = some (map.cell (stepSize * index)) := read_of_lt h.1

theorem HasNumber.readInt {index : ℕ} (h : HasNumber queryData map stepSize index) :
    queryData.readInt (map.cell (stepSize * index))
      = some (rowSize queryData map stepSize index) := by
  obtain ⟨-, r, hr, hlt⟩ := h
  unfold rowSize
  rw [hr, readInt_natCast, read_of_lt hlt, Int.toNat_natCast]

/-- **The search** finds the first row of the size. -/
theorem findRow_eq (size : TextOutQueryData) (rows : List ℕ)
    (hrows : ∀ index ∈ rows, HasNumber queryData map stepSize index) :
    findRow queryData map stepSize size rows
      = some (rows.find? fun index => rowSize queryData map stepSize index = size) := by
  induction rows with
  | nil => rfl
  | cons index rest ih =>
    have hrow := hrows index List.mem_cons_self
    have hrest := ih fun i hi => hrows i (List.mem_cons_of_mem index hi)
    unfold findRow
    rw [List.find?_cons, hrow.read]
    show (do
      let found ← queryData.readInt (map.cell (stepSize * index))
      if found = size then some (some index) else findRow queryData map stepSize size rest) = _
    rw [hrow.readInt]
    show (if rowSize queryData map stepSize index = size then some (some index)
      else findRow queryData map stepSize size rest) = _
    split
    · rename_i hsize
      rw [decide_eq_true hsize]
    · rename_i hsize
      rw [decide_eq_false hsize, hrest]

end

/-! ## Intersections -/

/-- The modes an intersection keeps: 0, 1 and those that have an entry. -/
def keeps (entry : ℕ → ℤ) (index : ℕ) : Bool := decide (index < 2) || decide (entry index ≠ -1)

theorem keeps_of_lt {entry : ℕ → ℤ} {index : ℕ} (h : index < 2) : keeps entry index = true := by
  unfold keeps
  rw [decide_eq_true h, Bool.true_or]

theorem keeps_of_le {entry : ℕ → ℤ} {index : ℕ} (h : 2 ≤ index) :
    keeps entry index = true ↔ entry index ≠ -1 := by
  unfold keeps
  rw [decide_eq_false (Nat.not_lt.2 h), Bool.false_or, decide_eq_true_iff]

section

variable {newEntry : Block ℤ → ℕ → Option ℤ} {entry : ℕ → ℤ} {mapStepSize maxMode : ℕ}
  {map : Block ℤ}

/-- An intersection with the first `index` rows gone through. -/
structure Halfway (entry : ℕ → ℤ) (mapStepSize maxMode : ℕ) (currentMode : ℤ) (map : Block ℤ)
    (index : ℕ) (t : Intersection) : Prop where
  rows : Compacted (keeps entry) mapStepSize map index t.map t.next
  mode : t.mode = followed (keeps entry) index currentMode
  maxMode : t.maxMode + index = maxMode + t.next

/-- One row: it is kept or thrown out by its entry, and the current mode is followed. -/
theorem Halfway.turn {currentMode : ℤ} {t : Intersection} {index : ℕ}
    (h : Halfway entry mapStepSize maxMode currentMode map index t) (hindex : 2 ≤ index)
    (hlt : index < maxMode) (hread : newEntry t.map index = some (entry index))
    (hsize : mapStepSize * maxMode ≤ map.size) :
    ∃ t', getIntersectionTurn newEntry mapStepSize currentMode t index = some t'
      ∧ Halfway entry mapStepSize maxMode currentMode map (index + 1) t' := by
  have hnext := h.rows.next_le
  have hcount := h.maxMode
  have hrow : mapStepSize * (index + 1) ≤ map.size :=
    Nat.le_trans (Nat.mul_le_mul_left mapStepSize hlt) hsize
  unfold getIntersectionTurn
  rw [hread]
  dsimp only [Option.bind_eq_bind, Option.bind_some]
  by_cases hentry : entry index = -1
  · have hdrop : keeps entry index = false :=
      Bool.eq_false_iff.2 fun hkeep => (keeps_of_le hindex).1 hkeep hentry
    rw [if_pos hentry]
    refine ⟨_, rfl, h.rows.drop hdrop, ?_, ?_⟩
    · rw [followed_succ_of_drop currentMode hdrop, ← h.mode]
    · show t.maxMode - 1 + (index + 1) = maxMode + t.next
      omega
  · have hkeep : keeps entry index = true := (keeps_of_le hindex).2 hentry
    rw [if_neg hentry]
    by_cases hhere : t.next = index
    · rw [if_pos hhere]
      refine ⟨_, rfl, ?_, ?_, ?_⟩
      · have hrows := h.rows
        rw [hhere] at hrows
        exact hhere ▸ hrows.stay hkeep
      · rw [followed_succ_of_keep currentMode hkeep]
        exact h.mode
      · show t.maxMode + (index + 1) = maxMode + (t.next + 1)
        omega
    · obtain ⟨map', hmove, hrows⟩ := h.rows.move hkeep hrow
      rw [if_neg hhere, hmove]
      refine ⟨_, rfl, hrows, ?_, ?_⟩
      · rw [followed_succ_of_keep currentMode hkeep]
        exact h.mode
      · show t.maxMode + (index + 1) = maxMode + (t.next + 1)
        omega

variable (newEntry entry map) in
/-- **An intersection** keeps the rows of modes 0 and 1 and those that have an entry, in their
order, and follows the current mode. The entries may be in the table itself: a row is read
before anything is copied over it. -/
theorem getIntersection_spec (currentMode : ℤ)
    (hread : ∀ (t : Block ℤ) index, index < maxMode →
      (∀ i, mapStepSize * index ≤ i → t.cell i = map.cell i) → t.size = map.size →
      newEntry t index = some (entry index))
    (hsize : mapStepSize * maxMode ≤ map.size) :
    ∃ t, getIntersection newEntry mapStepSize maxMode currentMode map = some t
      ∧ Compacted (keeps entry) mapStepSize map maxMode t.map t.maxMode
      ∧ t.mode = followed (keeps entry) maxMode currentMode := by
  have hlow : ∀ n ≤ 2, ∀ r < n, keeps entry r = true :=
    fun n hn r hr => keeps_of_lt (Nat.lt_of_lt_of_le hr hn)
  by_cases hmodes : 2 ≤ maxMode
  · obtain ⟨t, hrun, ht⟩ := foldlM_range'_inv
      (f := getIntersectionTurn newEntry mapStepSize currentMode)
      (Halfway entry mapStepSize maxMode currentMode map) 2 maxMode
      (b := ⟨map, 2, maxMode, currentMode⟩)
      ⟨Compacted.start (hlow 2 (Nat.le_refl 2)),
        (followed_eq_self (hlow 2 (Nat.le_refl 2))).symm, rfl⟩
      fun index hindex hlt t ht =>
        ht.turn hindex hlt (hread t.map index hlt ht.rows.rest ht.rows.size) hsize
    rw [Nat.max_eq_right hmodes] at ht
    have hmax : t.maxMode = t.next := by
      have hcount := ht.maxMode
      omega
    exact ⟨t, hrun, hmax ▸ ht.rows, ht.mode⟩
  · have hall := hlow maxMode (by omega)
    refine ⟨⟨map, 2, maxMode, currentMode⟩, ?_, Compacted.start hall,
      (followed_eq_self hall).symm⟩
    unfold getIntersection
    rw [Nat.sub_eq_zero_of_le (by omega)]
    rfl

end

/-! ## The table of the devices -/

/-- **The table agrees with the devices** of its first `n` columns: its rows are modes of the
first device, in its order and with 0 and 1 at their places, and where a row has an entry,
the device of its column has a mode of the size of the row under that number. Other than for
mode 1 there are entries for all devices, and none for further ones. -/
structure Agrees (device : ℕ → TextOutDevice) (n stepSize maxMode : ℕ)
    (queryData : Block TextOutQueryData) (map : Block ℤ) : Prop where
  columns : 1 ≤ n ∧ n ≤ stepSize
  modes : 1 ≤ maxMode
  inside : stepSize * maxMode ≤ map.size
  number : ∀ i < maxMode, ∃ r : ℕ, map.cell (stepSize * i) = r ∧ r < queryData.size
  low : ∀ i < maxMode, i < 2 → map.cell (stepSize * i) = i
  sorted : ∀ i j, i < j → j < maxMode → map.cell (stepSize * i) < map.cell (stepSize * j)
  entry : ∀ i < maxMode, i ≠ 1 → ∀ k < n, ∃ m : ℕ, map.cell (stepSize * i + k) = m
    ∧ m < (device k).maxMode
    ∧ (device k).queryMode m = some (rowSize queryData map stepSize i)
  fresh : ∀ i < maxMode, ∀ k, n ≤ k → k < stepSize → map.cell (stepSize * i + k) = -1

namespace Agrees

variable {device : ℕ → TextOutDevice} {n stepSize maxMode : ℕ} {queryData : Block TextOutQueryData}
  {map : Block ℤ}

theorem hasNumber (h : Agrees device n stepSize maxMode queryData map) {i : ℕ} (hi : i < maxMode) :
    HasNumber queryData map stepSize i := by
  have hstep : 0 < stepSize := Nat.lt_of_lt_of_le h.columns.1 h.columns.2
  exact ⟨Nat.lt_of_lt_of_le (row_lt hi hstep) h.inside, h.number i hi⟩

/-- No other row has the number of mode 1. -/
theorem number_eq_one (h : Agrees device n stepSize maxMode queryData map) {i : ℕ}
    (hi : i < maxMode) (hone : map.cell (stepSize * i) = 1) : i = 1 := by
  rcases Nat.lt_trichotomy i 1 with hlt | rfl | hgt
  · have hlow := h.low i hi (by omega)
    omega
  · rfl
  · have hlow := h.low 1 (hgt.trans hi) (by omega)
    have hsorted := h.sorted 1 i hgt hi
    omega

end Agrees

/-! ## A further device -/

section

variable {device : TextOutDevice} {devices : ℕ → TextOutDevice} {stepSize console maxMode : ℕ}
  {queryData : Block TextOutQueryData} {map : Block ℤ}

/-- **The column of a further device with its first `mode` modes gone through**: an entry is the
number of a mode of the size of its row, there is one for mode 0, and there is one for the first
row of its size if the device has a mode of that size. -/
structure Synced (device : TextOutDevice) (stepSize console maxMode : ℕ)
    (queryData : Block TextOutQueryData) (map : Block ℤ) (mode : ℕ)
    (tables : Block TextOutQueryData × Block ℤ) : Prop where
  sizes : tables.1.size = queryData.size ∧ tables.2.size = map.size
  others : ∀ r, r ≠ 1 → tables.1.cell r = queryData.cell r
  mode1 : tables.1.cell 1
    = if 1 < mode ∧ device.queryMode 1 = none then ⟨0, 0⟩ else queryData.cell 1
  frame : ∀ i < maxMode, ∀ k < stepSize, k ≠ console →
    tables.2.cell (stepSize * i + k) = map.cell (stepSize * i + k)
  entry : ∀ i < maxMode, i ≠ 1 → tables.2.cell (stepSize * i + console) = -1
    ∨ ∃ m < mode, tables.2.cell (stepSize * i + console) = (m : ℤ)
      ∧ device.queryMode m = some (rowSize queryData map stepSize i)
  base : 0 < mode → tables.2.cell console ≠ -1
  found : ∀ i < maxMode, 2 ≤ i → rowSize queryData map stepSize i ≠ ⟨0, 0⟩ →
    (∀ j < i, rowSize queryData map stepSize j ≠ rowSize queryData map stepSize i) →
    (∃ m < mode, device.queryMode m = some (rowSize queryData map stepSize i)) →
    tables.2.cell (stepSize * i + console) ≠ -1

namespace Synced

variable {mode : ℕ} {tables : Block TextOutQueryData × Block ℤ}

/-- Nothing has been gone through. -/
theorem start (hfresh : ∀ i < maxMode, map.cell (stepSize * i + console) = -1) :
    Synced device stepSize console maxMode queryData map 0 (queryData, map) where
  sizes := ⟨rfl, rfl⟩
  others _ _ := rfl
  mode1 := (if_neg fun h => Nat.not_lt_zero 1 h.1).symm
  frame _ _ _ _ _ := rfl
  entry i hi _ := Or.inl (hfresh i hi)
  base h := absurd h (Nat.not_lt_zero 0)
  found _ _ _ _ _ hm := by
    obtain ⟨m, hm, -⟩ := hm
    exact absurd hm (Nat.not_lt_zero m)

section

variable (h : Synced device stepSize console maxMode queryData map mode tables)
  (hagrees : Agrees devices console stepSize maxMode queryData map)
include h hagrees

/-- The rows keep their numbers. -/
theorem number {i : ℕ} (hi : i < maxMode) :
    tables.2.cell (stepSize * i) = map.cell (stepSize * i) := by
  have hcolumns := hagrees.columns
  exact h.frame i hi 0 (by omega) (by omega)

theorem hasNumber {i : ℕ} (hi : i < maxMode) : HasNumber tables.1 tables.2 stepSize i := by
  obtain ⟨hinside, r, hr, hlt⟩ := hagrees.hasNumber hi
  exact ⟨h.sizes.2 ▸ hinside, r, (h.number hagrees hi).trans hr, h.sizes.1 ▸ hlt⟩

/-- Rows other than that of mode 1 keep their sizes. -/
theorem rowSize_of_ne {i : ℕ} (hi : i < maxMode) (hne : i ≠ 1) :
    rowSize tables.1 tables.2 stepSize i = rowSize queryData map stepSize i := by
  unfold rowSize
  rw [h.number hagrees hi]
  refine h.others _ fun hone => hne (hagrees.number_eq_one hi ?_)
  omega

/-- That of mode 1 keeps it, or has none. -/
theorem rowSize_one (hi : 1 < maxMode) :
    rowSize tables.1 tables.2 stepSize 1 = ⟨0, 0⟩
      ∨ rowSize tables.1 tables.2 stepSize 1 = rowSize queryData map stepSize 1 := by
  have hlow := hagrees.low 1 hi (by omega)
  unfold rowSize
  rw [h.number hagrees hi, hlow]
  show tables.1.cell 1 = _ ∨ tables.1.cell 1 = queryData.cell 1
  rw [h.mode1]
  split
  · exact Or.inl rfl
  · exact Or.inr rfl

omit hagrees in
/-- A mode that leaves the tables alone: no row has its size. -/
theorem skip (hzero : mode ≠ 0) (hone : mode = 1 → device.queryMode 1 ≠ none)
    (hnone : ∀ i < maxMode, i ≠ 1 →
      device.queryMode mode ≠ some (rowSize queryData map stepSize i)) :
    Synced device stepSize console maxMode queryData map (mode + 1) tables where
  sizes := h.sizes
  others := h.others
  mode1 := by
    rw [h.mode1]
    refine if_congr (and_congr_left fun hfails => ?_) rfl rfl
    have hne : mode ≠ 1 := fun heq => hone heq hfails
    omega
  frame := h.frame
  entry i hi hne := by
    rcases h.entry i hi hne with hentry | ⟨m, hm, hentry⟩
    · exact Or.inl hentry
    · exact Or.inr ⟨m, Nat.lt_succ_of_lt hm, hentry⟩
  base _ := h.base (Nat.pos_of_ne_zero hzero)
  found i hi htwo hsize halone hm := by
    obtain ⟨m, hm, hquery⟩ := hm
    rcases Nat.lt_succ_iff_lt_or_eq.1 hm with hlt | rfl
    · exact h.found i hi htwo hsize halone ⟨m, hlt, hquery⟩
    · exact absurd hquery (hnone i hi (by omega))

omit hagrees in
/-- **Mode 1 fails**: it then has no size. -/
theorem fail (hcolumn : console < stepSize) (hmode : mode = 1)
    (hfails : device.queryMode 1 = none) :
    Synced device stepSize console maxMode queryData map (mode + 1)
      ({ tables.1 with cell := Function.update tables.1.cell 1 ⟨0, 0⟩ },
        { tables.2 with cell := Function.update tables.2.cell (stepSize + console) 1 }) := by
  subst hmode
  have hkeeps : ∀ i k, k < stepSize → (i = 1 → k ≠ console) →
      Function.update tables.2.cell (stepSize + console) 1 (stepSize * i + k)
        = tables.2.cell (stepSize * i + k) := fun i k hk hne =>
    Function.update_of_ne (fun heq => by
      obtain ⟨hi, hconsole⟩ := row_inj hk hcolumn (heq.trans (by rw [Nat.mul_one]) :
        stepSize * i + k = stepSize * 1 + console)
      exact hne hi hconsole) _ _
  refine
    { sizes := h.sizes
      others := fun r hr => (Function.update_of_ne hr _ _).trans (h.others r hr)
      mode1 := ?_
      frame := fun i hi k hk hne => (hkeeps i k hk fun _ => hne).trans (h.frame i hi k hk hne)
      entry := fun i hi hne => ?_
      base := fun _ => ?_
      found := fun i hi htwo hsize halone hm => ?_ }
  · rw [if_pos ⟨by omega, hfails⟩]
    exact Function.update_self 1 (⟨0, 0⟩ : TextOutQueryData) tables.1.cell
  · dsimp only
    rw [hkeeps i console hcolumn fun hi => absurd hi hne]
    rcases h.entry i hi hne with hentry | ⟨m, hm, hentry⟩
    · exact Or.inl hentry
    · exact Or.inr ⟨m, Nat.lt_succ_of_lt hm, hentry⟩
  · have hbase := h.base Nat.one_pos
    have hzero := hkeeps 0 console hcolumn fun hi => absurd hi Nat.zero_ne_one
    rw [Nat.mul_zero, Nat.zero_add] at hzero
    dsimp only
    rwa [hzero]
  · dsimp only
    rw [hkeeps i console hcolumn fun hone => absurd hone (by omega)]
    obtain ⟨m, hm, hquery⟩ := hm
    rcases Nat.lt_succ_iff_lt_or_eq.1 hm with hlt | rfl
    · exact h.found i hi htwo hsize halone ⟨m, hlt, hquery⟩
    · rw [hfails] at hquery
      cases hquery

/-- **A mode enters its number** in the first row of its size. -/
theorem enter (hcolumn : console < stepSize) {index : ℕ} {size : TextOutQueryData}
    (hquery : device.queryMode mode = some size) (hindex : index < maxMode)
    (hsize : rowSize tables.1 tables.2 stepSize index = size)
    (hfirst : ∀ j < index, rowSize tables.1 tables.2 stepSize j ≠ size)
    (hzero : mode = 0 → index = 0) :
    Synced device stepSize console maxMode queryData map (mode + 1)
      (tables.1,
        { tables.2 with cell := Function.update tables.2.cell (stepSize * index + console) mode })
    := by
  have hkeeps : ∀ i k, k < stepSize → (i = index → k ≠ console) →
      Function.update tables.2.cell (stepSize * index + console) mode (stepSize * i + k)
        = tables.2.cell (stepSize * i + k) := fun i k hk hne =>
    Function.update_of_ne (fun heq => by
      obtain ⟨hi, hconsole⟩ := row_inj hk hcolumn heq
      exact hne hi hconsole) _ _
  have hself : Function.update tables.2.cell (stepSize * index + console) (mode : ℤ)
      (stepSize * index + console) = mode := Function.update_self _ _ _
  have hpresent : (mode : ℤ) ≠ -1 := by omega
  refine
    { sizes := h.sizes
      others := h.others
      mode1 := ?_
      frame := fun i hi k hk hne => (hkeeps i k hk fun _ => hne).trans (h.frame i hi k hk hne)
      entry := fun i hi hne => ?_
      base := fun _ => ?_
      found := fun i hi htwo hnonzero halone hm => ?_ }
  · show tables.1.cell 1 = _
    rw [h.mode1]
    refine if_congr (and_congr_left fun hfails => ?_) rfl rfl
    have hne : mode ≠ 1 := by
      rintro rfl
      rw [hfails] at hquery
      cases hquery
    omega
  · dsimp only
    by_cases hi' : i = index
    · subst hi'
      refine Or.inr ⟨mode, Nat.lt_succ_self mode, hself, ?_⟩
      rw [hquery, ← hsize, h.rowSize_of_ne hagrees hi hne]
    · rw [hkeeps i console hcolumn fun hi'' => absurd hi'' hi']
      rcases h.entry i hi hne with hentry | ⟨m, hm, hentry⟩
      · exact Or.inl hentry
      · exact Or.inr ⟨m, Nat.lt_succ_of_lt hm, hentry⟩
  · dsimp only
    by_cases hi' : index = 0
    · subst hi'
      rw [Nat.mul_zero, Nat.zero_add] at hself ⊢
      rwa [hself]
    · have hrow := hkeeps 0 console hcolumn fun hi'' => absurd hi''.symm hi'
      rw [Nat.mul_zero, Nat.zero_add] at hrow
      rw [hrow]
      exact h.base (Nat.pos_of_ne_zero fun hmode => hi' (hzero hmode))
  · dsimp only
    by_cases hi' : i = index
    · subst hi'
      rwa [hself]
    · rw [hkeeps i console hcolumn fun hi'' => absurd hi'' hi']
      obtain ⟨m, hm, hquery'⟩ := hm
      rcases Nat.lt_succ_iff_lt_or_eq.1 hm with hlt | rfl
      · exact h.found i hi htwo hnonzero halone ⟨m, hlt, hquery'⟩
      · -- the first row of the size is another one
        have heq : rowSize queryData map stepSize i = size :=
          Option.some.inj (hquery'.symm.trans hquery)
        rcases Nat.lt_or_gt_of_ne hi' with hlt | hgt
        · exact absurd ((h.rowSize_of_ne hagrees hi (by omega)).trans heq) (hfirst i hlt)
        by_cases hone : index = 1
        · subst hone
          rcases h.rowSize_one hagrees hindex with hnone | hkept
          · exact absurd (heq.trans (hsize.symm.trans hnone)) hnonzero
          · exact absurd (hkept.symm.trans (hsize.trans heq.symm)) (halone 1 hgt)
        · rw [h.rowSize_of_ne hagrees hindex hone] at hsize
          exact absurd (hsize.trans heq.symm) (halone index hgt)

end

end Synced

/-- **One mode of a further device.** -/
theorem syncTurn_spec {mode : ℕ} {tables : Block TextOutQueryData × Block ℤ}
    (h : Synced device stepSize console maxMode queryData map mode tables)
    (hagrees : Agrees devices console stepSize maxMode queryData map) (hcolumn : console < stepSize)
    (hroom : 1 < queryData.size ∧ stepSize + console < map.size)
    (hbase : device.queryMode 0 = some (rowSize queryData map stepSize 0)) :
    ∃ tables', syncTurn device stepSize console maxMode tables mode = some tables'
      ∧ Synced device stepSize console maxMode queryData map (mode + 1) tables' := by
  unfold syncTurn
  cases hquery : device.queryMode mode with
  | none =>
    dsimp only
    have hzero : mode ≠ 0 := by
      rintro rfl
      rw [hbase] at hquery
      cases hquery
    by_cases hmode : mode = 1
    · rw [if_pos hmode, write_of_lt (h.sizes.2 ▸ hroom.2)]
      dsimp only [Option.bind_eq_bind, Option.bind_some]
      subst hmode
      rw [write_of_lt (h.sizes.1 ▸ hroom.1)]
      exact ⟨_, rfl, h.fail hcolumn rfl hquery⟩
    · rw [if_neg hmode]
      refine ⟨tables, rfl, h.skip hzero (fun heq => absurd heq hmode) fun i _ _ hsome => ?_⟩
      rw [hquery] at hsome
      cases hsome
  | some size =>
    dsimp only
    have hfind := findRow_eq size (List.range maxMode) fun i hi =>
      h.hasNumber hagrees (List.mem_range.1 hi)
    rw [hfind]
    dsimp only [Option.bind_eq_bind, Option.bind_some]
    cases hrow : (List.range maxMode).find?
        fun i => decide (rowSize tables.1 tables.2 stepSize i = size) with
    | none =>
      dsimp only
      have hnone : ∀ i < maxMode, rowSize tables.1 tables.2 stepSize i ≠ size := fun i hi heq =>
        List.find?_eq_none.1 hrow i (List.mem_range.2 hi) (decide_eq_true heq)
      refine ⟨tables, rfl, h.skip ?_ (fun heq => ?_) fun i hi hne hsome => ?_⟩
      · rintro rfl
        have hzero := h.rowSize_of_ne hagrees hagrees.modes Nat.zero_ne_one
        exact hnone 0 hagrees.modes (hzero.trans (Option.some.inj (hbase.symm.trans hquery)))
      · rw [← heq, hquery]
        exact Option.some_ne_none size
      · rw [hquery] at hsome
        exact hnone i hi ((h.rowSize_of_ne hagrees hi hne).trans (Option.some.inj hsome).symm)
    | some index =>
      dsimp only
      obtain ⟨hsize, hmem, hfirst⟩ := List.find?_range_eq_some.1 hrow
      have hindex := List.mem_range.1 hmem
      rw [write_of_lt (h.sizes.2 ▸ Nat.lt_of_lt_of_le (row_lt hindex hcolumn) hagrees.inside)]
      refine ⟨_, rfl, h.enter hagrees hcolumn hquery hindex (of_decide_eq_true hsize)
        (fun j hj heq => ?_) ?_⟩
      · have hother := hfirst j hj
        rw [decide_eq_true heq] at hother
        cases hother
      rintro rfl
      by_contra hne
      have hzero := h.rowSize_of_ne hagrees hagrees.modes Nat.zero_ne_one
      have hother := hfirst 0 (Nat.pos_of_ne_zero hne)
      rw [hzero, decide_eq_true (Option.some.inj (hbase.symm.trans hquery))] at hother
      cases hother

end

/-! ## Tables that are cut down -/

section

variable {device : ℕ → TextOutDevice} {n stepSize maxMode : ℕ} {queryData : Block TextOutQueryData}
  {map : Block ℤ}

/-- **A table with rows thrown out** agrees with the devices where the rows that are left do. -/
theorem Agrees.of_compacted {keep : ℕ → Bool} {map' : Block ℤ} {maxMode' : ℕ}
    (hrows : Compacted keep stepSize map maxMode map' maxMode') (hkeep : ∀ i < 2, keep i = true)
    (hcolumns : 1 ≤ n ∧ n ≤ stepSize) (hmodes : 1 ≤ maxMode)
    (hinside : stepSize * maxMode ≤ map.size)
    (hnumber : ∀ i < maxMode, ∃ r : ℕ, map.cell (stepSize * i) = r ∧ r < queryData.size)
    (hlow : ∀ i < maxMode, i < 2 → map.cell (stepSize * i) = i)
    (hsorted : ∀ i j, i < j → j < maxMode → map.cell (stepSize * i) < map.cell (stepSize * j))
    (hentry : ∀ i < maxMode, keep i = true → i ≠ 1 → ∀ k < n, ∃ m : ℕ,
      map.cell (stepSize * i + k) = m ∧ m < (device k).maxMode
        ∧ (device k).queryMode m = some (rowSize queryData map stepSize i))
    (hfresh : ∀ i < maxMode, ∀ k, n ≤ k → k < stepSize → map.cell (stepSize * i + k) = -1) :
    Agrees device n stepSize maxMode' queryData map' := by
  have hstep : 0 < stepSize := Nat.lt_of_lt_of_le hcolumns.1 hcolumns.2
  -- the row a row comes from
  have hfrom : ∀ i < maxMode', ∃ r, (survivors keep maxMode)[i]? = some r
      ∧ ∀ k < stepSize, map'.cell (stepSize * i + k) = map.cell (stepSize * r + k) := by
    intro i hi
    rw [hrows.next_eq] at hi
    have hr := List.getElem?_eq_getElem hi
    exact ⟨_, hr, hrows.kept i _ hr⟩
  have hhead : ∀ {i r}, i < 2 → (survivors keep maxMode)[i]? = some r → r = i := by
    intro i r hi hr
    have hle := le_survivors hr
    have hself := survivors_head hkeep hi (Nat.lt_of_le_of_lt hle (survivors_spec hr).1)
    exact Option.some.inj (hr.symm.trans hself)
  have hone : ∀ {i r}, i ≠ 1 → (survivors keep maxMode)[i]? = some r → r ≠ 1 := by
    rintro i r hne hr rfl
    have hle := le_survivors hr
    have hi := hhead (by omega) hr
    omega
  have hnumbers : ∀ {i r}, (∀ k < stepSize, map'.cell (stepSize * i + k)
      = map.cell (stepSize * r + k)) → map'.cell (stepSize * i) = map.cell (stepSize * r) :=
    fun hcells => hcells 0 hstep
  refine
    { columns := hcolumns
      modes := ?_
      inside := ?_
      number := fun i hi => ?_
      low := fun i hi htwo => ?_
      sorted := fun i j hij hj => ?_
      entry := fun i hi hne k hk => ?_
      fresh := fun i hi k hnk hk => ?_ }
  · obtain ⟨hlt, -⟩ := List.getElem?_eq_some_iff.1 (survivors_head hkeep Nat.two_pos hmodes)
    rw [hrows.next_eq]
    exact hlt
  · rw [hrows.size]
    exact Nat.le_trans (Nat.mul_le_mul_left stepSize hrows.next_le) hinside
  · obtain ⟨r, hr, hcells⟩ := hfrom i hi
    rw [hnumbers hcells]
    exact hnumber r (survivors_spec hr).1
  · obtain ⟨r, hr, hcells⟩ := hfrom i hi
    obtain rfl := hhead htwo hr
    rw [hnumbers hcells]
    exact hlow r (survivors_spec hr).1 htwo
  · obtain ⟨r, hr, hcells⟩ := hfrom i (hij.trans hj)
    obtain ⟨r', hr', hcells'⟩ := hfrom j hj
    rw [hnumbers hcells, hnumbers hcells']
    exact hsorted r r' (survivors_lt hij hr hr') (survivors_spec hr').1
  · obtain ⟨r, hr, hcells⟩ := hfrom i hi
    obtain ⟨hlt, hkept⟩ := survivors_spec hr
    have hsize : rowSize queryData map' stepSize i = rowSize queryData map stepSize r := by
      unfold rowSize
      rw [hnumbers hcells]
    rw [hcells k (Nat.lt_of_lt_of_le hk hcolumns.2), hsize]
    exact hentry r hlt hkept (hone hne hr) k hk
  · obtain ⟨r, hr, hcells⟩ := hfrom i hi
    rw [hcells k hk]
    exact hfresh r (survivors_spec hr).1 k hnk hk

/-- A table that agrees goes on doing so. -/
theorem Agrees.compacted (h : Agrees device n stepSize maxMode queryData map) {keep : ℕ → Bool}
    {map' : Block ℤ} {maxMode' : ℕ} (hrows : Compacted keep stepSize map maxMode map' maxMode')
    (hkeep : ∀ i < 2, keep i = true) : Agrees device n stepSize maxMode' queryData map' :=
  .of_compacted hrows hkeep h.columns h.modes h.inside h.number h.low h.sorted
    (fun i hi _ => h.entry i hi) h.fresh

end

end ConSplitter
