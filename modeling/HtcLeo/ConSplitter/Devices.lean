import HtcLeo.ConSplitter.ModeMap

/-!
# The modes of a splitter

What each operation on the tables leaves of the modes of a splitter. The first device
gives it all of its modes (`addOutputMode_spec`), a further one leaves those it has too
(`syncOutputMode_spec`), and so does the other splitter where they share a device
(`cutDown_spec`). `Narrowed` is what the last two have in common: rows go, the others
keep their order, their numbers and their sizes, and the current mode is followed.
-/

namespace ConSplitter

open StatusCode Block

variable {δ : Type}

/-- **The splitter has the tables of its first `n` devices.** -/
structure Mapped (devices : ℕ → TextOutDevice) (n : ℕ) (s : TextOutSplitter δ) (map : Block ℤ) :
    Prop where
  map_eq : s.textOutModeMap = some map
  size : map.size = s.textOutList.size * s.textOutQueryData.size
  fits : s.maxMode ≤ s.textOutQueryData.size
  room : consoleSplitterAllocUnit ≤ s.textOutQueryData.size
  agrees : Agrees devices n s.textOutList.size s.maxMode s.textOutQueryData map

/-- Only the devices of the columns matter. -/
theorem Mapped.congr {devices : ℕ → TextOutDevice} {n : ℕ} {s : TextOutSplitter δ} {map : Block ℤ}
    (h : Mapped devices n s map) (devices' : ℕ → TextOutDevice)
    (hdevices : ∀ k < n, devices' k = devices k) :
    Mapped devices' n s map := by
  refine ⟨h.map_eq, h.size, h.fits, h.room, { h.agrees with entry := fun i hi hne k hk => ?_ }⟩
  rw [hdevices k hk]
  exact h.agrees.entry i hi hne k hk

/-- The number a row has on the first device. -/
def TextOutSplitter.number (s : TextOutSplitter δ) (map : Block ℤ) (i : ℕ) : ℤ :=
  map.cell (s.textOutList.size * i)

/-- The size of the mode of a row. -/
def TextOutSplitter.size (s : TextOutSplitter δ) (map : Block ℤ) (i : ℕ) : TextOutQueryData :=
  rowSize s.textOutQueryData map s.textOutList.size i

/-- **Rows go**, and the others keep their order, their numbers and, but for mode 1, their
sizes. The current mode is followed. -/
structure Narrowed (keep : ℕ → Bool) (s : TextOutSplitter δ) (map : Block ℤ)
    (s' : TextOutSplitter δ) (map' : Block ℤ) : Prop where
  low : ∀ i < 2, keep i = true
  maxMode : s'.maxMode = (survivors keep s.maxMode).length
  mode : s'.mode = followed keep s.maxMode s.mode
  number : ∀ i r, (survivors keep s.maxMode)[i]? = some r → s'.number map' i = s.number map r
  size : ∀ i r, (survivors keep s.maxMode)[i]? = some r → r ≠ 1 → s'.size map' i = s.size map r

/-! ## The first device -/

section

variable {granted : ℕ → Bool} {device : TextOutDevice}

/-- **The tables of the first device with `mode` modes gone through.** -/
structure Added (device : TextOutDevice) (stepSize : ℕ) (queryData : Block TextOutQueryData)
    (map : Block ℤ) (mode : ℕ) (tables : Block TextOutQueryData × Block ℤ) : Prop where
  sizes : tables.1.size = queryData.size ∧ tables.2.size = map.size
  number : ∀ i < mode, tables.2.cell (stepSize * i) = i
  fresh : ∀ i k, k < stepSize → k ≠ 0 ∨ mode ≤ i → tables.2.cell (stepSize * i + k) = -1
  size : ∀ i < mode, i ≠ 1 → device.queryMode i = some (tables.1.cell i)
  mode1 : 1 < mode → tables.1.cell 1 = (device.queryMode 1).getD ⟨0, 0⟩

/-- One mode of the first device. -/
theorem Added.turn {stepSize : ℕ} {queryData : Block TextOutQueryData} {map : Block ℤ} {mode : ℕ}
    {tables : Block TextOutQueryData × Block ℤ}
    (h : Added device stepSize queryData map mode tables)
    (hlawful : device.Lawful) (hmode : mode < device.maxMode) (hstep : 0 < stepSize)
    (hquery : mode < queryData.size) (hmap : stepSize * mode < map.size) :
    ∃ tables', addModeTurn device stepSize tables mode = some tables'
      ∧ Added device stepSize queryData map (mode + 1) tables' := by
  have hquery' : mode < tables.1.size := h.sizes.1 ▸ hquery
  refine ⟨({ tables.1 with
      cell := Function.update tables.1.cell mode (device.queried mode (tables.1.cell mode)) },
    { tables.2 with cell := Function.update tables.2.cell (stepSize * mode) mode }), ?_, ?_⟩
  · unfold addModeTurn
    rw [read_of_lt hquery']
    dsimp only [Option.bind_eq_bind, Option.bind_some]
    rw [write_of_lt hquery', write_of_lt (h.sizes.2 ▸ hmap)]
    rfl
  · refine
      { sizes := h.sizes
        number := fun i hi => ?_
        fresh := fun i k hk hor => ?_
        size := fun i hi hne => ?_
        mode1 := fun hone => ?_ }
    · dsimp only
      rcases Nat.lt_succ_iff_lt_or_eq.1 hi with hlt | rfl
      · have hrow := row_lt hlt hstep
        rw [Function.update_of_ne (by omega)]
        exact h.number i hlt
      · exact Function.update_self _ _ _
    · dsimp only
      have hne : stepSize * i + k ≠ stepSize * mode := fun heq => by
        obtain ⟨hi, hk⟩ := row_inj hk hstep (heq.trans (Nat.add_zero _).symm)
        omega
      rw [Function.update_of_ne hne]
      exact h.fresh i k hk (by omega)
    · dsimp only
      rcases Nat.lt_succ_iff_lt_or_eq.1 hi with hlt | rfl
      · rw [Function.update_of_ne (by omega)]
        exact h.size i hlt hne
      · rw [Function.update_self]
        obtain ⟨size, hsize⟩ := Option.ne_none_iff_exists'.1 (hlawful.succeeds i hmode hne)
        unfold TextOutDevice.queried
        rw [hsize]
    · dsimp only
      rcases Nat.lt_succ_iff_lt_or_eq.1 hone with hlt | heq
      · rw [Function.update_of_ne (by omega)]
        exact h.mode1 hlt
      · subst heq
        rw [Function.update_self]
        unfold TextOutDevice.queried
        cases device.queryMode 1 <;> rfl

/-- **The first device**: the splitter has its modes, under its numbers. -/
theorem addOutputMode_spec (hgranted : ∀ n, granted n = true) (hlawful : device.Lawful)
    (s : TextOutSplitter δ) (hnone : s.textOutModeMap = none ∨ s.currentNumberOfConsoles = 0)
    (hlist : 1 ≤ s.textOutList.size) (hroom : consoleSplitterAllocUnit ≤ s.textOutQueryData.size)
    (devices : ℕ → TextOutDevice) (hdevice : devices 0 = device) :
    ∃ queryData map, addOutputMode granted device s = some (efiSuccess, { s with
          maxMode := device.maxMode
          textOutQueryData := queryData
          textOutModeMap := some map })
      ∧ Mapped devices 1 { s with
          maxMode := device.maxMode
          textOutQueryData := queryData
          textOutModeMap := some map } map
      ∧ (∀ i < device.maxMode, map.cell (s.textOutList.size * i) = i)
      ∧ (1 < device.maxMode → queryData.cell 1 = (device.queryMode 1).getD ⟨0, 0⟩) := by
  obtain ⟨size, hgrown, hfits, hle⟩ := growQueryData_of_granted hgranted device.maxMode
    device.maxMode s.textOutQueryData (Nat.le_add_left _ _)
  have hinside : ∀ mode < device.maxMode,
      s.textOutList.size * mode < s.textOutList.size * size := fun mode hmode =>
    Nat.mul_lt_mul_of_pos_left (Nat.lt_of_lt_of_le hmode hfits) hlist
  obtain ⟨⟨queryData, map⟩, hrun, hadded⟩ := foldlM_range_inv
    (f := addModeTurn device s.textOutList.size) (n := device.maxMode)
    (b := ({ s.textOutQueryData with size := size }, ⟨s.textOutList.size * size, fun _ => -1⟩))
    (Added device s.textOutList.size { s.textOutQueryData with size := size }
      ⟨s.textOutList.size * size, fun _ => -1⟩)
    { sizes := ⟨rfl, rfl⟩
      number := fun i hi => absurd hi (Nat.not_lt_zero i)
      fresh := fun _ _ _ _ => rfl
      size := fun i hi => absurd hi (Nat.not_lt_zero i)
      mode1 := fun hone => absurd hone (Nat.not_lt_zero 1) }
    fun mode hmode tables h => h.turn hlawful hmode hlist (Nat.lt_of_lt_of_le hmode hfits)
      (hinside mode hmode)
  have hqsize : queryData.size = size := hadded.sizes.1
  have hmsize : map.size = s.textOutList.size * size := hadded.sizes.2
  refine ⟨queryData, map, ?_, ?_, hadded.number, hadded.mode1⟩
  · have hempty := growMapTable_empty hgranted
      { s with
        maxMode := device.maxMode
        textOutQueryData := { s.textOutQueryData with size := size } } hnone
    unfold addOutputMode
    rw [hgrown]
    show (growMapTable granted { s with
      maxMode := device.maxMode
      textOutQueryData := { s.textOutQueryData with size := size } }).bind _ = _
    rw [hempty]
    show ((List.range device.maxMode).foldlM (addModeTurn device s.textOutList.size)
      ({ s.textOutQueryData with size := size }, ⟨s.textOutList.size * size, fun _ => -1⟩)).bind
        _ = _
    rw [hrun]
    rfl
  · refine ⟨rfl, hqsize.symm ▸ hmsize, hqsize.symm ▸ hfits, hqsize.symm ▸ hroom.trans hle, ?_⟩
    refine
      { columns := ⟨Nat.le_refl 1, hlist⟩
        modes := hlawful.has_modes
        inside := hmsize ▸ Nat.mul_le_mul_left _ hfits
        number := fun i hi => ⟨i, hadded.number i hi, hqsize.symm ▸ Nat.lt_of_lt_of_le hi hfits⟩
        low := fun i hi _ => hadded.number i hi
        sorted := fun i j hij hj => ?_
        entry := fun i hi hne k hk => ?_
        fresh := fun i _ k hk hlt => hadded.fresh i k hlt (Or.inl (by omega)) }
    · have hi := hadded.number i (hij.trans hj)
      have hj := hadded.number j hj
      dsimp only at hi hj ⊢
      rw [hi, hj]
      exact Int.ofNat_lt.2 hij
    · have hnumber := hadded.number i hi
      dsimp only at hnumber ⊢
      obtain rfl : k = 0 := by omega
      refine ⟨i, hnumber, hdevice ▸ hi, ?_⟩
      unfold rowSize
      rw [hnumber, hdevice]
      exact hadded.size i hi hne

end

/-! ## A further device -/

section

variable {devices : ℕ → TextOutDevice} {s : TextOutSplitter δ} {map : Block ℤ}

/-- **What a further device leaves**: the modes it has too, and of these each that is the first of
its size. Mode 1 loses its size when it fails. -/
structure Synchronised (device : TextOutDevice) (s : TextOutSplitter δ) (map : Block ℤ)
    (s' : TextOutSplitter δ) (map' : Block ℤ) : Prop where
  mode1 : s'.textOutQueryData.cell 1 = if 1 < device.maxMode ∧ device.queryMode 1 = none
    then ⟨0, 0⟩ else s.textOutQueryData.cell 1
  found : ∀ r < s.maxMode, 2 ≤ r → s.size map r ≠ ⟨0, 0⟩ →
    (∀ j < r, s.size map j ≠ s.size map r) →
    (∃ m < device.maxMode, device.queryMode m = some (s.size map r)) →
    ∃ i < s'.maxMode, s'.number map' i = s.number map r

/-- All devices have mode 0 in the same size. -/
theorem Mapped.base {n : ℕ} (h : Mapped devices n s map) (hfirst : (devices 0).Lawful) :
    rowSize s.textOutQueryData map s.textOutList.size 0 = ⟨40, 12⟩ := by
  have hagrees := h.agrees
  obtain ⟨m, hm, -, hquery⟩ := hagrees.entry 0 hagrees.modes Nat.zero_ne_one 0 hagrees.columns.1
  have hlow := hagrees.low 0 hagrees.modes Nat.two_pos
  rw [Nat.add_zero, hlow] at hm
  obtain rfl : m = 0 := by omega
  exact Option.some.inj (hquery.symm.trans hfirst.base)

/-- **A further device** is taken in. -/
theorem syncOutputMode_spec (h : Mapped devices s.currentNumberOfConsoles s map)
    (hcolumn : s.currentNumberOfConsoles < s.textOutList.size) (hfirst : (devices 0).Lawful)
    (hlawful : (devices s.currentNumberOfConsoles).Lawful) :
    ∃ queryData map' maxMode mode keep,
      let s' := { s with
        textOutQueryData := queryData
        textOutModeMap := some map'
        maxMode := maxMode
        mode := mode }
      syncOutputMode (devices s.currentNumberOfConsoles) s = some s'
        ∧ Mapped devices (s.currentNumberOfConsoles + 1) s' map' ∧ Narrowed keep s map s' map'
        ∧ Synchronised (devices s.currentNumberOfConsoles) s map s' map' := by
  have hagrees := h.agrees
  have hroom : 1 < s.textOutQueryData.size
      ∧ s.textOutList.size + s.currentNumberOfConsoles < map.size := by
    have hrow := row_lt Nat.one_lt_two hcolumn
    have hroom : 2 ≤ s.textOutQueryData.size := Nat.le_trans (by decide) h.room
    have htwo := Nat.mul_le_mul_left s.textOutList.size hroom
    rw [Nat.mul_one] at hrow
    exact ⟨hroom, h.size ▸ Nat.lt_of_lt_of_le hrow htwo⟩
  obtain ⟨tables, hsync, hsynced⟩ := foldlM_range_inv
    (f := syncTurn (devices s.currentNumberOfConsoles) s.textOutList.size s.currentNumberOfConsoles
      s.maxMode)
    (n := (devices s.currentNumberOfConsoles).maxMode) (b := (s.textOutQueryData, map))
    (Synced (devices s.currentNumberOfConsoles) s.textOutList.size s.currentNumberOfConsoles
      s.maxMode s.textOutQueryData map)
    (Synced.start fun i hi => hagrees.fresh i hi _ (Nat.le_refl _) hcolumn)
    fun mode _ tables ht => syncTurn_spec ht hagrees hcolumn hroom
      (hlawful.base.trans (congrArg some (h.base hfirst).symm))
  let entry : ℕ → ℤ := fun i =>
    tables.2.cell (s.textOutList.size * i + s.currentNumberOfConsoles)
  have hinside : s.textOutList.size * s.maxMode ≤ tables.2.size :=
    hsynced.sizes.2.symm ▸ hagrees.inside
  obtain ⟨left, hleft, hrows, hmode⟩ := getIntersection_spec
    (fun t i => t.read (s.textOutList.size * i + s.currentNumberOfConsoles)) entry tables.2 s.mode
    (fun t i hi hrest hsize => by
      have hlt : s.textOutList.size * i + s.currentNumberOfConsoles < t.size :=
        hsize.symm ▸ Nat.lt_of_lt_of_le (row_lt hi hcolumn) hinside
      rw [read_of_lt hlt, hrest _ (Nat.le_add_right _ _)]) hinside
  have hlow : ∀ i < 2, keeps entry i = true := fun i hi => keeps_of_lt hi
  have hstep : 0 < s.textOutList.size := Nat.lt_of_le_of_lt (Nat.zero_le _) hcolumn
  have hnumber : ∀ i r, (survivors (keeps entry) s.maxMode)[i]? = some r →
      left.map.cell (s.textOutList.size * i) = map.cell (s.textOutList.size * r) := fun i r hr =>
    (hrows.kept i r hr 0 hstep).trans (hsynced.number hagrees (survivors_spec hr).1)
  refine ⟨tables.1, left.map, left.maxMode, left.mode, keeps entry, ?_, ?_, ?_, ?_⟩
  · unfold syncOutputMode
    rw [h.map_eq]
    show ((List.range (devices s.currentNumberOfConsoles).maxMode).foldlM
      (syncTurn (devices s.currentNumberOfConsoles) s.textOutList.size s.currentNumberOfConsoles
        s.maxMode) (s.textOutQueryData, map)).bind _ = _
    rw [hsync]
    show (getIntersection (fun t i => t.read (s.textOutList.size * i + s.currentNumberOfConsoles))
      s.textOutList.size s.maxMode s.mode tables.2).bind _ = _
    rw [hleft]
    rfl
  · refine ⟨rfl, ?_, ?_, ?_, ?_⟩
    · exact (hrows.size.trans hsynced.sizes.2).trans (hsynced.sizes.1.symm ▸ h.size)
    · exact hsynced.sizes.1.symm ▸ Nat.le_trans hrows.next_le h.fits
    · exact hsynced.sizes.1.symm ▸ h.room
    · refine .of_compacted hrows hlow ⟨by omega, hcolumn⟩ hagrees.modes hinside
        (fun i hi => (hsynced.hasNumber hagrees hi).2)
        (fun i hi htwo => (hsynced.number hagrees hi).trans (hagrees.low i hi htwo))
        (fun i j hij hj => ?_) (fun i hi hkept hne k hk => ?_) fun i hi k hnk hk => ?_
      · rw [hsynced.number hagrees (hij.trans hj), hsynced.number hagrees hj]
        exact hagrees.sorted i j hij hj
      · rw [hsynced.rowSize_of_ne hagrees hi hne]
        rcases Nat.lt_succ_iff_lt_or_eq.1 hk with hlt | rfl
        · rw [hsynced.frame i hi k (hlt.trans hcolumn) (Nat.ne_of_lt hlt)]
          exact hagrees.entry i hi hne k hlt
        · -- mode 0 has an entry, and any other row was kept for having one
          have hpresent : entry i ≠ -1 := by
            rcases Nat.lt_or_ge i 2 with htwo | htwo
            · obtain rfl : i = 0 := by omega
              have hbase := hsynced.base hlawful.has_modes
              show tables.2.cell (s.textOutList.size * 0 + _) ≠ -1
              rwa [Nat.mul_zero, Nat.zero_add]
            · exact (keeps_of_le htwo).1 hkept
          obtain ⟨m, hm, hm', hquery⟩ := (hsynced.entry i hi hne).resolve_left hpresent
          exact ⟨m, hm', hm, hquery⟩
      · rw [hsynced.frame i hi k hk (by omega)]
        exact hagrees.fresh i hi k (by omega) hk
  · refine ⟨hlow, hrows.next_eq, hmode, hnumber, fun i r hr hne => ?_⟩
    have hsize := hsynced.rowSize_of_ne hagrees (survivors_spec hr).1 hne
    have hsame := hnumber i r hr
    unfold TextOutSplitter.size rowSize
    unfold rowSize at hsize
    rw [hsynced.number hagrees (survivors_spec hr).1] at hsize
    dsimp only
    rw [hsame]
    exact hsize
  · refine ⟨hsynced.mode1, fun r hr htwo hnonzero halone hm => ?_⟩
    have hkept : keeps entry r = true :=
      (keeps_of_le htwo).2 (hsynced.found r hr htwo hnonzero halone hm)
    have hr' := survivors_getElem? hr hkept
    obtain ⟨hlt, -⟩ := List.getElem?_eq_some_iff.1 hr'
    exact ⟨_, hrows.next_eq.symm ▸ hlt, hnumber _ r hr'⟩

end

end ConSplitter
