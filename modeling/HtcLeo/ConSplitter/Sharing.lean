import HtcLeo.ConSplitter.Requests

/-!
# Making room, and sharing devices

The operations on the tables of both splitters: more room for devices
(`growTextOutList_spec`), the modes both have where they share a device
(`getIntersectionBetweenConOutAndStrErr_spec`), and the mode the devices are put in
when one has come (`setConsoleOutMode_spec`).

The search for a shared device does not set the pointer into the second list back, and
reads on for as many entries as the product of the two numbers of devices. They have
to be in the list.
-/

namespace ConSplitter

open StatusCode Block

variable {δ : Type}

/-! ## More room -/

section

variable {granted : ℕ → Bool} {devices : ℕ → TextOutDevice} {s : TextOutSplitter δ} {map : Block ℤ}

/-- **A table with more columns** has the rows it had. -/
theorem growMapTable_wider (hgranted : ∀ n, granted n = true)
    (h : Mapped devices s.currentNumberOfConsoles s map) :
    ∃ map',
      let s' := { s with
        textOutList :=
          { s.textOutList with size := s.textOutList.size + consoleSplitterAllocUnit } }
      growMapTable granted s' = some (efiSuccess, { s' with textOutModeMap := some map' })
        ∧ Mapped devices s.currentNumberOfConsoles
          { s' with textOutModeMap := some map' } map' := by
  have hagrees := h.agrees
  have hcolumns := hagrees.columns
  have hwider : s.textOutList.size ≤ s.textOutList.size + consoleSplitterAllocUnit :=
    Nat.le_add_right _ _
  obtain ⟨map', hrun, hsize, hcopied, hfresh⟩ := foldlM_range_inv
    (f := fun (t : Block ℤ) index =>
      t.copy ((s.textOutList.size + consoleSplitterAllocUnit) * index) map
        (s.textOutList.size * index) s.currentNumberOfConsoles)
    (n := s.maxMode)
    (b := ⟨(s.textOutList.size + consoleSplitterAllocUnit) * s.textOutQueryData.size, fun _ => -1⟩)
    (fun k t => t.size = (s.textOutList.size + consoleSplitterAllocUnit) * s.textOutQueryData.size
      ∧ (∀ i < k, ∀ c < s.currentNumberOfConsoles,
        t.cell ((s.textOutList.size + consoleSplitterAllocUnit) * i + c)
          = map.cell (s.textOutList.size * i + c))
      ∧ ∀ i c, c < s.textOutList.size + consoleSplitterAllocUnit →
        k ≤ i ∨ s.currentNumberOfConsoles ≤ c →
        t.cell ((s.textOutList.size + consoleSplitterAllocUnit) * i + c) = -1)
    ⟨rfl, fun i hi => absurd hi (Nat.not_lt_zero i), fun _ _ _ _ => rfl⟩
    fun k hk t ht => by
      obtain ⟨hsize, hcopied, hfresh⟩ := ht
      have hk' : k < s.textOutQueryData.size := Nat.lt_of_lt_of_le hk h.fits
      have hdst := Nat.mul_le_mul_left (s.textOutList.size + consoleSplitterAllocUnit) hk'
      have hsrc := Nat.mul_le_mul_left s.textOutList.size hk'
      rw [Nat.mul_succ] at hdst hsrc
      refine ⟨_, copy_of_le (by omega) (by rw [h.size]; omega), hsize, fun i hi c hc => ?_,
        fun i c hc hor => ?_⟩
      · dsimp only
        rcases Nat.lt_succ_iff_lt_or_eq.1 hi with hlt | rfl
        · have hrow := @row_lt (s.textOutList.size + consoleSplitterAllocUnit) i k c hlt (by omega)
          rw [if_neg (by omega)]
          exact hcopied i hlt c hc
        · rw [if_pos ⟨Nat.le_add_right _ _, by omega⟩, Nat.add_sub_cancel_left]
      · dsimp only
        have hout : ¬ ((s.textOutList.size + consoleSplitterAllocUnit) * k
              ≤ (s.textOutList.size + consoleSplitterAllocUnit) * i + c
            ∧ (s.textOutList.size + consoleSplitterAllocUnit) * i + c
              < (s.textOutList.size + consoleSplitterAllocUnit) * k
                + s.currentNumberOfConsoles) := by
          rintro ⟨hle, hlt⟩
          obtain ⟨rfl, hc'⟩ := row_inj
            (show _ - (s.textOutList.size + consoleSplitterAllocUnit) * k
              < s.textOutList.size + consoleSplitterAllocUnit by omega) hc
            (Nat.add_sub_cancel' hle)
          omega
        rw [if_neg hout]
        exact hfresh i c hc (by omega)
  refine ⟨map', ?_, rfl, hsize, h.fits, h.room, ?_⟩
  · unfold growMapTable
    dsimp only
    rw [if_pos (hgranted _), h.map_eq]
    dsimp only
    rw [Nat.add_sub_cancel, hrun]
    rfl
  · have hnumber : ∀ i < s.maxMode,
        map'.cell ((s.textOutList.size + consoleSplitterAllocUnit) * i)
          = map.cell (s.textOutList.size * i) := fun i hi =>
      hcopied i hi 0 (Nat.lt_of_lt_of_le Nat.one_pos hcolumns.1)
    refine
      { columns := ⟨hcolumns.1, hcolumns.2.trans hwider⟩
        modes := hagrees.modes
        inside := hsize ▸ Nat.mul_le_mul_left _ h.fits
        number := fun i hi => ?_
        low := fun i hi htwo => (hnumber i hi).trans (hagrees.low i hi htwo)
        sorted := fun i j hij hj => ?_
        entry := fun i hi hne k hk => ?_
        fresh := fun i _ k hk hlt => hfresh i k hlt (Or.inr hk) }
    · dsimp only
      rw [hnumber i hi]
      exact hagrees.number i hi
    · dsimp only
      rw [hnumber i (hij.trans hj), hnumber j hj]
      exact hagrees.sorted i j hij hj
    · dsimp only
      unfold rowSize
      rw [hcopied i hi k hk, hnumber i hi]
      exact hagrees.entry i hi hne k hk

/-- Where there is room nothing grows. -/
theorem growTextOutList_of_lt (hroom : s.currentNumberOfConsoles < s.textOutList.size) :
    ∀ turns, growTextOutList granted turns s = some (efiSuccess, s)
  | 0 => rfl
  | _ + 1 => if_neg (Nat.not_le.2 hroom)

/-- **There is room for one more device**, and the tables are as they were. -/
theorem growTextOutList_spec (hgranted : ∀ n, granted n = true) {device : δ → TextOutDevice}
    (h : Tables device s) :
    ∃ size modeMap,
      let s' := { s with
        textOutList := { s.textOutList with size := size }
        textOutModeMap := modeMap }
      growTextOutList granted (s.currentNumberOfConsoles + 1) s = some (efiSuccess, s')
        ∧ s.currentNumberOfConsoles < size ∧ consoleSplitterAllocUnit ≤ size
        ∧ (s.currentNumberOfConsoles = 0 → modeMap = s.textOutModeMap)
        ∧ (0 < s.currentNumberOfConsoles → ∃ map',
          Mapped (fun k => device (s.textOutList.cell k)) s.currentNumberOfConsoles s' map') := by
  have hroom := h.list_room
  unfold growTextOutList
  split
  · rename_i hfull
    have hpos : 0 < s.currentNumberOfConsoles := Nat.lt_of_lt_of_le (by decide) (hroom.trans hfull)
    obtain ⟨map, hmapped⟩ := h.mapped hpos
    obtain ⟨map', hgrow, hmapped'⟩ := growMapTable_wider hgranted hmapped
    have hnext : s.currentNumberOfConsoles < s.textOutList.size + consoleSplitterAllocUnit :=
      Nat.lt_of_le_of_lt h.list (Nat.lt_add_of_pos_right (by decide))
    refine ⟨_, some map', ?_, hnext, hroom.trans (Nat.le_add_right _ _),
      fun hzero => absurd hzero (by omega), fun _ => ⟨map', hmapped'⟩⟩
    rw [growBuffer_of_granted hgranted]
    show (growMapTable granted { s with
      textOutList :=
        { s.textOutList with size := s.textOutList.size + consoleSplitterAllocUnit } }).bind _ = _
    rw [hgrow]
    exact growTextOutList_of_lt hnext _
  · rename_i hroomy
    exact ⟨s.textOutList.size, s.textOutModeMap, rfl, by omega, hroom, fun _ => rfl, h.mapped⟩

end

/-! ## What an intersection leaves of a splitter -/

/-- **What a splitter keeps** when it is cut down to fewer modes. -/
structure Cut (device : δ → TextOutDevice) (s s' : TextOutSplitter δ) : Prop where
  count : s'.currentNumberOfConsoles = s.currentNumberOfConsoles
  list : s'.textOutList = s.textOutList
  tables : Tables device s → Tables device s'
  window : s.Virtual → s'.Virtual
  valid : s.ModeValid → s'.ModeValid

namespace Cut

variable {device : δ → TextOutDevice} {s s' s'' : TextOutSplitter δ}

theorem refl (s : TextOutSplitter δ) : Cut device s s := ⟨rfl, rfl, id, id, id⟩

theorem consoles_eq (h : Cut device s s') : s'.consoles = s.consoles := by
  unfold TextOutSplitter.consoles
  rw [h.count, h.list]

end Cut

section

variable {device : δ → TextOutDevice} {s : TextOutSplitter δ} (around : Surroundings δ)

/-- A mode that is followed is offered, or gone. -/
theorem followed_lt {keep : ℕ → Bool} {n : ℕ} {m : ℤ} (hm : m < n) :
    followed keep n m < (survivors keep n).length := by
  have hnonneg : (0 : ℤ) ≤ (survivors keep n).length := Int.natCast_nonneg _
  unfold followed
  split
  · omega
  · split
    · rename_i hneg hkeep
      obtain ⟨hlt, -⟩ := List.getElem?_eq_some_iff.1
        (survivors_getElem? (show m.toNat < n by omega) hkeep)
      exact Int.ofNat_lt.2 hlt
    · omega

/-- **A splitter is cut down** to the modes that are marked. -/
theorem cutDown_spec (h : Tables device s) (hpos : 0 < s.currentNumberOfConsoles)
    {mapTable : Block ℤ} (hsize : mapTable.size = s.maxMode) :
    ∃ s', cutDown around mapTable s = some s' ∧ Cut device s s' := by
  obtain ⟨map, hmapped⟩ := h.mapped hpos
  have hagrees := hmapped.agrees
  obtain ⟨left, hleft, hrows, hmode⟩ := getIntersection_spec
    (fun _ i => mapTable.read i) mapTable.cell map s.mode
    (fun _ i hi _ _ => read_of_lt (hsize.symm ▸ hi)) hagrees.inside
  have hlow : ∀ i < 2, keeps mapTable.cell i = true := fun i hi => keeps_of_lt hi
  have hmapped' : Mapped (fun k => device (s.textOutList.cell k)) s.currentNumberOfConsoles
      { s with textOutModeMap := some left.map, maxMode := left.maxMode, mode := left.mode }
      left.map :=
    ⟨rfl, hrows.size.trans hmapped.size, Nat.le_trans hrows.next_le hmapped.fits, hmapped.room,
      hagrees.compacted hrows hlow⟩
  have hne : s.currentNumberOfConsoles ≠ 0 := Nat.ne_of_gt hpos
  have htables : Tables device
      { s with textOutModeMap := some left.map, maxMode := left.maxMode, mode := left.mode } :=
    ⟨h.list, h.list_room, h.query_room, fun hzero => absurd hzero hne,
      fun _ => ⟨left.map, hmapped'⟩⟩
  unfold cutDown
  rw [hmapped.map_eq]
  dsimp only [Option.bind_eq_bind, Option.bind_some]
  rw [hleft]
  dsimp only [Option.bind_some]
  by_cases hlost : left.mode < 0
  · obtain ⟨_, s', hset, hkept, hmode', -⟩ := textOutSetMode_spec around htables
      0 hmapped'.agrees.modes (by decide)
    have hmodes : 0 < s'.maxMode := hkept.maxMode.symm ▸ hmapped'.agrees.modes
    rw [if_pos hlost, hset]
    refine ⟨s', rfl, hkept.count, hkept.list, fun _ => hkept.tables htables,
      fun _ hzero => absurd (hkept.count.symm.trans hzero) hne, fun _ => ⟨by omega, by omega⟩⟩
  · rw [if_neg hlost]
    refine ⟨_, rfl, rfl, rfl, fun _ => htables, fun _ hzero => absurd hzero hne,
      fun hvalid => ⟨Int.not_lt.1 hlost, ?_⟩⟩
    show left.mode < left.maxMode
    rw [hmode, hrows.next_eq]
    exact followed_lt hvalid.2

end

/-! ## Devices in common -/

section

variable [DecidableEq δ]

/-- The search for one device goes as far as there are others. -/
theorem findSame_spec (textOut : δ) (stdErrList : Block δ) :
    ∀ (left pointer : ℕ), pointer + left ≤ stdErrList.size →
      ∃ found pointer', findSame textOut stdErrList left pointer = some (found, pointer')
        ∧ pointer' ≤ pointer + left ∧ (found = true → 0 < left)
  | 0, pointer, _ => ⟨false, pointer, rfl, Nat.le_refl _, fun h => absurd h Bool.false_ne_true⟩
  | left + 1, pointer, h => by
    unfold findSame
    rw [read_of_lt (show pointer < stdErrList.size by omega)]
    by_cases hsame : textOut = stdErrList.cell pointer
    · exact ⟨true, pointer, if_pos hsame, by omega, fun _ => Nat.succ_pos left⟩
    · obtain ⟨found, pointer', hrest, hle, -⟩ :=
        findSame_spec textOut stdErrList left (pointer + 1) (by omega)
      exact ⟨found, pointer', (if_neg hsame).trans hrest, by omega, fun _ => Nat.succ_pos left⟩

/-- **The search for a shared device** comes back where the second list has as many entries as
it goes through. -/
theorem foundTheSameTextOut_spec (conOutList stdErrList : Block δ) (stdErrNumOfConsoles : ℕ) :
    ∀ (indices : List ℕ) (pointer : ℕ), (∀ i ∈ indices, i < conOutList.size) →
      pointer + indices.length * stdErrNumOfConsoles ≤ stdErrList.size →
      ∃ found, foundTheSameTextOut conOutList stdErrList stdErrNumOfConsoles indices pointer
          = some found
        ∧ (found = true → 0 < indices.length ∧ 0 < stdErrNumOfConsoles)
  | [], _, _, _ => ⟨false, rfl, fun h => absurd h Bool.false_ne_true⟩
  | index :: rest, pointer, hindices, hlist => by
    rw [List.length_cons, Nat.add_mul, Nat.one_mul] at hlist
    obtain ⟨found, pointer', hone, hle, hpos⟩ := findSame_spec (conOutList.cell index) stdErrList
      stdErrNumOfConsoles pointer (by omega)
    unfold foundTheSameTextOut
    rw [read_of_lt (hindices index List.mem_cons_self)]
    dsimp only [Option.bind_eq_bind, Option.bind_some]
    rw [hone]
    dsimp only [Option.bind_some]
    cases found with
    | true => exact ⟨true, rfl, fun _ => ⟨Nat.succ_pos _, hpos rfl⟩⟩
    | false =>
      obtain ⟨found, hrest, hpos⟩ := foundTheSameTextOut_spec conOutList stdErrList
        stdErrNumOfConsoles rest pointer'
        (fun i hi => hindices i (List.mem_cons_of_mem index hi)) (by omega)
      exact ⟨found, hrest, fun h => ⟨Nat.succ_pos _, (hpos h).2⟩⟩

omit [DecidableEq δ] in
/-- The modes of both splitters that have a size in common are marked. -/
theorem marked_spec {devices devices' : ℕ → TextOutDevice} {n n' : ℕ}
    {conOut stdErr : TextOutSplitter δ} {conOutModeMap stdErrModeMap : Block ℤ}
    (h : Mapped devices n conOut conOutModeMap) (h' : Mapped devices' n' stdErr stdErrModeMap) :
    ∃ tables, (List.range conOut.maxMode).foldlM
        (markTurn conOut stdErr conOutModeMap stdErrModeMap)
        (⟨conOut.maxMode, fun _ => -1⟩, ⟨stdErr.maxMode, fun _ => -1⟩) = some tables
      ∧ tables.1.size = conOut.maxMode ∧ tables.2.size = stdErr.maxMode := by
  refine foldlM_range_inv (fun _ (tables : Block ℤ × Block ℤ) =>
    tables.1.size = conOut.maxMode ∧ tables.2.size = stdErr.maxMode) ⟨rfl, rfl⟩
    fun k hk tables hsizes => ?_
  have hrow := h.agrees.hasNumber hk
  have hfind := findRow_eq (rowSize conOut.textOutQueryData conOutModeMap conOut.textOutList.size k)
    (List.range stdErr.maxMode) fun i hi => h'.agrees.hasNumber (List.mem_range.1 hi)
  unfold markTurn
  rw [hrow.read]
  dsimp only [Option.bind_eq_bind, Option.bind_some]
  rw [hrow.readInt]
  dsimp only [Option.bind_some]
  rw [hfind]
  dsimp only [Option.bind_some]
  split
  · rename_i index hindex
    have hlt := List.mem_range.1 (List.mem_of_find?_eq_some hindex)
    rw [write_of_lt (hsizes.1.symm ▸ hk)]
    dsimp only [Option.bind_some]
    rw [write_of_lt (hsizes.2.symm ▸ hlt)]
    exact ⟨_, rfl, hsizes⟩
  · exact ⟨tables, rfl, hsizes⟩

/-- **Where the splitters share a device** both are cut down, and otherwise nothing happens. -/
theorem getIntersectionBetweenConOutAndStrErr_spec {device : δ → TextOutDevice}
    {around : Surroundings δ} (hgranted : ∀ n, around.granted n = true) {sys : Splitters δ}
    (hconOut : Tables device sys.mConOut) (hstdErr : Tables device sys.mStdErr)
    (hlist : sys.mConOut.currentNumberOfConsoles * sys.mStdErr.currentNumberOfConsoles
      ≤ sys.mStdErr.textOutList.size) :
    ∃ sys', getIntersectionBetweenConOutAndStrErr around sys = some (efiSuccess, sys')
      ∧ ∀ which, Cut device (sys.get which) (sys'.get which) := by
  obtain ⟨found, hfound, hboth⟩ := foundTheSameTextOut_spec sys.mConOut.textOutList
    sys.mStdErr.textOutList sys.mStdErr.currentNumberOfConsoles
    (List.range sys.mConOut.currentNumberOfConsoles) 0
      (fun i hi => Nat.lt_of_lt_of_le (List.mem_range.1 hi) hconOut.list)
    (by rw [List.length_range, Nat.zero_add]; exact hlist)
  unfold getIntersectionBetweenConOutAndStrErr
  dsimp only
  rw [hfound]
  dsimp only [Option.bind_eq_bind, Option.bind_some]
  cases found with
  | false => exact ⟨sys, rfl, fun which => Cut.refl _⟩
  | true =>
    rw [List.length_range] at hboth
    obtain ⟨hpos, hpos'⟩ := hboth rfl
    obtain ⟨map, hmapped⟩ := hconOut.mapped hpos
    obtain ⟨map', hmapped'⟩ := hstdErr.mapped hpos'
    obtain ⟨tables, hmarked, hsize, hsize'⟩ := marked_spec hmapped hmapped'
    obtain ⟨conOut, hcut, hconOut'⟩ := cutDown_spec around hconOut hpos hsize
    obtain ⟨stdErr, hcut', hstdErr'⟩ := cutDown_spec around hstdErr hpos' hsize'
    rw [if_neg (not_not.2 rfl), if_neg (not_not.2 ⟨hgranted _, hgranted _⟩), hmapped.map_eq,
      hmapped'.map_eq]
    dsimp only [Option.bind_some]
    rw [hmarked]
    dsimp only [Option.bind_some]
    rw [hcut]
    dsimp only [Option.bind_some]
    rw [hcut']
    refine ⟨_, rfl, fun which => ?_⟩
    cases which with
    | conOut => exact hconOut'
    | stdErr => exact hstdErr'

end

/-! ## The mode the devices are put in -/

theorem Splitters.get_set (sys : Splitters δ) (which : Which) (s : TextOutSplitter δ) :
    (sys.set which s).get which = s := by
  cases which <;> rfl

theorem Splitters.get_set_of_ne (sys : Splitters δ) {which which' : Which} (hne : which' ≠ which)
    (s : TextOutSplitter δ) : (sys.set which s).get which' = sys.get which' := by
  cases which <;> cases which' <;> first | rfl | exact absurd rfl hne

section

variable {devices : ℕ → TextOutDevice} {n : ℕ} {s : TextOutSplitter δ} {map : Block ℤ}

/-- A row is a mode of the first device with its number, or with a greater one. -/
theorem Mapped.le_number (h : Mapped devices n s map) :
    ∀ {i : ℕ}, i < s.maxMode → (i : ℤ) ≤ s.number map i
  | 0, hi => by
    have hlow := h.agrees.low 0 hi Nat.two_pos
    unfold TextOutSplitter.number
    omega
  | i + 1, hi => by
    have hbelow := h.le_number (Nat.lt_of_succ_lt hi)
    have hsorted := h.agrees.sorted i (i + 1) (Nat.lt_succ_self i) hi
    unfold TextOutSplitter.number at hbelow ⊢
    omega

/-- There are no more modes than a device may have. -/
theorem Mapped.few_modes (h : Mapped devices n s map) (hfirst : (devices 0).Lawful) :
    s.maxMode ≤ 0xFF := by
  by_contra hmany
  obtain ⟨m, hm, hlt, -⟩ :=
    h.agrees.entry 0xFF (Nat.lt_of_not_le hmany) (by decide) 0 h.agrees.columns.1
  have hle := h.le_number (Nat.lt_of_not_le hmany)
  have hfew := hfirst.few_modes
  unfold TextOutSplitter.number at hle
  rw [Nat.add_zero] at hm
  omega

/-- A mode that is not refused is one of those offered. -/
theorem lt_maxMode_of_queryMode {s : TextOutSplitter δ} {modeNumber : ℕ}
    {size : Option TextOutQueryData} (h : textOutQueryMode s modeNumber = some (efiSuccess, size)) :
    modeNumber ≤ 0x7FFFFFFF ∧ modeNumber < s.maxMode := by
  by_contra hnot
  unfold textOutQueryMode at h
  rw [if_pos (by omega)] at h
  cases h

/-- **What a query answers**: the size of the row, unless it has none. -/
theorem textOutQueryMode_spec (h : Mapped devices n s map) {i : ℕ} (hi : i < s.maxMode)
    (hint : i ≤ 0x7FFFFFFF) :
    textOutQueryMode s i = some (if (s.size map i).columns = 0 ∧ (s.size map i).rows = 0
      then efiUnsupported else efiSuccess, some (s.size map i)) := by
  have hrow := h.agrees.hasNumber hi
  unfold textOutQueryMode
  rw [if_neg (by omega), h.map_eq]
  dsimp only
  rw [hrow.read]
  dsimp only [Option.bind_eq_bind, Option.bind_some]
  rw [hrow.readInt]
  rfl

/-- **The mode that is chosen** is one that is offered: the one that is preferred if there is one,
and the base mode always. -/
theorem chooseTurn_spec (h : Mapped devices n s map) (hfirst : (devices 0).Lawful)
    (column row : ℕ) :
    ∃ choice, (List.range s.maxMode).foldlM (chooseTurn column row s) ⟨0, 0, 0xFF, 0xFF⟩
        = some choice
      ∧ (choice.preferMode < s.maxMode ∨ choice.preferMode = 0xFF)
      ∧ choice.baseMode < s.maxMode := by
  have hfew := h.few_modes hfirst
  obtain ⟨choice, hrun, hprefer, hbase⟩ := foldlM_range_inv (f := chooseTurn column row s)
    (n := s.maxMode) (b := ⟨0, 0, 0xFF, 0xFF⟩)
    (fun k (choice : ModeChoice) => (choice.preferMode < k ∨ choice.preferMode = 0xFF)
      ∧ (0 < k → choice.baseMode < k))
    ⟨Or.inr rfl, fun hzero => absurd hzero (Nat.lt_irrefl 0)⟩ fun k hk choice hchoice => by
      have hquery := textOutQueryMode_spec h hk (by omega)
      obtain ⟨hprefer, hbase⟩ := hchoice
      unfold chooseTurn
      rw [hquery]
      dsimp only [Option.bind_eq_bind, Option.bind_some]
      by_cases hnone : (s.size map k).columns = 0 ∧ (s.size map k).rows = 0
      · -- mode 0 has a size
        have hzero : k ≠ 0 := by
          rintro rfl
          have hsize := h.base hfirst
          unfold TextOutSplitter.size at hnone
          rw [hsize] at hnone
          exact absurd hnone.1 (by decide)
        rw [if_pos hnone]
        refine ⟨choice, rfl, hprefer.imp_left Nat.lt_succ_of_lt, fun _ => ?_⟩
        exact Nat.lt_succ_of_lt (hbase (Nat.pos_of_ne_zero hzero))
      · rw [if_neg hnone]
        have hbase' : (s.size map k).columns = 40 ∧ (s.size map k).rows = 12 ∨ 0 < k := by
          rcases Nat.eq_zero_or_pos k with rfl | hpos
          · unfold TextOutSplitter.size
            rw [h.base hfirst]
            exact Or.inl ⟨rfl, rfl⟩
          · exact Or.inr hpos
        refine ⟨_, rfl, ?_, fun _ => ?_⟩
        · split_ifs <;> first | omega | (dsimp only; omega)
        · split_ifs <;> first | omega | (dsimp only; omega)
  exact ⟨choice, hrun, hprefer, hbase h.agrees.modes⟩

end

/-- **The devices are put in a mode** that is offered. -/
theorem setConsoleOutMode_spec {device : δ → TextOutDevice} (hlawful : ∀ d, (device d).Lawful)
    (around : Surroundings δ) (which : Which) (sys : Splitters δ)
    (h : Tables device (sys.get which))
    (hpos : 0 < (sys.get which).currentNumberOfConsoles) :
    ∃ s' column row, setConsoleOutMode around which sys
        = some { sys.set which s' with pcdConOutColumn := column, pcdConOutRow := row }
      ∧ Kept (sys.get which) s' ∧ s'.ModeValid := by
  obtain ⟨map, hmapped⟩ := h.mapped hpos
  have hfew := hmapped.few_modes (hlawful _)
  obtain ⟨choice, hchoice, hprefer, hbase⟩ := chooseTurn_spec hmapped (hlawful _)
    sys.pcdConOutColumn sys.pcdConOutRow
  have hset : ∀ (s : TextOutSplitter δ), Kept (sys.get which) s → ∀ mode < (sys.get which).maxMode,
      ∃ status s', textOutSetMode around mode s = some (status, s') ∧ Kept (sys.get which) s'
        ∧ s'.ModeValid := fun s hkept mode hmode => by
    obtain ⟨status, s', hrun, hkept', hmode', -⟩ := textOutSetMode_spec around (hkept.tables h) mode
      (hkept.maxMode.symm ▸ hmode) (by omega)
    refine ⟨status, s', hrun, hkept.trans hkept', ?_⟩
    have hmax := hkept'.maxMode.trans hkept.maxMode
    exact ⟨by omega, by omega⟩
  have hfirst : ∃ status s', textOutSetMode around choice.preferMode (sys.get which)
      = some (status, s') ∧ Kept (sys.get which) s' ∧ (s'.ModeValid ∨ efiError status = true) := by
    by_cases hin : choice.preferMode < (sys.get which).maxMode
    · obtain ⟨status, s', hrun, hkept, hvalid⟩ := hset _ (Kept.refl _) _ hin
      exact ⟨status, s', hrun, hkept, Or.inl hvalid⟩
    · refine ⟨efiUnsupported, sys.get which, ?_, Kept.refl _, Or.inr (by decide)⟩
      unfold textOutSetMode
      rw [if_pos (by omega)]
  obtain ⟨status, s', hrun, hkept, hvalid⟩ := hfirst
  unfold setConsoleOutMode
  dsimp only
  rw [hchoice]
  dsimp only [Option.bind_eq_bind, Option.bind_some]
  rw [hrun]
  dsimp only [Option.bind_some]
  by_cases herror : efiError status = true
  · obtain ⟨_, s'', hrun', hkept', hvalid'⟩ := hset s' hkept _ hbase
    rw [if_pos herror, hrun']
    exact ⟨s'', 40, 12, rfl, hkept', hvalid'⟩
  · rw [if_neg herror]
    refine ⟨s', sys.pcdConOutColumn, sys.pcdConOutRow, ?_, hkept, hvalid.resolve_right herror⟩
    cases which <;> rfl

end ConSplitter
