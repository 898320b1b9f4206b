import HtcLeo.Gpio.MsmGpio
import HtcLeo.Lib.Run
import Mathlib.Data.List.Nodup

/-!
# Dispatching gpio interrupts

`msm_gpio_isr` goes through the banks, acknowledges every gpio whose interrupt
is pending and enabled, and marks it in the table `gpio_irq_handlers`; then it
goes through the table and calls the handlers of the marked entries.

The table has `NR_MSM_GPIOS` entries, and that is 164: the number of the last
gpio, and one less than there are. The last gpio, 164, is one that `find_gpio`
knows, that `register_gpio_int_handler` accepts and that the first loop marks;
each of the two reaches past the table for it, and the second loop never gets
there. `gpio_dispatch_exact_iff` says that this is all that goes wrong.
-/

namespace MsmGpio

/-! ## The table and the handler -/

/-- `NR_MSM_GPIOS`. -/
def nrMsmGpios : ℕ := 164

/-- `msm_gpio_isr_handler`, with the handler and its argument in one. -/
structure MsmGpioIsrHandler (H : Type) where
  handler : Option H
  pending : Bool

/-- **The state of the gpio interrupts**: the registers, `gpio_irq_handlers` –
the entries from `NR_MSM_GPIOS` on lie outside the array –, the indices at
which it was read or written, and the handlers called so far. -/
structure IsrState (H : Type) where
  gpio : Gpio
  gpioIrqHandlers : ℕ → MsmGpioIsrHandler H
  accessed : List ℕ
  called : List H

variable {H : Type}

/-- No handler, and nothing pending. -/
def IsrState.init (banks : Fin 8 → Bank) : IsrState H :=
  ⟨⟨banks, []⟩, fun _ => ⟨none, false⟩, [], []⟩

/-- An entry of the table is written. -/
def IsrState.write (s : IsrState H) (i : ℕ)
    (f : MsmGpioIsrHandler H → MsmGpioIsrHandler H) : IsrState H :=
  { s with
    gpioIrqHandlers := Function.update s.gpioIrqHandlers i (f (s.gpioIrqHandlers i))
    accessed := s.accessed ++ [i] }

/-- `register_gpio_int_handler`: what it does for a gpio out of range is
commented out. -/
def registerGpioIntHandler (gpio : ℕ) (handler : Option H) (s : IsrState H) : IsrState H :=
  s.write gpio fun entry => { entry with handler := handler }

/-- A gpio is acknowledged and marked. -/
def ackAndMark (s : IsrState H) (gpio : ℕ) : IsrState H :=
  { s with gpio := msmGpioIrqAck gpio s.gpio }.write gpio fun entry =>
    { entry with pending := true }

/-- A turn of the loop over the banks. -/
def scanBank (s : IsrState H) (i : Fin 8) : IsrState H :=
  let status := (s.gpio.banks i).intStatus 0
  let s := { s with gpio := s.gpio.updateBank i fun r =>
    { r with intStatus := fun n => r.intStatus (n + 1) } }
  let e := (s.gpio.banks i).intEn
  (List.range 32).foldl
    (fun s j =>
      if Word.flag (e &&& status) (Word.one (UInt32.ofNat j)) then
        ackAndMark s ((gpioRegs i).start + j)
      else s) s

/-- A turn of the loop over the table. -/
def dispatchEntry (s : IsrState H) (i : ℕ) : IsrState H :=
  if (s.gpioIrqHandlers i).pending then
    { s.write i fun entry => { entry with pending := false } with
      called := s.called ++ (s.gpioIrqHandlers i).handler.toList }
  else { s with accessed := s.accessed ++ [i] }

/-- `msm_gpio_isr`. -/
def msmGpioIsr (s : IsrState H) : IsrState H :=
  (List.range nrMsmGpios).foldl dispatchEntry ((List.finRange 8).foldl scanBank s)

/-- What happens: a handler is registered, or the interrupt comes while the
registers hold what they hold then. -/
inductive IsrCall (H : Type) where
  | registerGpioIntHandler (gpio : ℕ) (handler : Option H)
  | msmGpioIsr (banks : Fin 8 → Bank)

/-- The state after it. -/
def isrStep (s : IsrState H) : IsrCall H → IsrState H
  | .registerGpioIntHandler gpio handler => registerGpioIntHandler gpio handler s
  | .msmGpioIsr banks => msmGpioIsr { s with gpio := { s.gpio with banks := banks } }

/-! ## What one interrupt owes -/

/-- The interrupt of a gpio is pending and enabled. -/
def active (banks : Fin 8 → Bank) (gpio : ℕ) : Bool :=
  match findGpio gpio with
  | none => false
  | some (r, b) => Word.flag ((banks r).intEn &&& (banks r).intStatus 0) b

/-- The gpios that `find_gpio` knows. -/
def knownGpios : List ℕ := List.range 165

/-- The gpios whose interrupt is pending and enabled. -/
def activeGpios (banks : Fin 8 → Bank) : List ℕ := knownGpios.filter (active banks)

/-- **What a call owes**: an interrupt acknowledges the gpios that are pending
and enabled, once each, and calls the handlers they have, once each; and
neither it nor a registration reaches past the table. -/
structure DispatchExact (s : IsrState H) (call : IsrCall H) : Prop where
  acknowledged : ∀ banks, call = .msmGpioIsr banks →
    (isrStep s call).gpio.intClear
      = s.gpio.intClear ++ (activeGpios banks).flatMap fun gpio => (findGpio gpio).toList
  dispatched : ∀ banks, call = .msmGpioIsr banks →
    (isrStep s call).called
      = s.called ++ (activeGpios banks).flatMap fun gpio =>
        (s.gpioIrqHandlers gpio).handler.toList
  inRange : ∃ indices, (isrStep s call).accessed = s.accessed ++ indices
    ∧ ∀ i ∈ indices, i < nrMsmGpios

/-- No bit is set past the last gpio of a bank. -/
def BitsInside (banks : Fin 8 → Bank) : Prop :=
  ∀ i j, Word.bit ((banks i).intStatus 0) j = true ∨ Word.bit (banks i).intEn j = true →
    (gpioRegs i).start + j ≤ (gpioRegs i).last

/-- The call is one for gpios that `find_gpio` knows: a registration for one of
them, or an interrupt with no bit set past the last gpio of a bank. -/
def IsrCall.Known : IsrCall H → Prop
  | .registerGpioIntHandler gpio _ => (findGpio gpio).isSome
  | .msmGpioIsr banks => BitsInside banks

/-- The call leaves the last gpio alone. -/
def IsrCall.SparesLast : IsrCall H → Prop
  | .registerGpioIntHandler gpio _ => gpio ≠ 164
  | .msmGpioIsr banks => active banks 164 = false

/-! ## What the loop over the banks does -/

/-- **The gpios of a list were acknowledged and marked**, in this order. -/
structure Marks (s s' : IsrState H) (gpios : List ℕ) : Prop where
  intClear : s'.gpio.intClear
    = s.gpio.intClear ++ gpios.flatMap fun gpio => (findGpio gpio).toList
  handler : ∀ gpio, (s'.gpioIrqHandlers gpio).handler = (s.gpioIrqHandlers gpio).handler
  pending : ∀ gpio, (s'.gpioIrqHandlers gpio).pending
    = ((s.gpioIrqHandlers gpio).pending || decide (gpio ∈ gpios))
  accessed : s'.accessed = s.accessed ++ gpios
  called : s'.called = s.called

theorem Marks.refl (s : IsrState H) : Marks s s [] :=
  ⟨(List.append_nil _).symm, fun _ => rfl, fun _ => by simp, (List.append_nil _).symm, rfl⟩

theorem Marks.trans {s s' s'' : IsrState H} {gpios gpios' : List ℕ} (h : Marks s s' gpios)
    (h' : Marks s' s'' gpios') : Marks s s'' (gpios ++ gpios') where
  intClear := by rw [h'.intClear, h.intClear, List.flatMap_append, List.append_assoc]
  handler := fun gpio => (h'.handler gpio).trans (h.handler gpio)
  pending := fun gpio => by
    rw [h'.pending gpio, h.pending gpio, Bool.or_assoc]
    simp
  accessed := by rw [h'.accessed, h.accessed, List.append_assoc]
  called := h'.called.trans h.called

/-- Acknowledging a gpio writes its bit to `int_clear`. -/
theorem intClear_msmGpioIrqAck (gpio : ℕ) (s : Gpio) :
    (msmGpioIrqAck gpio s).intClear = s.intClear ++ (findGpio gpio).toList := by
  unfold msmGpioIrqAck msmGpioUpdateBothEdgeDetect msmGpioIrqClear
  cases findGpio gpio with
  | none => exact (List.append_nil _).symm
  | some found => rfl

theorem marks_ackAndMark (s : IsrState H) (gpio : ℕ) : Marks s (ackAndMark s gpio) [gpio] where
  intClear := by
    rw [List.flatMap_singleton]
    exact intClear_msmGpioIrqAck gpio s.gpio
  handler := fun g => by
    show (Function.update s.gpioIrqHandlers gpio _ g).handler = _
    by_cases h : g = gpio
    · rw [h, Function.update_self]
    · rw [Function.update_of_ne h]
  pending := fun g => by
    show (Function.update s.gpioIrqHandlers gpio _ g).pending = _
    by_cases h : g = gpio
    · rw [h, Function.update_self]
      simp
    · rw [Function.update_of_ne h]
      simp [h]
  accessed := rfl
  called := rfl

theorem marks_foldl_ackAndMark (gpios : List ℕ) (s : IsrState H) :
    Marks s (gpios.foldl ackAndMark s) gpios := by
  induction gpios generalizing s with
  | nil => exact Marks.refl s
  | cons gpio gpios ih => exact (marks_ackAndMark s gpio).trans (ih (ackAndMark s gpio))

/-- The gpios that the scan of a bank finds pending and enabled. -/
def hits (r : Bank) (start : ℕ) : List ℕ :=
  ((List.range 32).filter fun j =>
    Word.flag (r.intEn &&& r.intStatus 0) (Word.one (UInt32.ofNat j))).map (start + ·)

/-- The state once the status of a bank was read. -/
def statusRead (s : IsrState H) (i : Fin 8) : IsrState H :=
  { s with gpio := s.gpio.updateBank i fun r =>
    { r with intStatus := fun n => r.intStatus (n + 1) } }

/-- **The scan of a bank** acknowledges and marks what it finds pending and
enabled. -/
theorem scanBank_eq (s : IsrState H) (i : Fin 8) :
    scanBank s i
      = (hits (s.gpio.banks i) (gpioRegs i).start).foldl ackAndMark (statusRead s i) := by
  have hen : ((statusRead s i).gpio.banks i).intEn = (s.gpio.banks i).intEn := by
    show (Function.update s.gpio.banks i _ i).intEn = _
    rw [Function.update_self]
  unfold hits
  rw [List.foldl_map, List.foldl_filter, ← hen]
  rfl

theorem marks_scanBank (s : IsrState H) (i : Fin 8) :
    Marks s (scanBank s i) (hits (s.gpio.banks i) (gpioRegs i).start) := by
  have hmarks := marks_foldl_ackAndMark (hits (s.gpio.banks i) (gpioRegs i).start) (statusRead s i)
  rw [← scanBank_eq] at hmarks
  exact ⟨hmarks.intClear, hmarks.handler, hmarks.pending, hmarks.accessed, hmarks.called⟩

/-- What the scan of a bank finds lies in the bank. -/
def Inside (r : Bank) (i : Fin 8) : Prop := ∀ gpio ∈ hits r (gpioRegs i).start, ∃ j, At gpio i j

/-- Acknowledging a gpio of one bank leaves the registers of the others. -/
theorem banks_msmGpioIrqAck_of_ne {gpio j : ℕ} {i k : Fin 8} (h : At gpio i j) (hk : k ≠ i)
    (s : Gpio) : (msmGpioIrqAck gpio s).banks k = s.banks k := by
  unfold msmGpioIrqAck msmGpioUpdateBothEdgeDetect msmGpioIrqClear
  rw [h.findGpio]
  exact Function.update_of_ne hk _ _

theorem banks_foldl_ackAndMark_of_ne {i k : Fin 8} (hk : k ≠ i) {gpios : List ℕ}
    (h : ∀ gpio ∈ gpios, ∃ j, At gpio i j) (s : IsrState H) :
    (gpios.foldl ackAndMark s).gpio.banks k = s.gpio.banks k := by
  induction gpios generalizing s with
  | nil => rfl
  | cons gpio gpios ih =>
    obtain ⟨j, hat⟩ := h gpio List.mem_cons_self
    exact (ih (fun g hg => h g (List.mem_cons_of_mem gpio hg)) (ackAndMark s gpio)).trans
      (banks_msmGpioIrqAck_of_ne hat hk s.gpio)

/-- The scan of a bank leaves the registers of the others. -/
theorem banks_scanBank_of_ne {s : IsrState H} {i k : Fin 8} (hk : k ≠ i)
    (h : Inside (s.gpio.banks i) i) : (scanBank s i).gpio.banks k = s.gpio.banks k := by
  rw [scanBank_eq, banks_foldl_ackAndMark_of_ne hk h]
  exact Function.update_of_ne hk _ _

/-- **The loop over the banks** acknowledges and marks what is pending and enabled
in each. -/
theorem marks_foldl_scanBank {banks : List (Fin 8)} (hnodup : banks.Nodup) {s : IsrState H}
    (h : ∀ i ∈ banks, Inside (s.gpio.banks i) i) :
    Marks s (banks.foldl scanBank s)
      (banks.flatMap fun i => hits (s.gpio.banks i) (gpioRegs i).start) := by
  induction banks generalizing s with
  | nil => exact Marks.refl s
  | cons i banks ih =>
    obtain ⟨hi, hnodup⟩ := List.nodup_cons.mp hnodup
    have hframe : ∀ k ∈ banks, (scanBank s i).gpio.banks k = s.gpio.banks k := fun k hk =>
      banks_scanBank_of_ne (fun hki => hi (hki ▸ hk)) (h i List.mem_cons_self)
    have hrest := ih hnodup (s := scanBank s i) fun k hk => by
      rw [hframe k hk]
      exact h k (List.mem_cons_of_mem i hk)
    have hhits : (banks.flatMap fun k => hits ((scanBank s i).gpio.banks k) (gpioRegs k).start)
        = banks.flatMap fun k => hits (s.gpio.banks k) (gpioRegs k).start := by
      refine List.flatMap_congr fun k hk => ?_
      rw [hframe k hk]
    rw [hhits] at hrest
    exact (marks_scanBank s i).trans hrest

/-! ## What the loop over the table does -/

/-- **The handlers of the marked entries of a list were called**, and the marks
taken off. -/
structure Dispatches (s s' : IsrState H) (entries : List ℕ) : Prop where
  gpio : s'.gpio = s.gpio
  handler : ∀ i, (s'.gpioIrqHandlers i).handler = (s.gpioIrqHandlers i).handler
  pending : ∀ i, (s'.gpioIrqHandlers i).pending
    = ((s.gpioIrqHandlers i).pending && decide (i ∉ entries))
  accessed : s'.accessed = s.accessed ++ entries
  called : s'.called = s.called
    ++ (entries.filter fun i => (s.gpioIrqHandlers i).pending).flatMap fun i =>
      (s.gpioIrqHandlers i).handler.toList

theorem dispatches_dispatchEntry (s : IsrState H) (i : ℕ) :
    Dispatches s (dispatchEntry s i) [i] := by
  unfold dispatchEntry
  split
  · next hpending =>
    refine ⟨rfl, fun k => ?_, fun k => ?_, rfl, ?_⟩
    · show (Function.update s.gpioIrqHandlers i _ k).handler = _
      by_cases hk : k = i
      · rw [hk, Function.update_self]
      · rw [Function.update_of_ne hk]
    · show (Function.update s.gpioIrqHandlers i _ k).pending = _
      by_cases hk : k = i
      · rw [hk, Function.update_self]
        simp
      · rw [Function.update_of_ne hk]
        simp [hk]
    · simp [hpending]
  · next hpending =>
    refine ⟨rfl, fun k => rfl, fun k => ?_, rfl, by simp [hpending]⟩
    by_cases hk : k = i
    · simp [hk, hpending]
    · simp [hk]

theorem dispatches_foldl {entries : List ℕ} (hnodup : entries.Nodup) (s : IsrState H) :
    Dispatches s (entries.foldl dispatchEntry s) entries := by
  induction entries generalizing s with
  | nil => exact ⟨rfl, fun _ => rfl, fun _ => by simp, by simp, by simp⟩
  | cons i entries ih =>
    obtain ⟨hi, hnodup⟩ := List.nodup_cons.mp hnodup
    have hone := dispatches_dispatchEntry s i
    have hrest := ih hnodup (dispatchEntry s i)
    -- the entries after the first are as they were before it
    have hsame : ∀ k ∈ entries, ((dispatchEntry s i).gpioIrqHandlers k).pending
        = (s.gpioIrqHandlers k).pending := by
      intro k hk
      have hne : k ≠ i := fun h => hi (h ▸ hk)
      rw [hone.pending k]
      simp [hne]
    refine ⟨hrest.gpio.trans hone.gpio, fun k => (hrest.handler k).trans (hone.handler k),
      fun k => ?_, ?_, ?_⟩
    · show ((entries.foldl dispatchEntry (dispatchEntry s i)).gpioIrqHandlers k).pending = _
      rw [hrest.pending k, hone.pending k, Bool.and_assoc]
      simp
    · show (entries.foldl dispatchEntry (dispatchEntry s i)).accessed = _
      rw [hrest.accessed, hone.accessed, List.append_assoc]
      rfl
    · show (entries.foldl dispatchEntry (dispatchEntry s i)).called = _
      have hhandler : (fun k => ((dispatchEntry s i).gpioIrqHandlers k).handler.toList)
          = fun k => (s.gpioIrqHandlers k).handler.toList :=
        funext fun k => congrArg Option.toList (hone.handler k)
      rw [hrest.called, hone.called, List.filter_congr hsame, hhandler, List.append_assoc,
        ← List.flatMap_append, ← List.filter_append]
      rfl

/-! ## What is pending and enabled -/

/-- The gpios known are those of the banks. -/
theorem knownGpios_eq :
    knownGpios = (List.finRange 8).flatMap fun i =>
      (List.range ((gpioRegs i).last + 1 - (gpioRegs i).start)).map ((gpioRegs i).start + ·) := by
  decide +kernel

/-- A gpio of a bank is pending and enabled when its bits are. -/
theorem active_at {gpio j : ℕ} {i : Fin 8} (h : At gpio i j) (banks : Fin 8 → Bank) :
    active banks gpio
      = Word.flag ((banks i).intEn &&& (banks i).intStatus 0) (Word.one (UInt32.ofNat j)) := by
  unfold active
  rw [h.findGpio]

/-- A bit that the scan of a bank finds is that of a gpio of the bank. -/
theorem BitsInside.at {banks : Fin 8 → Bank} (h : BitsInside banks) {i : Fin 8} {j : ℕ}
    (hj : j < 32)
    (hflag : Word.flag ((banks i).intEn &&& (banks i).intStatus 0) (Word.one (UInt32.ofNat j))
      = true) : At ((gpioRegs i).start + j) i j := by
  rw [flag_one_ofNat _ hj, Word.bit_and, Bool.and_eq_true] at hflag
  exact ⟨rfl, h i j (.inl hflag.2)⟩

theorem BitsInside.inside {banks : Fin 8 → Bank} (h : BitsInside banks) (i : Fin 8) :
    Inside (banks i) i := by
  intro gpio hgpio
  unfold hits at hgpio
  obtain ⟨j, hj, rfl⟩ := List.mem_map.mp hgpio
  obtain ⟨hmem, hflag⟩ := List.mem_filter.mp hj
  exact ⟨j, h.at (List.mem_range.mp hmem) hflag⟩

/-- The scan of a bank finds what is pending and enabled in it. -/
theorem BitsInside.hits_eq {banks : Fin 8 → Bank} (h : BitsInside banks) (i : Fin 8) :
    hits (banks i) (gpioRegs i).start
      = ((List.range ((gpioRegs i).last + 1 - (gpioRegs i).start)).map
          ((gpioRegs i).start + ·)).filter (active banks) := by
  have hwidth := (gpioRegs_last i).1
  obtain ⟨past, hsum⟩ : ∃ past, 32 = (gpioRegs i).last + 1 - (gpioRegs i).start + past :=
    ⟨32 - ((gpioRegs i).last + 1 - (gpioRegs i).start), by omega⟩
  unfold hits
  rw [List.filter_map, hsum, List.range_add, List.filter_append]
  have hpast : ((List.range past).map
        ((gpioRegs i).last + 1 - (gpioRegs i).start + ·)).filter (fun j =>
          Word.flag ((banks i).intEn &&& (banks i).intStatus 0) (Word.one (UInt32.ofNat j)))
      = [] := by
    refine List.filter_eq_nil_iff.mpr fun j hj hflag => ?_
    obtain ⟨l, hl, rfl⟩ := List.mem_map.mp hj
    have hlt := List.mem_range.mp hl
    have hlast := (h.at (by omega) hflag).2
    omega
  rw [hpast, List.append_nil]
  refine congrArg _ (List.filter_congr fun j hj => ?_)
  have hlt := List.mem_range.mp hj
  exact (active_at ⟨rfl, by omega⟩ banks).symm

/-- **What the scans find** is what is pending and enabled. -/
theorem BitsInside.flatMap_hits {banks : Fin 8 → Bank} (h : BitsInside banks) :
    ((List.finRange 8).flatMap fun i => hits (banks i) (gpioRegs i).start)
      = activeGpios banks := by
  unfold activeGpios
  rw [knownGpios_eq, List.filter_flatMap]
  exact List.flatMap_congr fun i _ => h.hits_eq i

/-- What is pending and enabled, the last gpio apart. -/
theorem activeGpios_eq (banks : Fin 8 → Bank) :
    activeGpios banks
      = (List.range nrMsmGpios).filter (active banks)
        ++ if active banks 164 then [164] else [] := by
  unfold activeGpios
  have hlast : knownGpios = List.range nrMsmGpios ++ [164] := List.range_succ
  rw [hlast, List.filter_append, List.filter_singleton, Bool.cond_eq_ite]

theorem mem_activeGpios {banks : Fin 8 → Bank} {gpio : ℕ} (h : gpio < nrMsmGpios) :
    gpio ∈ activeGpios banks ↔ active banks gpio = true := by
  have hknown : gpio ∈ knownGpios := List.mem_range.mpr (Nat.lt_succ_of_lt h)
  simp [activeGpios, hknown]

/-! ## One interrupt -/

/-- No entry of the table is marked. -/
def NothingPending (s : IsrState H) : Prop :=
  ∀ i < nrMsmGpios, (s.gpioIrqHandlers i).pending = false

/-- **What an interrupt does**: it acknowledges what is pending and enabled,
touches the entries of these gpios and then the whole table, and calls the
handlers of those that are in the table. -/
structure Served (s s' : IsrState H) (banks : Fin 8 → Bank) : Prop where
  intClear : s'.gpio.intClear
    = s.gpio.intClear ++ (activeGpios banks).flatMap fun gpio => (findGpio gpio).toList
  called : s'.called
    = s.called ++ ((List.range nrMsmGpios).filter (active banks)).flatMap fun gpio =>
      (s.gpioIrqHandlers gpio).handler.toList
  accessed : s'.accessed = s.accessed ++ (activeGpios banks ++ List.range nrMsmGpios)
  nothingPending : NothingPending s'

/-- The state between the two loops. -/
def scanned (s : IsrState H) (banks : Fin 8 → Bank) : IsrState H :=
  (List.finRange 8).foldl scanBank { s with gpio := { s.gpio with banks := banks } }

theorem isrStep_msmGpioIsr (s : IsrState H) (banks : Fin 8 → Bank) :
    isrStep s (.msmGpioIsr banks) = (List.range nrMsmGpios).foldl dispatchEntry (scanned s banks) :=
  rfl

theorem marks_scanned {banks : Fin 8 → Bank} (h : BitsInside banks) (s : IsrState H) :
    Marks s (scanned s banks) (activeGpios banks) := by
  have hmarks := marks_foldl_scanBank (List.nodup_finRange 8)
    (s := { s with gpio := { s.gpio with banks := banks } }) fun i _ => h.inside i
  rw [h.flatMap_hits] at hmarks
  exact ⟨hmarks.intClear, hmarks.handler, hmarks.pending, hmarks.accessed, hmarks.called⟩

theorem served_msmGpioIsr {s : IsrState H} {banks : Fin 8 → Bank} (hs : NothingPending s)
    (h : BitsInside banks) : Served s (isrStep s (.msmGpioIsr banks)) banks := by
  have hmarks := marks_scanned h s
  have hdispatch := dispatches_foldl (List.nodup_range (n := nrMsmGpios)) (scanned s banks)
  rw [← isrStep_msmGpioIsr] at hdispatch
  -- before the interrupt nothing was marked, so the marks are those of the scan
  have hmarked : ∀ i ∈ List.range nrMsmGpios,
      ((scanned s banks).gpioIrqHandlers i).pending = active banks i := by
    intro i hi
    rw [hmarks.pending i, hs i (List.mem_range.mp hi), Bool.false_or, Bool.eq_iff_iff,
      decide_eq_true_iff]
    exact mem_activeGpios (List.mem_range.mp hi)
  refine ⟨?_, ?_, ?_, ?_⟩
  · rw [hdispatch.gpio, hmarks.intClear]
  · have hhandler : (fun i => ((scanned s banks).gpioIrqHandlers i).handler.toList)
        = fun i => (s.gpioIrqHandlers i).handler.toList :=
      funext fun i => congrArg Option.toList (hmarks.handler i)
    rw [hdispatch.called, hmarks.called, List.filter_congr hmarked, hhandler]
  · rw [hdispatch.accessed, hmarks.accessed, List.append_assoc]
  · intro i hi
    rw [hdispatch.pending i, decide_eq_false (not_not_intro (List.mem_range.mpr hi)),
      Bool.and_false]

/-- A registration marks nothing. -/
theorem nothingPending_register {s : IsrState H} (hs : NothingPending s) (gpio : ℕ)
    (handler : Option H) : NothingPending (registerGpioIntHandler gpio handler s) := by
  intro i hi
  show (Function.update s.gpioIrqHandlers gpio _ i).pending = false
  by_cases h : i = gpio
  · subst h
    rw [Function.update_self]
    exact hs i hi
  · rw [Function.update_of_ne h]
    exact hs i hi

/-- Nothing is marked between the calls. -/
theorem nothingPending_isrStep {s : IsrState H} {call : IsrCall H} (hcall : call.Known)
    (hs : NothingPending s) : NothingPending (isrStep s call) := by
  cases call with
  | registerGpioIntHandler gpio handler => exact nothingPending_register hs gpio handler
  | msmGpioIsr banks => exact (served_msmGpioIsr hs hcall).nothingPending

/-- **A call is exact when it leaves the last gpio alone**, and only then. -/
theorem dispatchExact_iff {s : IsrState H} {call : IsrCall H} (hcall : call.Known)
    (hs : NothingPending s) : DispatchExact s call ↔ call.SparesLast := by
  cases call with
  | registerGpioIntHandler gpio handler =>
    have hle : gpio ≤ 164 := by
      by_contra hgt
      have hnone : findGpio gpio = none := findGpio_eq_none (by omega)
      exact absurd hcall (by simp [IsrCall.Known, hnone])
    constructor
    · rintro ⟨-, -, indices, haccessed, hrange⟩ rfl
      have hindices : [164] = indices := List.append_cancel_left haccessed
      exact absurd (hrange 164 (by rw [← hindices]; exact List.mem_singleton_self 164)) (by decide)
    · intro hne
      have hlt : gpio < nrMsmGpios := Nat.lt_of_le_of_ne hle hne
      refine ⟨nofun, nofun, [gpio], rfl, fun i hi => ?_⟩
      rw [List.mem_singleton.mp hi]
      exact hlt
  | msmGpioIsr banks =>
    have hserved := served_msmGpioIsr hs hcall
    constructor
    · rintro ⟨-, -, indices, haccessed, hrange⟩
      have hindices := List.append_cancel_left (hserved.accessed.symm.trans haccessed)
      by_contra hactive
      have hlast : 164 ∈ activeGpios banks := by
        rw [activeGpios_eq, if_pos (by simpa [IsrCall.SparesLast] using hactive)]
        exact List.mem_append_right _ (List.mem_singleton_self 164)
      exact absurd (hrange 164 (by rw [← hindices]; exact List.mem_append_left _ hlast)) (by decide)
    · intro hspares
      have hlast : active banks 164 = false := hspares
      have hactive : activeGpios banks = (List.range nrMsmGpios).filter (active banks) := by
        rw [activeGpios_eq, hlast]
        exact List.append_nil _
      refine ⟨?_, ?_, activeGpios banks ++ List.range nrMsmGpios, hserved.accessed, ?_⟩
      · rintro banks' ⟨⟩
        exact hserved.intClear
      · rintro banks' ⟨⟩
        rw [hactive]
        exact hserved.called
      · intro i hi
        rw [hactive] at hi
        rcases List.mem_append.mp hi with hi | hi
        · exact List.mem_range.mp (List.mem_filter.mp hi).1
        · exact List.mem_range.mp hi

/-- **When gpio interrupts are dispatched exactly.** Over any registrations for
gpios that `find_gpio` knows, and any interrupts whose status and enable
registers have no bit set past the last gpio of their bank: every interrupt
acknowledges and dispatches exactly what is pending and enabled, and every access
is to an entry of the table, precisely when no call registers a handler for gpio
164 and no interrupt finds it pending and enabled. -/
theorem gpio_dispatch_exact_iff (banks : Fin 8 → Bank) (calls : List (IsrCall H))
    (hcalls : ∀ call ∈ calls, call.Known) :
    Run.Along isrStep DispatchExact (IsrState.init banks) calls
      ↔ ∀ call ∈ calls, call.SparesLast :=
  (Run.along_congr_inv_mem (I := NothingPending)
    (fun _ call hcall hs => nothingPending_isrStep (hcalls call hcall) hs)
    (fun _ call hcall hs => dispatchExact_iff (hcalls call hcall) hs)
    (fun _ _ => rfl)).trans (Run.along_input_iff _ calls)

/-- The handler of the SD card's gpio, 153, is registered, and called when its bit
is set. -/
theorem gpio_dispatch_exact_sd_status :
    let bank : Bank := ⟨1, 0, 0, fun _ => 0, fun _ => 1⟩
    let calls : List (IsrCall Unit) :=
      [.registerGpioIntHandler 153 (some ()), .msmGpioIsr fun _ => bank]
    (∀ call ∈ calls, call.Known)
      ∧ Run.Along isrStep DispatchExact (IsrState.init fun _ => bank) calls := by
  have hcalls : ∀ call ∈ ([.registerGpioIntHandler 153 (some ()),
      .msmGpioIsr fun _ => ⟨1, 0, 0, fun _ => 0, fun _ => 1⟩] : List (IsrCall Unit)),
      call.Known := by
    intro call hcall
    simp only [List.mem_cons, List.not_mem_nil, or_false] at hcall
    rcases hcall with rfl | rfl
    · show (findGpio 153).isSome = true
      decide
    · intro i j hbit
      have hone : (1 : UInt32) = Word.one 0 := by decide
      have hj : j = 0 := by simpa [hone] using hbit
      subst hj
      have hstart : ∀ i : Fin 8, (gpioRegs i).start + 0 ≤ (gpioRegs i).last := by decide
      exact hstart i
  refine ⟨hcalls, (gpio_dispatch_exact_iff _ _ hcalls).mpr ?_⟩
  intro call hcall
  simp only [List.mem_cons, List.not_mem_nil, or_false] at hcall
  rcases hcall with rfl | rfl
  · show (153 : ℕ) ≠ 164
    decide
  · show active _ 164 = false
    decide

/-- A handler for the last gpio is written past the table. -/
theorem gpio_last_past_table :
    ¬ ∀ (banks : Fin 8 → Bank) (calls : List (IsrCall Unit)), (∀ call ∈ calls, call.Known) →
      Run.Along isrStep DispatchExact (IsrState.init banks) calls := by
  intro h
  have hexact := h (fun _ => ⟨0, 0, 0, fun _ => 0, fun _ => 0⟩)
    [.registerGpioIntHandler 164 (some ())] fun call hcall => by
      rw [List.mem_singleton.mp hcall]
      show (findGpio 164).isSome = true
      decide
  obtain ⟨indices, haccessed, hrange⟩ := hexact.1.inRange
  have hindices : [164] = indices := haccessed
  exact absurd (hrange 164 (by rw [← hindices]; exact List.mem_singleton_self 164)) (by decide)

end MsmGpio
