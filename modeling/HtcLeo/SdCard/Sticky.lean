import HtcLeo.Lib.Run
import HtcLeo.SdCard.ReadBlock

/-!
# Reads after failed reads

A history of block reads, each with the behaviour of the device during it:
the card, the response registers and the status words. Between two reads the
controller keeps its data errors and nothing else a read would notice
(`readABlock_eq`). Only the path of `check_clear_read_status` that succeeds
writes the data errors to `MCI_CLEAR`; every path that fails returns before.
A read that succeeds clears only the errors that are set by then: one that the
last words of its wait show stays. `reads_independent_iff` says that the data
errors left set are all that makes one read depend on those before it.
-/

namespace SdCardDxe

/-- **How the device behaves during a read**: the card behind the controller,
what its response registers take, and the status words it shows. -/
structure Behaviour where
  card : Card
  responses : List Response
  ticks : List UInt32

/-- The controller at the start of a read during which the device behaves so. -/
def Controller.under (c : Controller) (device : Behaviour) : Controller :=
  { c with
    card := device.card
    responses := device.responses
    ticks := device.ticks }

/-- A call of `read_a_block`, and the device during it. -/
structure ReadCall where
  blockNumber : UInt32
  device : Behaviour

/-- The result of a read: success and the words stored, or `none` if the read
was still waiting when the device stopped. -/
def readResult (highCapacity : Bool) (c : Controller) (r : ReadCall) :
    Option (Bool × List UInt32) :=
  (readABlock highCapacity r.blockNumber (c.under r.device)).1

/-- The controller a read leaves. -/
def readStep (highCapacity : Bool) (c : Controller) (r : ReadCall) : Controller :=
  (readABlock highCapacity r.blockNumber (c.under r.device)).2

/-- The card delivers the block and raises no error, whatever it shows
afterwards. -/
def ReadCall.Healthy (r : ReadCall) : Prop :=
  ∃ l rest, r.device.ticks = l ++ rest ∧ Delivers l

/-- **A read is independent of those before it**: whatever the device does
during it, its result is the one it would have on a controller just reset,
and a success if the device delivers. -/
def Independent (highCapacity : Bool) (c : Controller) : Prop :=
  ∀ r : ReadCall, readResult highCapacity c r = readResult highCapacity .reset r
    ∧ (r.Healthy → ∃ words, readResult highCapacity c r = some (true, words))

/-- Two controllers with the same data errors set read alike. -/
theorem readResult_congr (highCapacity : Bool) {c d : Controller}
    (h : c.errors = d.errors) (r : ReadCall) :
    readResult highCapacity c r = readResult highCapacity d r := by
  have hloaded : ∀ address,
      (c.under r.device).loaded address = (d.under r.device).loaded address := by
    intro address
    unfold Controller.loaded Controller.under
    rw [h]
  unfold readResult
  rw [readABlock_eq, readABlock_eq, hloaded]

/-- A healthy read on a controller with no data error set succeeds. -/
theorem readResult_of_healthy (highCapacity : Bool) {c : Controller}
    (hc : c.errors = .none) {r : ReadCall} (hr : r.Healthy) :
    ∃ words, readResult highCapacity c r = some (true, words) := by
  obtain ⟨l, rest, ht, hl⟩ := hr
  obtain ⟨words, c', hread, -, -⟩ := readABlock_of_delivers highCapacity r.blockNumber hl
    (c := c.under r.device) ht hc
  exact ⟨words, congrArg Prod.fst hread⟩

/-- No read succeeds on a controller with a data error set. -/
theorem readResult_of_raised (highCapacity : Bool) {c : Controller}
    (hc : c.errors.raised = true) (r : ReadCall) (words : List UInt32) :
    readResult highCapacity c r ≠ some (true, words) := by
  intro h
  have hread : readABlock highCapacity r.blockNumber (c.under r.device)
      = (some (true, words), readStep highCapacity c r) := Prod.ext h rfl
  exact absurd (readABlock_of_raised (c := c.under r.device) hc hread) (by simp)

/-- A healthy read of an empty card. -/
def promptRead : ReadCall := ⟨0, ⟨Controller.reset.card, [], promptTicks⟩⟩

theorem promptRead_healthy : promptRead.Healthy :=
  ⟨promptTicks, [], (List.append_nil _).symm, delivers_promptTicks⟩

/-- **A read is independent exactly when it finds no data error set.** -/
theorem independent_iff (highCapacity : Bool) (c : Controller) :
    Independent highCapacity c ↔ c.errors = .none := by
  constructor
  · intro h
    obtain ⟨words, hsuccess⟩ := (h promptRead).2 promptRead_healthy
    rw [← DataErrors.raised_eq_false_iff, Bool.eq_false_iff]
    exact fun hraised => readResult_of_raised highCapacity hraised promptRead words hsuccess
  · exact fun hc r => ⟨readResult_congr highCapacity hc r,
      readResult_of_healthy highCapacity hc⟩

/-- **When the reads of a history are independent of one another**: exactly
when every read of it finds no data error set, whichever read before it, failed
or not, has left one. -/
theorem reads_independent_iff (highCapacity : Bool) (c : Controller) (l : List ReadCall) :
    Run.Along (readStep highCapacity) (fun c _ => Independent highCapacity c) c l
      ↔ Run.Along (readStep highCapacity) (fun c _ => c.errors = .none) c l :=
  Run.along_congr_mem c l fun c _ _ => independent_iff highCapacity c

/-- A read the card answers, after which the data times out. -/
def timedOutRead : ReadCall :=
  ⟨0, ⟨Controller.reset.card, [], [mciStatusCmdResponseEnd, 0, mciStatusDataTimeout]⟩⟩

/-- A data timeout leaves its bit set, and the healthy read after it fails. -/
theorem read_after_timeout_fails :
    promptRead.Healthy
      ∧ (∀ words, readResult false (readStep false .reset timedOutRead) promptRead
        ≠ some (true, words))
      ∧ ¬ Run.Along (readStep false) (fun c _ => Independent false c) .reset
        [timedOutRead, promptRead] := by
  have hfails : ∀ words, readResult false (readStep false .reset timedOutRead) promptRead
      ≠ some (true, words) :=
    readResult_of_raised false (by decide) promptRead
  refine ⟨promptRead_healthy, hfails, fun h => ?_⟩
  obtain ⟨words, hsuccess⟩ := (h.2.1 promptRead).2 promptRead_healthy
  exact hfails words hsuccess

/-! ## Histories without errors -/

/-- A healthy read that finds no data error set leaves none. -/
theorem errors_readStep_of_healthy (highCapacity : Bool) {c : Controller}
    (hc : c.errors = .none) {r : ReadCall} (hr : r.Healthy) :
    (readStep highCapacity c r).errors = .none := by
  obtain ⟨l, rest, ht, hl⟩ := hr
  obtain ⟨words, c', hread, -, herrors⟩ := readABlock_of_delivers highCapacity r.blockNumber hl
    (c := c.under r.device) ht hc
  unfold readStep
  rw [hread]
  exact herrors

/-- **A history of healthy reads from a clean controller succeeds throughout.** -/
theorem healthy_reads_succeed (highCapacity : Bool) {c : Controller} (hc : c.errors = .none)
    {l : List ReadCall} (hl : ∀ r ∈ l, r.Healthy) :
    Run.Along (readStep highCapacity)
      (fun c r => ∃ words, readResult highCapacity c r = some (true, words)) c l := by
  induction l generalizing c with
  | nil => trivial
  | cons r l ih =>
    have hr := hl r List.mem_cons_self
    exact ⟨readResult_of_healthy highCapacity hc hr,
      ih (errors_readStep_of_healthy highCapacity hc hr)
        fun r' hr' => hl r' (List.mem_cons_of_mem r hr')⟩

end SdCardDxe
