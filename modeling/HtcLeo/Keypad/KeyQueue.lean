import HtcLeo.Efi
import HtcLeo.Lib.Ring
import HtcLeo.Lib.Run

/-!
# The key queue

`EFI_KEY_QUEUE` is a ring of 256 keys between the indices `Head` and `Tail`.
`PushEfikeyBufTail` makes room on a full ring by popping the oldest key, so
the queue always holds the newest 255 keys that were not popped yet; this is
`efiKeyQueue_refines_fifo`, the refinement of a first-in first-out queue by
the ring, over every sequence of operations.
-/

namespace Keypad

/-! ## The ring -/

/-- `KEYPAD_EFI_KEY_MAX_COUNT`. -/
def keypadEfiKeyMaxCount : UInt32 := 256

/-- `EFI_KEY_QUEUE`. Cells from `KEYPAD_EFI_KEY_MAX_COUNT` on lie outside the
array. -/
structure EfiKeyQueue where
  buffer : ℕ → EfiKeyData
  head : UInt32
  tail : UInt32

/-- The queue in a console that was allocated with `AllocateZeroPool`. -/
def EfiKeyQueue.initial : EfiKeyQueue := ⟨fun _ => .zero, 0, 0⟩

/-- `IsEfikeyBufEmpty`. -/
def isEfikeyBufEmpty (queue : EfiKeyQueue) : Bool := queue.head = queue.tail

/-- `PopEfikeyBufHead`, with the key stored to `KeyData`; a `NULL` `KeyData`
is a caller that drops it. -/
def popEfikeyBufHead (queue : EfiKeyQueue) : EfiStatus × Option EfiKeyData × EfiKeyQueue :=
  if isEfikeyBufEmpty queue then (.efiNotReady, none, queue)
  else (.efiSuccess, some (queue.buffer queue.head.toNat),
    { queue with head := (queue.head + 1) % keypadEfiKeyMaxCount })

/-- `PushEfikeyBufTail`. -/
def pushEfikeyBufTail (queue : EfiKeyQueue) (keyData : EfiKeyData) : EfiKeyQueue :=
  let queue :=
    if (queue.tail + 1) % keypadEfiKeyMaxCount = queue.head then
      -- the queue is full, pop the one from head
      (popEfikeyBufHead queue).2.2
    else queue
  { queue with
    buffer := Function.update queue.buffer queue.tail.toNat keyData
    tail := (queue.tail + 1) % keypadEfiKeyMaxCount }

/-- What `InitKeypad` does to a queue. -/
def EfiKeyQueue.reset (queue : EfiKeyQueue) : EfiKeyQueue := { queue with head := 0, tail := 0 }

/-! ## The keys in a queue -/

/-- **The ring holds the keys**, oldest first. -/
def EfiKeyQueue.Holds (queue : EfiKeyQueue) (keys : List EfiKeyData) : Prop :=
  Ring.Holds 256 queue.buffer queue.head.toNat queue.tail.toNat keys

/-- The next index, on numbers. -/
theorem toNat_next (i : UInt32) :
    ((i + 1) % keypadEfiKeyMaxCount).toNat = (i.toNat + 1) % 256 := by
  rw [UInt32.toNat_mod, UInt32.toNat_add]
  show (i.toNat + 1) % 4294967296 % 256 = (i.toNat + 1) % 256
  omega

/-- Both indices inside the ring: it holds some keys. -/
theorem EfiKeyQueue.exists_holds {queue : EfiKeyQueue} (hh : queue.head < keypadEfiKeyMaxCount)
    (ht : queue.tail < keypadEfiKeyMaxCount) : ∃ keys, queue.Holds keys :=
  Ring.Holds.exists_of_lt queue.buffer (UInt32.lt_iff_toNat_lt.mp hh)
    (UInt32.lt_iff_toNat_lt.mp ht)

namespace EfiKeyQueue

variable {queue : EfiKeyQueue} {keys : List EfiKeyData}

/-- A queue that was reset is empty. -/
theorem holds_reset (queue : EfiKeyQueue) : queue.reset.Holds [] :=
  Ring.Holds.nil (show 0 < 256 by decide) queue.buffer

theorem holds_initial : initial.Holds [] := holds_reset initial

/-- The indices of a queue stay inside the array. -/
theorem Holds.index_lt (h : queue.Holds keys) :
    queue.head < keypadEfiKeyMaxCount ∧ queue.tail < keypadEfiKeyMaxCount :=
  ⟨UInt32.lt_iff_toNat_lt.mpr h.head_lt, UInt32.lt_iff_toNat_lt.mpr h.tail_lt⟩

/-- **The emptiness test answers for the keys held.** -/
theorem Holds.isEfikeyBufEmpty_eq (h : queue.Holds keys) :
    isEfikeyBufEmpty queue = keys.isEmpty := by
  have hiff : queue.head = queue.tail ↔ keys = [] :=
    UInt32.toNat_inj.symm.trans h.head_eq_tail_iff
  unfold isEfikeyBufEmpty
  cases keys with
  | nil => exact decide_eq_true (hiff.mpr rfl)
  | cons key keys => exact decide_eq_false fun he => by simpa using hiff.mp he

/-- Nothing is popped from an empty queue. -/
theorem Holds.pop_nil (h : queue.Holds []) :
    popEfikeyBufHead queue = (.efiNotReady, none, queue) := by
  unfold popEfikeyBufHead
  exact if_pos h.isEfikeyBufEmpty_eq

/-- **A pop takes the oldest key.** -/
theorem Holds.pop_cons {key : EfiKeyData} (h : queue.Holds (key :: keys)) :
    ∃ queue', popEfikeyBufHead queue = (.efiSuccess, some key, queue') ∧ queue'.Holds keys := by
  refine ⟨{ queue with head := (queue.head + 1) % keypadEfiKeyMaxCount }, ?_, ?_⟩
  · unfold popEfikeyBufHead
    rw [if_neg (by simp [h.isEfikeyBufEmpty_eq]), h.front]
  · show Ring.Holds 256 queue.buffer _ queue.tail.toNat keys
    rw [toNat_next]
    exact h.pop

/-- **A push adds the key**, and drops the oldest one of a full queue. -/
theorem Holds.push (h : queue.Holds keys) (key : EfiKeyData) :
    (pushEfikeyBufTail queue key).Holds (Ring.pushNewest 255 keys key) := by
  have hring := Ring.Holds.pushOver (by decide) h key
  have hfull : (queue.tail + 1) % keypadEfiKeyMaxCount = queue.head
      ↔ (queue.tail.toNat + 1) % 256 = queue.head.toNat := by
    rw [← UInt32.toNat_inj, toNat_next]
  by_cases hc : (queue.tail + 1) % keypadEfiKeyMaxCount = queue.head
  · rw [if_pos (hfull.mp hc)] at hring
    -- a full ring is not empty, so the pop inside the push moves the head
    have hne : isEfikeyBufEmpty queue = false := by
      have hlen := h.next_tail_eq_head_iff.mp (hfull.mp hc)
      rw [h.isEfikeyBufEmpty_eq]
      cases keys with
      | nil => simp at hlen
      | cons _ _ => rfl
    unfold pushEfikeyBufTail popEfikeyBufHead
    rw [if_pos hc, if_neg (by simp [hne])]
    show Ring.Holds 256 _ _ _ _
    rw [toNat_next, toNat_next]
    exact hring
  · rw [if_neg fun he => hc (hfull.mpr he)] at hring
    unfold pushEfikeyBufTail
    rw [if_neg hc]
    show Ring.Holds 256 _ _ _ _
    rw [toNat_next]
    exact hring

end EfiKeyQueue

/-! ## The refinement -/

/-- An operation on a queue. -/
inductive QueueOp where
  | push (keyData : EfiKeyData)
  | pop
  | isEmpty
  | reset

/-- What an operation answers. -/
inductive QueueAnswer where
  | done
  | popped (status : EfiStatus) (keyData : Option EfiKeyData)
  | empty (b : Bool)
  deriving DecidableEq

/-- An operation on the ring. -/
def EfiKeyQueue.answer (queue : EfiKeyQueue) : QueueOp → QueueAnswer × EfiKeyQueue
  | .push keyData => (.done, pushEfikeyBufTail queue keyData)
  | .pop => (.popped (popEfikeyBufHead queue).1 (popEfikeyBufHead queue).2.1,
      (popEfikeyBufHead queue).2.2)
  | .isEmpty => (.empty (isEfikeyBufEmpty queue), queue)
  | .reset => (.done, queue.reset)

/-- **The queue the ring stands for**: first in, first out, with the newest
255 keys. -/
def fifoAnswer (keys : List EfiKeyData) : QueueOp → QueueAnswer × List EfiKeyData
  | .push keyData => (.done, Ring.pushNewest 255 keys keyData)
  | .pop => match keys with
    | [] => (.popped .efiNotReady none, [])
    | key :: keys => (.popped .efiSuccess (some key), keys)
  | .isEmpty => (.empty keys.isEmpty, keys)
  | .reset => (.done, [])

/-- An operation on a ring answers for the keys it holds. -/
theorem EfiKeyQueue.answer_simulates (queue : EfiKeyQueue) (keys : List EfiKeyData)
    (op : QueueOp) (h : queue.Holds keys) :
    (queue.answer op).1 = (fifoAnswer keys op).1
      ∧ (queue.answer op).2.Holds (fifoAnswer keys op).2 := by
  cases op with
  | push keyData => exact ⟨rfl, h.push keyData⟩
  | pop =>
    cases keys with
    | nil =>
      unfold EfiKeyQueue.answer
      rw [h.pop_nil]
      exact ⟨rfl, h⟩
    | cons key keys =>
      obtain ⟨queue', hpop, hholds⟩ := h.pop_cons
      unfold EfiKeyQueue.answer
      rw [hpop]
      exact ⟨rfl, hholds⟩
  | isEmpty => exact ⟨congrArg QueueAnswer.empty h.isEfikeyBufEmpty_eq, h⟩
  | reset => exact ⟨rfl, queue.holds_reset⟩

/-- The queue never holds more than 255 keys. -/
theorem length_fifo_le (keys : List EfiKeyData) (h : keys.length ≤ 255) (op : QueueOp) :
    (fifoAnswer keys op).2.length ≤ 255 := by
  cases op with
  | push keyData => exact Ring.length_pushNewest_le (by decide) h keyData
  | pop =>
    cases keys with
    | nil => exact h
    | cons key keys => exact Nat.le_of_succ_le h
  | isEmpty => exact h
  | reset => exact Nat.zero_le _

/-- **`EFI_KEY_QUEUE` is a queue of the newest 255 keys.** Over any sequence
of operations from the initial state, the ring gives the answers of the
first-in first-out queue, which never holds more than 255 keys, and its
indices stay inside the array. -/
theorem efiKeyQueue_refines_fifo (ops : List QueueOp) :
    Run.outputs EfiKeyQueue.answer .initial ops = Run.outputs fifoAnswer [] ops
      ∧ (Run.run (Run.next fifoAnswer) [] ops).length ≤ 255
      ∧ (Run.run (Run.next EfiKeyQueue.answer) .initial ops).head < keypadEfiKeyMaxCount
      ∧ (Run.run (Run.next EfiKeyQueue.answer) .initial ops).tail < keypadEfiKeyMaxCount := by
  obtain ⟨houts, hholds⟩ := Run.outputs_eq_of_simulation
    EfiKeyQueue.answer_simulates EfiKeyQueue.holds_initial ops
  refine ⟨houts, ?_, hholds.index_lt⟩
  exact Run.inv_run (I := fun keys : List EfiKeyData => keys.length ≤ 255)
    (fun keys op h => length_fifo_le keys h op) ops (Nat.zero_le _)

end Keypad
