import HtcLeo.ConSplitter.TextIn

/-!
# Keys that wait

The keys `ConSplitterTextInReadKeyStrokeEx` has got and not returned are at the front of
the queue. A call that reads a key returns the first of them, and asks the keyboards
only when there is none. So there are never more than one for each keyboard, and the
queue, which has room for as many as the list of keyboards, does not overflow
(`textInReadKeyStrokeEx_spec`).

Of the whole keys keyboards give, none gets lost in a call, and none is got twice: what
a call takes from the keyboards it returns or leaves waiting, in their order
(`Taken`).
-/

namespace ConSplitter

open StatusCode Block

variable {δ : Type}

/-! ## What holds of a splitter -/

/-- **The lists of a splitter fit in their blocks.** -/
structure TextInSplitter.Fits (s : TextInSplitter δ) : Prop where
  consoles : s.currentNumberOfConsoles ≤ s.textInList.size
  exConsoles : s.currentNumberOfExConsoles ≤ s.textInExList.size
  queue : s.textInExList.size ≤ s.keyQueue.size
  keys : s.currentNumberOfKeys ≤ s.textInExList.size
  handles : ∀ notify ∈ s.notifyList, s.textInExList.size ≤ notify.notifyHandleList.size

/-- The keys that wait. -/
def TextInSplitter.waiting (s : TextInSplitter δ) : List EfiKeyData :=
  s.keyQueue.front s.currentNumberOfKeys

/-- The extended keyboards that are attached. -/
def TextInSplitter.exConsoles (s : TextInSplitter δ) : List δ :=
  s.textInExList.front s.currentNumberOfExConsoles

/-- The key a keyboard gave, if it is whole. -/
def TextInEvent.wholeKey : TextInEvent δ → Option EfiInputKey
  | .readKeyStroke _ key => if key.whole then some key else none
  | _ => none

/-- The whole keys the keyboards gave. -/
def wholeKeys (log : List (TextInEvent δ)) : List EfiInputKey :=
  log.filterMap TextInEvent.wholeKey

/-- The whole ones of the keys that wait. -/
def TextInSplitter.wholeWaiting (s : TextInSplitter δ) : List EfiInputKey :=
  (s.waiting.map EfiKeyData.key).filter EfiInputKey.whole

@[simp] theorem wholeKeys_append (log log' : List (TextInEvent δ)) :
    wholeKeys (log ++ log') = wholeKeys log ++ wholeKeys log' :=
  List.filterMap_append

theorem wholeKeys_read (textIn : δ) (key : EfiInputKey) :
    wholeKeys [TextInEvent.readKeyStroke textIn key] = [key].filter EfiInputKey.whole := by
  unfold wholeKeys TextInEvent.wholeKey
  cases hwhole : key.whole with
  | true => simp [hwhole]
  | false => simp [hwhole]

/-- **Only keys are read**: the queue and the record of the keyboards change, and the signals. -/
structure OnlyReads (s s' : TextInSplitter δ) (events : List (TextInEvent δ)) : Prop where
  consoles : s'.currentNumberOfConsoles = s.currentNumberOfConsoles
  list : s'.textInList = s.textInList
  exConsoles : s'.currentNumberOfExConsoles = s.currentNumberOfExConsoles
  exList : s'.textInExList = s.textInExList
  notifyList : s'.notifyList = s.notifyList
  queue : s'.keyQueue.size = s.keyQueue.size
  physical : s'.physicalKeyToggleState = s.physicalKeyToggleState
  exported : s'.virtualKeyStateExported = s.virtualKeyStateExported
  log : s'.log = s.log ++ events
  events : ∀ event ∈ events, (∃ textIn key, event = .readKeyStroke textIn key)
    ∨ event = .connectConIn ∨ event = .signalEvent

namespace OnlyReads

variable {s s' s'' : TextInSplitter δ} {events events' : List (TextInEvent δ)}

theorem refl (s : TextInSplitter δ) : OnlyReads s s [] :=
  ⟨rfl, rfl, rfl, rfl, rfl, rfl, rfl, rfl, (List.append_nil _).symm,
    fun event hevent => by cases hevent⟩

theorem trans (h : OnlyReads s s' events) (h' : OnlyReads s' s'' events') :
    OnlyReads s s'' (events ++ events') where
  consoles := h'.consoles.trans h.consoles
  list := h'.list.trans h.list
  exConsoles := h'.exConsoles.trans h.exConsoles
  exList := h'.exList.trans h.exList
  notifyList := h'.notifyList.trans h.notifyList
  queue := h'.queue.trans h.queue
  physical := h'.physical.trans h.physical
  exported := h'.exported.trans h.exported
  log := by rw [h'.log, h.log, List.append_assoc]
  events event hevent := by
    rcases List.mem_append.1 hevent with hfirst | hsecond
    · exact h.events event hfirst
    · exact h'.events event hsecond

theorem fits (h : OnlyReads s s' events) (hfits : s.Fits)
    (hkeys : s'.currentNumberOfKeys ≤ s.textInExList.size) : s'.Fits where
  consoles := by rw [h.consoles, h.list]; exact hfits.consoles
  exConsoles := by rw [h.exConsoles, h.exList]; exact hfits.exConsoles
  queue := by rw [h.exList, h.queue]; exact hfits.queue
  keys := by rw [h.exList]; exact hkeys
  handles := by rw [h.notifyList, h.exList]; exact hfits.handles

end OnlyReads

/-! ## Keys that are taken out -/

section

variable {s : TextInSplitter δ}

theorem length_waiting (s : TextInSplitter δ) : s.waiting.length = s.currentNumberOfKeys :=
  length_front _ _

/-- **The first key that waits is taken out.** -/
theorem textInExDequeueKey_spec (h : s.Fits) :
    (s.waiting = [] ∧ textInExDequeueKey s = some (efiNotFound, none, s))
      ∨ ∃ keyData keyQueue,
        let s' := { s with keyQueue := keyQueue, currentNumberOfKeys := s.currentNumberOfKeys - 1 }
        textInExDequeueKey s = some (efiSuccess, some keyData, s')
          ∧ s.waiting = keyData :: s'.waiting ∧ OnlyReads s s' [] ∧ 0 < s.currentNumberOfKeys := by
  have hkeys := h.keys.trans h.queue
  unfold textInExDequeueKey
  rcases Nat.eq_zero_or_pos s.currentNumberOfKeys with hzero | hpos
  · rw [if_pos hzero]
    refine Or.inl ⟨?_, rfl⟩
    unfold TextInSplitter.waiting
    rw [hzero]
    rfl
  · obtain ⟨n, hn⟩ : ∃ n, s.currentNumberOfKeys = n + 1 := ⟨_, (Nat.succ_pred_eq_of_pos hpos).symm⟩
    rw [if_neg (Nat.ne_of_gt hpos), read_of_lt (hpos.trans_le hkeys)]
    dsimp only [Option.bind_eq_bind, Option.bind_some]
    unfold Block.move
    rw [copy_of_le (by omega) (by omega)]
    refine Or.inr ⟨_, _, rfl, ?_,
      ⟨rfl, rfl, rfl, rfl, rfl, rfl, rfl, rfl, (List.append_nil _).symm,
        fun event hevent => by cases hevent⟩,
      hpos⟩
    unfold TextInSplitter.waiting
    dsimp only
    rw [hn, Nat.add_sub_cancel, front_succ_eq_cons]
    refine congrArg (s.keyQueue.cell 0 :: ·) (List.map_congr_left fun i hi => ?_)
    have hlt := List.mem_range.1 hi
    dsimp only
    rw [if_pos ⟨Nat.zero_le i, by omega⟩, Nat.sub_zero, Nat.add_comm]

/-- **What a call takes**: the whole keys that waited and those it gets from the keyboards are
those it returns and those that wait then. -/
structure Taken (s s' : TextInSplitter δ) (events : List (TextInEvent δ))
    (key : Option EfiInputKey) : Prop where
  reads : OnlyReads s s' events
  keys : s.wholeWaiting ++ wholeKeys events = key.toList.filter EfiInputKey.whole ++ s'.wholeWaiting
  fewer : s'.currentNumberOfKeys ≤ s.textInExList.size

theorem TextInSplitter.wholeWaiting_cons {s s' : TextInSplitter δ} {keyData : EfiKeyData}
    (h : s.waiting = keyData :: s'.waiting) :
    s.wholeWaiting = [keyData.key].filter EfiInputKey.whole ++ s'.wholeWaiting := by
  unfold TextInSplitter.wholeWaiting
  rw [h, List.map_cons, ← List.singleton_append, List.filter_append]

/-- The first whole key that waits is taken out, with those before it. -/
theorem takeSavedKey_spec : ∀ (turns : ℕ) (s : TextInSplitter δ), s.Fits →
    s.currentNumberOfKeys < turns →
    ∃ key s', takeSavedKey turns s = some (key, s') ∧ Taken s s' [] key
      ∧ (key = none → s'.waiting = []) ∧ ∀ key', key = some key' → key'.whole = true
  | 0, s, _, hturns => absurd hturns (Nat.not_lt_zero _)
  | turns + 1, s, h, hturns => by
    unfold takeSavedKey
    rcases textInExDequeueKey_spec h with
      ⟨hnone, hdequeue⟩ | ⟨keyData, keyQueue, hdequeue, hwaiting, hreads, hpos⟩
    · rw [hdequeue]
      exact ⟨none, s, rfl, ⟨.refl s, List.append_nil _, h.keys⟩, fun _ => hnone,
        fun _ hkey => by cases hkey⟩
    · let s₁ : TextInSplitter δ :=
        { s with keyQueue := keyQueue, currentNumberOfKeys := s.currentNumberOfKeys - 1 }
      have hkeys := h.keys
      have hwhole := TextInSplitter.wholeWaiting_cons hwaiting
      rw [hdequeue]
      dsimp only [Option.bind_eq_bind, Option.bind_some]
      by_cases hkey : keyData.key.whole = true
      · rw [if_pos hkey]
        refine ⟨_, s₁, rfl, ⟨hreads, ?_, (Nat.sub_le _ _).trans hkeys⟩,
          (fun hnone => by cases hnone), fun key' hkey' => ?_⟩
        · rw [hwhole]
          exact List.append_nil _
        · cases hkey'
          exact hkey
      · rw [if_neg hkey]
        obtain ⟨key, s', htake, htaken, hempty, hkey'⟩ :=
          takeSavedKey_spec turns s₁ (hreads.fits h ((Nat.sub_le _ _).trans hkeys))
            (show s.currentNumberOfKeys - 1 < turns by omega)
        refine ⟨key, s', htake, ⟨hreads.trans htaken.reads, ?_, hreads.exList ▸ htaken.fewer⟩,
          hempty, hkey'⟩
        rw [hwhole, List.filter_cons_of_neg hkey]
        exact htaken.keys

/-! ## Keys that are read -/

/-- A keyboard read until it gives a whole key. -/
theorem readUntilWhole_spec (textIn : δ) : ∀ (keys : List EfiInputKey) (log : List (TextInEvent δ)),
    ∃ key events, readUntilWhole textIn keys log = (key, log ++ events)
      ∧ (∀ event ∈ events, ∃ key, event = .readKeyStroke textIn key)
      ∧ wholeKeys events = key.toList ∧ ∀ key', key = some key' → key'.whole = true
  | [], log => ⟨none, [], by rw [List.append_nil]; rfl, (fun event hevent => by cases hevent), rfl,
      fun _ hkey => by cases hkey⟩
  | key :: keys, log => by
    unfold readUntilWhole
    by_cases hwhole : key.whole = true
    · rw [if_pos hwhole]
      refine ⟨some key, [.readKeyStroke textIn key], rfl, fun event hevent => ?_, ?_,
        fun key' hkey => ?_⟩
      · exact ⟨key, List.mem_singleton.1 hevent⟩
      · exact List.filterMap_cons_some (if_pos hwhole)
      · cases hkey
        exact hwhole
    · rw [if_neg hwhole]
      obtain ⟨key', events, hread, hevents, hkeys, hkey'⟩ :=
        readUntilWhole_spec textIn keys (log ++ [.readKeyStroke textIn key])
      refine ⟨key', .readKeyStroke textIn key :: events, ?_, fun event hevent => ?_, ?_, hkey'⟩
      · rw [hread, List.append_assoc, List.singleton_append]
      · rcases List.mem_cons.1 hevent with rfl | hrest
        · exact ⟨key, rfl⟩
        · exact hevents event hrest
      · have hnone : (TextInEvent.readKeyStroke textIn key).wholeKey = none := if_neg hwhole
        exact (List.filterMap_cons_none hnone).trans hkeys

/-- The keyboards read one after the other. -/
theorem readKeyboards_spec (around : Keyboards) (textInList : Block δ) :
    ∀ (indices : List ℕ) (log : List (TextInEvent δ)), (∀ i ∈ indices, i < textInList.size) →
      ∃ key events, readKeyboards around textInList indices log = some (key, log ++ events)
        ∧ (∀ event ∈ events, ∃ textIn key, event = .readKeyStroke textIn key)
        ∧ wholeKeys events = key.toList ∧ ∀ key', key = some key' → key'.whole = true
  | [], log, _ => ⟨none, [], by rw [List.append_nil]; rfl, (fun event hevent => by cases hevent),
      rfl, fun _ hkey => by cases hkey⟩
  | index :: rest, log, hindices => by
    unfold readKeyboards
    rw [read_of_lt (hindices index List.mem_cons_self)]
    dsimp only [Option.bind_eq_bind, Option.bind_some]
    obtain ⟨key, events, hread, hevents, hkeys, hkey⟩ :=
      readUntilWhole_spec (textInList.cell index) (around.readKeyStroke index) log
    rw [hread]
    have hreads : ∀ event ∈ events, ∃ textIn key, event = .readKeyStroke textIn key :=
      fun event hevent => ⟨_, hevents event hevent⟩
    cases key with
    | some key => exact ⟨some key, events, rfl, hreads, hkeys, hkey⟩
    | none =>
      obtain ⟨key', events', hrest, hevents', hkeys', hkey'⟩ := readKeyboards_spec around textInList
        rest (log ++ events) fun i hi => hindices i (List.mem_cons_of_mem index hi)
      refine ⟨key', events ++ events', ?_, fun event hevent => ?_, ?_, hkey'⟩
      · rw [← List.append_assoc]
        exact hrest
      · rcases List.mem_append.1 hevent with hfirst | hsecond
        · exact hreads event hfirst
        · exact hevents' event hsecond
      · rw [wholeKeys_append, hkeys, hkeys']
        rfl

/-- What a call that reads begins with. -/
theorem beginRead_spec (around : Keyboards) (s : TextInSplitter δ) :
    ∃ events, OnlyReads s (beginRead around s) events ∧ wholeKeys events = []
      ∧ (beginRead around s).waiting = s.waiting
      ∧ (beginRead around s).currentNumberOfKeys = s.currentNumberOfKeys
      ∧ (beginRead around s).keyEventSignalState = false := by
  unfold beginRead
  dsimp only
  split
  · refine ⟨[.connectConIn], ⟨rfl, rfl, rfl, rfl, rfl, rfl, rfl, rfl, rfl, fun event hevent => ?_⟩,
      rfl, rfl, rfl, rfl⟩
    exact Or.inr (Or.inl (List.mem_singleton.1 hevent))
  · exact ⟨[], ⟨rfl, rfl, rfl, rfl, rfl, rfl, rfl, rfl, (List.append_nil _).symm,
      fun event hevent => by cases hevent⟩, rfl, rfl, rfl, rfl⟩

theorem filter_whole_of_whole {key : Option EfiInputKey}
    (hkey : ∀ key', key = some key' → key'.whole = true) :
    key.toList.filter EfiInputKey.whole = key.toList := by
  cases key with
  | none => rfl
  | some key =>
    exact List.filter_eq_self.2 fun key' hmem => hkey key' (List.mem_singleton.1 hmem ▸ rfl)

/-- What a call takes before and after another part of it. -/
theorem Taken.after {s s₁ s' : TextInSplitter δ} {before events : List (TextInEvent δ)}
    {key : Option EfiInputKey} (h : Taken s₁ s' events key) (hreads : OnlyReads s s₁ before)
    (hnone : wholeKeys before = []) (hwaiting : s₁.wholeWaiting = s.wholeWaiting) :
    Taken s s' (before ++ events) key where
  reads := hreads.trans h.reads
  keys := by rw [wholeKeys_append, hnone, List.nil_append, ← hwaiting, h.keys]
  fewer := hreads.exList ▸ h.fewer

/-- **A key that is read**: it is a whole one, the first that waits or else the first that is
got from a keyboard, and the keyboards are left alone while one waits. -/
theorem textInReadKeyStroke_spec (around : Keyboards) (h : s.Fits) :
    ∃ status key s' events, textInReadKeyStroke around s = some (status, key, s')
      ∧ Taken s s' events (if status = efiSuccess then some key else none)
      ∧ (status = efiSuccess → key.whole = true) := by
  obtain ⟨before, hreads, hbefore, hwaiting, hnumber, -⟩ := beginRead_spec around s
  have hfits := hreads.fits h (hnumber.trans_le h.keys)
  have hwhole : (beginRead around s).wholeWaiting = s.wholeWaiting := by
    unfold TextInSplitter.wholeWaiting
    rw [hwaiting]
  obtain ⟨key, s₁, htake, htaken, hempty, hkey⟩ := takeSavedKey_spec
    ((beginRead around s).currentNumberOfKeys + 1) (beginRead around s) hfits (Nat.lt_succ_self _)
  unfold textInReadKeyStroke textInPrivateReadKeyStroke
  rw [htake]
  dsimp only [Option.bind_eq_bind, Option.bind_some]
  cases key with
  | some key =>
    exact ⟨efiSuccess, key, s₁, before ++ [], rfl, htaken.after hreads hbefore hwhole,
      fun _ => hkey key rfl⟩
  | none =>
    have hfits₁ := htaken.reads.fits hfits htaken.fewer
    obtain ⟨key, events, hread, hevents, hkeys, hkey'⟩ := readKeyboards_spec around s₁.textInList
      (List.range s₁.currentNumberOfConsoles) s₁.log fun i hi =>
        Nat.lt_of_lt_of_le (List.mem_range.1 hi) hfits₁.consoles
    have hempty₁ : s₁.wholeWaiting = [] := by
      unfold TextInSplitter.wholeWaiting
      rw [hempty rfl]
      rfl
    have hreads₁ : OnlyReads s₁ { s₁ with log := s₁.log ++ events } events :=
      ⟨rfl, rfl, rfl, rfl, rfl, rfl, rfl, rfl, rfl,
        fun event hevent => Or.inl (hevents event hevent)⟩
    have htaken' :
        Taken (beginRead around s) { s₁ with log := s₁.log ++ events } ([] ++ events) key := by
      refine ⟨htaken.reads.trans hreads₁, ?_, htaken.fewer⟩
      have hnone : (beginRead around s).wholeWaiting = [] :=
        (List.append_nil _).symm.trans (htaken.keys.trans hempty₁)
      rw [hnone, List.nil_append, List.nil_append, hkeys, filter_whole_of_whole hkey']
      show key.toList = key.toList ++ s₁.wholeWaiting
      rw [hempty₁, List.append_nil]
    rw [hread]
    dsimp only [Option.bind_some]
    cases key with
    | some key =>
      exact ⟨efiSuccess, key, _, _, rfl, htaken'.after hreads hbefore hwhole,
        fun _ => hkey' key rfl⟩
    | none =>
      exact ⟨efiNotReady, ⟨0, 0⟩, _, _, rfl, htaken'.after hreads hbefore hwhole,
        fun h => absurd h (by decide)⟩

/-! ## Keys that are read with their state -/

/-- The keyboard gives a key that is queued. -/
def Keyboards.queues (around : Keyboards) (exported : Bool) (index : ℕ) : Bool :=
  !efiError (around.readKeyStrokeEx index).1
    && (exported || (around.readKeyStrokeEx index).2.key.whole)

/-- **The queue with the first `index` keyboards asked**: the whole keys they gave wait in it, and
there is one at most for each of them. -/
structure Asked (around : Keyboards) (s : TextInSplitter δ) (index : ℕ) (t : TextInSplitter δ) :
    Prop where
  reads : ∃ events, OnlyReads s t events ∧ t.wholeWaiting = wholeKeys events
  signal : t.keyEventSignalState = s.keyEventSignalState
  number : t.currentNumberOfKeys
    = ((List.range index).filter (around.queues s.virtualKeyStateExported)).length

/-- One keyboard. -/
theorem Asked.turn {around : Keyboards} {index : ℕ} {t : TextInSplitter δ} (h : s.Fits)
    (hasked : Asked around s index t) (hindex : index < s.currentNumberOfExConsoles)
    (keyState : EfiKeyState) :
    ∃ keyState' t', readExTurn around (keyState, t) index = some (keyState', t')
      ∧ Asked around s (index + 1) t' := by
  obtain ⟨events, hreads, hwhole⟩ := hasked.reads
  have hroom : index < t.textInExList.size := by
    rw [hreads.exList]
    exact hindex.trans_le h.exConsoles
  -- a keyboard that gives no key leaves the queue as it is
  have hnone : around.queues s.virtualKeyStateExported index = false →
      ∀ t' events', OnlyReads t t' events' → wholeKeys events' = [] →
        t'.wholeWaiting = t.wholeWaiting → t'.keyEventSignalState = t.keyEventSignalState →
        t'.currentNumberOfKeys = t.currentNumberOfKeys → Asked around s (index + 1) t' := by
    intro hqueues t' events' hreads' hkeys hwaiting hsignal hnumber
    refine ⟨⟨events ++ events', hreads.trans hreads', ?_⟩, hsignal.trans hasked.signal, ?_⟩
    · rw [wholeKeys_append, hkeys, List.append_nil, hwaiting, hwhole]
    · rw [hnumber, hasked.number, List.range_succ, List.filter_append,
        List.filter_singleton, hqueues]
      exact (congrArg List.length (List.append_nil _)).symm
  unfold readExTurn
  dsimp only
  rw [read_of_lt hroom]
  dsimp only [Option.bind_eq_bind, Option.bind_some]
  cases herror : efiError (around.readKeyStrokeEx index).1 with
  | true =>
    have hqueues : around.queues s.virtualKeyStateExported index = false := by
      unfold Keyboards.queues
      rw [herror]
      rfl
    have hsame := hnone hqueues t [] (.refl t) rfl rfl rfl rfl
    split
    · exact ⟨_, t, rfl, hsame⟩
    · exact ⟨_, t, rfl, hsame⟩
  | false =>
    rw [if_neg (fun h => Bool.false_ne_true h.1), if_neg Bool.false_ne_true]
    have hlog : OnlyReads t { t with log := t.log
        ++ [.readKeyStroke (t.textInExList.cell index) (around.readKeyStrokeEx index).2.key] }
        [.readKeyStroke (t.textInExList.cell index) (around.readKeyStrokeEx index).2.key] :=
      ⟨rfl, rfl, rfl, rfl, rfl, rfl, rfl, rfl, rfl,
        fun event hevent => Or.inl ⟨_, _, List.mem_singleton.1 hevent⟩⟩
    by_cases hqueue : t.virtualKeyStateExported = true
      ∨ (around.readKeyStrokeEx index).2.key.whole = true
    · have hqueues : around.queues s.virtualKeyStateExported index = true := by
        rw [hreads.exported] at hqueue
        unfold Keyboards.queues
        rw [herror, Bool.not_false, Bool.true_and]
        exact Bool.or_eq_true_iff.2 hqueue
      have hlt : t.currentNumberOfKeys < t.keyQueue.size := by
        have hle := List.length_filter_le (around.queues s.virtualKeyStateExported)
          (List.range index)
        have hex := h.exConsoles
        have hroom := h.queue
        rw [hasked.number, hreads.queue]
        rw [List.length_range] at hle
        omega
      rw [if_pos hqueue, write_of_lt hlt]
      refine ⟨_, _, rfl, ⟨events ++ _, hreads.trans ⟨rfl, rfl, rfl, rfl, rfl, rfl, rfl, rfl, rfl,
        hlog.events⟩, ?_⟩, hasked.signal, ?_⟩
      · rw [wholeKeys_append, wholeKeys_read, ← hwhole]
        unfold TextInSplitter.wholeWaiting TextInSplitter.waiting
        dsimp only
        rw [front_write, List.map_append, List.filter_append]
        rfl
      · dsimp only
        rw [hasked.number, List.range_succ, List.filter_append, List.length_append,
          List.filter_singleton, hqueues]
        rfl
    · have hqueues : around.queues s.virtualKeyStateExported index = false := by
        rw [hreads.exported] at hqueue
        unfold Keyboards.queues
        rw [herror, Bool.not_false, Bool.true_and]
        exact Bool.eq_false_iff.2 fun htrue => hqueue (Bool.or_eq_true_iff.1 htrue)
      have hpartial : ¬ (around.readKeyStrokeEx index).2.key.whole = true :=
        fun h => hqueue (Or.inr h)
      rw [if_neg hqueue]
      exact ⟨_, _, rfl, hnone hqueues _ _ hlog
        ((wholeKeys_read _ _).trans (List.filter_cons_of_neg hpartial)) rfl rfl rfl⟩

/-- What is taken with the first key that waits. -/
theorem taken_of_dequeue {s s' : TextInSplitter δ} {keyData : EfiKeyData} (h : s.Fits)
    (hwaiting : s.waiting = keyData :: s'.waiting) (hreads : OnlyReads s s' [])
    (hfewer : s'.currentNumberOfKeys ≤ s.currentNumberOfKeys) :
    Taken s s' [] (some keyData.key) where
  reads := hreads
  keys := (List.append_nil _).trans (TextInSplitter.wholeWaiting_cons hwaiting)
  fewer := hfewer.trans h.keys

/-- The state of all keyboards entered in the keys that wait. -/
theorem consolidateKeys_spec (keyState : EfiKeyState) {s : TextInSplitter δ} (h : s.Fits) :
    ∃ keyQueue, let s' := { s with keyQueue := keyQueue }
      consolidateKeys keyState s = some s' ∧ OnlyReads s s' []
        ∧ s'.wholeWaiting = s.wholeWaiting := by
  obtain ⟨keyQueue, hrun, hsize, hkeys⟩ := foldlM_range_inv
    (f := fun (keyQueue : Block EfiKeyData) index => do
      let keyData ← keyQueue.read index
      keyQueue.write index { keyData with keyState })
    (n := s.currentNumberOfKeys) (b := s.keyQueue)
    (fun _ t => t.size = s.keyQueue.size ∧ ∀ i, (t.cell i).key = (s.keyQueue.cell i).key)
    ⟨rfl, fun _ => rfl⟩ fun k hk t ⟨hsize, hkeys⟩ => by
      have hlt : k < t.size := by
        have hkeys := h.keys
        have hroom := h.queue
        omega
      rw [read_of_lt hlt]
      refine ⟨_, write_of_lt hlt _, hsize, fun i => ?_⟩
      dsimp only
      rcases eq_or_ne i k with rfl | hne
      · rw [Function.update_self]
        exact hkeys i
      · rw [Function.update_of_ne hne]
        exact hkeys i
  refine ⟨keyQueue, (congrArg (Option.bind · _) hrun).trans rfl, ⟨rfl, rfl, rfl, rfl, rfl, hsize,
    rfl, rfl, (List.append_nil _).symm, fun event hevent => by cases hevent⟩,
    congrArg (List.filter _) ?_⟩
  unfold TextInSplitter.waiting front
  rw [List.map_map, List.map_map]
  exact List.map_congr_left fun i _ => hkeys i

/-- The keyboards that are queued. -/
def Keyboards.numberQueued (around : Keyboards) (s : TextInSplitter δ) : ℕ :=
  ((List.range s.currentNumberOfExConsoles).filter (around.queues s.virtualKeyStateExported)).length

/-- **All keyboards asked**, where no key waits: the first key that is queued is returned. -/
theorem readFromKeyboards_spec (around : Keyboards) {s : TextInSplitter δ} (h : s.Fits)
    (hzero : s.currentNumberOfKeys = 0) :
    ∃ status keyData s' events, readFromKeyboards around s = some (status, keyData, s')
      ∧ Taken s s' events (if status = efiSuccess then some keyData.key else none)
      ∧ s'.keyEventSignalState = s.keyEventSignalState
      ∧ (status = efiSuccess → s'.currentNumberOfKeys + 1 = around.numberQueued s) := by
  have hempty : s.wholeWaiting = [] := by
    unfold TextInSplitter.wholeWaiting TextInSplitter.waiting
    rw [hzero]
    rfl
  obtain ⟨⟨keyState, s₁⟩, hrun, ⟨events, hreads, hwhole⟩, hsignal, hnumber⟩ := foldlM_range_inv
    (f := readExTurn around) (n := s.currentNumberOfExConsoles) (b := ((⟨0, 0⟩ : EfiKeyState), s))
    (fun k t => Asked around s k t.2) ⟨⟨[], .refl _, hempty⟩, rfl, hzero⟩ fun k hk t ht => by
      obtain ⟨keyState', t', hturn, ht'⟩ := ht.turn h hk t.1
      exact ⟨(keyState', t'), hturn, ht'⟩
  have hfits : s₁.Fits := by
    have hle := List.length_filter_le (around.queues s.virtualKeyStateExported)
      (List.range s.currentNumberOfExConsoles)
    rw [List.length_range] at hle
    exact hreads.fits h (hnumber.trans_le (hle.trans h.exConsoles))
  obtain ⟨keyQueue, hconsolidate, hreads', hsame⟩ := consolidateKeys_spec keyState hfits
  have hfits' := hreads'.fits hfits hfits.keys
  have hall : Taken s { s₁ with keyQueue := keyQueue } events none := by
    refine ⟨List.append_nil events ▸ hreads.trans hreads', ?_, hreads.exList ▸ hfits.keys⟩
    rw [hempty, hsame, hwhole]
    rfl
  unfold readFromKeyboards
  rw [hrun]
  dsimp only [Option.bind_eq_bind, Option.bind_some]
  rw [hconsolidate]
  dsimp only [Option.bind_some]
  rcases textInExDequeueKey_spec hfits' with
    ⟨-, hdequeue⟩ | ⟨keyData, keyQueue', hdequeue, hfirst, hreads'', hpos⟩
  · rw [hdequeue]
    exact ⟨efiNotReady, _, _, events, rfl, hall, hsignal, fun h => absurd h (by decide)⟩
  · rw [hdequeue]
    refine ⟨efiSuccess, keyData, _, events, rfl, ?_, hsignal, fun _ => ?_⟩
    · refine ⟨List.append_nil events ▸ hall.reads.trans hreads'', ?_, ?_⟩
      · rw [hall.keys]
        exact TextInSplitter.wholeWaiting_cons hfirst
      · exact (Nat.sub_le _ _).trans hall.fewer
    · exact (Nat.sub_add_cancel hpos).trans hnumber

/-- **A key that is read with its state**: it is the first that waits, or else all keyboards are
asked, and it is the first that is queued. -/
theorem textInReadKeyStrokeEx_spec (around : Keyboards) (h : s.Fits) :
    ∃ status keyData s' events, textInReadKeyStrokeEx around s = some (status, keyData, s')
      ∧ Taken s s' events (if status = efiSuccess then some keyData.key else none)
      ∧ s'.keyEventSignalState = false
      ∧ (status = efiSuccess → s'.currentNumberOfKeys + 1
        = if s.currentNumberOfKeys = 0 then around.numberQueued s else s.currentNumberOfKeys)
      ∧ (0 < s.currentNumberOfKeys → status = efiSuccess) := by
  obtain ⟨before, hreads, hbefore, hwaiting, hnumber, hsignal⟩ := beginRead_spec around s
  have hfits := hreads.fits h (hnumber.trans_le h.keys)
  have hwhole : (beginRead around s).wholeWaiting = s.wholeWaiting := by
    unfold TextInSplitter.wholeWaiting
    rw [hwaiting]
  unfold textInReadKeyStrokeEx
  rcases textInExDequeueKey_spec hfits with
    ⟨hnone, hdequeue⟩ | ⟨keyData, keyQueue, hdequeue, hfirst, hreads', hpos⟩
  · have hzero : (beginRead around s).currentNumberOfKeys = 0 := by
      rw [← length_waiting, hnone]
      rfl
    obtain ⟨status, keyData, s', events, hread, htaken, hsignal', hqueued⟩ :=
      readFromKeyboards_spec around hfits hzero
    rw [hdequeue]
    dsimp only [Option.bind_eq_bind, Option.bind_some]
    rw [if_neg (not_not.2 hzero), hread]
    refine ⟨status, keyData, s', _, rfl, htaken.after hreads hbefore hwhole, hsignal'.trans hsignal,
      fun hstatus => ?_, fun hpos => absurd (hnumber.symm.trans hzero) (Nat.ne_of_gt hpos)⟩
    rw [if_pos (hnumber.symm.trans hzero), hqueued hstatus]
    unfold Keyboards.numberQueued
    rw [hreads.exConsoles, hreads.exported]
  · rw [hdequeue]
    refine ⟨efiSuccess, keyData, _, _, rfl, (taken_of_dequeue hfits hfirst hreads'
      (Nat.sub_le _ _)).after hreads hbefore hwhole, hsignal, fun _ => ?_, fun _ => rfl⟩
    rw [if_neg (by omega)]
    exact (Nat.sub_add_cancel hpos).trans hnumber

/-! ## Keys that are waited for -/

/-- **What the event of the splitter says**: it is signalled again, or one of the keyboards has
signalled its own. The queue is not looked at. -/
theorem textInWaitForKey_spec (around : Keyboards) (h : s.Fits) :
    ∃ s' events, textInWaitForKey around s = some s' ∧ OnlyReads s s' events
      ∧ wholeKeys events = [] ∧ s'.waiting = s.waiting
      ∧ s'.currentNumberOfKeys = s.currentNumberOfKeys
      ∧ (TextInEvent.signalEvent ∈ events ↔ s.keyEventSignalState = true
        ∨ ∃ index < s.currentNumberOfConsoles, efiError (around.checkEvent index) = false) := by
  unfold textInWaitForKey
  split
  · rename_i hsignal
    exact ⟨_, [.signalEvent], rfl, ⟨rfl, rfl, rfl, rfl, rfl, rfl, rfl, rfl, rfl,
      fun event hevent => Or.inr (Or.inr (List.mem_singleton.1 hevent))⟩, rfl, rfl, rfl,
      iff_of_true (List.mem_singleton.2 rfl) (Or.inl hsignal)⟩
  · rename_i hsignal
    obtain ⟨t, hrun, events, signal, rfl, hevents, hiff⟩ := foldlM_range_inv
      (f := fun (t : TextInSplitter δ) index => do
        let _ ← t.textInList.read index
        if efiError (around.checkEvent index) then some t
        else some { t with log := t.log ++ [.signalEvent], keyEventSignalState := true })
      (n := s.currentNumberOfConsoles) (b := s)
      (fun k t => ∃ events signal,
        t = { s with log := s.log ++ events, keyEventSignalState := signal }
          ∧ (∀ event ∈ events, event = .signalEvent)
          ∧ (.signalEvent ∈ events ↔ ∃ index < k, efiError (around.checkEvent index) = false))
      ⟨[], s.keyEventSignalState, by rw [List.append_nil], (fun event hevent => by cases hevent),
        iff_of_false List.not_mem_nil fun ⟨index, hlt, _⟩ => absurd hlt (Nat.not_lt_zero index)⟩
      fun k hk t ⟨events, signal, ht, hevents, hiff⟩ => by
        subst ht
        dsimp only
        rw [read_of_lt (Nat.lt_of_lt_of_le hk h.consoles)]
        dsimp only [Option.bind_eq_bind, Option.bind_some]
        cases herror : efiError (around.checkEvent k) with
        | true =>
          refine ⟨_, rfl, events, signal, rfl, hevents, hiff.trans ?_⟩
          refine exists_congr fun index => and_congr_left fun hok => ?_
          have hne : index ≠ k := fun heq => by
            rw [heq, herror] at hok
            cases hok
          omega
        | false =>
          refine ⟨_, rfl, events ++ [.signalEvent], true, ?_, fun event hevent => ?_, ?_⟩
          · rw [List.append_assoc]
          · rcases List.mem_append.1 hevent with hfirst | hlast
            · exact hevents event hfirst
            · exact List.mem_singleton.1 hlast
          · exact iff_of_true (List.mem_append_right _ (List.mem_singleton.2 rfl))
              ⟨k, Nat.lt_succ_self k, herror⟩
    refine ⟨_, events, hrun, ⟨rfl, rfl, rfl, rfl, rfl, rfl, rfl, rfl, rfl,
      fun event hevent => Or.inr (Or.inr (hevents event hevent))⟩, ?_, rfl, rfl, ?_⟩
    · exact List.filterMap_eq_nil_iff.2 fun event hevent => by rw [hevents event hevent]; rfl
    · rw [hiff, or_iff_right hsignal]

/-- **A key that waits unheard**: after a call that has returned a key, and with no keyboard
signalling, the event of the splitter stays silent. A key waits then all the same if and only if
more than one was queued in that call, or more than one waited before it. -/
theorem key_waits_unheard_iff {around : Keyboards} (h : s.Fits) {keyData : EfiKeyData}
    {s' : TextInSplitter δ}
    (hread : textInReadKeyStrokeEx around s = some (efiSuccess, keyData, s'))
    (around' : Keyboards) (hsilent : ∀ index, efiError (around'.checkEvent index) = true) :
    ∃ s'' events, textInWaitForKey around' s' = some s'' ∧ s''.log = s'.log ++ events
      ∧ .signalEvent ∉ events
      ∧ ((∀ around'' : Keyboards, ∃ keyData s₃, textInReadKeyStrokeEx around'' s''
          = some (efiSuccess, keyData, s₃))
        ↔ if s.currentNumberOfKeys = 0 then 2 ≤ around.numberQueued s
          else 2 ≤ s.currentNumberOfKeys) := by
  obtain ⟨status, keyData', t, events, hread', htaken, hsignal, hnumber, -⟩ :=
    textInReadKeyStrokeEx_spec around h
  obtain ⟨rfl, rfl, rfl⟩ : status = efiSuccess ∧ keyData' = keyData ∧ t = s' := by
    rw [hread] at hread'
    cases hread'
    exact ⟨rfl, rfl, rfl⟩
  have hfits := htaken.reads.fits h htaken.fewer
  obtain ⟨s'', events', hwait, hreads, hkeys, hwaiting, hnumber', hiff⟩ :=
    textInWaitForKey_spec around' hfits
  have hfits'' := hreads.fits hfits (hnumber'.trans_le hfits.keys)
  refine ⟨s'', events', hwait, hreads.log, fun hmem => ?_, ?_⟩
  · rcases hiff.1 hmem with hagain | ⟨index, -, hok⟩
    · rw [hsignal] at hagain
      cases hagain
    · rw [hsilent] at hok
      cases hok
  · have hmore : 0 < s''.currentNumberOfKeys ↔ if s.currentNumberOfKeys = 0 then
        2 ≤ around.numberQueued s else 2 ≤ s.currentNumberOfKeys := by
      have hnumber := hnumber rfl
      split at hnumber <;> rename_i hzero
      · rw [if_pos hzero]
        omega
      · rw [if_neg hzero]
        omega
    rw [← hmore]
    constructor
    · intro hall
      -- with keyboards that have no key it can only be one that waited
      let silent : Keyboards := { around with readKeyStrokeEx := fun _ => (efiNotReady, keyData') }
      obtain ⟨keyData₃, s₃, hread₃⟩ := hall silent
      obtain ⟨status₃, _, _, _, hread₃', -, -, hnumber₃, -⟩ :=
        textInReadKeyStrokeEx_spec silent hfits''
      rw [hread₃] at hread₃'
      cases hread₃'
      have hnone : silent.numberQueued s'' = 0 := by
        have hqueues : ∀ index, silent.queues s''.virtualKeyStateExported index = false :=
          fun _ => rfl
        unfold Keyboards.numberQueued
        rw [List.filter_eq_nil_iff.2 fun index _ => Bool.eq_false_iff.1 (hqueues index)]
        rfl
      have hnumber₃ := hnumber₃ rfl
      rw [hnone] at hnumber₃
      split at hnumber₃ <;> omega
    · intro hpos around''
      obtain ⟨status₃, keyData₃, s₃, _, hread₃, -, -, -, hsuccess⟩ :=
        textInReadKeyStrokeEx_spec around'' hfits''
      exact ⟨keyData₃, s₃, hsuccess hpos ▸ hread₃⟩

end

end ConSplitter
