import HtcLeo.ConSplitter.Notifications

/-!
# Keyboards that come and go

A keyboard that comes is put at the end of the list, and is told the state of the toggle
keys and given the notifications there are (`textInExAddDevice_spec`); when it refuses
one, it is not put there. The lists of handles grow along with the list of keyboards,
each by itself, so that some are larger than the others when memory runs out on the way.

When a keyboard goes the list closes up. Neither touches the keys that wait (`Aside`).
-/

namespace ConSplitter

open StatusCode Block Run

variable {δ : Type}

/-- **A call that is not about keys**: those that wait and those that were given are left alone. -/
structure Aside (s s' : TextInSplitter δ) (told : List (δ × UInt8)) : Prop where
  fits : s'.Fits
  waiting : s'.wholeWaiting = s.wholeWaiting
  keys : wholeKeys s'.log = wholeKeys s.log
  told : statesTold s'.log = statesTold s.log ++ told
  physical : s'.physicalKeyToggleState = s.physicalKeyToggleState

namespace Aside

variable {s s' s'' : TextInSplitter δ}

theorem refl (h : s.Fits) : Aside s s [] :=
  ⟨h, rfl, rfl, (List.append_nil _).symm, rfl⟩

theorem trans {told told' : List (δ × UInt8)} (h : Aside s s' told) (h' : Aside s' s'' told') :
    Aside s s'' (told ++ told') where
  fits := h'.fits
  waiting := h'.waiting.trans h.waiting
  keys := h'.keys.trans h.keys
  told := by rw [h'.told, h.told, List.append_assoc]
  physical := h'.physical.trans h.physical

end Aside

/-- Only notifications were recorded. -/
theorem MoreNotifications.told {log log' : List (TextInEvent δ)} (h : MoreNotifications log log') :
    wholeKeys log' = wholeKeys log ∧ statesTold log' = statesTold log := by
  obtain ⟨events, rfl, hevents⟩ := h
  rw [wholeKeys_append, statesTold_append, wholeKeys_of_notification hevents,
    statesTold_of_notification hevents, List.append_nil, List.append_nil]
  exact ⟨rfl, rfl⟩

theorem MoreNotifications.mem {log log' : List (TextInEvent δ)} (h : MoreNotifications log log')
    {event : TextInEvent δ} (hevent : event ∈ log) : event ∈ log' := by
  obtain ⟨events, rfl, -⟩ := h
  exact List.mem_append_left _ hevent

/-- Handles that are known stay so. -/
def StaysKnown (s s' : TextInSplitter δ) : Prop :=
  ∀ same : δ → δ → Prop, (∀ d, same d d) → Known same s → Known same s'

/-! ## A keyboard comes -/

section

variable (around : Keyboards)

/-- A keyboard is put in the list for its plain protocol, if there is memory. -/
theorem textInAddDevice_spec (textIn : δ) {s : TextInSplitter δ} (h : s.Fits) :
    ∃ status s', textInAddDevice around textIn s = some (status, s') ∧ Aside s s' []
      ∧ s'.exConsoles = s.exConsoles ∧ StaysKnown s s' := by
  unfold textInAddDevice
  dsimp only
  -- the list, when it has been grown
  obtain ⟨status, list, hgrown, hsize⟩ : ∃ status list, (if s.textInList.size
      ≤ s.currentNumberOfConsoles then growBuffer (around.granted 0) 4 s.textInList
        else (efiSuccess, s.textInList)) = (status, list)
      ∧ (efiError status = false → s.currentNumberOfConsoles < list.size) := by
    have hroom := h.consoles
    split
    · rcases growBuffer_cases (around.granted 0) 4 s.textInList with hgrow | hgrow
      · refine ⟨_, _, hgrow, fun _ => ?_⟩
        show s.currentNumberOfConsoles < s.textInList.size + 32
        omega
      · exact ⟨_, _, hgrow, fun hok => by cases hok⟩
    · exact ⟨_, _, rfl, fun _ => by omega⟩
  rw [hgrown]
  dsimp only [Option.bind_eq_bind]
  cases hstatus : efiError status with
  | true =>
    rw [if_pos rfl]
    exact ⟨_, s, rfl, .refl h, rfl, fun _ _ => id⟩
  | false =>
    rw [if_neg Bool.false_ne_true, write_of_lt (hsize hstatus)]
    refine ⟨_, _, rfl,
      ⟨⟨Nat.succ_le_of_lt (hsize hstatus), h.exConsoles, h.queue, h.keys, h.handles⟩,
      rfl, rfl, (List.append_nil _).symm, rfl⟩, rfl, fun same _ hknown => ?_⟩
    exact ⟨hknown.handles, hknown.asked⟩

/-- The lists of handles grown: what is in them stays. -/
theorem growNotifyHandles_spec (count : ℕ) : ∀ (turn : ℕ) (notifies : List Notify),
    (∀ notify ∈ notifies, count ≤ notify.notifyHandleList.size) →
    ∃ status notifies', growNotifyHandles around count turn notifies = some (status, notifies')
      ∧ (∀ notify' ∈ notifies', (∃ notify ∈ notifies, SameNotify (fun _ => True) notify notify')
        ∧ count ≤ notify'.notifyHandleList.size
        ∧ (efiError status = false →
          notify'.notifyHandleList.size = count + consoleSplitterAllocUnit))
  | _, [], _ => ⟨efiSuccess, [], rfl, fun _ h => by cases h⟩
  | turn, notify :: rest, hroom => by
    unfold growNotifyHandles
    rw [if_neg (Nat.not_lt.2 (hroom notify List.mem_cons_self))]
    dsimp only
    rcases growBuffer_cases (around.granted turn) 4
      { notify.notifyHandleList with size := count } with hgrow | hgrow
    · obtain ⟨status, rest', hrest, hspec⟩ := growNotifyHandles_spec count (turn + 1) rest
        fun n hn => hroom n (List.mem_cons_of_mem _ hn)
      rw [hgrow, if_neg (show ¬ efiError efiSuccess = true by decide), hrest]
      refine ⟨status, _, rfl, fun notify' hmem => ?_⟩
      rcases List.mem_cons.1 hmem with rfl | hrest'
      · exact ⟨⟨notify, List.mem_cons_self, rfl, rfl, fun _ _ => rfl⟩, Nat.le_add_right _ _,
          fun _ => rfl⟩
      · obtain ⟨⟨n, hn, hsame⟩, hle, hsize⟩ := hspec notify' hrest'
        exact ⟨⟨n, List.mem_cons_of_mem _ hn, hsame⟩, hle, hsize⟩
    · rw [hgrow]
      refine ⟨_, _, if_pos rfl, fun notify' hmem => ?_⟩
      exact ⟨⟨notify', hmem, rfl, rfl, fun _ _ => rfl⟩, hroom notify' hmem, fun hok => by cases hok⟩

/-- What is in the lists stays when they are grown. -/
structure Grown (s s' : TextInSplitter δ) : Prop where
  fits : s'.Fits
  number : s'.currentNumberOfExConsoles = s.currentNumberOfExConsoles
  list : s'.textInExList.cell = s.textInExList.cell
  waiting : s'.waiting = s.waiting
  log : s'.log = s.log
  physical : s'.physicalKeyToggleState = s.physicalKeyToggleState
  notifies : ∀ notify' ∈ s'.notifyList,
    ∃ notify ∈ s.notifyList, SameNotify (fun _ => True) notify notify'

namespace Grown

variable {s s' : TextInSplitter δ}

theorem refl (h : s.Fits) : Grown s s :=
  ⟨h, rfl, rfl, rfl, rfl, rfl, fun notify hnotify => ⟨notify, hnotify, rfl, rfl, fun _ _ => rfl⟩⟩

theorem aside (h : Grown s s') : Aside s s' [] where
  fits := h.fits
  waiting := by unfold TextInSplitter.wholeWaiting; rw [h.waiting]
  keys := by rw [h.log]
  told := by rw [h.log, List.append_nil]
  physical := h.physical

theorem exConsoles_eq (h : Grown s s') : s'.exConsoles = s.exConsoles := by
  unfold TextInSplitter.exConsoles
  rw [h.number]
  exact front_congr fun i _ => congrFun h.list i

theorem known (h : Grown s s') {same : δ → δ → Prop} (hknown : Known same s) : Known same s' where
  handles notify' hnotify' i hi := by
    obtain ⟨notify, hnotify, hsame⟩ := h.notifies notify' hnotify'
    obtain ⟨giver, hgiver, hgave⟩ := hknown.handles notify hnotify i (h.number ▸ hi)
    refine ⟨giver, ?_, ?_⟩
    · rw [h.list]
      exact hgiver
    · rw [h.log, hsame.keyData, hsame.function, hsame.cells i trivial]
      exact hgave
  asked := h.log.symm ▸ hknown.asked

end Grown

/-- **The lists are grown**, all of them or some. -/
theorem growTextInExList_spec {s : TextInSplitter δ} (h : s.Fits) :
    ∃ status s', growTextInExList around s = some (status, s') ∧ Grown s s'
      ∧ (efiError status = false → s.textInExList.size < s'.textInExList.size) := by
  obtain ⟨status, notifies, hgrow, hspec⟩ :=
    growNotifyHandles_spec around s.textInExList.size 0 s.notifyList h.handles
  have hpositive : 0 < consoleSplitterAllocUnit := by decide
  have hsame : ∀ notify' ∈ notifies,
      ∃ notify ∈ s.notifyList, SameNotify (fun _ => True) notify notify' :=
    fun notify' hmem => (hspec notify' hmem).1
  have hhandles : ∀ notify' ∈ notifies, s.textInExList.size ≤ notify'.notifyHandleList.size :=
    fun notify' hmem => (hspec notify' hmem).2.1
  unfold growTextInExList
  rw [hgrow]
  dsimp only [Option.bind_eq_bind, Option.bind_some]
  cases hstatus : efiError status with
  | true =>
    rw [if_pos rfl]
    exact ⟨_, _, rfl, ⟨⟨h.consoles, h.exConsoles, h.queue, h.keys, hhandles⟩, rfl, rfl, rfl, rfl,
      rfl, hsame⟩, fun hok => by cases hok⟩
  | false =>
    rw [if_neg Bool.false_ne_true, if_neg (Nat.not_lt.2 h.queue)]
    have hlarge : ∀ notify' ∈ notifies,
        s.textInExList.size + consoleSplitterAllocUnit ≤ notify'.notifyHandleList.size :=
      fun notify' hmem => ((hspec notify' hmem).2.2 hstatus).ge
    rcases growBuffer_cases (around.granted notifies.length) 12
      { s.keyQueue with size := s.textInExList.size } with hqueue | hqueue
    · rw [hqueue, if_neg (show ¬ efiError efiSuccess = true by decide)]
      dsimp only
      rcases growBuffer_cases (around.granted (notifies.length + 1)) 4 s.textInExList with
        hlist | hlist
      · rw [hlist, if_neg (show ¬ efiError efiSuccess = true by decide)]
        refine ⟨_, _, rfl, ⟨⟨h.consoles, ?_, Nat.le_refl _, ?_, hlarge⟩, rfl, rfl, rfl, rfl, rfl,
          hsame⟩, fun _ => Nat.lt_add_of_pos_right hpositive⟩
        · exact h.exConsoles.trans (Nat.le_add_right _ _)
        · exact h.keys.trans (Nat.le_add_right _ _)
      · rw [hlist]
        exact ⟨_, _, if_pos rfl,
          ⟨⟨h.consoles, h.exConsoles, Nat.le_add_right _ _, h.keys, hhandles⟩,
          rfl, rfl, rfl, rfl, rfl, hsame⟩, fun hok => by cases hok⟩
    · rw [hqueue]
      exact ⟨_, _, if_pos rfl, ⟨⟨h.consoles, h.exConsoles, h.queue, h.keys, hhandles⟩, rfl, rfl,
        rfl, rfl, rfl, hsame⟩, fun hok => by cases hok⟩

/-- The keyboards that are there keep their handles while a new one is given notifications. -/
theorem RegisteringNew.known {same : δ → δ → Prop} (hrefl : ∀ d, same d d) {textInEx : δ}
    {s : TextInSplitter δ} {k : ℕ} {notifies : List Notify} {log : List (TextInEvent δ)}
    (h : RegisteringNew textInEx s.currentNumberOfExConsoles s.notifyList s.log k (notifies, log))
    (hknown : Known same s) : Known same { s with notifyList := notifies, log := log } where
  handles notify' hnotify' i hi := by
    obtain ⟨j, hj⟩ := List.mem_iff_getElem?.1 hnotify'
    obtain ⟨notify, hnotify, hsame, -, -⟩ := h.notify j notify' hj
    obtain ⟨giver, hgiver, hgave⟩ := hknown.handles notify (List.mem_of_getElem? hnotify) i hi
    refine ⟨giver, hgiver, ?_⟩
    rw [hsame.keyData, hsame.function, hsame.cells i (Nat.ne_of_lt hi)]
    exact MoreNotifications.mem h.more hgave
  asked := h.asked same hrefl hknown.asked

/-- Nothing else has changed then. -/
theorem RegisteringNew.aside {textInEx : δ} {s : TextInSplitter δ} {k : ℕ}
    {notifies : List Notify} {log : List (TextInEvent δ)}
    (h : RegisteringNew textInEx s.currentNumberOfExConsoles s.notifyList s.log k (notifies, log))
    (hfits : s.Fits) : Aside s { s with notifyList := notifies, log := log } [] where
  fits := by
    refine ⟨hfits.consoles, hfits.exConsoles, hfits.queue, hfits.keys, fun notify' hnotify' => ?_⟩
    obtain ⟨j, hj⟩ := List.mem_iff_getElem?.1 hnotify'
    obtain ⟨notify, hnotify, -, hsize, -⟩ := h.notify j notify' hj
    rw [hsize]
    exact hfits.handles notify (List.mem_of_getElem? hnotify)
  waiting := rfl
  keys := h.more.told.1
  told := h.more.told.2.trans (List.append_nil _).symm
  physical := rfl

/-- **A keyboard is put in the list for its extended protocol**: it is told the state of the toggle
keys, and has given a handle for every notification; or it is not put there. -/
theorem textInExAddDevice_spec (textInEx : δ) {s : TextInSplitter δ} (h : s.Fits) :
    ∃ status s', textInExAddDevice around textInEx s = some (status, s')
      ∧ (efiError status = true ∧ Aside s s' [] ∧ s'.exConsoles = s.exConsoles
        ∨ efiError status = false ∧ Aside s s' [(textInEx, s.physicalKeyToggleState)]
          ∧ s'.exConsoles = s.exConsoles ++ [textInEx])
      ∧ StaysKnown s s' := by
  -- the list has room, or there is no memory
  obtain ⟨status, s₁, hroom, hgrown, hlt⟩ : ∃ status s₁, (if s.textInExList.size
        ≤ s.currentNumberOfExConsoles then growTextInExList around s else some (efiSuccess, s))
          = some (status, s₁)
      ∧ Grown s s₁
      ∧ (efiError status = false → s.currentNumberOfExConsoles < s₁.textInExList.size) := by
    have hex := h.exConsoles
    split
    · obtain ⟨status, s₁, hgrow, hgrown, hlt⟩ := growTextInExList_spec around h
      exact ⟨status, s₁, hgrow, hgrown, fun hok => hex.trans_lt (hlt hok)⟩
    · exact ⟨_, s, rfl, .refl h, fun _ => by omega⟩
  unfold textInExAddDevice
  dsimp only
  rw [hroom]
  dsimp only [Option.bind_eq_bind, Option.bind_some]
  cases hstatus : efiError status with
  | true =>
    rw [if_pos rfl]
    exact ⟨_, s₁, rfl, Or.inl ⟨rfl, hgrown.aside, hgrown.exConsoles_eq⟩,
      fun same _ => hgrown.known⟩
  | false =>
    have hlt := hgrown.number.trans_lt (hlt hstatus)
    obtain ⟨status', ⟨notifies, log⟩, hregister, hnew⟩ := registerNewTurns_spec around textInEx
      fun notify hmem => hlt.trans_le (hgrown.fits.handles notify hmem)
    have haside := hgrown.aside.trans (hnew.aside hgrown.fits)
    rw [if_neg Bool.false_ne_true, hregister]
    dsimp only [Option.bind_some]
    cases hstatus' : efiError status' with
    | true =>
      rw [if_pos rfl]
      exact ⟨_, _, rfl, Or.inl ⟨hstatus', haside, hgrown.exConsoles_eq⟩,
        fun same hrefl hknown => hnew.known hrefl (hgrown.known hknown)⟩
    | false =>
      have hfits := haside.fits
      rw [if_neg Bool.false_ne_true, write_of_lt hlt]
      refine ⟨_, _, rfl,
        Or.inr ⟨rfl, ⟨⟨hfits.consoles, Nat.succ_le_of_lt hlt, hfits.queue, hfits.keys,
        hfits.handles⟩, haside.waiting, ?_, ?_, haside.physical⟩, ?_⟩,
        fun same hrefl hknown => ⟨fun notify' hnotify' i hi => ?_, ?_⟩⟩
      · exact (wholeKeys_append _ _).trans ((List.append_nil _).trans haside.keys)
      · refine (statesTold_append _ _).trans ?_
        rw [haside.told, List.append_nil, List.append_nil, ← hgrown.physical]
        rfl
      · rw [← hgrown.exConsoles_eq]
        exact front_write s₁.textInExList s₁.textInExList.size _ textInEx
      · have hknown₂ := hnew.known hrefl (hgrown.known hknown)
        dsimp only at hi ⊢
        rcases Nat.lt_succ_iff_lt_or_eq.1 hi with hlt' | rfl
        · obtain ⟨giver, hgiver, hgave⟩ := hknown₂.handles notify' hnotify' i hlt'
          refine ⟨giver, ?_, List.mem_append_left _ hgave⟩
          rw [Function.update_of_ne (Nat.ne_of_lt hlt')]
          exact hgiver
        · obtain ⟨j, hj⟩ := List.mem_iff_getElem?.1 hnotify'
          obtain ⟨notify, hnotify, -, -, hgave⟩ := hnew.notify j notify' hj
          rw [hstatus', if_neg Bool.false_ne_true] at hgave
          obtain ⟨hj', -⟩ := List.getElem?_eq_some_iff.1 hnotify
          rw [Function.update_self]
          exact ⟨textInEx, hrefl textInEx, List.mem_append_left _ (hgave hj')⟩
      · exact (recorded_snoc _).2
          ⟨(hnew.known hrefl (hgrown.known hknown)).asked, asksGiven_of_not same rfl _⟩

/-- The end of the start of a keyboard. -/
theorem conInDriverBindingStart_spec (textIn : δ) (extended : Bool) {s : TextInSplitter δ}
    (h : s.Fits) :
    ∃ status s', conInDriverBindingStart around textIn extended s = some (status, s')
      ∧ (Aside s s' [] ∧ s'.exConsoles = s.exConsoles
        ∨ Aside s s' [(textIn, s.physicalKeyToggleState)]
          ∧ s'.exConsoles = s.exConsoles ++ [textIn])
      ∧ StaysKnown s s' := by
  obtain ⟨status, s₁, hadd, haside, hex, hkeep⟩ := textInAddDevice_spec around textIn h
  unfold conInDriverBindingStart
  rw [hadd]
  dsimp only [Option.bind_eq_bind, Option.bind_some]
  cases hstatus : efiError status with
  | true =>
    rw [if_pos rfl]
    exact ⟨status, s₁, rfl, Or.inl ⟨haside, hex⟩, hkeep⟩
  | false =>
    rw [if_neg Bool.false_ne_true]
    cases extended with
    | false => exact ⟨efiUnsupported, s₁, rfl, Or.inl ⟨haside, hex⟩, hkeep⟩
    | true =>
      rw [if_pos rfl]
      obtain ⟨status', s₂, hadd', hcases, hknown'⟩ :=
        textInExAddDevice_spec around textIn haside.fits
      refine ⟨status', s₂, hadd', ?_,
        fun same hrefl hknown => hknown' same hrefl (hkeep same hrefl hknown)⟩
      rcases hcases with ⟨-, haside', hex'⟩ | ⟨-, haside', hex'⟩
      · exact Or.inl ⟨haside.trans haside', hex'.trans hex⟩
      · rw [haside.physical] at haside'
        rw [hex] at hex'
        exact Or.inr ⟨haside.trans haside', hex'⟩

end

/-! ## A keyboard goes -/

section

variable [DecidableEq δ]

/-- A keyboard goes from the list for its plain protocol. -/
theorem textInDeleteDevice_spec (textIn : δ) {s : TextInSplitter δ} (h : s.Fits) :
    ∃ status s', textInDeleteDevice textIn s = some (status, s') ∧ Aside s s' []
      ∧ s'.exConsoles = s.exConsoles ∧ s'.notifyList = s.notifyList ∧ s'.log = s.log
      ∧ StaysKnown s s' := by
  unfold textInDeleteDevice
  rcases deleteDevice_spec textIn s.textInList h.consoles with
    ⟨hdelete, -⟩ | ⟨list', hdelete, hsize, -, -⟩
  · rw [hdelete]
    exact ⟨_, s, rfl, .refl h, rfl, rfl, rfl, fun _ _ => id⟩
  · rw [hdelete]
    refine ⟨_, _, rfl, ⟨⟨?_, h.exConsoles, h.queue, h.keys, h.handles⟩, rfl, rfl,
      (List.append_nil _).symm, rfl⟩, rfl, rfl, rfl,
      fun same _ hknown => ⟨hknown.handles, hknown.asked⟩⟩
    exact hsize.symm ▸ (Nat.sub_le _ _).trans h.consoles

/-- **A keyboard goes from the list for its extended protocol**: the handles are still known when
any keyboard will do for the one that gave a handle, or when those left stand where they stood. -/
theorem textInExDeleteDevice_spec (textInEx : δ) {s : TextInSplitter δ} (h : s.Fits) :
    ∃ status s', textInExDeleteDevice textInEx s = some (status, s') ∧ Aside s s' []
      ∧ s'.exConsoles = s.exConsoles.erase textInEx
      ∧ s'.notifyList = s.notifyList ∧ s'.log = s.log
      ∧ ∀ same, (∀ d d', same d d') ∨ s.exConsoles.erase textInEx <+: s.exConsoles →
        Known same s → Known same s' := by
  unfold textInExDeleteDevice
  rcases deleteDevice_spec textInEx s.textInExList h.exConsoles with
    ⟨hdelete, hnot⟩ | ⟨list', hdelete, hsize, -, herase⟩
  · rw [hdelete]
    exact ⟨_, s, rfl, .refl h, (List.erase_of_not_mem hnot).symm, rfl, rfl, fun _ _ => id⟩
  · rw [hdelete]
    refine ⟨_, _, rfl, ⟨⟨h.consoles, ?_, ?_, ?_, ?_⟩, rfl, rfl, (List.append_nil _).symm, rfl⟩,
      herase, rfl, rfl, fun same hsame hknown => ⟨fun notify hnotify i hi => ?_, hknown.asked⟩⟩
    · exact hsize.symm ▸ (Nat.sub_le _ _).trans h.exConsoles
    · exact hsize.symm ▸ h.queue
    · exact hsize.symm ▸ h.keys
    · exact hsize.symm ▸ h.handles
    · obtain ⟨giver, hgiver, hgave⟩ :=
        hknown.handles notify hnotify i (Nat.lt_of_lt_of_le hi (Nat.sub_le _ _))
      refine ⟨giver, ?_, hgave⟩
      rcases hsame with hall | hprefix
      · exact hall _ _
      · have hcell : list'.cell i = s.textInExList.cell i := by
          have hfront : list'.front (s.currentNumberOfExConsoles - 1)
              <+: s.textInExList.front s.currentNumberOfExConsoles := herase ▸ hprefix
          exact (front_prefix_iff (Nat.sub_le _ _)).1 hfront i hi
        exact hcell.symm ▸ hgiver

/-- The end of a keyboard. -/
theorem conInDriverBindingStop_spec (textIn : δ) (extended : Bool) {s : TextInSplitter δ}
    (h : s.Fits) :
    ∃ status s', conInDriverBindingStop textIn extended s = some (status, s') ∧ Aside s s' []
      ∧ s'.exConsoles = (if extended then s.exConsoles.erase textIn else s.exConsoles)
      ∧ s'.notifyList = s.notifyList ∧ s'.log = s.log
      ∧ ∀ same, (∀ d, same d d) → (∀ d d', same d d') ∨ (extended = true →
          s.exConsoles.erase textIn <+: s.exConsoles) → Known same s → Known same s' := by
  unfold conInDriverBindingStop
  cases extended with
  | false =>
    obtain ⟨status, s', hdelete, haside, hex, hlist, hlog, hknown⟩ :=
      textInDeleteDevice_spec textIn h
    exact ⟨status, s', hdelete, haside, hex, hlist, hlog, fun same hrefl _ => hknown same hrefl⟩
  | true =>
    obtain ⟨status, s₁, hdelete, haside, hex, hlist, hlog, hknown⟩ :=
      textInExDeleteDevice_spec textIn h
    dsimp only
    rw [if_pos rfl, if_pos rfl, hdelete]
    dsimp only [Option.bind_eq_bind, Option.bind_some]
    cases hstatus : efiError status with
    | true =>
      exact ⟨status, s₁, rfl, haside, hex, hlist, hlog,
        fun same _ hsame => hknown same (hsame.imp_right fun h => h rfl)⟩
    | false =>
      obtain ⟨status', s₂, hdelete', haside', hex', hlist', hlog', hknown'⟩ :=
        textInDeleteDevice_spec textIn haside.fits
      exact ⟨status', s₂, hdelete', haside.trans haside', hex'.trans hex, hlist'.trans hlist,
        hlog'.trans hlog,
        fun same hrefl hsame h =>
          hknown' same hrefl (hknown same (hsame.imp_right fun h => h rfl) h)⟩

end

/-! ## Notifications that come and go -/

section

variable (around : Keyboards) {s : TextInSplitter δ}

/-- **A notification is registered**, if it is not yet: each keyboard has given a handle for it. -/
theorem textInRegisterKeyNotify_spec (keyData : EfiKeyData) (function : KeyNotifyFunction)
    (h : s.Fits) :
    ∃ status handle s', textInRegisterKeyNotify around keyData function s
        = some (status, handle, s')
      ∧ Aside s s' [] ∧ s'.exConsoles = s.exConsoles ∧ StaysKnown s s' := by
  unfold textInRegisterKeyNotify
  split
  · exact ⟨_, _, s, rfl, .refl h, rfl, fun _ _ => id⟩
  · split
    · exact ⟨_, _, s, rfl, .refl h, rfl, fun _ _ => id⟩
    · obtain ⟨status, ⟨handles, log⟩, hregister, hturns⟩ := registerTurns_spec around s.textInExList
        keyData function s.log h.exConsoles
        (show s.currentNumberOfExConsoles ≤ (⟨s.textInExList.size, fun _ => 0⟩ : Block ℕ).size from
          h.exConsoles)
      have hgave : ∀ same, Known same s → ∀ notify ∈ s.notifyList,
          ∀ i < s.currentNumberOfExConsoles, ∃ giver, same (s.textInExList.cell i) giver
            ∧ .registerKeyNotify giver notify.keyData notify.keyNotificationFn
              (notify.notifyHandleList.cell i) ∈ log := fun same hknown notify hnotify i hi => by
        obtain ⟨giver, hgiver, hgave⟩ := hknown.handles notify hnotify i hi
        exact ⟨giver, hgiver, MoreNotifications.mem hturns.more hgave⟩
      have htold := hturns.more.told.2.trans (List.append_nil _).symm
      rw [hregister]
      dsimp only [Option.bind_eq_bind, Option.bind_some]
      cases hstatus : efiError status with
      | true =>
        rw [if_pos rfl]
        exact ⟨_, _, _, rfl, ⟨⟨h.consoles, h.exConsoles, h.queue, h.keys, h.handles⟩, rfl,
          hturns.more.told.1, htold, rfl⟩, rfl, fun same hrefl hknown =>
            ⟨hgave same hknown, hturns.asked same hrefl hknown.asked⟩⟩
      | false =>
        rw [if_neg Bool.false_ne_true]
        refine ⟨_, _, _, rfl,
          ⟨⟨h.consoles, h.exConsoles, h.queue, h.keys, fun notify hnotify => ?_⟩,
          rfl, hturns.more.told.1, htold, rfl⟩, rfl, fun same hrefl hknown =>
            ⟨fun notify hnotify i hi => ?_, hturns.asked same hrefl hknown.asked⟩⟩
        · rcases List.mem_append.1 hnotify with hold | hnew
          · exact h.handles notify hold
          · rw [List.mem_singleton.1 hnew]
            exact hturns.size.ge
        · rcases List.mem_append.1 hnotify with hold | hnew
          · exact hgave same hknown notify hold i hi
          · have hall := hturns.gave
            rw [hstatus, if_neg Bool.false_ne_true] at hall
            rw [List.mem_singleton.1 hnew]
            exact ⟨_, hrefl _, hall i hi⟩

/-- What is asked when a notification is unregistered. -/
def unregistering (s : TextInSplitter δ) (notify : Notify) : List (TextInEvent δ) :=
  (List.range s.currentNumberOfExConsoles).map fun i =>
    .unregisterKeyNotify (s.textInExList.cell i) (notify.notifyHandleList.cell i)

/-- **A notification is unregistered**: each keyboard is asked for the handle at its place. -/
theorem textInUnregisterKeyNotify_spec (notificationHandle : ℕ) (h : s.Fits) :
    (s.notifyList.find? fun notify => decide (notify.address = notificationHandle)) = none
        ∧ textInUnregisterKeyNotify notificationHandle s = some (efiInvalidParameter, s)
      ∨ ∃ notify, (s.notifyList.find? fun notify => decide (notify.address = notificationHandle))
            = some notify
          ∧ textInUnregisterKeyNotify notificationHandle s = some (efiSuccess, { s with
            log := s.log ++ unregistering s notify
            notifyList := s.notifyList.eraseP
              fun notify => decide (notify.address = notificationHandle) }) := by
  unfold textInUnregisterKeyNotify
  cases hfind : s.notifyList.find? fun notify => decide (notify.address = notificationHandle) with
  | none => exact Or.inl ⟨rfl, rfl⟩
  | some notify =>
    obtain ⟨log, hrun, hlog⟩ := foldlM_range_inv
      (f := fun (log : List (TextInEvent δ)) index => do
        let textInEx ← s.textInExList.read index
        let handle ← notify.notifyHandleList.read index
        some (log ++ [TextInEvent.unregisterKeyNotify textInEx handle]))
      (n := s.currentNumberOfExConsoles) (b := s.log)
      (fun k t => t = s.log ++ (List.range k).map fun i =>
        .unregisterKeyNotify (s.textInExList.cell i) (notify.notifyHandleList.cell i))
      (List.append_nil _).symm fun k hk t ht => by
        have hlt := Nat.lt_of_lt_of_le hk h.exConsoles
        rw [read_of_lt hlt]
        dsimp only [Option.bind_eq_bind, Option.bind_some]
        rw [read_of_lt (hlt.trans_le (h.handles notify (List.mem_of_find?_eq_some hfind)))]
        refine ⟨_, rfl, ?_⟩
        rw [List.range_succ, List.map_append, ← List.append_assoc, ← ht]
        rfl
    subst hlog
    exact Or.inr ⟨notify, rfl, (congrArg (Option.bind · _) hrun).trans rfl⟩

/-- The requests are for handles that are known. -/
theorem Known.unregistering {same : δ → δ → Prop} (hknown : Known same s) {notify : Notify}
    (hnotify : notify ∈ s.notifyList) :
    Recorded (AsksGiven same) (s.log ++ unregistering s notify) := by
  refine hknown.asked.append _ fun event hevent between textInEx handle heq => ?_
  obtain ⟨i, hi, hasks⟩ := List.mem_map.1 hevent
  obtain ⟨giver, hgiver, hgave⟩ := hknown.handles notify hnotify i (List.mem_range.1 hi)
  cases hasks.trans heq
  exact ⟨giver, hgiver, _, _, List.mem_append_left _ hgave⟩

/-- What is kept when a notification is unregistered. -/
theorem textInUnregisterKeyNotify_keeps (notificationHandle : ℕ) (h : s.Fits) :
    ∃ status s', textInUnregisterKeyNotify notificationHandle s = some (status, s')
      ∧ Aside s s' [] ∧ s'.exConsoles = s.exConsoles ∧ StaysKnown s s' := by
  rcases textInUnregisterKeyNotify_spec notificationHandle h with ⟨-, hrun⟩ | ⟨notify, hfind, hrun⟩
  · exact ⟨_, s, hrun, .refl h, rfl, fun _ _ => id⟩
  · have hnotification : ∀ event ∈ unregistering s notify, event.notification = true :=
      fun event hevent => by
        obtain ⟨i, -, rfl⟩ := List.mem_map.1 hevent
        rfl
    have hmore : MoreNotifications s.log (s.log ++ unregistering s notify) :=
      ⟨_, rfl, hnotification⟩
    refine ⟨_, _, hrun, ⟨⟨h.consoles, h.exConsoles, h.queue, h.keys, fun notify' hnotify' => ?_⟩,
      rfl,
      hmore.told.1, hmore.told.2.trans (List.append_nil _).symm, rfl⟩, rfl, fun same _ hknown =>
        ⟨fun notify' hnotify' i hi => ?_, hknown.unregistering (List.mem_of_find?_eq_some hfind)⟩⟩
    · exact h.handles notify' (List.mem_of_mem_eraseP hnotify')
    · obtain ⟨giver, hgiver, hgave⟩ :=
        hknown.handles notify' (List.mem_of_mem_eraseP hnotify') i hi
      exact ⟨giver, hgiver, List.mem_append_left _ hgave⟩

/-! ## The splitter that is built -/

/-- **A splitter that has been built**: it has no keyboards, and no key waits. -/
theorem textInConstructor_spec {textIn textInEx : ℕ → δ} {keyQueue : ℕ → EfiKeyData}
    (hbuilt : textInConstructor around textIn textInEx keyQueue = some (efiSuccess, s)) :
    s.Fits ∧ (∀ same, (∀ d, same d d) → Known same s) ∧ s.exConsoles = [] ∧ s.wholeWaiting = []
      ∧ wholeKeys s.log = [] ∧ s.physicalKeyToggleState = keyStateValidExposed := by
  have hne : efiOutOfResources ≠ efiSuccess := by decide
  have hfailed : ∀ t : TextInSplitter δ, ¬ some (efiOutOfResources, t) = some (efiSuccess, s) :=
    fun t heq => hne (Prod.ext_iff.1 (Option.some.inj heq)).1
  have hok : ¬ efiError efiSuccess = true := by decide
  unfold textInConstructor at hbuilt
  dsimp only [Option.bind_eq_bind] at hbuilt
  -- the three buffers
  rcases growBuffer_cases (around.granted 2) 4 (⟨0, textIn⟩ : Block δ) with hlist | hlist
  · rcases growBuffer_cases (around.granted 3) 12 (⟨0, keyQueue⟩ : Block EfiKeyData) with
      hqueue | hqueue
    · rcases growBuffer_cases (around.granted 4) 4 (⟨0, textInEx⟩ : Block δ) with hex | hex
      · rw [hlist, if_neg hok, hqueue, if_neg hok, hex, if_neg hok] at hbuilt
        let s₁ : TextInSplitter δ :=
          { currentNumberOfConsoles := 0
            textInList := ⟨0 + consoleSplitterAllocUnit, textIn⟩
            currentNumberOfExConsoles := 0
            textInExList := ⟨0 + consoleSplitterAllocUnit, textInEx⟩
            notifyList := []
            keyQueue := ⟨0 + consoleSplitterAllocUnit, keyQueue⟩
            currentNumberOfKeys := 0
            physicalKeyToggleState := keyStateValidExposed
            virtualKeyStateExported := false
            keyEventSignalState := false
            conInIsConnect := false
            log := [] }
        have hfits : s₁.Fits := ⟨Nat.zero_le _, Nat.zero_le _, Nat.le_refl _, Nat.zero_le _,
          fun _ hnotify => by cases hnotify⟩
        have hknown : ∀ same, Known same s₁ :=
          fun same => ⟨fun _ hnotify => (by cases hnotify), recorded_nil⟩
        obtain ⟨status, handle, s₂, hregister, haside, hex, hknown₂⟩ :=
          textInRegisterKeyNotify_spec around ⟨⟨0, 0⟩, ⟨0, 0⟩⟩ .toggleStateSyncKeyNotify hfits
        obtain rfl : s₂ = s := by
          have hrun :=
            (congrArg (Option.bind · fun t => some (efiSuccess, t.2.2)) hregister).symm.trans hbuilt
          exact (Prod.ext_iff.1 (Option.some.inj hrun)).2
        exact ⟨haside.fits, fun same hrefl => hknown₂ same hrefl (hknown same), hex, haside.waiting,
          haside.keys, haside.physical⟩
      · rw [hlist, if_neg hok, hqueue, if_neg hok, hex] at hbuilt
        exact absurd hbuilt (hfailed _)
    · rw [hlist, if_neg hok, hqueue] at hbuilt
      exact absurd hbuilt (hfailed _)
  · rw [hlist] at hbuilt
    exact absurd hbuilt (hfailed _)

end

end ConSplitter
