import Workbench.Proofs.Desk.Moves

/-! # One round of autosave

Autosave looks up once which tabs are due and then saves them one after another. As saving a
tab changes no other tab, each of them is still due when its turn comes. So every due tab is
dispatched once, behind the refresh that runs for it or at once, and a second round at the
same time finds nothing to do. -/

namespace Workbench

/-- The tab passes every check of a save, and is busy with nothing but a refresh. -/
structure Tab.Savable (tab : Tab) : Prop where
  calm : tab.state.isConflict = false
  writable : tab.file.readOnly = false
  unsaved : tab.unsaved = true
  busy : tab.isBusy = tab.pendingRefresh.isSome

namespace Desk

open TabBar

variable {σ : Type} {desk before after : Desk σ} {delay now count index : Nat} {tab : Tab}
  {due rest : List Nat}

/-! ## What is due -/

theorem mem_autosaveDue (henabled : desk.autosave.enabled = true) (now index : Nat) :
    index ∈ desk.autosaveDue now ↔
      ∃ tab, desk.tab? index = some tab ∧ isDue desk.autosave.delay now tab = true := by
  rw [autosaveDue, if_pos henabled, List.mem_filter, List.mem_range, Option.any_eq_true]
  constructor
  · exact And.right
  · rintro ⟨tab, htab, hdue⟩
    exact ⟨(List.getElem?_eq_some_iff.mp htab).1, tab, htab, hdue⟩

theorem pairwise_autosaveDue (desk : Desk σ) (now : Nat) :
    (desk.autosaveDue now).Pairwise (· < ·) := by
  unfold autosaveDue
  split
  · exact List.pairwise_lt_range.filter _
  · exact .nil

theorem savable_of_isDue (h : isDue delay now tab = true) : tab.Savable := by
  simp only [isDue, Bool.and_eq_true, beq_iff_eq, Bool.not_eq_true', Option.isNone_iff_eq_none] at h
  obtain ⟨⟨⟨⟨⟨hdirty, hunsaved⟩, hwritable⟩, hidle⟩, -⟩, -⟩ := h
  exact
    { calm := by rw [hdirty]; rfl
      writable := hwritable
      unsaved := hunsaved
      busy := by rw [Tab.isBusy, hidle, Option.isSome_none, Bool.or_false] }

theorem isDue_queued (delay now : Nat) (tab : Tab) :
    isDue delay now { tab with saveQueued := true } = false := by
  simp [isDue]

theorem isDue_saving (delay now : Nat) (tab : Tab) (request : RequestId) :
    isDue delay now (tab.waitingFor request .save) = false := by
  simp [isDue, Tab.waitingFor]

/-! ## One due tab -/

/-- The desk once a save was queued for the tab at a position. -/
def queuedAt (desk : Desk σ) (index : Nat) (tab : Tab) : Desk σ :=
  { desk with
    bar := { desk.bar with tabs := desk.bar.tabs.set index { tab with saveQueued := true } } }

theorem saveTab_of_savable (htab : desk.tab? index = some tab) (h : tab.Savable) :
    desk.saveTab index =
      if tab.pendingRefresh.isSome then (.ok .queued, desk.queuedAt index tab)
      else (.ok .started, desk.savingAt index tab) := by
  have hfound : desk.bar.tabs[index]? = some tab := htab
  have hqueues : desk.dispatch (.queueSave index) = (.ok .updated, desk.queuedAt index tab) := by
    simp [dispatch, apply, act, hfound, queuedAt]
  have hstarts := startSave_eq_savingAt hfound h.calm h.writable
  unfold saveTab
  rw [htab]
  dsimp only
  split
  next reason hstate =>
    have hcalm := h.calm
    rw [hstate] at hcalm
    cases hcalm
  next =>
    rw [h.writable, h.unsaved, h.busy, hqueues, hstarts]
    rfl

/-! ## All due tabs -/

/-- The requests by which the tabs at some positions are saved, where no refresh runs for the
tab, with their numbers in order. -/
def saveRequests (desk : Desk σ) (due : List Nat) : List Request :=
  (((due.filterMap desk.tab?).filter (·.pendingRefresh.isNone)).zipIdx (desk.lastRequest + 1)).map
    fun (tab, id) => { tab := tab.id, id, errand := tab.errand .save }

/-- The tabs at some positions were saved, each of them once. -/
structure Dispatches (before : Desk σ) (due : List Nat) (after : Desk σ) : Prop where
  queued : ∀ index ∈ due, ∀ tab, before.tab? index = some tab →
    tab.pendingRefresh.isSome = true → after.tab? index = some { tab with saveQueued := true }
  started : ∀ index ∈ due, ∀ tab, before.tab? index = some tab → tab.pendingRefresh = none →
    ∃ request ∈ before.saveRequests due, request.tab = tab.id ∧
      request.errand = tab.errand .save ∧
      after.tab? index = some (tab.waitingFor request.id .save)
  others : ∀ index ∉ due, after.tab? index = before.tab? index
  traffic : after.traffic =
    { before.traffic with waiting := before.traffic.waiting ++ before.saveRequests due }
  lastRequest : after.lastRequest = before.lastRequest + (before.saveRequests due).length
  ids : after.bar.ids = before.bar.ids
  active : after.bar.active = before.bar.active
  lastId : after.bar.lastId = before.bar.lastId
  service : after.service = before.service
  notices : after.notices = before.notices
  autosave : after.autosave = before.autosave

theorem dispatches_nil (desk : Desk σ) : desk.Dispatches [] desk where
  queued := nofun
  started := nofun
  others _ _ := rfl
  traffic := by simp [saveRequests]
  lastRequest := rfl
  ids := rfl
  active := rfl
  lastId := rfl
  service := rfl
  notices := rfl
  autosave := rfl

theorem forall_mem_singleton_tab {p : Nat → Tab → Prop} (htab : desk.tab? index = some tab)
    (h : p index tab) : ∀ position ∈ [index], ∀ other, desk.tab? position = some other →
      p position other := by
  intro position hposition other hother
  obtain rfl := List.mem_singleton.mp hposition
  obtain rfl := Option.some.inj (htab.symm.trans hother)
  exact h

/-- The save of a refreshed tab is queued. -/
theorem dispatches_queuedAt (htab : desk.tab? index = some tab)
    (hrefreshing : tab.pendingRefresh.isSome = true) :
    desk.Dispatches [index] (desk.queuedAt index tab) := by
  have hlt : index < desk.bar.tabs.length := (List.getElem?_eq_some_iff.mp htab).1
  have hnone : desk.saveRequests [index] = [] := by
    simp [saveRequests, htab, Option.isSome_iff_ne_none.mp hrefreshing]
  constructor
  case queued =>
    exact forall_mem_singleton_tab htab fun _ => List.getElem?_set_self hlt
  case started =>
    refine forall_mem_singleton_tab htab fun hidle => ?_
    rw [hidle] at hrefreshing
    cases hrefreshing
  case others =>
    intro position hposition
    exact List.getElem?_set_ne fun heq => hposition (List.mem_singleton.mpr heq.symm)
  case traffic => rw [hnone, List.append_nil]; rfl
  case lastRequest => rw [hnone]; rfl
  case ids => exact map_set_of_eq (·.id) htab rfl
  case active => rfl
  case lastId => rfl
  case service => rfl
  case notices => rfl
  case autosave => rfl

/-- The save of any other tab is started. -/
theorem dispatches_savingAt (htab : desk.tab? index = some tab)
    (hidle : tab.pendingRefresh = none) :
    desk.Dispatches [index] (desk.savingAt index tab) := by
  have hlt : index < desk.bar.tabs.length := (List.getElem?_eq_some_iff.mp htab).1
  have hone : desk.saveRequests [index] =
      [{ tab := tab.id, id := desk.lastRequest + 1, errand := tab.errand .save }] := by
    simp [saveRequests, htab, hidle]
  constructor
  case queued =>
    refine forall_mem_singleton_tab htab fun hrefreshing => ?_
    rw [hidle] at hrefreshing
    cases hrefreshing
  case started =>
    refine forall_mem_singleton_tab htab fun _ => ?_
    rw [hone]
    exact ⟨_, List.mem_singleton_self _, rfl, rfl, List.getElem?_set_self hlt⟩
  case others =>
    intro position hposition
    exact List.getElem?_set_ne fun heq => hposition (List.mem_singleton.mpr heq.symm)
  case traffic => rw [hone]; rfl
  case lastRequest => rw [hone]; rfl
  case ids => exact map_set_of_eq (·.id) htab rfl
  case active => rfl
  case lastId => rfl
  case service => rfl
  case notices => rfl
  case autosave => rfl

/-- The requests of tabs that were left alone go on being numbered. -/
theorem saveRequests_append {middle : Desk σ}
    (hsame : ∀ index ∈ rest, middle.tab? index = before.tab? index)
    (hlast : middle.lastRequest = before.lastRequest + (before.saveRequests due).length) :
    before.saveRequests (due ++ rest) = before.saveRequests due ++ middle.saveRequests rest := by
  have hcount : (before.saveRequests due).length =
      ((due.filterMap before.tab?).filter (·.pendingRefresh.isNone)).length := by
    rw [saveRequests, List.length_map, List.length_zipIdx]
  have hrest : rest.filterMap middle.tab? = rest.filterMap before.tab? :=
    List.filterMap_congr hsame
  rw [saveRequests, List.filterMap_append, List.filter_append, List.zipIdx_append, List.map_append,
    ← hrest, Nat.add_right_comm, ← hcount, ← hlast]
  rfl

/-- Some tabs after others are all of them, if no tab is among both. -/
theorem Dispatches.append {middle : Desk σ} (h : before.Dispatches due middle)
    (h' : middle.Dispatches rest after) (hapart : due.Disjoint rest) :
    before.Dispatches (due ++ rest) after := by
  have hsame : ∀ index ∈ rest, middle.tab? index = before.tab? index :=
    fun index hindex => h.others index fun hdue => hapart hdue hindex
  have hkept : ∀ index ∈ due, after.tab? index = middle.tab? index :=
    fun index hindex => h'.others index fun hrest => hapart hindex hrest
  have hrequests := saveRequests_append hsame h.lastRequest
  constructor
  case queued =>
    intro index hindex tab htab hrefreshing
    rcases List.mem_append.mp hindex with hdue | hrest
    · rw [hkept index hdue, h.queued index hdue tab htab hrefreshing]
    · exact h'.queued index hrest tab ((hsame index hrest).trans htab) hrefreshing
  case started =>
    intro index hindex tab htab hidle
    rw [hrequests]
    rcases List.mem_append.mp hindex with hdue | hrest
    · obtain ⟨request, hrequest, hid, herrand, hwaits⟩ := h.started index hdue tab htab hidle
      exact ⟨request, List.mem_append_left _ hrequest, hid, herrand,
        (hkept index hdue).trans hwaits⟩
    · obtain ⟨request, hrequest, hstarted⟩ :=
        h'.started index hrest tab ((hsame index hrest).trans htab) hidle
      exact ⟨request, List.mem_append_right _ hrequest, hstarted⟩
  case others =>
    intro index hindex
    obtain ⟨hdue, hrest⟩ := not_or.mp (mt List.mem_append.mpr hindex)
    rw [h'.others index hrest, h.others index hdue]
  case traffic => rw [h'.traffic, h.traffic, hrequests, List.append_assoc]
  case lastRequest => rw [h'.lastRequest, h.lastRequest, hrequests, List.length_append, Nat.add_assoc]
  case ids => exact h'.ids.trans h.ids
  case active => exact h'.active.trans h.active
  case lastId => exact h'.lastId.trans h.lastId
  case service => exact h'.service.trans h.service
  case notices => exact h'.notices.trans h.notices
  case autosave => exact h'.autosave.trans h.autosave

/-- One due tab is counted and dispatched. -/
theorem autosaveTab_of_savable (count : Nat) (htab : desk.tab? index = some tab)
    (h : tab.Savable) :
    (autosaveTab (count, desk) index).1 = count + 1 ∧
      desk.Dispatches [index] (autosaveTab (count, desk) index).2 := by
  unfold autosaveTab
  cases hrefresh : tab.pendingRefresh with
  | none =>
      rw [saveTab_of_savable htab h, hrefresh]
      exact ⟨rfl, dispatches_savingAt htab hrefresh⟩
  | some pending =>
      rw [saveTab_of_savable htab h, hrefresh]
      exact ⟨rfl, dispatches_queuedAt htab (by rw [hrefresh]; rfl)⟩

/-- All due tabs are counted and dispatched, as each of them is left alone until its turn. -/
theorem foldl_autosaveTab_of_savable (count : Nat) (hnodup : due.Nodup)
    (hsavable : ∀ index ∈ due, ∃ tab, desk.tab? index = some tab ∧ tab.Savable) :
    (due.foldl autosaveTab (count, desk)).1 = count + due.length ∧
      desk.Dispatches due (due.foldl autosaveTab (count, desk)).2 := by
  induction due generalizing count desk with
  | nil => exact ⟨rfl, desk.dispatches_nil⟩
  | cons index rest ih =>
      obtain ⟨hindex, hrest⟩ := List.nodup_cons.mp hnodup
      obtain ⟨⟨tab, htab, hfirst⟩, hothers⟩ := List.forall_mem_cons.mp hsavable
      obtain ⟨hcount, hstep⟩ := autosaveTab_of_savable count htab hfirst
      have happart : [index].Disjoint rest := List.singleton_disjoint.mpr hindex
      have hlater : ∀ other ∈ rest, ∃ tab,
          (autosaveTab (count, desk) index).2.tab? other = some tab ∧ tab.Savable := by
        intro other hother
        rw [hstep.others other fun hmem => happart hmem hother]
        exact hothers other hother
      obtain ⟨htotal, hlast⟩ := ih (autosaveTab (count, desk) index).1 hrest hlater
      rw [List.foldl_cons, List.length_cons]
      refine ⟨?_, hstep.append hlast happart⟩
      rw [htotal, hcount]
      omega

/-! ## The round -/

theorem exists_savable_of_mem (hindex : index ∈ desk.autosaveDue now) :
    ∃ tab, desk.tab? index = some tab ∧ tab.Savable := by
  by_cases henabled : desk.autosave.enabled = true
  · obtain ⟨tab, htab, hdue⟩ := (mem_autosaveDue henabled now index).mp hindex
    exact ⟨tab, htab, savable_of_isDue hdue⟩
  · rw [autosaveDue, if_neg henabled] at hindex
    cases hindex

/-- No tab is due any more once those that were due have been dispatched. -/
theorem Dispatches.autosaveDue_eq_nil (h : before.Dispatches (before.autosaveDue now) after) :
    after.autosaveDue now = [] := by
  by_cases henabled : before.autosave.enabled = true
  · have henabled' : after.autosave.enabled = true := by rw [h.autosave, henabled]
    rw [List.eq_nil_iff_forall_not_mem]
    intro index hindex
    obtain ⟨tab', htab', hdue'⟩ := (mem_autosaveDue henabled' now index).mp hindex
    rw [h.autosave] at hdue'
    by_cases hindex : index ∈ before.autosaveDue now
    · obtain ⟨tab, htab, hdue⟩ := (mem_autosaveDue henabled now index).mp hindex
      cases hrefresh : tab.pendingRefresh with
      | none =>
          obtain ⟨request, -, -, -, hwaits⟩ := h.started index hindex tab htab hrefresh
          obtain rfl := Option.some.inj (htab'.symm.trans hwaits)
          rw [isDue_saving] at hdue'
          cases hdue'
      | some pending =>
          have hqueued := h.queued index hindex tab htab (by rw [hrefresh]; rfl)
          obtain rfl := Option.some.inj (htab'.symm.trans hqueued)
          rw [isDue_queued] at hdue'
          cases hdue'
    · rw [h.others index hindex] at htab'
      exact hindex ((mem_autosaveDue henabled now index).mpr ⟨tab', htab', hdue'⟩)
  · rw [autosaveDue, h.autosave, if_neg henabled]

theorem runAutosave_of_nothing_due (h : desk.autosaveDue now = []) :
    desk.runAutosave now = (0, desk) := by
  rw [runAutosave, h, List.foldl_nil]

/-- **Autosave dispatches each due tab once.** It tells how many there were, starts a save for
each that is not being refreshed, queues one for each that is, and leaves everything else
alone. Then nothing is due, so a second round at the same time does nothing. -/
theorem runAutosave_dispatches (desk : Desk σ) (now : Nat) :
    (desk.runAutosave now).1 = (desk.autosaveDue now).length ∧
      desk.Dispatches (desk.autosaveDue now) (desk.runAutosave now).2 ∧
      (desk.runAutosave now).2.autosaveDue now = [] ∧
      (desk.runAutosave now).2.runAutosave now = (0, (desk.runAutosave now).2) := by
  have hnodup : (desk.autosaveDue now).Nodup :=
    (desk.pairwise_autosaveDue now).imp fun hlt => Nat.ne_of_lt hlt
  obtain ⟨hcount, hdispatches⟩ :=
    foldl_autosaveTab_of_savable 0 hnodup fun _ hindex => exists_savable_of_mem hindex
  rw [Nat.zero_add] at hcount
  have hnone := hdispatches.autosaveDue_eq_nil
  exact ⟨hcount, hdispatches, hnone, runAutosave_of_nothing_due hnone⟩

end Desk

end Workbench
