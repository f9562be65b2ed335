import Workbench.Proofs.Desk.Requests
import Workbench.Proofs.Desk.Tickets

/-! # What the desk does, move by move

Whatever the desk does is made of few kinds of moves: an action that leaves the
requests alone, a queued save, a started request, the performance of requests
by the service, and the application of a result, after which a queued save of
the tab has its turn. What holds of all moves is proved for each kind once. -/

namespace Workbench

namespace Tab

/-- The tab once a request was started for it. -/
def waitingFor (tab : Tab) (request : RequestId) : Desk.Phase → Tab
  | .refresh => { tab with pendingRefresh := some { request, generation := tab.generation } }
  | .save =>
      { tab with
        state := .saving
        saveQueued := false
        pendingSave := some { request, generation := tab.generation } }

/-- What is asked of the file service for a tab. -/
def errand (tab : Tab) : Desk.Phase → Errand
  | .refresh => .read tab.path
  | .save => Desk.saveErrand tab

@[simp] theorem id_waitingFor (tab : Tab) (request : RequestId) (phase : Desk.Phase) :
    (tab.waitingFor request phase).id = tab.id := by
  cases phase <;> rfl

@[simp] theorem phase_errand (tab : Tab) (phase : Desk.Phase) :
    (tab.errand phase).phase = phase := by
  cases phase <;> rfl

end Tab

namespace Desk

open TabBar

variable {σ : Type} {before middle after desk : Desk σ} {actions later : List TabAction}
  {sparing : Prop}

/-- The action by which a request is started. -/
def startAction (index : Nat) (request : RequestId) : Phase → TabAction
  | .refresh => .refreshStarted index request
  | .save => .saveStarted index request

/-- The desk has started a request for an idle tab. A tab is saved only if it holds
unsaved edits. -/
structure Sends (before after : Desk σ) (phase : Phase) (index : Nat) (tab : Tab) : Prop where
  found : before.bar.tabs[index]? = some tab
  idle : tab.isBusy = false
  unsaved : phase = .save → tab.unsaved = true
  bar : after.bar = before.bar.next (startAction index (before.lastRequest + 1) phase)
  tabs : after.bar.tabs =
    before.bar.tabs.set index (tab.waitingFor (before.lastRequest + 1) phase)
  traffic : after.traffic = before.traffic.start
    { tab := tab.id, id := before.lastRequest + 1, errand := tab.errand phase }
  lastRequest : after.lastRequest = before.lastRequest + 1

/-- The new request is under way. -/
theorem Sends.tickets {phase : Phase} {index : Nat} {tab : Tab}
    (h : before.Sends after phase index tab) :
    after.traffic.tickets.Perm
      ({ tab := tab.id, id := before.lastRequest + 1, phase } :: before.traffic.tickets) := by
  have hstart := before.traffic.tickets_start
    { tab := tab.id, id := before.lastRequest + 1, errand := tab.errand phase }
  rw [Request.ticket, Tab.phase_errand] at hstart
  rw [h.traffic]
  exact hstart

/-- What becomes of the queued save of a tab when its turn has come. -/
inductive Turn (before : Desk σ) (id : TabId) (after : Desk σ) : List TabAction → Prop
  /-- None is queued, or another request of the tab is under way. -/
  | passed (h : before.Performs after [])
      (hbusy : ∀ tab ∈ before.bar.tabs, tab.id = id → tab.saveQueued = true → tab.isBusy = true) :
      Turn before id after []
  /-- The save has become pointless. -/
  | dropped {index : Nat} {tab : Tab} (hfound : before.bar.tabs[index]? = some tab)
      (hid : tab.id = id) (hpointless : tab.SavePointless)
      (h : before.Performs after [.cancelQueuedSave index]) :
      Turn before id after [.cancelQueuedSave index]
  | started {index : Nat} {tab : Tab} (hid : tab.id = id) (hqueued : tab.saveQueued = true)
      (h : before.Sends after .save index tab) :
      Turn before id after [.saveStarted index (before.lastRequest + 1)]

/-- The desk once a result was applied and before anything follows from it. -/
def answered (desk : Desk σ) (reply : Reply) (rest : List Reply) : Desk σ :=
  { desk with
    bar := desk.bar.next reply.action
    traffic := { desk.traffic with mailbox := rest } }

/-- One move of the desk, with the actions that it performs. A sparing move
points no tab at another path while that tab is being saved. -/
inductive Move (sparing : Prop) (before after : Desk σ) : List TabAction → Prop
  | acted {action : TabAction} (hsilent : action.Silent)
      (hspares : sparing → ∀ tab ∈ before.bar.tabs, tab.RepointedBy action →
        tab.pendingSave = none)
      (h : before.Performs after [action]) : Move sparing before after [action]
  | queued {index : Nat} {tab : Tab} (hfound : before.bar.tabs[index]? = some tab)
      (hbusy : tab.isBusy = true) (h : before.Performs after [.queueSave index]) :
      Move sparing before after [.queueSave index]
  | sent {phase : Phase} {index : Nat} {tab : Tab} (h : before.Sends after phase index tab) :
      Move sparing before after [startAction index (before.lastRequest + 1) phase]
  | shuffled (hbar : after.bar = before.bar) (hlast : after.lastRequest = before.lastRequest)
      (htickets : after.traffic.tickets.Perm before.traffic.tickets) :
      Move sparing before after []
  | delivered {reply : Reply} {rest : List Reply} {actions : List TabAction}
      (hmailbox : before.traffic.mailbox = reply :: rest)
      (hturn : (before.answered reply rest).Turn reply.tab after actions) :
      Move sparing before after (reply.action :: actions)

/-- Moves one after another. -/
inductive Moves (sparing : Prop) : Desk σ → Desk σ → List TabAction → Prop
  | refl (desk : Desk σ) : Moves sparing desk desk []
  | cons {before middle after : Desk σ} {actions later : List TabAction}
      (first : Move sparing before middle actions) (rest : Moves sparing middle after later) :
      Moves sparing before after (actions ++ later)

theorem Move.moves (h : Move sparing before after actions) : Moves sparing before after actions := by
  have hone := Moves.cons h (.refl after)
  rwa [List.append_nil] at hone

namespace Moves

theorem trans (h : Moves sparing before middle actions) (h' : Moves sparing middle after later) :
    Moves sparing before after (actions ++ later) := by
  induction h with
  | refl => exact h'
  | cons first _ ih =>
      rw [List.append_assoc]
      exact .cons first (ih h')

theorem of_unchanged (h : before.Performs after []) : Moves sparing before after [] := by
  apply Move.moves
  refine .shuffled h.bar h.lastRequest ?_
  rw [h.traffic]

theorem unchanged (h : Moves sparing before middle actions) (h' : middle.Performs after []) :
    Moves sparing before after actions := by
  have hboth := h.trans (.of_unchanged h')
  rwa [List.append_nil] at hboth

/-- Plain actions are moves of their own. -/
theorem of_performs (hplain : ∀ action ∈ actions, action.Plain)
    (h : before.Performs after actions) : Moves sparing before after actions := by
  induction actions generalizing before with
  | nil => exact of_unchanged h
  | cons action rest ih =>
      obtain ⟨hfirst, hrest⟩ := List.forall_mem_cons.mp hplain
      have hmove : Move sparing before { before with bar := before.bar.next action } [action] := by
        refine .acted hfirst.1 ?_ ⟨rfl, rfl, rfl⟩
        intro _ tab _ hrepointed
        exact absurd hrepointed.repoints hfirst.2
      exact .cons hmove (ih hrest ⟨h.bar, h.traffic, h.lastRequest⟩)

end Moves

theorem Turn.bar {id : TabId} (h : before.Turn id after actions) :
    after.bar = before.bar.run actions := by
  cases h with
  | passed h => exact h.bar
  | dropped _ _ _ h => exact h.bar
  | started _ _ h => exact h.bar

theorem Move.bar (h : Move sparing before after actions) : after.bar = before.bar.run actions := by
  cases h with
  | acted _ _ h => exact h.bar
  | queued _ _ h => exact h.bar
  | sent h => exact h.bar
  | shuffled hbar => exact hbar
  | delivered _ hturn => exact hturn.bar

/-! ## Starting requests -/

theorem sends_startRefresh {index : Nat} {tab : Tab} (hfound : desk.bar.tabs[index]? = some tab)
    (hidle : tab.isBusy = false) : desk.Sends (desk.startRefresh index) .refresh index tab := by
  have hlt : index < desk.bar.tabs.length := (List.getElem?_eq_some_iff.mp hfound).1
  have hstarted : desk.startRefresh index =
      { desk with
        bar := { desk.bar with
          tabs := desk.bar.tabs.set index (tab.waitingFor (desk.lastRequest + 1) .refresh) }
        traffic := desk.traffic.start
          { tab := tab.id, id := desk.lastRequest + 1, errand := tab.errand .refresh }
        lastRequest := desk.lastRequest + 1 } := by
    simp [startRefresh, dispatch, apply, act, hfound, tab?, List.getElem?_set_self hlt,
      Tab.waitingFor, Tab.errand, Tab.path]
  refine ⟨hfound, hidle, ?_, bar_startRefresh desk index, ?_, ?_, ?_⟩
  · intro hsave
    cases hsave
  · rw [hstarted]
  · rw [hstarted]
  · rw [hstarted]

/-- The desk once a save was started for the tab at a position. -/
def savingAt (desk : Desk σ) (index : Nat) (tab : Tab) : Desk σ :=
  logInfo
    { desk with
      bar := { desk.bar with
        tabs := desk.bar.tabs.set index (tab.waitingFor (desk.lastRequest + 1) .save) }
      traffic := desk.traffic.start
        { tab := tab.id, id := desk.lastRequest + 1, errand := tab.errand .save }
      lastRequest := desk.lastRequest + 1 } "save.started" tab.path

/-- The save of a tab that is neither in conflict nor read-only is started. -/
theorem startSave_eq_savingAt {index : Nat} {tab : Tab} (hfound : desk.bar.tabs[index]? = some tab)
    (hcalm : tab.state.isConflict = false) (hwritable : tab.file.readOnly = false) :
    desk.startSave index = (.ok (), desk.savingAt index tab) := by
  have hlt : index < desk.bar.tabs.length := (List.getElem?_eq_some_iff.mp hfound).1
  simp [startSave, dispatch, apply_saveStarted hfound hcalm hwritable, tab?, savingAt,
    List.getElem?_set_self hlt, Tab.waitingFor, Tab.errand, Tab.path, saveErrand, expectedEtag]

theorem sends_startSave {index : Nat} {tab : Tab} (hfound : desk.bar.tabs[index]? = some tab)
    (hidle : tab.isBusy = false) (hcalm : tab.state.isConflict = false)
    (hwritable : tab.file.readOnly = false) (hunsaved : tab.unsaved = true) :
    desk.Sends (desk.startSave index).2 .save index tab := by
  have hstarted := startSave_eq_savingAt hfound hcalm hwritable
  refine ⟨hfound, hidle, fun _ => hunsaved, bar_startSave desk index, ?_, ?_, ?_⟩
  · rw [hstarted, savingAt, bar_logInfo]
  · rw [hstarted, savingAt, traffic_logInfo]
  · rw [hstarted, savingAt, lastRequest_logInfo]

theorem moves_saveTab (desk : Desk σ) (index : Nat) :
    Moves sparing desk (desk.saveTab index).2 (desk.saveActions index) := by
  rcases desk.saveTab_cases index with
    ⟨h, hnone⟩ | ⟨tab, hfound, ⟨h, hbusy, hqueues⟩ |
      ⟨h, hidle, hcalm, hwritable, hunsaved, hstarts⟩⟩
  · rw [hnone]
    exact .of_unchanged h
  · rw [hqueues]
    exact (Move.queued hfound hbusy h).moves
  · rw [hstarts, h]
    exact (Move.sent (sends_startSave hfound hidle hcalm hwritable hunsaved)).moves

theorem moves_autosaved (desk : Desk σ) (index : Nat) :
    Moves sparing desk (desk.autosaved index) (desk.saveActions index) := by
  have hsaved : Moves sparing desk (desk.saveTab index).2 (desk.saveActions index) :=
    desk.moves_saveTab index
  unfold autosaved autosaveTab
  dsimp only
  split
  next h => rwa [h] at hsaved
  next h => rwa [h] at hsaved
  next h =>
    rw [h] at hsaved
    exact hsaved.unchanged ((Performs.refl _).logWarn _ _)

theorem moves_runAutosave (desk : Desk σ) (now : Nat) :
    Moves sparing desk (desk.runAutosave now).2
      (autosaveActions (desk.autosaveDue now) desk) := by
  rw [runAutosave, snd_foldl_autosaveTab]
  generalize desk.autosaveDue now = due
  induction due generalizing desk with
  | nil => exact .refl desk
  | cons index rest ih => exact (desk.moves_autosaved index).trans (ih _)

/-! ## Applying results -/

theorem turn_startQueuedSave (hbar : desk.bar.Numbered) (hwritable : desk.bar.Writable)
    (id : TabId) : desk.Turn id (desk.startQueuedSave id) (desk.queuedActions id) := by
  unfold startQueuedSave queuedActions
  cases hfind : desk.bar.findId? id with
  | none =>
      refine .passed (.refl desk) ?_
      intro tab htab hid
      exact absurd hid (findId?_eq_none_iff.mp hfind tab htab)
  | some index =>
      obtain ⟨tab, hfound, hid⟩ := findId?_eq_some hfind
      have htab : desk.tab? index = some tab := hfound
      simp only [htab]
      split
      next hwaits =>
        refine .passed (.refl desk) ?_
        intro other hother hother_id hqueued
        obtain rfl := eq_of_id_eq hbar.nodup hother (List.mem_of_getElem? hfound)
          (hother_id.trans hid.symm)
        rw [hqueued] at hwaits
        exact hwaits
      next hready =>
        obtain ⟨hqueued, hidle⟩ : tab.saveQueued = true ∧ tab.isBusy = false := by
          simpa using hready
        split
        next hpointless =>
          have hpointless : tab.SavePointless := by simpa [Tab.SavePointless] using hpointless
          exact .dropped hfound hid hpointless
            (((Performs.refl desk).logInfo _ _).trans (performs_dispatch _ _))
        next hneeded =>
          obtain ⟨hcalm, hunsaved⟩ : tab.state.isConflict = false ∧ tab.unsaved = true := by
            simpa using hneeded
          have hsends := sends_startSave hfound hidle hcalm
            (hwritable tab (List.mem_of_getElem? hfound) hunsaved) hunsaved
          refine .started hid hqueued ?_
          split
          next h => rwa [h] at hsends
          next h =>
            rw [h] at hsends
            exact ⟨hsends.1, hsends.2, hsends.3, hsends.4, hsends.5, hsends.6, hsends.7⟩

theorem Turn.of_performs {id : TabId} (hnoted : before.Performs middle [])
    (h : middle.Turn id after actions) : before.Turn id after actions := by
  have hbar : middle.bar = before.bar := hnoted.bar
  cases h with
  | passed h hbusy => exact .passed (hnoted.trans h) (hbar ▸ hbusy)
  | dropped hfound hid hpointless h =>
      exact .dropped (hbar ▸ hfound) hid hpointless (hnoted.trans h)
  | started hid hqueued h =>
      have hlast := hnoted.lastRequest
      obtain ⟨hfound, hidle, hunsaved, hnext, htabs, htraffic, hsent⟩ := h
      rw [hbar, hlast] at *
      rw [hnoted.traffic] at htraffic
      exact .started hid hqueued ⟨hfound, hidle, hunsaved, hnext, htabs, htraffic, hsent⟩

/-- The application of the oldest result gives a queued save of its tab a turn. -/
theorem turn_deliver (hbar : desk.bar.Numbered) (hwritable : desk.bar.Writable) {reply : Reply}
    {rest : List Reply} (hmailbox : desk.traffic.mailbox = reply :: rest) :
    ∃ actions, desk.deliverActions = reply.action :: actions ∧
      (desk.answered reply rest).Turn reply.tab desk.deliver actions := by
  unfold deliver deliverActions
  rw [hmailbox]
  dsimp only [applyReply]
  rw [dispatch_snd]
  generalize (dispatch _ reply.action).1 = outcome
  -- A report comes between the application and the turn.
  let noted := (desk.answered reply rest).report (phaseOf reply.result) outcome
  have hnoted : (desk.answered reply rest).Performs noted [] := (Performs.refl _).report _ _
  have hturn : noted.Turn reply.tab (noted.startQueuedSave reply.tab)
      (noted.queuedActions reply.tab) := by
    apply turn_startQueuedSave
    · rw [hnoted.bar]
      exact hbar.next reply.action
    · rw [hnoted.bar]
      exact hwritable.next hbar reply.action
  refine ⟨noted.queuedActions reply.tab, ?_, hturn.of_performs hnoted⟩
  rw [answerActions, queuedActions_congr hnoted.bar hnoted.lastRequest]
  rfl

theorem moves_deliver (hbar : desk.bar.Numbered) (hwritable : desk.bar.Writable) :
    Moves sparing desk desk.deliver desk.deliverActions := by
  cases hmailbox : desk.traffic.mailbox with
  | nil =>
      simp only [deliver, deliverActions, hmailbox]
      exact .refl desk
  | cons reply rest =>
      obtain ⟨actions, hactions, hturn⟩ := turn_deliver hbar hwritable hmailbox
      rw [hactions]
      exact (Move.delivered hmailbox hturn).moves

section Service

variable [FileService σ]

/-- The service performs requests, which stay under way. -/
theorem tickets_release (desk : Desk σ) (position : Nat) :
    (desk.release position).2.traffic.tickets.Perm desk.traffic.tickets := by
  unfold release
  split
  · exact .refl _
  next request hrequest =>
    apply Traffic.tickets_answered hrequest
    rw [Reply.ticket, Request.ticket, Errand.phaseOf_perform]

theorem tickets_releaseNext (desk : Desk σ) :
    desk.releaseNext.traffic.tickets.Perm desk.traffic.tickets := by
  unfold releaseNext
  split
  · exact desk.tickets_release 0
  · exact tickets_release _ _

@[simp] theorem lastRequest_release (desk : Desk σ) (position : Nat) :
    (desk.release position).2.lastRequest = desk.lastRequest := by
  unfold release
  split <;> rfl

@[simp] theorem lastRequest_releaseNext (desk : Desk σ) :
    desk.releaseNext.lastRequest = desk.lastRequest := by
  unfold releaseNext
  split <;> simp

theorem moves_release (desk : Desk σ) (position : Nat) :
    Moves sparing desk (desk.release position).2 [] :=
  (Move.shuffled (desk.bar_release position) (desk.lastRequest_release position)
    (desk.tickets_release position)).moves

theorem moves_releaseNext (desk : Desk σ) : Moves sparing desk desk.releaseNext [] :=
  (Move.shuffled desk.bar_releaseNext desk.lastRequest_releaseNext desk.tickets_releaseNext).moves

theorem moves_activateAndLoad (desk : Desk σ) (index : Nat) :
    Moves sparing desk (desk.activateAndLoad index) (desk.activateActions index) := by
  unfold activateAndLoad activateActions
  cases htab : desk.tab? index with
  | none => exact .refl desk
  | some tab =>
      dsimp only
      refine Moves.trans ?_ (.of_performs ?_ (performs_dispatch _ (.activate index)))
      · split
        · split
          next => exact .refl desk
          next hidle =>
            exact (Move.sent (sends_startRefresh htab (by simpa using hidle))).moves
        · exact .of_performs (forall_loadActions (fun _ _ _ _ => ⟨trivial, id⟩) index)
            (desk.performs_loadNow index)
      · exact List.forall_mem_singleton.mpr ⟨trivial, id⟩

theorem moves_clickTab (desk : Desk σ) (index : Nat) :
    Moves sparing desk (desk.clickTab index) (desk.clickActions index) := by
  unfold clickTab clickActions
  split
  · exact .refl desk
  · exact desk.moves_activateAndLoad index

theorem moves_restore (desk : Desk σ) (snapshot : Snapshot) :
    Moves sparing desk (desk.restore snapshot).2 (desk.restoreActions snapshot) := by
  unfold restore restoreActions
  dsimp only
  rw [foldl_restoreTab_snd]
  let adding := snapshot.openPaths.map fun path => TabAction.openUnloaded (.ofPath path)
  have hplain : ∀ action ∈ adding, action.Plain := by
    intro action haction
    obtain ⟨path, -, rfl⟩ := List.mem_map.mp haction
    exact ⟨trivial, id⟩
  have hadded : Moves sparing desk { desk with bar := desk.bar.run adding } adding :=
    .of_performs hplain ⟨rfl, rfl, rfl⟩
  refine hadded.trans (Moves.unchanged ?_ ((Performs.refl _).logInfo _ _))
  split
  next index hindex =>
    rw [hindex]
    exact moves_activateAndLoad _ index
  next hnone =>
    rw [hnone]
    exact .refl _

end Service

end Desk

end Workbench
