import Workbench.Desk.Conflict
import Workbench.Desk.Saving
import Workbench.Desk.Snapshot
import Workbench.Proofs.Tabs.Run

/-! # What the desk asks of the tab bar

Every operation of the desk changes the tabs by actions only. This module lists
the actions of each operation, with the answers of the file service that they
carry, and shows that the bar after the operation is the bar after a run of
these actions. -/

namespace Workbench.Desk

open TabBar

variable {σ : Type} {desk : Desk σ} {p : TabAction → Prop}

/-! ## What leaves the bar alone -/

@[simp] theorem lastRequest_logInfo (desk : Desk σ) (event message : String) :
    (desk.logInfo event message).lastRequest = desk.lastRequest := rfl

@[simp] theorem lastRequest_logWarn (desk : Desk σ) (event message : String) :
    (desk.logWarn event message).lastRequest = desk.lastRequest := rfl

@[simp] theorem lastRequest_logError (desk : Desk σ) (event message : String) :
    (desk.logError event message).lastRequest = desk.lastRequest := rfl

@[simp] theorem lastRequest_notify (desk : Desk σ) (level : NoticeLevel) (message : String)
    (details : Option String) : (desk.notify level message details).lastRequest =
      desk.lastRequest := by
  unfold notify
  dsimp only
  split <;> rfl

/-- A report changes notices and journal only. -/
theorem report_frame (desk : Desk σ) (phase : Phase) (outcome : Except TabError TabOutcome) :
    (desk.report phase outcome).bar = desk.bar ∧
      (desk.report phase outcome).service = desk.service ∧
      (desk.report phase outcome).traffic = desk.traffic ∧
      (desk.report phase outcome).lastRequest = desk.lastRequest := by
  unfold report
  split <;> simp

@[simp] theorem bar_report (desk : Desk σ) (phase : Phase)
    (outcome : Except TabError TabOutcome) : (desk.report phase outcome).bar = desk.bar :=
  (desk.report_frame phase outcome).1

@[simp] theorem service_report (desk : Desk σ) (phase : Phase)
    (outcome : Except TabError TabOutcome) : (desk.report phase outcome).service = desk.service :=
  (desk.report_frame phase outcome).2.1

@[simp] theorem traffic_report (desk : Desk σ) (phase : Phase)
    (outcome : Except TabError TabOutcome) : (desk.report phase outcome).traffic = desk.traffic :=
  (desk.report_frame phase outcome).2.2.1

@[simp] theorem lastRequest_report (desk : Desk σ) (phase : Phase)
    (outcome : Except TabError TabOutcome) :
    (desk.report phase outcome).lastRequest = desk.lastRequest :=
  (desk.report_frame phase outcome).2.2.2

/-! ## Single actions -/

/-- An action changes the bar and nothing else. -/
theorem dispatch_snd (desk : Desk σ) (action : TabAction) :
    (desk.dispatch action).2 = { desk with bar := desk.bar.next action } := by
  unfold dispatch next
  cases desk.bar.apply action with
  | error error => rfl
  | ok result => rfl

theorem bar_dispatch {action : TabAction} {answer : Except TabError TabOutcome} {after : Desk σ}
    (h : desk.dispatch action = (answer, after)) :
    after = { desk with bar := desk.bar.next action } := by
  rw [← dispatch_snd, h]

@[simp] theorem bar_perform (desk : Desk σ) (action : TabAction) :
    (desk.perform action).bar = desk.bar.next action := by
  rw [perform, dispatch_snd]

/-- The desk has performed some actions. The files and what was told may have
changed besides, but no request was started, taken up or applied. -/
structure Performs (before after : Desk σ) (actions : List TabAction) : Prop where
  bar : after.bar = before.bar.run actions
  traffic : after.traffic = before.traffic
  lastRequest : after.lastRequest = before.lastRequest

namespace Performs

variable {before middle after : Desk σ} {actions later : List TabAction}

theorem refl (desk : Desk σ) : desk.Performs desk [] := ⟨rfl, rfl, rfl⟩

theorem trans (h : before.Performs middle actions) (h' : middle.Performs after later) :
    before.Performs after (actions ++ later) where
  bar := by rw [h'.bar, h.bar, run_append]
  traffic := h'.traffic.trans h.traffic
  lastRequest := h'.lastRequest.trans h.lastRequest

theorem logInfo (h : before.Performs after actions) (event message : String) :
    before.Performs (after.logInfo event message) actions := ⟨h.1, h.2, h.3⟩

theorem logWarn (h : before.Performs after actions) (event message : String) :
    before.Performs (after.logWarn event message) actions := ⟨h.1, h.2, h.3⟩

theorem notify (h : before.Performs after actions) (level : NoticeLevel) (message : String)
    (details : Option String) : before.Performs (after.notify level message details) actions where
  bar := (after.bar_notify level message details).trans h.bar
  traffic := (after.traffic_notify level message details).trans h.traffic
  lastRequest := (after.lastRequest_notify level message details).trans h.lastRequest

theorem report (h : before.Performs after actions) (phase : Phase)
    (outcome : Except TabError TabOutcome) : before.Performs (after.report phase outcome) actions where
  bar := (after.bar_report phase outcome).trans h.bar
  traffic := (after.traffic_report phase outcome).trans h.traffic
  lastRequest := (after.lastRequest_report phase outcome).trans h.lastRequest

theorem with_service (h : before.Performs after actions) (service : σ) :
    before.Performs { after with service } actions := ⟨h.1, h.2, h.3⟩

end Performs

theorem performs_of_dispatch {action : TabAction} {answer : Except TabError TabOutcome}
    {after : Desk σ} (h : desk.dispatch action = (answer, after)) :
    desk.Performs after [action] := by
  rw [bar_dispatch h]
  exact ⟨rfl, rfl, rfl⟩

theorem performs_dispatch (desk : Desk σ) (action : TabAction) :
    desk.Performs (desk.dispatch action).2 [action] := performs_of_dispatch rfl

theorem performs_of_apply {action : TabAction} {outcome : TabOutcome} {bar : TabBar}
    (h : desk.bar.apply action = .ok (outcome, bar)) :
    desk.Performs { desk with bar } [action] where
  bar := (next_of_ok h).symm
  traffic := rfl
  lastRequest := rfl

theorem performs_openFile (desk : Desk σ) (file : FileInfo) (content : String)
    (encoding : Encoding) (etag : Option String) :
    desk.Performs (desk.openFile file content encoding etag).2
      [.openTab file content encoding etag] := ⟨rfl, rfl, rfl⟩

theorem openUnloaded_snd (desk : Desk σ) (file : FileInfo) :
    (desk.openUnloaded file).2 = { desk with bar := desk.bar.next (.openUnloaded file) } := by
  unfold openUnloaded
  split
  next h => exact bar_dispatch h
  next h => exact bar_dispatch h

theorem performs_openUnloaded (desk : Desk σ) (file : FileInfo) :
    desk.Performs (desk.openUnloaded file).2 [.openUnloaded file] := by
  rw [openUnloaded_snd]
  exact ⟨rfl, rfl, rfl⟩

theorem performs_closeAll (desk : Desk σ) : desk.Performs desk.closeAll.2 [.closeAll] :=
  desk.performs_dispatch .closeAll

theorem performs_moveTab (desk : Desk σ) (source target : Nat) :
    desk.Performs (desk.moveTab source target).2 [.reorder source target] :=
  desk.performs_dispatch (.reorder source target)

theorem performs_editTab (desk : Desk σ) (index : Nat) (content : String) (time : Nat) :
    desk.Performs (desk.editTab index content time).2 [.edit index content time] :=
  desk.performs_dispatch (.edit index content time)

theorem performs_updateTabPath (desk : Desk σ) (oldPath newPath : String) :
    desk.Performs (desk.updateTabPath oldPath newPath).2
      [.updatePath (Path.normalize oldPath) (Path.normalize newPath)] := by
  unfold updateTabPath
  dsimp only
  split
  · exact (desk.performs_dispatch _).logInfo _ _
  · exact desk.performs_dispatch _

theorem performs_updateTabPathsUnder (desk : Desk σ) (oldFolder newFolder : String) :
    desk.Performs (desk.updateTabPathsUnder oldFolder newFolder).2
      [.updatePathsUnder (Path.normalize oldFolder) (Path.normalize newFolder)] := by
  unfold updateTabPathsUnder
  dsimp only
  exact desk.performs_dispatch _

theorem performs_applyExternalWrite (desk : Desk σ) (path content : String) (encoding : Encoding)
    (write : WriteResult) :
    desk.Performs (desk.applyExternalWrite path content encoding write)
      [.externalWrite (Path.normalize path) content encoding write] := by
  unfold applyExternalWrite
  dsimp only
  exact (desk.performs_dispatch _).report _ _

theorem service_applyExternalWrite (desk : Desk σ) (path content : String) (encoding : Encoding)
    (write : WriteResult) :
    (desk.applyExternalWrite path content encoding write).service = desk.service := by
  unfold applyExternalWrite
  dsimp only
  rw [service_report, dispatch_snd]

/-! ## Requests -/

theorem bar_startRefresh (desk : Desk σ) (index : Nat) :
    (desk.startRefresh index).bar =
      desk.bar.next (.refreshStarted index (desk.lastRequest + 1)) := by
  unfold startRefresh
  dsimp only
  split
  next h => rw [bar_dispatch h]
  next h =>
    split
    · rw [bar_dispatch h]
    · rw [bar_dispatch h]

theorem bar_startSave (desk : Desk σ) (index : Nat) :
    (desk.startSave index).2.bar = desk.bar.next (.saveStarted index (desk.lastRequest + 1)) := by
  unfold startSave
  dsimp only
  split
  next h => rw [bar_dispatch h]
  next h =>
    split
    · rw [bar_dispatch h]
    · rw [bar_logInfo, bar_dispatch h]

/-- The actions of a wish to save. -/
def saveActions (desk : Desk σ) (index : Nat) : List TabAction :=
  match desk.tab? index with
  | none => []
  | some tab =>
      if tab.state.isConflict || tab.file.readOnly || !tab.unsaved then []
      else if tab.isBusy then [.queueSave index]
      else [.saveStarted index (desk.lastRequest + 1)]

/-- A wish to save is refused or has nothing to save, or queues the save behind a
running request, or starts it. -/
theorem saveTab_cases (desk : Desk σ) (index : Nat) :
    (desk.Performs (desk.saveTab index).2 [] ∧ desk.saveActions index = []) ∨
      ∃ tab, desk.bar.tabs[index]? = some tab ∧
        (desk.Performs (desk.saveTab index).2 [.queueSave index] ∧ tab.isBusy = true ∧
            desk.saveActions index = [.queueSave index] ∨
          (desk.saveTab index).2 = (desk.startSave index).2 ∧ tab.isBusy = false ∧
            tab.state.isConflict = false ∧ tab.file.readOnly = false ∧ tab.unsaved = true ∧
            desk.saveActions index = [.saveStarted index (desk.lastRequest + 1)]) := by
  unfold saveTab saveActions
  cases htab : desk.tab? index with
  | none => exact .inl ⟨.refl desk, rfl⟩
  | some tab =>
      dsimp only
      split
      next reason hstate =>
        have hconflict : tab.state.isConflict = true := by
          rw [hstate]
          rfl
        rw [hconflict]
        exact .inl ⟨(Performs.refl desk).logWarn _ _, rfl⟩
      next hstate =>
        have hcalm : tab.state.isConflict = false := SaveState.isConflict_eq_false hstate
        rw [hcalm, Bool.false_or]
        cases hreadOnly : tab.file.readOnly with
        | true => exact .inl ⟨.refl desk, rfl⟩
        | false =>
            cases hunsaved : tab.unsaved with
            | false => exact .inl ⟨.refl desk, rfl⟩
            | true =>
                refine .inr ⟨tab, htab, ?_⟩
                cases tab.isBusy with
                | true => exact .inl ⟨desk.performs_dispatch (.queueSave index), rfl, rfl⟩
                | false => exact .inr ⟨rfl, rfl, hcalm, hreadOnly, hunsaved, rfl⟩

theorem bar_saveTab (desk : Desk σ) (index : Nat) :
    (desk.saveTab index).2.bar = desk.bar.run (desk.saveActions index) := by
  rcases desk.saveTab_cases index with
    ⟨h, hnone⟩ | ⟨tab, -, ⟨h, -, hqueues⟩ | ⟨h, -, -, -, -, hstarts⟩⟩
  · rw [hnone, h.bar]
  · rw [hqueues, h.bar]
  · rw [hstarts, h, bar_startSave]
    rfl

/-- The desk after one due tab was saved, whatever was counted before. -/
def autosaved (desk : Desk σ) (index : Nat) : Desk σ := (autosaveTab (0, desk) index).2

theorem snd_autosaveTab (count : Nat) (desk : Desk σ) (index : Nat) :
    (autosaveTab (count, desk) index).2 = desk.autosaved index := by
  unfold autosaved autosaveTab
  dsimp only
  split <;> rfl

theorem snd_foldl_autosaveTab (indices : List Nat) (count : Nat) (desk : Desk σ) :
    (indices.foldl autosaveTab (count, desk)).2 = indices.foldl autosaved desk := by
  induction indices generalizing count desk with
  | nil => rfl
  | cons index rest ih =>
      rw [List.foldl_cons, List.foldl_cons, ← snd_autosaveTab count]
      exact ih _ _

theorem bar_autosaved (desk : Desk σ) (index : Nat) :
    (desk.autosaved index).bar = desk.bar.run (desk.saveActions index) := by
  rw [← bar_saveTab]
  unfold autosaved autosaveTab
  dsimp only
  split
  next h => rw [h]
  next h => rw [h]
  next h => rw [h, bar_logWarn]

/-- The actions of saving some tabs one after another. -/
def autosaveActions : List Nat → Desk σ → List TabAction
  | [], _ => []
  | index :: rest, desk => desk.saveActions index ++ autosaveActions rest (desk.autosaved index)

theorem bar_foldl_autosaved (indices : List Nat) (desk : Desk σ) :
    (indices.foldl autosaved desk).bar = desk.bar.run (autosaveActions indices desk) := by
  induction indices generalizing desk with
  | nil => rfl
  | cons index rest ih =>
      rw [List.foldl_cons, ih, autosaveActions, run_append, bar_autosaved]

theorem bar_runAutosave (desk : Desk σ) (now : Nat) :
    (desk.runAutosave now).2.bar =
      desk.bar.run (autosaveActions (desk.autosaveDue now) desk) := by
  rw [runAutosave, snd_foldl_autosaveTab, bar_foldl_autosaved]

/-! ## Answers -/

/-- The actions by which a queued save is started or dropped. -/
def queuedActions (desk : Desk σ) (id : TabId) : List TabAction :=
  match desk.bar.findId? id with
  | none => []
  | some index =>
      match desk.tab? index with
      | none => []
      | some tab =>
          if !tab.saveQueued || tab.isBusy then []
          else if tab.state.isConflict || !tab.unsaved then [.cancelQueuedSave index]
          else [.saveStarted index (desk.lastRequest + 1)]

/-- Whether a queued save is started depends on the tabs alone, and its number on
the number of the latest request. -/
theorem queuedActions_congr {before after : Desk σ} (hbar : after.bar = before.bar)
    (hlast : after.lastRequest = before.lastRequest) (id : TabId) :
    after.queuedActions id = before.queuedActions id := by
  simp only [queuedActions, tab?, hbar, hlast]

theorem bar_startQueuedSave (desk : Desk σ) (id : TabId) :
    (desk.startQueuedSave id).bar = desk.bar.run (desk.queuedActions id) := by
  unfold startQueuedSave queuedActions
  cases desk.bar.findId? id with
  | none => rfl
  | some index =>
      dsimp only
      cases desk.tab? index with
      | none => rfl
      | some tab =>
          dsimp only
          split
          · rfl
          · split
            · rw [bar_perform, bar_logInfo, run_cons, run_nil]
            · rw [run_cons, run_nil, ← bar_startSave]
              split
              next h => rw [h]
              next h => rw [h, bar_logWarn]

/-- The actions of applying an answer. -/
def answerActions (desk : Desk σ) (reply : Reply) : List TabAction :=
  reply.action :: queuedActions { desk with bar := desk.bar.next reply.action } reply.tab

theorem bar_applyReply (desk : Desk σ) (reply : Reply) :
    (desk.applyReply reply).bar = desk.bar.run (desk.answerActions reply) := by
  unfold applyReply
  dsimp only
  rw [bar_startQueuedSave, bar_report, dispatch_snd, answerActions, run_cons]
  congr 1
  apply queuedActions_congr
  · rw [bar_report]
  · rw [lastRequest_report]

/-- The actions of applying the oldest answer. -/
def deliverActions (desk : Desk σ) : List TabAction :=
  match desk.traffic.mailbox with
  | [] => []
  | reply :: _ => desk.answerActions reply

theorem bar_deliver (desk : Desk σ) :
    desk.deliver.bar = desk.bar.run desk.deliverActions := by
  unfold deliver deliverActions
  cases desk.traffic.mailbox with
  | nil => rfl
  | cons reply rest =>
      dsimp only
      rw [bar_applyReply]
      rfl

/-- Adding tabs for the paths of a snapshot changes the bar only. -/
theorem foldl_restoreTab_snd (paths : List String) (count : Nat) (desk : Desk σ) :
    (paths.foldl restoreTab (count, desk)).2 =
      { desk with
        bar := desk.bar.run (paths.map fun path => .openUnloaded (.ofPath path)) } := by
  induction paths generalizing count desk with
  | nil => rfl
  | cons path rest ih =>
      have hstep : ∃ count', restoreTab (count, desk) path =
          (count', { desk with bar := desk.bar.next (.openUnloaded (.ofPath path)) }) := by
        unfold restoreTab
        split
        next hfound =>
          obtain ⟨index, hindex⟩ := Option.isSome_iff_exists.mp hfound
          -- The path is open already, so the action that was skipped does nothing.
          have hsame : desk.bar.next (.openUnloaded (.ofPath path)) = desk.bar := by
            simp only [next, TabBar.apply, TabBar.openUnloaded, FileInfo.path_ofPath, hindex]
          exact ⟨count, by rw [hsame]⟩
        next => exact ⟨count + 1, by rw [openUnloaded_snd]⟩
      obtain ⟨count', hstep⟩ := hstep
      rw [List.foldl_cons, hstep, ih]
      rfl

section Service

variable [FileService σ]

@[simp] theorem bar_release (desk : Desk σ) (position : Nat) :
    (desk.release position).2.bar = desk.bar := by
  unfold release
  split <;> rfl

@[simp] theorem bar_releaseNext (desk : Desk σ) : desk.releaseNext.bar = desk.bar := by
  unfold releaseNext
  split <;> simp

/-! ## Reading a tab at once -/

/-- A property holds of opening a tab with anything that the service reads. -/
def OpeningsSatisfy (p : TabAction → Prop) (service : σ) : Prop :=
  ∀ file path content, (FileService.fetchFile path service).1 = .ok content →
    p (.openTab file content.content content.encoding (some content.etag))

/-- The actions of reading the file of the tab at a position at once. -/
def loadActions (desk : Desk σ) (index : Nat) : List TabAction :=
  match desk.tab? index with
  | none => []
  | some tab =>
      match (FileService.fetchFile tab.path desk.service).1 with
      | .ok content =>
          [.openTab (tab.file.withMeta content) content.content content.encoding
            (some content.etag)]
      | .error _ => []

/-- What holds of openings holds of the actions of a reading. -/
theorem forall_loadActions (hopen : OpeningsSatisfy p desk.service) (index : Nat) :
    ∀ action ∈ desk.loadActions index, p action := by
  unfold loadActions
  split
  · exact List.forall_mem_nil _
  · split
    next hread => exact List.forall_mem_singleton.mpr (hopen _ _ _ hread)
    next => exact List.forall_mem_nil _

theorem performs_loadNow (desk : Desk σ) (index : Nat) :
    desk.Performs (desk.loadNow index) (desk.loadActions index) := by
  unfold loadNow loadActions
  cases desk.tab? index with
  | none => exact .refl desk
  | some tab =>
      unfold fetchFile
      dsimp only
      cases FileService.fetchFile tab.path desk.service with
      | mk answer service =>
          have hread := (Performs.refl desk).with_service service
          cases answer with
          | ok content => exact hread.trans (performs_openFile _ _ _ _ _)
          | error error => exact (hread.logWarn _ _).notify _ _ _

/-- The actions of selecting a tab. -/
def activateActions (desk : Desk σ) (index : Nat) : List TabAction :=
  match desk.tab? index with
  | none => []
  | some tab =>
      (if tab.isLoaded then
        (if tab.isBusy then [] else [.refreshStarted index (desk.lastRequest + 1)])
      else desk.loadActions index) ++ [.activate index]

theorem forall_activateActions (hopen : OpeningsSatisfy p desk.service)
    (hrefresh : ∀ index request, p (.refreshStarted index request))
    (hactivate : ∀ index, p (.activate index)) (index : Nat) :
    ∀ action ∈ desk.activateActions index, p action := by
  unfold activateActions
  split
  · exact List.forall_mem_nil _
  · rw [List.forall_mem_append, List.forall_mem_singleton]
    refine ⟨?_, hactivate index⟩
    split
    · split
      · exact List.forall_mem_nil _
      · exact List.forall_mem_singleton.mpr (hrefresh _ _)
    · exact forall_loadActions hopen index

theorem bar_activateAndLoad (desk : Desk σ) (index : Nat) :
    (desk.activateAndLoad index).bar = desk.bar.run (desk.activateActions index) := by
  unfold activateAndLoad activateActions
  cases desk.tab? index with
  | none => rfl
  | some tab =>
      dsimp only
      rw [bar_perform, run_append, run_cons, run_nil]
      congr 1
      split
      · split
        · rfl
        · rw [bar_startRefresh, run_cons, run_nil]
      · rw [(desk.performs_loadNow index).bar]

/-- The actions of a click on a tab. -/
def clickActions (desk : Desk σ) (index : Nat) : List TabAction :=
  if desk.bar.active = some index ∨ desk.bar.tabs.length ≤ index then []
  else desk.activateActions index

theorem bar_clickTab (desk : Desk σ) (index : Nat) :
    (desk.clickTab index).bar = desk.bar.run (desk.clickActions index) := by
  unfold clickTab clickActions
  split
  · rfl
  · exact bar_activateAndLoad desk index

/-- The actions of reading the active tab if it was never read. -/
def ensureActions (desk : Desk σ) : List TabAction :=
  match desk.bar.active with
  | none => []
  | some index =>
      match desk.tab? index with
      | none => []
      | some tab => if tab.etag.isNone && !tab.unsaved then desk.loadActions index else []

theorem forall_ensureActions (hopen : OpeningsSatisfy p desk.service) :
    ∀ action ∈ desk.ensureActions, p action := by
  unfold ensureActions
  split
  · exact List.forall_mem_nil _
  · split
    · exact List.forall_mem_nil _
    · split
      · exact forall_loadActions hopen _
      · exact List.forall_mem_nil _

theorem performs_ensureActiveLoaded (desk : Desk σ) :
    desk.Performs desk.ensureActiveLoaded desk.ensureActions := by
  unfold ensureActiveLoaded ensureActions
  cases desk.bar.active with
  | none => exact .refl desk
  | some index =>
      dsimp only
      cases desk.tab? index with
      | none => exact .refl desk
      | some tab =>
          dsimp only
          split
          · exact performs_loadNow desk index
          · exact .refl desk

/-! ## Opening and closing -/

/-- The actions of reading a file and opening it. -/
def openPathActions (desk : Desk σ) (path : String) : List TabAction :=
  match (FileService.fetchFile (Path.normalize path) desk.service).1 with
  | .ok content =>
      [.openTab (.ofContent content) content.content content.encoding (some content.etag)]
  | .error _ => []

theorem forall_openPathActions (hopen : OpeningsSatisfy p desk.service) (path : String) :
    ∀ action ∈ desk.openPathActions path, p action := by
  unfold openPathActions
  split
  next hread => exact List.forall_mem_singleton.mpr (hopen _ _ _ hread)
  next => exact List.forall_mem_nil _

theorem performs_openPath (desk : Desk σ) (path : String) :
    desk.Performs (desk.openPath path).2 (desk.openPathActions path) := by
  unfold openPath openPathActions fetchFile
  dsimp only
  cases FileService.fetchFile (Path.normalize path) desk.service with
  | mk answer service =>
      have hread := (Performs.refl desk).with_service service
      cases answer with
      | ok content => exact hread.trans (performs_openFile _ _ _ _ _)
      | error error => exact (hread.logWarn _ _).notify _ _ _

/-- The actions that follow an action that closes tabs, if it is performed. -/
def closingActions (desk : Desk σ) (action : TabAction) : List TabAction :=
  action ::
    match desk.bar.apply action with
    | .error _ => []
    | .ok (_, bar) => ensureActions { desk with bar }

theorem forall_closingActions (hopen : OpeningsSatisfy p desk.service) {action : TabAction}
    (haction : p action) : ∀ other ∈ desk.closingActions action, p other := by
  unfold closingActions
  rw [List.forall_mem_cons]
  refine ⟨haction, ?_⟩
  split
  · exact List.forall_mem_nil _
  · apply forall_ensureActions
    exact hopen

theorem performs_closeTab (desk : Desk σ) (index : Nat) :
    desk.Performs (desk.closeTab index).2 (desk.closingActions (.close index)) := by
  unfold closeTab closingActions dispatch
  cases happly : desk.bar.apply (.close index) with
  | error error => exact ⟨(next_of_error happly).symm, rfl, rfl⟩
  | ok result => exact (performs_of_apply happly).trans (performs_ensureActiveLoaded _)

theorem performs_closeOthers (desk : Desk σ) (index : Nat) :
    desk.Performs (desk.closeOthers index).2 (desk.closingActions (.closeOthers index)) := by
  unfold closeOthers closingActions dispatch
  cases happly : desk.bar.apply (.closeOthers index) with
  | error error => exact ⟨(next_of_error happly).symm, rfl, rfl⟩
  | ok result => exact (performs_of_apply happly).trans (performs_ensureActiveLoaded _)

/-- The actions of closing by path. -/
def closeByPathActions (desk : Desk σ) (path : String) (isFolder : Bool) : List TabAction :=
  let action := TabAction.closeByPath (Path.normalize path) isFolder
  action ::
    if 0 < closedCount (desk.dispatch action).1 then ensureActions (desk.perform action) else []

theorem forall_closeByPathActions (hopen : OpeningsSatisfy p desk.service)
    (hclose : ∀ path isFolder, p (.closeByPath path isFolder)) (path : String) (isFolder : Bool) :
    ∀ action ∈ desk.closeByPathActions path isFolder, p action := by
  unfold closeByPathActions
  rw [List.forall_mem_cons]
  refine ⟨hclose _ _, ?_⟩
  split
  · apply forall_ensureActions
    rw [perform, dispatch_snd]
    exact hopen
  · exact List.forall_mem_nil _

theorem performs_closeByPath (desk : Desk σ) (path : String) (isFolder : Bool) :
    desk.Performs (desk.closeByPath path isFolder).2 (desk.closeByPathActions path isFolder) := by
  unfold closeByPath closeByPathActions
  dsimp only
  have hclosed := desk.performs_dispatch (.closeByPath (Path.normalize path) isFolder)
  split
  · exact (hclosed.logInfo _ _).trans (performs_ensureActiveLoaded _)
  · exact hclosed

/-! ## Restoring a session -/

/-- The actions of restoring a session. -/
def restoreActions (desk : Desk σ) (snapshot : Snapshot) : List TabAction :=
  let adding := snapshot.openPaths.map fun path => TabAction.openUnloaded (.ofPath path)
  let added := { desk with bar := desk.bar.run adding }
  adding ++
    match (snapshot.activePath.bind added.bar.find?) <|> added.bar.active with
    | some index => added.activateActions index
    | none => []

theorem forall_restoreActions (hopen : OpeningsSatisfy p desk.service)
    (hadd : ∀ file, p (.openUnloaded file))
    (hrefresh : ∀ index request, p (.refreshStarted index request))
    (hactivate : ∀ index, p (.activate index)) (snapshot : Snapshot) :
    ∀ action ∈ desk.restoreActions snapshot, p action := by
  unfold restoreActions
  rw [List.forall_mem_append]
  constructor
  · intro action haction
    obtain ⟨path, -, rfl⟩ := List.mem_map.mp haction
    exact hadd _
  · dsimp only
    generalize desk.bar.run _ = bar
    split
    · apply forall_activateActions
      · exact hopen
      · exact hrefresh
      · exact hactivate
    · exact List.forall_mem_nil _

theorem bar_restore (desk : Desk σ) (snapshot : Snapshot) :
    (desk.restore snapshot).2.bar = desk.bar.run (desk.restoreActions snapshot) := by
  unfold restore restoreActions
  dsimp only
  rw [bar_logInfo, run_append, foldl_restoreTab_snd]
  split
  next index hindex =>
    rw [hindex]
    exact bar_activateAndLoad _ index
  next hnone =>
    rw [hnone]
    rfl

/-! ## Resolving conflicts -/

theorem performs_checkSaveAsTarget (desk : Desk σ) (id : TabId) (path : String) :
    desk.Performs (desk.checkSaveAsTarget id path).2 [] := by
  unfold checkSaveAsTarget fetchFile
  dsimp only
  split
  · exact .refl desk
  · cases FileService.fetchFile path desk.service with
    | mk answer service =>
        have hread := (Performs.refl desk).with_service service
        cases answer with
        | ok content => exact hread
        | error error =>
            dsimp only
            split
            · exact hread
            · exact hread

/-- The actions of storing the edits of a tab at another path. -/
def saveAsActions (desk : Desk σ) (index : Nat) (tab : Tab) (newPath : String) :
    List TabAction :=
  match desk.checkSaveAsTarget tab.id newPath with
  | (.error _, _) => []
  | (.ok _, desk) =>
      match (FileService.storeFile newPath tab.content tab.encoding none desk.service).1 with
      | .ok write => [.savedAs index newPath write]
      | .error _ => []

theorem forall_saveAsActions {index : Nat} {tab : Tab} {newPath : String}
    (hsavedAs : ∀ (service : σ) write,
      (FileService.storeFile newPath tab.content tab.encoding none service).1 = .ok write →
        p (.savedAs index newPath write)) :
    ∀ action ∈ desk.saveAsActions index tab newPath, p action := by
  unfold saveAsActions
  split
  · exact List.forall_mem_nil _
  · split
    next hstored => exact List.forall_mem_singleton.mpr (hsavedAs _ _ hstored)
    next => exact List.forall_mem_nil _

theorem performs_saveAs (desk : Desk σ) (index : Nat) (tab : Tab) (newPath : String) :
    desk.Performs (desk.saveAs index tab newPath).2
      (desk.saveAsActions index tab (Path.normalize newPath)) := by
  unfold saveAs saveAsActions
  dsimp only
  have hcheck := desk.performs_checkSaveAsTarget tab.id (Path.normalize newPath)
  cases hchecked : desk.checkSaveAsTarget tab.id (Path.normalize newPath) with
  | mk answer checked =>
      rw [hchecked] at hcheck
      cases answer with
      | error error => exact hcheck.notify _ _ _
      | ok _ =>
          unfold storeFile
          dsimp only
          cases FileService.storeFile (Path.normalize newPath) tab.content tab.encoding none
              checked.service with
          | mk stored service =>
              have hstored := hcheck.with_service service
              cases stored with
              | error error => exact hstored.notify _ _ _
              | ok write =>
                  dsimp only
                  split
                  next h => exact hstored.trans (performs_of_dispatch h)
                  next h =>
                    exact ((hstored.trans (performs_of_dispatch h)).logInfo _ _).notify _ _ _

/-- The actions of resolving the conflict of a tab. -/
def resolveActions (desk : Desk σ) (index : Nat) (action : ConflictAction) : List TabAction :=
  match desk.tab? index with
  | none => []
  | some tab =>
      if !tab.state.isConflict then []
      else
        match action with
        | .acceptServer =>
            match (FileService.fetchFile tab.path desk.service).1 with
            | .ok content => [.acceptServer index content]
            | .error _ => []
        | .keepLocal => [.keepLocal index]
        | .saveAs newPath => desk.saveAsActions index tab (Path.normalize newPath)

theorem forall_resolveActions {index : Nat}
    (haccept : ∀ path content, (FileService.fetchFile path desk.service).1 = .ok content →
      p (.acceptServer index content))
    (hkeep : p (.keepLocal index))
    (hsavedAs : ∀ tab newPath (service : σ) write, desk.tab? index = some tab →
      (FileService.storeFile newPath tab.content tab.encoding none service).1 = .ok write →
        p (.savedAs index newPath write))
    (action : ConflictAction) : ∀ other ∈ desk.resolveActions index action, p other := by
  unfold resolveActions
  split
  · exact List.forall_mem_nil _
  next tab hfound =>
    split
    · exact List.forall_mem_nil _
    · split
      · split
        next hread => exact List.forall_mem_singleton.mpr (haccept _ _ hread)
        next => exact List.forall_mem_nil _
      · exact List.forall_mem_singleton.mpr hkeep
      · exact forall_saveAsActions fun _ _ hstored => hsavedAs tab _ _ _ hfound hstored

theorem performs_resolveConflict (desk : Desk σ) (index : Nat) (action : ConflictAction) :
    desk.Performs (desk.resolveConflict index action).2 (desk.resolveActions index action) := by
  unfold resolveConflict resolveActions
  cases desk.tab? index with
  | none => exact .refl desk
  | some tab =>
      dsimp only
      split
      · exact .refl desk
      · cases action with
        | acceptServer =>
            unfold acceptServer fetchFile
            dsimp only
            cases FileService.fetchFile tab.path desk.service with
            | mk answer service =>
                have hread := (Performs.refl desk).with_service service
                cases answer with
                | error error => exact hread.notify _ _ _
                | ok content =>
                    dsimp only
                    split
                    next h => exact hread.trans (performs_of_dispatch h)
                    next h => exact (hread.trans (performs_of_dispatch h)).logInfo _ _
        | keepLocal =>
            unfold keepLocal
            dsimp only
            split
            next h => exact performs_of_dispatch h
            next h => exact (performs_of_dispatch h).logInfo _ _
        | saveAs newPath => exact performs_saveAs desk index tab newPath

end Service

end Workbench.Desk
