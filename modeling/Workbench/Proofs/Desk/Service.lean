import Workbench.Proofs.Desk.Actions
import Workbench.Proofs.File.Calls

/-! # Which calls the desk makes

Whatever the desk does to the files, it does by calls of the file service. So
what every call keeps, every operation of the desk keeps. -/

namespace Workbench.Desk

open FileService

variable {σ : Type}

/-! ## What makes no calls -/

@[simp] theorem service_dispatch (desk : Desk σ) (action : TabAction) :
    (desk.dispatch action).2.service = desk.service := by
  rw [dispatch_snd]

@[simp] theorem service_perform (desk : Desk σ) (action : TabAction) :
    (desk.perform action).service = desk.service :=
  desk.service_dispatch action

theorem service_openFile (desk : Desk σ) (file : FileInfo) (content : String)
    (encoding : Encoding) (etag : Option String) :
    (desk.openFile file content encoding etag).2.service = desk.service := rfl

theorem service_updateTabPath (desk : Desk σ) (oldPath newPath : String) :
    (desk.updateTabPath oldPath newPath).2.service = desk.service := by
  unfold updateTabPath
  dsimp only
  split
  · rw [service_logInfo, service_dispatch]
  · rw [service_dispatch]

theorem service_startRefresh (desk : Desk σ) (index : Nat) :
    (desk.startRefresh index).service = desk.service := by
  unfold startRefresh
  dsimp only
  split
  next h => rw [bar_dispatch h]
  next h =>
    split
    · rw [bar_dispatch h]
    · rw [bar_dispatch h]

theorem service_startSave (desk : Desk σ) (index : Nat) :
    (desk.startSave index).2.service = desk.service := by
  unfold startSave
  dsimp only
  split
  next h => rw [bar_dispatch h]
  next h =>
    split
    · rw [bar_dispatch h]
    · rw [service_logInfo, bar_dispatch h]

theorem service_saveTab (desk : Desk σ) (index : Nat) :
    (desk.saveTab index).2.service = desk.service := by
  unfold saveTab
  split
  · rfl
  · split
    · rfl
    · split
      · rfl
      · split
        · rfl
        · split
          · exact desk.service_dispatch _
          · exact desk.service_startSave index

theorem service_autosaved (desk : Desk σ) (index : Nat) :
    (desk.autosaved index).service = desk.service := by
  rw [← desk.service_saveTab index]
  unfold autosaved autosaveTab
  dsimp only
  split
  next h => rw [h]
  next h => rw [h]
  next h => rw [h, service_logWarn]

theorem service_runAutosave (desk : Desk σ) (now : Nat) :
    (desk.runAutosave now).2.service = desk.service := by
  rw [runAutosave, snd_foldl_autosaveTab]
  generalize desk.autosaveDue now = due
  induction due generalizing desk with
  | nil => rfl
  | cons index rest ih => rw [List.foldl_cons, ih, service_autosaved]

theorem service_startQueuedSave (desk : Desk σ) (id : TabId) :
    (desk.startQueuedSave id).service = desk.service := by
  unfold startQueuedSave
  split
  · rfl
  next index _ =>
    split
    · rfl
    · split
      · rfl
      · split
        · rw [service_perform, service_logInfo]
        · have hstarted := desk.service_startSave index
          split
          next h => rwa [h] at hstarted
          next h =>
            rw [h] at hstarted
            exact hstarted

theorem service_deliver (desk : Desk σ) : desk.deliver.service = desk.service := by
  unfold deliver
  split
  · rfl
  · unfold applyReply
    dsimp only
    rw [service_startQueuedSave, service_report, service_dispatch]

/-! ## What makes calls -/

variable [FileService σ]

theorem called_loadNow (desk : Desk σ) (index : Nat) :
    Called desk.service (desk.loadNow index).service := by
  unfold loadNow
  split
  · exact .refl
  next tab _ =>
    have hread : Called desk.service (desk.fetchFile tab.path).2.service := .fetched .refl tab.path
    split
    next h => rwa [h] at hread
    next h =>
      rw [h] at hread
      rwa [service_notify, service_logWarn]

theorem called_openPath (desk : Desk σ) (path : String) :
    Called desk.service (desk.openPath path).2.service := by
  unfold openPath
  dsimp only
  have hread : Called desk.service (desk.fetchFile (Path.normalize path)).2.service :=
    .fetched .refl _
  split
  next h => rwa [h] at hread
  next h =>
    rw [h] at hread
    rwa [service_notify, service_logWarn]

theorem called_activateAndLoad (desk : Desk σ) (index : Nat) :
    Called desk.service (desk.activateAndLoad index).service := by
  unfold activateAndLoad
  split
  · exact .refl
  · rw [service_perform]
    split
    · split
      · exact .refl
      · exact .of_eq (desk.service_startRefresh index)
    · exact desk.called_loadNow index

theorem called_clickTab (desk : Desk σ) (index : Nat) :
    Called desk.service (desk.clickTab index).service := by
  unfold clickTab
  split
  · exact .refl
  · exact desk.called_activateAndLoad index

theorem called_ensureActiveLoaded (desk : Desk σ) :
    Called desk.service desk.ensureActiveLoaded.service := by
  unfold ensureActiveLoaded
  split
  · exact .refl
  · split
    · exact .refl
    · split
      · exact desk.called_loadNow _
      · exact .refl

theorem called_closeTab (desk : Desk σ) (index : Nat) :
    Called desk.service (desk.closeTab index).2.service := by
  unfold closeTab
  have hsame := desk.service_dispatch (.close index)
  split
  next h =>
    rw [h] at hsame
    exact .of_eq hsame
  next h =>
    rw [h] at hsame
    exact hsame ▸ called_ensureActiveLoaded _

theorem called_closeOthers (desk : Desk σ) (index : Nat) :
    Called desk.service (desk.closeOthers index).2.service := by
  unfold closeOthers
  have hsame := desk.service_dispatch (.closeOthers index)
  split
  next h =>
    rw [h] at hsame
    exact .of_eq hsame
  next h =>
    rw [h] at hsame
    exact hsame ▸ called_ensureActiveLoaded _

theorem called_closeByPath (desk : Desk σ) (path : String) (isFolder : Bool) :
    Called desk.service (desk.closeByPath path isFolder).2.service := by
  unfold closeByPath
  dsimp only
  have hsame := desk.service_dispatch (.closeByPath (Path.normalize path) isFolder)
  split
  · have hloaded := called_ensureActiveLoaded
      ((desk.dispatch (.closeByPath (Path.normalize path) isFolder)).2.logInfo
        "tab.closed_by_path" s!"{path}: {closedCount
          (desk.dispatch (.closeByPath (Path.normalize path) isFolder)).1}")
    rwa [service_logInfo, hsame] at hloaded
  · exact .of_eq hsame

theorem called_restore (desk : Desk σ) (snapshot : Snapshot) :
    Called desk.service (desk.restore snapshot).2.service := by
  unfold restore
  dsimp only
  rw [service_logInfo, foldl_restoreTab_snd]
  generalize desk.bar.run _ = bar
  split
  next index _ => exact called_activateAndLoad { desk with bar } index
  · exact .refl

theorem called_acceptServer (desk : Desk σ) (index : Nat) (path : String) :
    Called desk.service (desk.acceptServer index path).2.service := by
  unfold acceptServer
  have hread : Called desk.service (desk.fetchFile path).2.service := .fetched .refl path
  split
  next content fetched h =>
    rw [h] at hread
    have hsame := fetched.service_dispatch (.acceptServer index content)
    split
    next h =>
      rw [h] at hsame
      exact hsame ▸ hread
    next h =>
      rw [h] at hsame
      exact hsame ▸ hread
  next h =>
    rw [h] at hread
    rwa [service_notify]

theorem called_checkSaveAsTarget (desk : Desk σ) (id : TabId) (path : String) :
    Called desk.service (desk.checkSaveAsTarget id path).2.service := by
  unfold checkSaveAsTarget
  split
  · exact .refl
  · have hread : Called desk.service (desk.fetchFile path).2.service := .fetched .refl path
    split
    next h => rwa [h] at hread
    next h =>
      rw [h] at hread
      split
      · exact hread
      · exact hread

theorem called_saveAs (desk : Desk σ) (index : Nat) (tab : Tab) (newPath : String) :
    Called desk.service (desk.saveAs index tab newPath).2.service := by
  unfold saveAs
  dsimp only
  have hcheck := desk.called_checkSaveAsTarget tab.id (Path.normalize newPath)
  split
  next h =>
    rw [h] at hcheck
    rwa [service_notify]
  next checked h =>
    rw [h] at hcheck
    have hstored : Called desk.service
        (checked.storeFile (Path.normalize newPath) tab.content tab.encoding none).2.service :=
      hcheck.stored _ _ _ _
    split
    next h =>
      rw [h] at hstored
      rwa [service_notify]
    next write stored h =>
      rw [h] at hstored
      have hsame := stored.service_dispatch (.savedAs index (Path.normalize newPath) write)
      split
      next h =>
        rw [h] at hsame
        exact hsame ▸ hstored
      next h =>
        rw [h] at hsame
        rw [service_notify, service_logInfo]
        exact hsame ▸ hstored

theorem called_resolveConflict (desk : Desk σ) (index : Nat) (action : ConflictAction) :
    Called desk.service (desk.resolveConflict index action).2.service := by
  unfold resolveConflict
  split
  · exact .refl
  next tab _ =>
    split
    · exact .refl
    · cases action with
      | acceptServer => exact desk.called_acceptServer index tab.path
      | keepLocal =>
          have hsame := desk.service_dispatch (.keepLocal index)
          dsimp only
          unfold keepLocal
          split
          next h =>
            rw [h] at hsame
            exact .of_eq hsame
          next h =>
            rw [h] at hsame
            exact .of_eq hsame
      | saveAs newPath => exact desk.called_saveAs index tab newPath

theorem called_release (desk : Desk σ) (position : Nat) :
    Called desk.service (desk.release position).2.service := by
  unfold release
  split
  · exact .refl
  next request _ => exact request.errand.called_perform desk.service

theorem called_releaseNext (desk : Desk σ) : Called desk.service desk.releaseNext.service := by
  unfold releaseNext
  split
  · exact desk.called_release 0
  next rest _ =>
    exact called_release { desk with traffic := { desk.traffic with order := rest } } _

end Workbench.Desk
