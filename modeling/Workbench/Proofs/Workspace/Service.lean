import Workbench.Proofs.Desk.Service
import Workbench.Proofs.Workspace.Actions

/-! # Which calls a step makes

The operations on files and folders change the files by calls of the service as well.
Only another client can do otherwise. -/

namespace Workbench.Workspace

open FileService

variable {σ : Type} [FileService σ]

theorem called_refreshFolder (w : Workspace σ) (folder : String) :
    Called w.desk.service (w.refreshFolder folder).2.desk.service := by
  unfold refreshFolder
  have hlisted : Called w.desk.service (w.desk.listFolder (Path.normalize folder)).2.service :=
    .listed .refl _
  split
  next h => rwa [h] at hlisted
  next h => rwa [h] at hlisted

theorem called_createFile (w : Workspace σ) (path : String) :
    Called w.desk.service (w.createFile path).2.desk.service := by
  unfold createFile refuseCreation
  dsimp only
  have hread : Called w.desk.service (w.desk.fetchFile (Path.normalize path)).2.service :=
    .fetched .refl _
  split
  · exact .refl
  · split
    next h =>
      rw [h] at hread
      rwa [Desk.service_notify]
    next asked h =>
      rw [h] at hread
      have hstored : Called w.desk.service
          (asked.storeFile (Path.normalize path) "" .utf8 none).2.service := hread.stored _ _ _ _
      split
      · rwa [Desk.service_notify]
      · split
        next h =>
          rw [h] at hstored
          rwa [Desk.service_notify]
        next h =>
          rw [h] at hstored
          rw [Desk.service_notify]
          exact hstored

theorem called_renameSettled (w : Workspace σ) (oldPath newPath : String) :
    Called w.desk.service (w.renameSettled oldPath newPath).2.desk.service := by
  unfold renameSettled
  dsimp only
  have hmoved : Called w.desk.service
      (w.desk.movePath (Path.normalize oldPath) (Path.normalize newPath)).2.service :=
    .moved .refl _ _
  split
  · exact .refl
  · split
    next h =>
      rw [h] at hmoved
      rw [Desk.service_notify]
      split
      · rwa [Desk.service_updateTabPath]
      · unfold Desk.updateTabPathsUnder
        rwa [Desk.service_dispatch]
    next h =>
      rw [h] at hmoved
      rwa [Desk.service_notify]

theorem called_deleteSettled (w : Workspace σ) (path : String) :
    Called w.desk.service (w.deleteSettled path).2.desk.service := by
  unfold deleteSettled
  dsimp only
  have hremoved : Called w.desk.service (w.desk.removePath (Path.normalize path)).2.service :=
    .removed .refl _
  split
  · exact .refl
  · split
    next h =>
      rw [h] at hremoved
      rw [Desk.service_notify]
      exact hremoved.trans (Desk.called_closeByPath _ _ _)
    next h =>
      rw [h] at hremoved
      split
      · rw [Desk.service_notify]
        exact hremoved.trans (Desk.called_closeByPath _ _ _)
      · rwa [Desk.service_notify]

theorem called_uploadItem (u : UploadState σ) (begun : MutationId × UploadItem) :
    Called u.workspace.desk.service (uploadItem u begun).workspace.desk.service := by
  obtain ⟨id, item⟩ := begun
  unfold uploadItem
  dsimp only [UploadState.report]
  have hstored : Called u.workspace.desk.service
      (u.workspace.desk.storeFile item.path item.content item.encoding none).2.service :=
    .stored .refl _ _ _ _
  split
  next h =>
    rw [h] at hstored
    rwa [Desk.service_applyExternalWrite]
  next h =>
    rw [h] at hstored
    rwa [Desk.service_logWarn]

theorem called_foldl_uploadItem (begun : List (MutationId × UploadItem)) (u : UploadState σ) :
    Called u.workspace.desk.service (begun.foldl uploadItem u).workspace.desk.service := by
  induction begun generalizing u with
  | nil => exact .refl
  | cons first rest ih => exact (called_uploadItem u first).trans (ih _)

theorem called_upload (w : Workspace σ) (items : List UploadItem) :
    Called w.desk.service (w.upload items).workspace.desk.service := by
  have hitems := called_foldl_uploadItem (beginUploads w.tree items).1
    { workspace := { w with tree := (beginUploads w.tree items).2 }
      progress := .start items
      reported := [.start items] }
  unfold upload announceUpload
  dsimp only
  split
  · rw [Desk.service_notify]
    exact hitems
  · rw [Desk.service_notify]
    exact hitems

/-- What is not done by another client is done by calls. -/
theorem called_perform (w : Workspace σ) {step : Step σ}
    (hinside : ∀ change, step ≠ .outside change) :
    Called w.desk.service (w.perform step).desk.service := by
  cases step with
  | openFile file content encoding etag =>
      exact .of_eq (w.desk.service_openFile file content encoding etag)
  | openPath path => exact w.desk.called_openPath path
  | openUnloaded file =>
      rw [perform, Desk.openUnloaded_snd]
      exact .refl
  | click index => exact w.desk.called_clickTab index
  | close index => exact w.desk.called_closeTab index
  | closeOthers index => exact w.desk.called_closeOthers index
  | closeByPath path isFolder => exact w.desk.called_closeByPath path isFolder
  | updatePath oldPath newPath =>
      rw [perform, Desk.service_updateTabPath]
      exact .refl
  | closeAll | move | edit | updatePathsUnder =>
      simp only [perform, Desk.closeAll, Desk.moveTab, Desk.editTab, Desk.updateTabPathsUnder,
        Desk.service_dispatch]
      exact .refl
  | externalWrite path content encoding write =>
      exact .of_eq (w.desk.service_applyExternalWrite path content encoding write)
  | save index => exact .of_eq (w.desk.service_saveTab index)
  | autosave now => exact .of_eq (w.desk.service_runAutosave now)
  | resolve index action => exact w.desk.called_resolveConflict index action
  | restore snapshot => exact w.desk.called_restore snapshot
  | list folder => exact w.called_refreshFolder folder
  | create path => exact w.called_createFile path
  | rename oldPath newPath => exact w.called_renameSettled oldPath newPath
  | delete path => exact w.called_deleteSettled path
  | upload items => exact w.called_upload items
  | release position => exact w.desk.called_release position
  | releaseNext => exact w.desk.called_releaseNext
  | deliver => exact .of_eq w.desk.service_deliver
  | arrange | annotate => exact .refl
  | outside change => exact absurd rfl (hinside change)

end Workbench.Workspace
