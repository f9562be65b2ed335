import Workbench.Proofs.Desk.Actions
import Workbench.Proofs.Tabs.Fate
import Workbench.Proofs.Workspace.Run

/-! # What a step asks of the tab bar

The operations on files and folders add few actions to those of the desk. With
them the bar after any run of a workspace is the bar after one run of actions,
so what holds of all runs of the bar holds of all runs of a workspace. -/

namespace Workbench.Workspace

open TabBar

variable {σ : Type} [FileService σ] {p : TabAction → Prop}

theorem performs_refreshFolder (w : Workspace σ) (folder : String) :
    w.desk.Performs (w.refreshFolder folder).2.desk [] := by
  unfold refreshFolder Desk.listFolder
  dsimp only
  cases FileService.listFolder (Path.normalize folder) w.desk.service with
  | mk answer service =>
      cases answer with
      | ok entries => exact (Desk.Performs.refl w.desk).with_service service
      | error error => exact (Desk.Performs.refl w.desk).with_service service

/-- The actions of creating a file. -/
def createActions (w : Workspace σ) (path : String) : List TabAction :=
  match w.tree.beginCreate path .file with
  | .error _ => []
  | .ok _ =>
      match FileService.fetchFile path w.desk.service with
      | (.ok _, _) => []
      | (.error error, service) =>
          if !error.isNotFound then []
          else
            match (FileService.storeFile path "" .utf8 none service).1 with
            | .ok write => [.openTab (.ofPath path) "" .utf8 (some write.etag)]
            | .error _ => []

theorem forall_createActions {w : Workspace σ} {path : String}
    (hcreate : ∀ (service : σ) write, (FileService.storeFile path "" .utf8 none service).1 = .ok write →
      p (.openTab (.ofPath path) "" .utf8 (some write.etag))) :
    ∀ action ∈ w.createActions path, p action := by
  unfold createActions
  split
  · exact List.forall_mem_nil _
  · split
    · exact List.forall_mem_nil _
    · split
      · exact List.forall_mem_nil _
      · split
        next hstored => exact List.forall_mem_singleton.mpr (hcreate _ _ hstored)
        next => exact List.forall_mem_nil _

theorem performs_createFile (w : Workspace σ) (path : String) :
    w.desk.Performs (w.createFile path).2.desk (w.createActions (Path.normalize path)) := by
  unfold createFile createActions refuseCreation Desk.fetchFile Desk.storeFile
  dsimp only
  cases w.tree.beginCreate (Path.normalize path) .file with
  | error error => exact .refl w.desk
  | ok begun =>
      dsimp only
      cases FileService.fetchFile (Path.normalize path) w.desk.service with
      | mk answer service =>
          have hasked := (Desk.Performs.refl w.desk).with_service service
          cases answer with
          | ok content => exact hasked.notify _ _ _
          | error error =>
              dsimp only
              split
              · exact hasked.notify _ _ _
              · cases FileService.storeFile (Path.normalize path) "" .utf8 none service with
                | mk stored service =>
                    have hstored := (Desk.Performs.refl w.desk).with_service service
                    cases stored with
                    | error error => exact hstored.notify _ _ _
                    | ok write =>
                        exact (hstored.trans (Desk.performs_openFile _ _ _ _ _)).notify _ _ _

/-- The actions of renaming a file or folder. -/
def renameActions (w : Workspace σ) (oldPath newPath : String) : List TabAction :=
  match beginKnownRename w.tree oldPath newPath with
  | .error _ => []
  | .ok _ =>
      match (FileService.movePath oldPath newPath w.desk.service).1 with
      | .error _ => []
      | .ok _ =>
          if knownFile w.tree oldPath then
            [.updatePath (Path.normalize oldPath) (Path.normalize newPath)]
          else [.updatePathsUnder (Path.normalize oldPath) (Path.normalize newPath)]

/-- A rename takes at most one action, which points the tab of the file, or the
tabs at or below the folder, at the new place. -/
theorem renameActions_cases (w : Workspace σ) (oldPath newPath : String) :
    w.renameActions oldPath newPath = [] ∨
      w.renameActions oldPath newPath =
        [.updatePath (Path.normalize oldPath) (Path.normalize newPath)] ∨
      w.renameActions oldPath newPath =
        [.updatePathsUnder (Path.normalize oldPath) (Path.normalize newPath)] := by
  unfold renameActions
  split
  · exact .inl rfl
  · split
    · exact .inl rfl
    · split
      · exact .inr (.inl rfl)
      · exact .inr (.inr rfl)

theorem performs_renameSettled (w : Workspace σ) (oldPath newPath : String) :
    w.desk.Performs (w.renameSettled oldPath newPath).2.desk
      (w.renameActions (Path.normalize oldPath) (Path.normalize newPath)) := by
  unfold renameSettled renameActions Desk.movePath
  dsimp only
  cases beginKnownRename w.tree (Path.normalize oldPath) (Path.normalize newPath) with
  | error error => exact .refl w.desk
  | ok begun =>
      dsimp only
      cases FileService.movePath (Path.normalize oldPath) (Path.normalize newPath)
          w.desk.service with
      | mk answer service =>
          have hmoved := (Desk.Performs.refl w.desk).with_service service
          cases answer with
          | error error => exact hmoved.notify _ _ _
          | ok _ =>
              dsimp only
              split
              · exact (hmoved.trans (Desk.performs_updateTabPath _ _ _)).notify _ _ _
              · exact (hmoved.trans (Desk.performs_updateTabPathsUnder _ _ _)).notify _ _ _

/-- The actions of deleting a file or folder. -/
def deleteActions (w : Workspace σ) (path : String) : List TabAction :=
  match beginKnownDelete w.tree path with
  | .error _ => []
  | .ok _ =>
      match FileService.removePath path w.desk.service with
      | (.error error, service) =>
          if error.isNotFound then
            Desk.closeByPathActions { w.desk with service } path (!knownFile w.tree path)
          else []
      | (.ok _, service) =>
          Desk.closeByPathActions { w.desk with service } path (!knownFile w.tree path)

theorem forall_deleteActions {w : Workspace σ} {path : String}
    (hopen : Desk.OpeningsSatisfy p (FileService.removePath path w.desk.service).2)
    (hclose : ∀ path isFolder, p (.closeByPath path isFolder)) :
    ∀ action ∈ w.deleteActions path, p action := by
  unfold deleteActions
  split
  · exact List.forall_mem_nil _
  · split
    next hremoved =>
      rw [hremoved] at hopen
      split
      · exact Desk.forall_closeByPathActions hopen hclose _ _
      · exact List.forall_mem_nil _
    next hremoved =>
      rw [hremoved] at hopen
      exact Desk.forall_closeByPathActions hopen hclose _ _

theorem performs_deleteSettled (w : Workspace σ) (path : String) :
    w.desk.Performs (w.deleteSettled path).2.desk (w.deleteActions (Path.normalize path)) := by
  unfold deleteSettled deleteActions Desk.removePath
  dsimp only
  cases beginKnownDelete w.tree (Path.normalize path) with
  | error error => exact .refl w.desk
  | ok begun =>
      dsimp only
      cases FileService.removePath (Path.normalize path) w.desk.service with
      | mk answer service =>
          have hremoved := (Desk.Performs.refl w.desk).with_service service
          cases answer with
          | ok _ => exact (hremoved.trans (Desk.performs_closeByPath _ _ _)).notify _ _ _
          | error error =>
              dsimp only
              split
              · exact (hremoved.trans (Desk.performs_closeByPath _ _ _)).notify _ _ _
              · exact hremoved.notify _ _ _

/-- The actions of uploading files one by one. -/
def uploadActions : List UploadItem → σ → List TabAction
  | [], _ => []
  | item :: rest, service =>
      match FileService.storeFile item.path item.content item.encoding none service with
      | (.ok write, service) =>
          .externalWrite (Path.normalize item.path) item.content item.encoding write ::
            uploadActions rest service
      | (.error _, service) => uploadActions rest service

theorem forall_uploadActions
    (hwrite : ∀ path content encoding write, p (.externalWrite path content encoding write))
    (items : List UploadItem) (service : σ) : ∀ action ∈ uploadActions items service, p action := by
  induction items generalizing service with
  | nil => exact List.forall_mem_nil _
  | cons item rest ih =>
      unfold uploadActions
      split
      · rw [List.forall_mem_cons]
        exact ⟨hwrite _ _ _ _, ih _⟩
      · exact ih _

theorem performs_foldl_uploadItem (begun : List (MutationId × UploadItem)) (u : UploadState σ) :
    u.workspace.desk.Performs (begun.foldl uploadItem u).workspace.desk
      (uploadActions (begun.map (·.2)) u.workspace.desk.service) := by
  induction begun generalizing u with
  | nil => exact .refl _
  | cons first rest ih =>
      obtain ⟨id, item⟩ := first
      have hrest := ih (uploadItem u (id, item))
      rw [List.foldl_cons]
      simp only [uploadItem, UploadState.report, Desk.storeFile, List.map_cons, uploadActions]
        at hrest ⊢
      cases hstore : FileService.storeFile item.path item.content item.encoding none
          u.workspace.desk.service with
      | mk answer service =>
          rw [hstore] at hrest
          have hstored := (Desk.Performs.refl u.workspace.desk).with_service service
          cases answer with
          | ok write =>
              dsimp only at hrest ⊢
              rw [Desk.service_applyExternalWrite] at hrest
              exact (hstored.trans (Desk.performs_applyExternalWrite _ _ _ _ _)).trans hrest
          | error error => exact (hstored.logWarn _ _).trans hrest

theorem map_snd_beginUploads (tree : FileTree) (items : List UploadItem) :
    (beginUploads tree items).1.map (·.2) = items := by
  induction items generalizing tree with
  | nil => rfl
  | cons item rest ih => simp [beginUploads, ih]

theorem performs_upload (w : Workspace σ) (items : List UploadItem) :
    w.desk.Performs (w.upload items).workspace.desk (uploadActions items w.desk.service) := by
  have hitems := performs_foldl_uploadItem (beginUploads w.tree items).1
    { workspace := { w with tree := (beginUploads w.tree items).2 }
      progress := .start items
      reported := [.start items] }
  rw [map_snd_beginUploads] at hitems
  unfold upload announceUpload
  dsimp only
  split
  · exact hitems.notify _ _ _
  · exact hitems.notify _ _ _

/-- The actions of a step. -/
def actions (w : Workspace σ) : Step σ → List TabAction
  | .openFile file content encoding etag => [.openTab file content encoding etag]
  | .openPath path => w.desk.openPathActions path
  | .openUnloaded file => [.openUnloaded file]
  | .click index => w.desk.clickActions index
  | .close index => w.desk.closingActions (.close index)
  | .closeOthers index => w.desk.closingActions (.closeOthers index)
  | .closeAll => [.closeAll]
  | .move source target => [.reorder source target]
  | .edit index content time => [.edit index content time]
  | .updatePath oldPath newPath =>
      [.updatePath (Path.normalize oldPath) (Path.normalize newPath)]
  | .updatePathsUnder oldFolder newFolder =>
      [.updatePathsUnder (Path.normalize oldFolder) (Path.normalize newFolder)]
  | .closeByPath path isFolder => w.desk.closeByPathActions path isFolder
  | .externalWrite path content encoding write =>
      [.externalWrite (Path.normalize path) content encoding write]
  | .save index => w.desk.saveActions index
  | .autosave now => Desk.autosaveActions (w.desk.autosaveDue now) w.desk
  | .resolve index action => w.desk.resolveActions index action
  | .restore snapshot => w.desk.restoreActions snapshot
  | .create path => w.createActions (Path.normalize path)
  | .rename oldPath newPath => w.renameActions (Path.normalize oldPath) (Path.normalize newPath)
  | .delete path => w.deleteActions (Path.normalize path)
  | .upload items => uploadActions items w.desk.service
  | .deliver => w.desk.deliverActions
  | .list _ | .release _ | .releaseNext | .arrange _ | .annotate _ _ | .outside _ => []

/-- A step changes the tabs by its actions only. -/
theorem bar_perform (w : Workspace σ) (step : Step σ) :
    (w.perform step).desk.bar = w.desk.bar.run (w.actions step) := by
  cases step with
  | openFile file content encoding etag =>
      exact (w.desk.performs_openFile file content encoding etag).bar
  | openPath path => exact (w.desk.performs_openPath path).bar
  | openUnloaded file => exact (w.desk.performs_openUnloaded file).bar
  | click index => exact Desk.bar_clickTab w.desk index
  | close index => exact (w.desk.performs_closeTab index).bar
  | closeOthers index => exact (w.desk.performs_closeOthers index).bar
  | closeAll => exact w.desk.performs_closeAll.bar
  | move source target => exact (w.desk.performs_moveTab source target).bar
  | edit index content time => exact (w.desk.performs_editTab index content time).bar
  | updatePath oldPath newPath =>
      rw [perform, actions, (w.desk.performs_updateTabPath oldPath newPath).bar]
  | updatePathsUnder oldFolder newFolder =>
      rw [perform, actions, (w.desk.performs_updateTabPathsUnder oldFolder newFolder).bar]
  | closeByPath path isFolder => exact (w.desk.performs_closeByPath path isFolder).bar
  | externalWrite path content encoding write =>
      rw [perform, actions, (w.desk.performs_applyExternalWrite path content encoding write).bar]
  | save index => exact Desk.bar_saveTab w.desk index
  | autosave now => exact Desk.bar_runAutosave w.desk now
  | resolve index action => exact (w.desk.performs_resolveConflict index action).bar
  | restore snapshot => exact Desk.bar_restore w.desk snapshot
  | list folder => exact (w.performs_refreshFolder folder).bar
  | create path => exact (w.performs_createFile path).bar
  | rename oldPath newPath => exact (w.performs_renameSettled oldPath newPath).bar
  | delete path => exact (w.performs_deleteSettled path).bar
  | upload items => exact (w.performs_upload items).bar
  | release position => exact Desk.bar_release w.desk position
  | releaseNext => exact Desk.bar_releaseNext w.desk
  | deliver => exact Desk.bar_deliver w.desk
  | arrange order => rfl
  | annotate notices journal => rfl
  | outside change => rfl

/-- The actions of a run, step after step. -/
def actionsOf (w : Workspace σ) : List (Step σ) → List TabAction
  | [] => []
  | step :: rest => w.actions step ++ (w.perform step).actionsOf rest

theorem bar_run (w : Workspace σ) (steps : List (Step σ)) :
    (w.run steps).desk.bar = w.desk.bar.run (w.actionsOf steps) := by
  induction steps generalizing w with
  | nil => rfl
  | cons step rest ih => rw [run_cons, ih, actionsOf, TabBar.run_append, bar_perform]

/-- The bar after a run that starts without tabs is the bar after a run of
actions on the empty bar. -/
theorem bar_run_eq {start : Workspace σ} (hstart : start.desk.bar = .empty)
    (history : List (Step σ)) :
    (start.run history).desk.bar = empty.run (start.actionsOf history) := by
  rw [bar_run, hstart]

theorem numbered_bar {start : Workspace σ} (hstart : start.desk.bar = .empty)
    (history : List (Step σ)) : (start.run history).desk.bar.Numbered := by
  rw [bar_run_eq hstart]
  exact numbered_run _

end Workbench.Workspace
