import Workbench.Desk.Tabs
import Workbench.Tree.Basic
import Workbench.Tree.Upload

/-! # Workspaces

The desk together with the file tree. Operations on files and folders show in
the tree at once, are carried out by the file service, and then settle the tree
and the tabs: confirmed on success, rolled back on failure. -/

namespace Workbench

/-- The desk and the file tree. -/
structure Workspace (σ : Type) where
  desk : Desk σ
  tree : FileTree

namespace Workspace

variable {σ : Type} [FileService σ]

/-- The tree after a change was confirmed; a change that is not open leaves it
as it is. -/
def confirmed (tree : FileTree) (id : MutationId) (reported : List DirEntry) : FileTree :=
  (tree.confirm id reported).toOption.getD tree

/-- The tree after a change was rolled back; a change that is not open leaves it
as it is. -/
def rolledBack (tree : FileTree) (id : MutationId) : FileTree :=
  ((tree.rollback id).toOption.map (·.2)).getD tree

/-- Lists a folder into the tree and tells the number of its entries. -/
def refreshFolder (w : Workspace σ) (folder : String) : Except TreeError Nat × Workspace σ :=
  match w.desk.listFolder (Path.normalize folder) with
  | (.ok listing, desk) => (.ok listing.length, { desk, tree := w.tree.load listing })
  | (.error error, desk) => (.error (.file error), { w with desk })

/-- Undoes the creation of a file that was refused. -/
def refuseCreation (tree : FileTree) (id : MutationId) (path : String) (error : TreeError)
    (desk : Desk σ) : Except TreeError Nat × Workspace σ :=
  (.error error,
    { desk := desk.notify .error s!"Failed to create {path}" (some error.message),
      tree := rolledBack tree id })

/-- Creates an empty file and opens it in a tab. The tree knows only what was
listed, so the service is asked first whether the file exists. -/
def createFile (w : Workspace σ) (path : String) : Except TreeError Nat × Workspace σ :=
  let path := Path.normalize path
  match w.tree.beginCreate path .file with
  | .error error => (.error error, w)
  | .ok (id, tree) =>
      match w.desk.fetchFile path with
      | (.ok _, desk) => refuseCreation tree id path (.alreadyExists path) desk
      | (.error error, desk) =>
          if !error.isNotFound then refuseCreation tree id path (.file error) desk
          else
            match desk.storeFile path "" .utf8 none with
            | (.error error, desk) => refuseCreation tree id path (.file error) desk
            | (.ok write, desk) =>
                let tree := confirmed tree id [write.toEntry]
                let (index, desk) := desk.openFile (.ofPath path) "" .utf8 (some write.etag)
                (.ok index, { desk := desk.notify .success s!"Created {path}" none, tree })

/-- Begins to move an entry, if the tree knows it. What was not listed is moved
by the service only. -/
def beginKnownRename (tree : FileTree) (oldPath newPath : String) :
    Except TreeError (Option MutationId × FileTree) :=
  if tree.contains oldPath then
    (tree.beginRename oldPath newPath).map fun (id, tree) => (some id, tree)
  else .ok (none, tree)

/-- Begins to delete an entry, if the tree knows it. -/
def beginKnownDelete (tree : FileTree) (path : String) :
    Except TreeError (Option MutationId × FileTree) :=
  if tree.contains path then
    (tree.beginDelete path).map fun (id, tree) => (some id, tree)
  else .ok (none, tree)

/-- The entry at a path is known to be a file. -/
def knownFile (tree : FileTree) (path : String) : Bool :=
  (tree.get? path).any fun entry => !entry.isFolder

/-- Waits for the saves of the tabs at or below a path. -/
def settleSavesUnder (w : Workspace σ) (path : String) : Workspace σ :=
  { w with desk := (w.desk.settleSavesUnder (Path.normalize path)).2 }

/-- Renames a file or folder under which no save is under way. -/
def renameSettled (w : Workspace σ) (oldPath newPath : String) :
    Except TreeError Nat × Workspace σ :=
  let oldPath := Path.normalize oldPath
  let newPath := Path.normalize newPath
  let isFile := knownFile w.tree oldPath
  match beginKnownRename w.tree oldPath newPath with
  | .error error => (.error error, w)
  | .ok (change, tree) =>
      match w.desk.movePath oldPath newPath with
      | (.ok _, desk) =>
          let tree := change.elim tree (confirmed tree · [])
          let (updated, desk) :=
            if isFile then desk.updateTabPath oldPath newPath
            else desk.updateTabPathsUnder oldPath newPath
          (.ok updated,
            { desk := desk.notify .success s!"Renamed {oldPath} to {newPath}" none, tree })
      | (.error error, desk) =>
          (.error (.file error),
            { desk := desk.notify .error s!"Failed to rename {oldPath}" (some error.message),
              tree := change.elim tree (rolledBack tree ·) })

/-- Renames a file or folder, and tells how many tabs were repointed. Saves
under the old path are waited for. -/
def rename (w : Workspace σ) (oldPath newPath : String) : Except TreeError Nat × Workspace σ :=
  (w.settleSavesUnder oldPath).renameSettled oldPath newPath

/-- Deletes a file or folder under which no save is under way. What the service
does not find counts as deleted. -/
def deleteSettled (w : Workspace σ) (path : String) : Except TreeError Nat × Workspace σ :=
  let path := Path.normalize path
  let isFile := knownFile w.tree path
  match beginKnownDelete w.tree path with
  | .error error => (.error error, w)
  | .ok (change, tree) =>
      let settle := fun (desk : Desk σ) =>
        let tree := change.elim tree (confirmed tree · [])
        let (closed, desk) := desk.closeByPath path (!isFile)
        let details := if 0 < closed then some s!"closed {closed} open tab(s)" else none
        (.ok closed, { desk := desk.notify .success s!"Deleted {path}" details, tree })
      match w.desk.removePath path with
      | (.ok _, desk) => settle desk
      | (.error error, desk) =>
          if error.isNotFound then settle desk
          else
            (.error (.file error),
              { desk := desk.notify .error s!"Failed to delete {path}" (some error.message),
                tree := change.elim tree (rolledBack tree ·) })

/-- Deletes a file or folder, and tells how many tabs were closed. Saves under
the path are waited for. -/
def delete (w : Workspace σ) (path : String) : Except TreeError Nat × Workspace σ :=
  (w.settleSavesUnder path).deleteSettled path

/-- Enters every item into the tree and pairs it with the number of its
change. -/
def beginUploads (tree : FileTree) : List UploadItem → List (MutationId × UploadItem) × FileTree
  | [] => ([], tree)
  | item :: rest =>
      let (id, tree) := tree.beginUpload item.path item.size
      let (begun, tree) := beginUploads tree rest
      ((id, item) :: begun, tree)

/-- An upload under way: the workspace, the progress, and every progress that
was reported so far. -/
structure UploadState (σ : Type) where
  workspace : Workspace σ
  progress : UploadProgress
  reported : List UploadProgress

def UploadState.report (u : UploadState σ) : UploadState σ :=
  { u with reported := u.reported ++ [u.progress] }

/-- Stores one item. A refused item is rolled back alone. -/
def uploadItem (u : UploadState σ) (begun : MutationId × UploadItem) : UploadState σ :=
  let (id, item) := begun
  let u := { u with progress := u.progress.startFile item.path }.report
  let w := u.workspace
  match w.desk.storeFile item.path item.content item.encoding none with
  | (.ok write, desk) =>
      let tree := confirmed w.tree id [write.toEntry]
      let desk := desk.applyExternalWrite item.path item.content item.encoding write
      { u with
        workspace := { desk, tree }
        progress := u.progress.fileDone item.size }.report
  | (.error error, desk) =>
      let desk := desk.logWarn "upload.failed" s!"{item.path}: {error.message}"
      { u with
        workspace := { desk, tree := rolledBack w.tree id }
        progress := u.progress.fileFailed item.path item.size }.report

/-- Tells the user how an upload has ended. -/
def announceUpload (desk : Desk σ) (progress : UploadProgress) : Desk σ :=
  if progress.failedFiles = 0 then
    desk.notify .success s!"Uploaded {progress.completedFiles} file(s)" none
  else
    desk.notify .error
      s!"Failed to upload {progress.failedFiles} of {progress.totalFiles} file(s)"
      (some (", ".intercalate progress.failedPaths))

/-- Uploads files one by one. The result holds every progress that was
reported: one before the first file, and two for each file. -/
def upload (w : Workspace σ) (items : List UploadItem) : UploadState σ :=
  let (begun, tree) := beginUploads w.tree items
  let start : UploadState σ :=
    { workspace := { w with tree }, progress := .start items, reported := [] }
  let u := begun.foldl uploadItem start.report
  let w := u.workspace
  { u with workspace := { w with desk := announceUpload w.desk u.progress } }

end Workspace

end Workbench
