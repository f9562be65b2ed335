import Workbench.Desk.Requests

/-! # Working with tabs

Opening, selecting, closing, moving and editing tabs. A tab that holds a stored
version is refreshed in the background when it is selected; one that holds none
is read at once. Paths are normalized on their way in. -/

namespace Workbench.Desk

variable {σ : Type}

def closedCount : Except TabError TabOutcome → Nat
  | .ok (.closed count) => count
  | _ => 0

def updatedCount : Except TabError TabOutcome → Nat
  | .ok (.pathsUpdated count) => count
  | _ => 0

/-- Adds a tab whose content is read when it is first selected, and tells its
position. -/
def openUnloaded (desk : Desk σ) (file : FileInfo) : Nat × Desk σ :=
  match desk.dispatch (.openUnloaded file) with
  | (.ok (.opened index _), desk) => (index, desk)
  | (_, desk) => (desk.bar.tabs.length - 1, desk)

def closeAll (desk : Desk σ) : Nat × Desk σ :=
  let (outcome, desk) := desk.dispatch .closeAll
  (closedCount outcome, desk)

def moveTab (desk : Desk σ) (source target : Nat) : Except TabError Unit × Desk σ :=
  let (outcome, desk) := desk.dispatch (.reorder source target)
  (outcome.map fun _ => (), desk)

def editTab (desk : Desk σ) (index : Nat) (content : String) (time : Nat) :
    Except TabError Unit × Desk σ :=
  let (outcome, desk) := desk.dispatch (.edit index content time)
  (outcome.map fun _ => (), desk)

/-- Points the tab of a renamed file at its new path, and tells how many tabs
were repointed. -/
def updateTabPath (desk : Desk σ) (oldPath newPath : String) : Nat × Desk σ :=
  let (outcome, desk) :=
    desk.dispatch (.updatePath (Path.normalize oldPath) (Path.normalize newPath))
  let updated := updatedCount outcome
  if 0 < updated then
    (updated, desk.logInfo "tab.path_updated" s!"{oldPath} -> {newPath}")
  else (updated, desk)

/-- Points the tabs at or below a renamed folder at their new paths, and tells
how many were repointed. -/
def updateTabPathsUnder (desk : Desk σ) (oldFolder newFolder : String) : Nat × Desk σ :=
  let (outcome, desk) :=
    desk.dispatch (.updatePathsUnder (Path.normalize oldFolder) (Path.normalize newFolder))
  (updatedCount outcome, desk)

/-- Tells the tab of a path what another writer has stored there. -/
def applyExternalWrite (desk : Desk σ) (path content : String) (encoding : Encoding)
    (write : WriteResult) : Desk σ :=
  let (outcome, desk) :=
    desk.dispatch (.externalWrite (Path.normalize path) content encoding write)
  desk.report .refresh outcome

section Service

variable [FileService σ]

def openPath (desk : Desk σ) (path : String) : Except TabError Nat × Desk σ :=
  let path := Path.normalize path
  match desk.fetchFile path with
  | (.ok content, desk) =>
      let (index, desk) :=
        desk.openFile (.ofContent content) content.content content.encoding (some content.etag)
      (.ok index, desk)
  | (.error error, desk) =>
      let desk := desk.logWarn "tab.open_failed" s!"{path}: {error.message}"
      (.error (.file error), desk.notify .error s!"Failed to open {path}" (some error.message))

/-- Reads the file of the tab at a position at once. -/
def loadNow (desk : Desk σ) (index : Nat) : Desk σ :=
  match desk.tab? index with
  | none => desk
  | some tab =>
      match desk.fetchFile tab.path with
      | (.ok content, desk) =>
          (desk.openFile (tab.file.withMeta content) content.content content.encoding
            (some content.etag)).2
      | (.error error, desk) =>
          (desk.logWarn "tab.load_failed" s!"{tab.path}: {error.message}").notify .error
            s!"Failed to open {tab.path}" (some error.message)

/-- Makes the tab at a position active. A tab that holds a stored version is
refreshed in the background unless a request of it is under way; any other is
read at once. -/
def activateAndLoad (desk : Desk σ) (index : Nat) : Desk σ :=
  match desk.tab? index with
  | none => desk
  | some tab =>
      let desk :=
        if tab.isLoaded then (if tab.isBusy then desk else desk.startRefresh index)
        else desk.loadNow index
      desk.perform (.activate index)

/-- Selects a tab as a click on it does: nothing happens on the active one. -/
def clickTab (desk : Desk σ) (index : Nat) : Desk σ :=
  if desk.bar.active = some index ∨ desk.bar.tabs.length ≤ index then desk
  else desk.activateAndLoad index

/-- Reads the file of the active tab if it was never read and holds no edits. -/
def ensureActiveLoaded (desk : Desk σ) : Desk σ :=
  match desk.bar.active with
  | none => desk
  | some index =>
      match desk.tab? index with
      | none => desk
      | some tab => if tab.etag.isNone && !tab.unsaved then desk.loadNow index else desk

def closeTab (desk : Desk σ) (index : Nat) : Except TabError Unit × Desk σ :=
  match desk.dispatch (.close index) with
  | (.error error, desk) => (.error error, desk)
  | (.ok _, desk) => (.ok (), desk.ensureActiveLoaded)

/-- Closes every tab but one and tells how many were closed. -/
def closeOthers (desk : Desk σ) (index : Nat) : Except TabError Nat × Desk σ :=
  match desk.dispatch (.closeOthers index) with
  | (.error error, desk) => (.error error, desk)
  | (.ok outcome, desk) => (.ok (closedCount (.ok outcome)), desk.ensureActiveLoaded)

/-- Closes the tabs of a removed file, or at or below a removed folder, and
tells how many were closed. -/
def closeByPath (desk : Desk σ) (path : String) (isFolder : Bool) : Nat × Desk σ :=
  let (outcome, desk) := desk.dispatch (.closeByPath (Path.normalize path) isFolder)
  let closed := closedCount outcome
  if 0 < closed then
    (closed, (desk.logInfo "tab.closed_by_path" s!"{path}: {closed}").ensureActiveLoaded)
  else (closed, desk)

end Service

end Workbench.Desk
