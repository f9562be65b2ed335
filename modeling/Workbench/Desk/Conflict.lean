import Workbench.Desk.Requests

/-! # Resolving conflicts

A conflict is left by a decision of the user: to take the stored version, to
keep the edits and let the next save overwrite the stored version, or to store
the edits at another path, where nothing may be stored yet. -/

namespace Workbench

/-- How a conflict is resolved. -/
inductive ConflictAction
  /-- The edits are dropped for the stored version. -/
  | acceptServer
  /-- The edits are kept, and the next save overwrites the stored version. -/
  | keepLocal
  /-- The edits are stored at another path, and the tab moves there. -/
  | saveAs (newPath : String)
  deriving DecidableEq, Inhabited

namespace Desk

variable {σ : Type} [FileService σ]

/-- Drops the edits of a tab for the stored version. -/
def acceptServer (desk : Desk σ) (index : Nat) (path : String) : Except TabError Unit × Desk σ :=
  match desk.fetchFile path with
  | (.ok content, desk) =>
      match desk.dispatch (.acceptServer index content) with
      | (.error error, desk) => (.error error, desk)
      | (.ok _, desk) => (.ok (), desk.logInfo "conflict.accept_server" path)
  | (.error error, desk) =>
      let message :=
        if error.isNotFound then s!"{path} no longer exists on the server"
        else s!"Failed to reload {path}"
      (.error (.file error), desk.notify .error message (some error.message))

def keepLocal (desk : Desk σ) (index : Nat) (path : String) : Except TabError Unit × Desk σ :=
  match desk.dispatch (.keepLocal index) with
  | (.error error, desk) => (.error error, desk)
  | (.ok _, desk) => (.ok (), desk.logInfo "conflict.keep_local" path)

/-- Another tab at the path holds unsaved changes. -/
def holdsEdits (desk : Desk σ) (id : TabId) (path : String) : Bool :=
  ((desk.bar.find? path).bind desk.tab?).any fun target => target.id != id && target.unsaved

/-- Makes sure that storing at a path replaces neither a stored file nor the
edits of another tab. -/
def checkSaveAsTarget (desk : Desk σ) (id : TabId) (path : String) :
    Except TabError Unit × Desk σ :=
  if desk.holdsEdits id path then (.error (.targetHasUnsavedChanges path), desk)
  else
    match desk.fetchFile path with
    | (.ok _, desk) => (.error (.file (.alreadyExists path)), desk)
    | (.error error, desk) =>
        if error.isNotFound then (.ok (), desk) else (.error (.file error), desk)

/-- Stores the edits of a tab at another path. -/
def saveAs (desk : Desk σ) (index : Nat) (tab : Tab) (newPath : String) :
    Except TabError Unit × Desk σ :=
  let newPath := Path.normalize newPath
  let refuse := fun (error : TabError) (desk : Desk σ) =>
    (.error error, desk.notify .error s!"Failed to save {newPath}" (some error.message))
  match desk.checkSaveAsTarget tab.id newPath with
  | (.error error, desk) => refuse error desk
  | (.ok _, desk) =>
      match desk.storeFile newPath tab.content tab.encoding none with
      | (.error error, desk) => refuse (.file error) desk
      | (.ok write, desk) =>
          match desk.dispatch (.savedAs index newPath write) with
          | (.error error, desk) => (.error error, desk)
          | (.ok _, desk) =>
              let desk := desk.logInfo "conflict.save_as" s!"{tab.path} -> {newPath}"
              (.ok (), desk.notify .success s!"Saved as {newPath}" none)

def resolveConflict (desk : Desk σ) (index : Nat) (action : ConflictAction) :
    Except TabError Unit × Desk σ :=
  match desk.tab? index with
  | none => (.error (desk.bar.outOfRange index), desk)
  | some tab =>
      if !tab.state.isConflict then (.error (.notInConflict tab.path), desk)
      else
        match action with
        | .acceptServer => desk.acceptServer index tab.path
        | .keepLocal => desk.keepLocal index tab.path
        | .saveAs newPath => desk.saveAs index tab newPath

end Desk

end Workbench
