import Workbench.Desk.Requests

/-! # Saving

A save of a tab starts at once, waits in the tab's queue behind a running
request, or is refused. With autosave, the tabs that have been dirty for long
enough are saved by themselves. -/

namespace Workbench

inductive SaveDispatch
  | started
  /-- Another request of the tab is still under way. -/
  | queued
  | nothingToSave
  deriving DecidableEq, Inhabited

namespace Desk

variable {σ : Type}

def saveTab (desk : Desk σ) (index : Nat) : Except TabError SaveDispatch × Desk σ :=
  match desk.tab? index with
  | none => (.error (desk.bar.outOfRange index), desk)
  | some tab =>
      match tab.state with
      | .conflict reason =>
          (.error (.saveBlockedByConflict tab.path reason),
            desk.logWarn "save.blocked" s!"{tab.path}: conflict {reason.name}")
      | _ =>
          if tab.file.readOnly then (.error (.readOnly tab.path), desk)
          else if !tab.unsaved then (.ok .nothingToSave, desk)
          else if tab.isBusy then
            let (outcome, desk) := desk.dispatch (.queueSave index)
            (outcome.map fun _ => .queued, desk)
          else
            let (outcome, desk) := desk.startSave index
            (outcome.map fun _ => .started, desk)

/-- A tab is due when it is dirty, nothing is being done about it, and its last
edit lies back for the delay. -/
def isDue (delay now : Nat) (tab : Tab) : Bool :=
  tab.state == .dirty && tab.unsaved && !tab.file.readOnly && tab.pendingSave.isNone &&
    !tab.saveQueued && tab.lastEdit.any fun time => delay ≤ now - time

def autosaveDue (desk : Desk σ) (now : Nat) : List Nat :=
  if desk.autosave.enabled then
    (List.range desk.bar.tabs.length).filter fun index =>
      (desk.tab? index).any (isDue desk.autosave.delay now)
  else []

/-- Saves one due tab. The count tells the saves that were started or
queued. -/
def autosaveTab (step : Nat × Desk σ) (index : Nat) : Nat × Desk σ :=
  match step.2.saveTab index with
  | (.ok .nothingToSave, desk) => (step.1, desk)
  | (.ok _, desk) => (step.1 + 1, desk)
  | (.error error, desk) => (step.1, desk.logWarn "autosave.skipped" error.message)

/-- Saves every tab that is due, and tells how many saves were started or
queued. -/
def runAutosave (desk : Desk σ) (now : Nat) : Nat × Desk σ :=
  (desk.autosaveDue now).foldl autosaveTab (0, desk)

end Desk

end Workbench
