import Workbench.Tab.Action

/-! # Answers to a tab's requests

What the answer to a background refresh or save does to the tab that asked. An
answer is applied only if the tab still waits for that very request; the answer
to a refresh is also dropped when the content has changed since it was
started. -/

namespace Workbench.Tab

/-- The request that is waited for, if it is the given one. -/
def awaited? (pending : Option PendingRequest) (request : RequestId) : Option PendingRequest :=
  pending.filter fun p => p.request == request

/-- Compares a read file with the tab. The same version only ends a conflict
about a missing file; another version is adopted, or is a conflict when there
are unsaved changes. -/
def compare (tab : Tab) (index : Nat) (content : FileContent) : TabOutcome × Tab :=
  if tab.etag = some content.etag then
    if tab.state = .conflict .pathNotFound then (.updated, { tab with state := tab.settledState })
    else (.unchanged, tab)
  else if tab.unsaved then
    (.conflict index .contentChanged, { tab with state := .conflict .contentChanged })
  else (.adopted index, tab.adopt content)

/-- Applies the answer to a refresh at the tab with the given position. -/
def applyRefresh (request : RequestId) (result : RefreshResult) (index : Nat) (tab : Tab) :
    TabOutcome × Tab :=
  match awaited? tab.pendingRefresh request with
  | none => (.dropped .superseded, tab)
  | some pending =>
      let tab := { tab with pendingRefresh := none }
      if tab.generation ≠ pending.generation then (.dropped .localEdits, tab)
      else
        match result with
        | .fetched content => tab.compare index content
        | .notFound =>
            (.conflict index .pathNotFound, { tab with state := .conflict .pathNotFound })
        | .failed message => (.refreshFailed index message, tab)

/-- Applies the answer to a save at the tab with the given position. Edits
made since the save was started are still unsaved. -/
def applySave (request : RequestId) (result : SaveResult) (index : Nat) (tab : Tab) :
    TabOutcome × Tab :=
  match awaited? tab.pendingSave request with
  | none => (.dropped .superseded, tab)
  | some pending =>
      let tab := { tab with pendingSave := none }
      match result with
      | .written write =>
          let stillDirty := tab.generation != pending.generation
          (.saved index stillDirty,
            { tab with
              file := tab.file.withWrite write
              etag := some write.etag
              overwriteOnSave := false
              unsaved := stillDirty && tab.unsaved
              state := if stillDirty then .dirty else .saved })
      | .versionMismatch =>
          (.conflict index .contentChanged, { tab with state := .conflict .contentChanged })
      | .failed message => (.saveFailed index message, { tab with state := .dirty })

@[simp] theorem id_compare (tab : Tab) (index : Nat) (content : FileContent) :
    (tab.compare index content).2.id = tab.id := by
  unfold compare
  split
  · split <;> rfl
  · split <;> rfl

@[simp] theorem id_applyRefresh (request : RequestId) (result : RefreshResult) (index : Nat)
    (tab : Tab) : (tab.applyRefresh request result index).2.id = tab.id := by
  unfold applyRefresh
  split
  · rfl
  · dsimp only
    split
    · rfl
    · cases result <;> simp

@[simp] theorem id_applySave (request : RequestId) (result : SaveResult) (index : Nat)
    (tab : Tab) : (tab.applySave request result index).2.id = tab.id := by
  unfold applySave
  split
  · rfl
  · cases result <;> rfl

end Workbench.Tab
