import Workbench.File.Basic

/-! # Tabs

An open tab holds a copy of one file, the version it was read at, and where it
stands between editing and saving. Requests that run in the background are
known to the tab by their numbers, together with the edit count at which they
were started. -/

namespace Workbench

/-- Why a tab is in conflict with the stored file. -/
inductive ConflictReason
  /-- Another version was stored meanwhile. -/
  | contentChanged
  /-- Nothing is stored at the path any more. -/
  | pathNotFound
  deriving DecidableEq, Inhabited

namespace ConflictReason

def name : ConflictReason → String
  | .contentChanged => "content_changed"
  | .pathNotFound => "path_not_found"

def named (s : String) : Option ConflictReason :=
  if s = "content_changed" then some .contentChanged
  else if s = "path_not_found" then some .pathNotFound
  else none

theorem named_name (r : ConflictReason) : named r.name = some r := by
  cases r <;> decide

end ConflictReason

/-- Where a tab stands between editing and saving. -/
inductive SaveState
  | clean
  | dirty
  | saving
  | saved
  | conflict (reason : ConflictReason)
  deriving DecidableEq, Inhabited

namespace SaveState

/-- The name of a state, without the reason of a conflict. -/
def name : SaveState → String
  | .clean => "clean"
  | .dirty => "dirty"
  | .saving => "saving"
  | .saved => "saved"
  | .conflict _ => "conflict"

def conflictReason? : SaveState → Option ConflictReason
  | .conflict reason => some reason
  | _ => none

def isConflict (s : SaveState) : Bool := s.conflictReason?.isSome

theorem isConflict_eq_false {s : SaveState} (h : ∀ reason, s = .conflict reason → False) :
    s.isConflict = false := by
  cases s with
  | conflict reason => exact (h reason rfl).elim
  | _ => rfl

/-- The state as users see it. -/
def label : SaveState → String
  | .conflict reason => s!"conflict ({reason.name})"
  | s => s.name

end SaveState

/-- The number of a tab. It names one tab for good, wherever the tab is moved. -/
abbrev TabId := Nat

abbrev RequestId := Nat

/-- A request that runs for a tab, with the edit count the tab had when it was
started. -/
structure PendingRequest where
  request : RequestId
  generation : Nat
  deriving DecidableEq, Inhabited

structure Tab where
  id : TabId
  file : FileInfo
  content : String
  encoding : Encoding
  /-- The version that was last read or written. -/
  etag : Option String
  unsaved : Bool
  state : SaveState
  /-- Counts the changes of content. -/
  generation : Nat
  pendingRefresh : Option PendingRequest
  pendingSave : Option PendingRequest
  /-- A save is to start once the running request has been answered. -/
  saveQueued : Bool
  /-- The next save expects no version. -/
  overwriteOnSave : Bool
  /-- When the content was last edited, in milliseconds. -/
  lastEdit : Option Nat
  deriving DecidableEq, Inhabited

namespace Tab

def opened (id : TabId) (file : FileInfo) (content : String) (encoding : Encoding)
    (etag : Option String) : Tab :=
  { id, file, content, encoding, etag
    unsaved := false
    state := .clean
    generation := 0
    pendingRefresh := none
    pendingSave := none
    saveQueued := false
    overwriteOnSave := false
    lastEdit := none }

def path (tab : Tab) : String := tab.file.path

/-- The tab holds a stored version. An empty file counts; a tab that was never
read, or could not be, has none. -/
def isLoaded (tab : Tab) : Bool := tab.etag.isSome

/-- A request runs for the tab. -/
def isBusy (tab : Tab) : Bool := tab.pendingRefresh.isSome || tab.pendingSave.isSome

theorem isBusy_eq_false {tab : Tab} :
    tab.isBusy = false ↔ tab.pendingRefresh = none ∧ tab.pendingSave = none := by
  simp [isBusy]

/-- Points the tab at another path. An answer to a running refresh, which asked
for the old path, can no longer be applied. -/
def moveTo (tab : Tab) (path : String) : Tab :=
  { tab with file := tab.file.moveTo path, pendingRefresh := none }

/-- Takes the content of a stored version. -/
def adopt (tab : Tab) (content : FileContent) : Tab :=
  { tab with
    file := tab.file.withMeta content
    content := content.content
    encoding := content.encoding
    etag := some content.etag
    unsaved := false
    state := .clean
    overwriteOnSave := false
    generation := tab.generation + 1 }

/-- Dirty with unsaved changes, clean without. -/
def settledState (tab : Tab) : SaveState := if tab.unsaved then .dirty else .clean

@[simp] theorem path_moveTo (tab : Tab) (path : String) : (tab.moveTo path).path = path := rfl

@[simp] theorem path_adopt (tab : Tab) (content : FileContent) :
    (tab.adopt content).path = tab.path := rfl

@[simp] theorem id_moveTo (tab : Tab) (path : String) : (tab.moveTo path).id = tab.id := rfl

@[simp] theorem id_adopt (tab : Tab) (content : FileContent) :
    (tab.adopt content).id = tab.id := rfl

end Tab

end Workbench
