import Workbench.Tab.Answer
import Workbench.Tab.Error

/-! # The tab bar

The open tabs in their order and which of them is active. Every change is one
action (`TabBar.apply`), so that no action leaves the bar half changed: an
action either fails and changes nothing, or gives the next bar. -/

namespace Workbench

/-- The open tabs, the position of the active one, and the number given to the
tab opened last. -/
structure TabBar where
  tabs : List Tab
  active : Option Nat
  lastId : TabId
  deriving DecidableEq

namespace TabBar

def empty : TabBar := { tabs := [], active := none, lastId := 0 }

instance : Inhabited TabBar := ⟨empty⟩

def activeTab? (bar : TabBar) : Option Tab := bar.active.bind fun index => bar.tabs[index]?

def find? (bar : TabBar) (path : String) : Option Nat :=
  bar.tabs.findIdx? fun tab => tab.path == path

def findId? (bar : TabBar) (id : TabId) : Option Nat :=
  bar.tabs.findIdx? fun tab => tab.id == id

def paths (bar : TabBar) : List String := bar.tabs.map (·.path)

/-- The failure of an action at a position that no tab has. -/
def outOfRange (bar : TabBar) (index : Nat) : TabError :=
  .indexOutOfRange index bar.tabs.length

/-- The bar with one tab changed. -/
def modifyAt (bar : TabBar) (index : Nat) (f : Tab → Tab) : TabBar :=
  { bar with tabs := bar.tabs.modify index f }

/-- Adds a tab at the end. -/
def push (bar : TabBar) (file : FileInfo) (content : String) (encoding : Encoding)
    (etag : Option String) : TabBar :=
  { bar with
    tabs := bar.tabs ++ [.opened (bar.lastId + 1) file content encoding etag]
    lastId := bar.lastId + 1 }

/-- The active position after the tab at an index is gone: the same tab, or,
when that was the active one, its right neighbour or else the last. -/
def activeAfterClose (active : Option Nat) (index remaining : Nat) : Option Nat :=
  if remaining = 0 then none
  else active.map fun a =>
    if index < a then a - 1 else if a = index then min index (remaining - 1) else a

def closeAt (bar : TabBar) (index : Nat) : TabBar :=
  let tabs := bar.tabs.eraseIdx index
  { bar with tabs, active := activeAfterClose bar.active index tabs.length }

def closeId (bar : TabBar) (id : TabId) : TabBar :=
  match bar.findId? id with
  | some index => bar.closeAt index
  | none => bar

/-- Selects the tab of a file, opening it at the end if there is none. A tab
that is open already takes the given content unless its own is unsaved or
being saved. The answer tells the position and whether the tab was open. -/
def openTab (bar : TabBar) (file : FileInfo) (content : String) (encoding : Encoding)
    (etag : Option String) : (Nat × Bool) × TabBar :=
  match bar.find? file.path with
  | some index =>
      let replace := fun (tab : Tab) =>
        -- A refresh decides later whether such content is in conflict.
        if tab.unsaved || tab.pendingSave.isSome then tab
        else
          { tab with
            file, content, encoding, etag
            state := .clean
            overwriteOnSave := false
            generation := tab.generation + 1 }
      ((index, true), { bar.modifyAt index replace with active := some index })
  | none =>
      let index := bar.tabs.length
      ((index, false), { bar.push file content encoding etag with active := some index })

/-- Adds a tab without content, unless the path is open. It becomes active only
if no tab is. -/
def openUnloaded (bar : TabBar) (file : FileInfo) : TabOutcome × TabBar :=
  match bar.find? file.path with
  | some index => (.opened index true, bar)
  | none =>
      let index := bar.tabs.length
      (.opened index false,
        { bar.push file "" .utf8 none with active := bar.active <|> some index })

/-- Where a position is after the tab at one position has moved to another. -/
def positionAfterMove (source target a : Nat) : Nat :=
  if a = source then target
  else if source < a ∧ a ≤ target then a - 1
  else if target ≤ a ∧ a < source then a + 1
  else a

def reorder (bar : TabBar) (source target : Nat) : Except TabError (TabOutcome × TabBar) :=
  match bar.tabs[source]? with
  | none => .error (bar.outOfRange source)
  | some tab =>
      if bar.tabs.length ≤ target then .error (bar.outOfRange target)
      else if source = target then .ok (.unchanged, bar)
      else
        .ok (.updated,
          { bar with
            tabs := (bar.tabs.eraseIdx source).insertIdx target tab
            active := bar.active.map (positionAfterMove source target) })

/-- Points the tab of one path at another path. A tab that was open there is
closed. -/
def updatePath (bar : TabBar) (oldPath newPath : String) : TabOutcome × TabBar :=
  if oldPath = newPath ∨ bar.find? oldPath = none then (.pathsUpdated 0, bar)
  else
    let bar := match bar.find? newPath with
      | some index => bar.closeAt index
      | none => bar
    -- The tab is looked up again, as the closed one may have stood before it.
    let bar := match bar.find? oldPath with
      | some index => bar.modifyAt index (·.moveTo newPath)
      | none => bar
    (.pathsUpdated 1, bar)

/-- Where the tabs at or below a folder go when it is renamed. -/
def moves (bar : TabBar) (oldFolder newFolder : String) : List (TabId × String) :=
  bar.tabs.filterMap fun tab =>
    (Path.rebase? tab.path oldFolder newFolder).map fun path => (tab.id, path)

/-- The tabs that stay but sit where a moving one goes. -/
def collisions (bar : TabBar) (moving : List (TabId × String)) : List TabId :=
  (bar.tabs.filter fun tab =>
    !(moving.any fun m => m.1 == tab.id) && moving.any fun m => m.2 == tab.path).map (·.id)

/-- Points the tab with a number at another path. -/
def moveId (bar : TabBar) (move : TabId × String) : TabBar :=
  match bar.findId? move.1 with
  | some index => bar.modifyAt index (·.moveTo move.2)
  | none => bar

/-- Points every tab at or below a folder at its place in the renamed folder.
Tabs that sit there already are closed. -/
def updatePathsUnder (bar : TabBar) (oldFolder newFolder : String) : TabOutcome × TabBar :=
  if oldFolder = newFolder then (.pathsUpdated 0, bar)
  else
    let moving := bar.moves oldFolder newFolder
    -- What is in the way goes first, so no two tabs share a path in between.
    let bar := (bar.collisions moving).foldl closeId bar
    (.pathsUpdated moving.length, moving.foldl moveId bar)

/-- Closes the tabs at a path or, for a folder, at or below it. -/
def closeByPath (bar : TabBar) (path : String) (isFolder : Bool) : TabOutcome × TabBar :=
  let closing := bar.tabs.filter fun tab =>
    if isFolder then Path.isUnder tab.path path else tab.path == path
  (.closed closing.length, (closing.map (·.id)).foldl closeId bar)

/-- An action at one tab: it fails where no tab is. -/
def act (bar : TabBar) (index : Nat) (step : Tab → Except TabError (TabOutcome × Tab)) :
    Except TabError (TabOutcome × TabBar) :=
  match bar.tabs[index]? with
  | none => .error (bar.outOfRange index)
  | some tab =>
      match step tab with
      | .error error => .error error
      | .ok (outcome, tab) => .ok (outcome, { bar with tabs := bar.tabs.set index tab })

/-- An action at one tab that is in conflict. -/
def atConflict (bar : TabBar) (index : Nat) (step : Tab → TabOutcome × Tab) :
    Except TabError (TabOutcome × TabBar) :=
  bar.act index fun tab =>
    if tab.state.isConflict then .ok (step tab) else .error (.notInConflict tab.path)

/-- An answer for the tab with a number. -/
def answer (bar : TabBar) (id : TabId) (apply : Nat → Tab → TabOutcome × Tab) :
    TabOutcome × TabBar :=
  match bar.findId? id with
  | none => (.dropped .tabClosed, bar)
  | some index =>
      match bar.tabs[index]? with
      | none => (.dropped .tabClosed, bar)
      | some tab =>
          let (outcome, tab) := apply index tab
          (outcome, { bar with tabs := bar.tabs.set index tab })

def editTab (content : String) (time : Nat) (tab : Tab) : Except TabError (TabOutcome × Tab) :=
  if tab.file.readOnly then .error (.readOnly tab.path)
  else if tab.content = content then .ok (.unchanged, tab)
  else
    .ok (.updated,
      { tab with
        content
        unsaved := true
        generation := tab.generation + 1
        lastEdit := some time
        state := if tab.state = .clean ∨ tab.state = .saved then .dirty else tab.state })

def startSave (request : RequestId) (tab : Tab) : Except TabError (TabOutcome × Tab) :=
  match tab.state with
  | .conflict reason => .error (.saveBlockedByConflict tab.path reason)
  | _ =>
      if tab.file.readOnly then .error (.readOnly tab.path)
      else
        .ok (.updated,
          { tab with
            state := .saving
            saveQueued := false
            pendingSave := some { request, generation := tab.generation } })

/-- The tab as it is once its content was stored at another path. -/
def storeAt (newPath : String) (write : WriteResult) (tab : Tab) : Tab :=
  let tab := tab.moveTo newPath
  { tab with
    file := tab.file.withWrite write
    etag := some write.etag
    unsaved := false
    state := .clean
    overwriteOnSave := false
    saveQueued := false
    generation := tab.generation + 1 }

/-- Closes a tab that is open at a path, unless it is the one with the given
number. It must not hold unsaved changes. -/
def vacate (bar : TabBar) (id : TabId) (path : String) : Except TabError TabBar :=
  match bar.find? path with
  | none => .ok bar
  | some index =>
      match bar.tabs[index]? with
      | none => .ok bar
      | some target =>
          if target.id = id then .ok bar
          else if target.unsaved then .error (.targetHasUnsavedChanges path)
          else .ok (bar.closeAt index)

/-- Ends a conflict with the content stored at another path: the tab moves
there, and another tab at that path is closed. -/
def savedAs (bar : TabBar) (index : Nat) (newPath : String) (write : WriteResult) :
    Except TabError (TabOutcome × TabBar) :=
  match bar.tabs[index]? with
  | none => .error (bar.outOfRange index)
  | some tab =>
      if !tab.state.isConflict then .error (.notInConflict tab.path)
      else
        match bar.vacate tab.id newPath with
        | .error error => .error error
        | .ok bar =>
            match bar.findId? tab.id with
            | none => .ok (.dropped .tabClosed, bar)
            | some index => .ok (.updated, bar.modifyAt index (storeAt newPath write))

/-- Compares a tab with what another writer has stored. Changes of its own
that are unsaved or being saved make a conflict. -/
def overwrittenBy (content : String) (encoding : Encoding) (write : WriteResult) (index : Nat)
    (tab : Tab) : TabOutcome × Tab :=
  if tab.etag = some write.etag then (.unchanged, tab)
  else if tab.unsaved || tab.pendingSave.isSome then
    (.conflict index .contentChanged,
      { tab with state := .conflict .contentChanged, saveQueued := false })
  else
    (.adopted index,
      { tab with
        file := tab.file.withWrite write
        content, encoding
        etag := some write.etag
        state := .clean
        overwriteOnSave := false
        generation := tab.generation + 1 })

/-- Tells the tab of a path what another writer has stored there. -/
def externalWrite (bar : TabBar) (path content : String) (encoding : Encoding)
    (write : WriteResult) : TabOutcome × TabBar :=
  match bar.find? path with
  | none => (.unchanged, bar)
  | some index =>
      match bar.tabs[index]? with
      | none => (.unchanged, bar)
      | some tab =>
          let (outcome, tab) := overwrittenBy content encoding write index tab
          (outcome, { bar with tabs := bar.tabs.set index tab })

/-- Performs an action. -/
def apply (bar : TabBar) : TabAction → Except TabError (TabOutcome × TabBar)
  | .openTab file content encoding etag =>
      let ((index, reused), bar) := bar.openTab file content encoding etag
      .ok (.opened index reused, bar)
  | .openUnloaded file => .ok (bar.openUnloaded file)
  | .activate index =>
      if bar.tabs.length ≤ index then .error (bar.outOfRange index)
      else if bar.active = some index then .ok (.unchanged, bar)
      else .ok (.updated, { bar with active := some index })
  | .close index =>
      if bar.tabs.length ≤ index then .error (bar.outOfRange index)
      else .ok (.closed 1, bar.closeAt index)
  | .closeOthers index =>
      match bar.tabs[index]? with
      | none => .error (bar.outOfRange index)
      | some tab =>
          .ok (.closed (bar.tabs.length - 1), { bar with tabs := [tab], active := some 0 })
  | .closeAll => .ok (.closed bar.tabs.length, { bar with tabs := [], active := none })
  | .reorder source target => bar.reorder source target
  | .edit index content time => bar.act index (editTab content time)
  | .updatePath oldPath newPath => .ok (bar.updatePath oldPath newPath)
  | .updatePathsUnder oldFolder newFolder => .ok (bar.updatePathsUnder oldFolder newFolder)
  | .closeByPath path isFolder => .ok (bar.closeByPath path isFolder)
  | .refreshStarted index request =>
      bar.act index fun tab =>
        .ok (.updated,
          { tab with pendingRefresh := some { request, generation := tab.generation } })
  | .refreshResolved tab request result =>
      .ok (bar.answer tab fun index tab => tab.applyRefresh request result index)
  | .queueSave index => bar.act index fun tab => .ok (.updated, { tab with saveQueued := true })
  | .cancelQueuedSave index =>
      bar.act index fun tab => .ok (.updated, { tab with saveQueued := false })
  | .saveStarted index request => bar.act index (startSave request)
  | .saveResolved tab request result =>
      .ok (bar.answer tab fun index tab => tab.applySave request result index)
  | .acceptServer index content =>
      bar.atConflict index fun tab =>
        (.adopted index, { tab.adopt content with saveQueued := false })
  | .keepLocal index =>
      bar.atConflict index fun tab =>
        (.updated, { tab with state := tab.settledState, overwriteOnSave := true })
  | .savedAs index newPath write => bar.savedAs index newPath write
  | .externalWrite path content encoding write =>
      .ok (bar.externalWrite path content encoding write)

end TabBar

end Workbench
