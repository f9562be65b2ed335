import Workbench.Desk.Saving
import Workbench.Desk.Snapshot
import Workbench.Disk
import Workbench.Session.Command
import Workbench.Tree.Workspace

/-! # The session shell

A workspace driven by typed commands. Each command has one reply. At its end a
session waits for everything under way, warns about edits that were never saved,
and writes a snapshot from which the next session can start. -/

namespace Workbench

/-- Why a snapshot file could not be used. -/
inductive SnapshotError
  | read (path : String) (error : DiskError)
  | parse (path : String)
  | write (path : String) (error : DiskError)
  deriving DecidableEq, Inhabited

namespace SnapshotError

def message : SnapshotError → String
  | .read path error => s!"failed to read session state {path}: {error.message}"
  | .parse path => s!"failed to parse session state {path}: not a snapshot"
  | .write path error => s!"failed to write session state {path}: {error.message}"

end SnapshotError

namespace Snapshot

def load (disk : Disk) (path : String) : Except SnapshotError (Option Snapshot) :=
  match disk.readText path with
  | .error .notFound => .ok none
  | .error error => .error (.read path error)
  | .ok text =>
      match parse text with
      | some snapshot => .ok (some snapshot)
      | none => .error (.parse path)

def save (snapshot : Snapshot) (path : String) (disk : Disk) : Except SnapshotError Unit × Disk :=
  match disk.replace path (Text.utf8Bytes snapshot.render) with
  | (.ok _, disk) => (.ok (), disk)
  | (.error error, disk) => (.error (.write path error), disk)

end Snapshot

/-- Why a command of a session failed. -/
inductive ShellError
  | tab (error : TabError)
  | tree (error : TreeError)
  | snapshot (error : SnapshotError)
  deriving DecidableEq, Inhabited

namespace ShellError

def message : ShellError → String
  | .tab error => error.message
  | .tree error => error.message
  | .snapshot error => error.message

end ShellError

/-- A workspace, the file for its snapshot, if it keeps one, and the disk. -/
structure Shell (σ : Type) where
  workspace : Workspace σ
  snapshotFile : Option String
  disk : Disk

namespace Shell

variable {σ : Type}

def helpLines : List String :=
  ["  open PATH                 Open a file in a tab",
   "  click N                   Activate tab N, refreshing it in the background",
   "  edit N TEXT               Replace the content of tab N (\\n for newlines)",
   "  save N                    Save tab N",
   "  close N                   Close tab N",
   "  close-others N            Close every tab except N",
   "  close-all                 Close every tab",
   "  move FROM TO              Move a tab",
   "  resolve N server|local|save-as PATH",
   "                            Resolve a conflict on tab N",
   "  ls [FOLDER]               List a folder into the file tree",
   "  new PATH                  Create an empty file and open it",
   "  rename OLD NEW            Rename a file or folder",
   "  delete PATH               Delete a file or folder",
   "  upload PATH TEXT          Upload a text file",
   "  tabs                      List open tabs",
   "  pump                      Apply responses that have arrived",
   "  settle                    Wait for every pending request",
   "  help                      Show session commands",
   "  exit                      Finish pending work and leave"]

def unlines (lines : List String) : String := "\n".intercalate lines

def desk (shell : Shell σ) : Desk σ := shell.workspace.desk

def withDesk (shell : Shell σ) (desk : Desk σ) : Shell σ :=
  { shell with workspace := { shell.workspace with desk } }

def tabLine (active : Option Nat) (index : Nat) (tab : Tab) : String :=
  let marker := if active = some index then "*" else " "
  s!"{marker} {index} {tab.path} {tab.state.label}"

def tabLines (bar : TabBar) : String :=
  if bar.tabs.isEmpty then "no open tabs"
  else unlines (bar.tabs.mapIdx (tabLine bar.active))

def entryLine (entry : TreeEntry) : String :=
  if entry.isFolder then s!"{entry.path}/" else s!"{entry.path} {entry.size}"

def folderLines (tree : FileTree) (folder : String) : String :=
  let lines := (tree.children folder).map entryLine
  if lines.isEmpty then "empty" else unlines lines

def unsavedPaths (bar : TabBar) : List String :=
  (bar.tabs.filter (·.unsaved)).map (·.path)

/-- Warns about unsaved changes, if there are any. -/
def warnUnsaved (desk : Desk σ) : Desk σ :=
  let unsaved := unsavedPaths desk.bar
  if unsaved.isEmpty then desk
  else
    let paths := ", ".intercalate unsaved
    (desk.logWarn "session.unsaved" paths).notify .info
      s!"{unsaved.length} tab(s) closed with unsaved changes" (some paths)

section Service

variable [FileService σ]

/-- Reopens the tabs of the snapshot, if there is one, and tells their
number. -/
def restore (shell : Shell σ) : Except SnapshotError Nat × Shell σ :=
  match shell.snapshotFile with
  | none => (.ok 0, shell)
  | some path =>
      match Snapshot.load shell.disk path with
      | .error error => (.error error, shell)
      | .ok none => (.ok 0, shell)
      | .ok (some snapshot) =>
          let (restored, desk) := shell.desk.restore snapshot
          (.ok restored, shell.withDesk desk)

/-- Ends the session: waits for everything under way, warns about unsaved
changes and writes the snapshot. -/
def finish (shell : Shell σ) : Except ShellError String × Shell σ :=
  let desk := warnUnsaved shell.desk.settle.2
  let shell := shell.withDesk desk
  let reply := s!"session ended\nopen_tabs={desk.bar.tabs.length}"
  match shell.snapshotFile with
  | none => (.ok reply, shell)
  | some path =>
      match (Snapshot.capture desk.bar).save path shell.disk with
      | (.ok _, disk) => (.ok reply, { shell with disk })
      | (.error error, disk) => (.error (.snapshot error), { shell with disk })

def onDesk {α : Type} (shell : Shell σ) (result : Except TabError α × Desk σ)
    (reply : α → Desk σ → String) : Except ShellError String × Shell σ :=
  match result with
  | (.ok a, desk) => (.ok (reply a desk), shell.withDesk desk)
  | (.error error, desk) => (.error (.tab error), shell.withDesk desk)

def onTree {α : Type} (shell : Shell σ) (result : Except TreeError α × Workspace σ)
    (reply : α → Workspace σ → String) : Except ShellError String × Shell σ :=
  match result with
  | (.ok a, workspace) => (.ok (reply a workspace), { shell with workspace })
  | (.error error, workspace) => (.error (.tree error), { shell with workspace })

/-- Carries out a command at a time. -/
def execute (shell : Shell σ) (now : Nat) : Command → Except ShellError String × Shell σ
  | .openPath path => shell.onDesk (shell.desk.openPath path) fun index _ => s!"opened {index}"
  | .click index =>
      let desk := shell.desk.clickTab index
      let active := desk.bar.active.elim "none" toString
      (.ok s!"active={active}", shell.withDesk desk)
  | .edit index content =>
      shell.onDesk (shell.desk.editTab index content now) fun _ _ => "edited"
  | .save index =>
      shell.onDesk (shell.desk.saveTab index) fun
        | .started, _ => "saving"
        | .queued, _ => "save queued"
        | .nothingToSave, _ => "nothing to save"
  | .close index => shell.onDesk (shell.desk.closeTab index) fun _ _ => "closed 1"
  | .closeOthers index =>
      shell.onDesk (shell.desk.closeOthers index) fun closed _ => s!"closed {closed}"
  | .closeAll =>
      let (closed, desk) := shell.desk.closeAll
      (.ok s!"closed {closed}", shell.withDesk desk)
  | .move source target =>
      shell.onDesk (shell.desk.moveTab source target) fun _ desk => tabLines desk.bar
  | .resolve index action =>
      shell.onDesk (shell.desk.resolveConflict index action) fun _ _ => "resolved"
  | .list folder =>
      let folder := Path.normalize folder
      shell.onTree (shell.workspace.refreshFolder folder) fun _ w => folderLines w.tree folder
  | .create path => shell.onTree (shell.workspace.createFile path) fun index _ => s!"opened {index}"
  | .rename oldPath newPath =>
      shell.onTree (shell.workspace.rename oldPath newPath) fun updated _ =>
        s!"renamed\ntabs_updated={updated}"
  | .delete path =>
      shell.onTree (shell.workspace.delete path) fun closed _ => s!"deleted\ntabs_closed={closed}"
  | .upload path content =>
      let u := shell.workspace.upload [.ofText path content]
      let p := u.progress
      (.ok s!"uploaded {p.completedFiles}/{p.totalFiles} ({p.percent}%)",
        { shell with workspace := u.workspace })
  | .tabs => (.ok (tabLines shell.desk.bar), shell)
  | .pump =>
      let (applied, desk) := shell.desk.pump
      (.ok s!"applied {applied}", shell.withDesk desk)
  | .settle =>
      let (applied, desk) := shell.desk.settle
      (.ok s!"applied {applied}", shell.withDesk desk)
  | .help => (.ok (unlines helpLines), shell)
  | .exit => shell.finish

/-- What is done between two commands: results that have come are applied, and
tabs that are due are saved. -/
def tick (shell : Shell σ) (now : Nat) : Shell σ :=
  shell.withDesk (shell.desk.pump.2.runAutosave now).2

end Service

end Shell

end Workbench
