import Workbench.Desk.Traffic
import Workbench.Journal
import Workbench.Notice
import Workbench.Tab.Bar

/-! # The desk

The open tabs together with the file service they are read from and saved to.
Refreshes and saves of tabs run in the background: their results change the
tabs only when they are applied, so that every change is a step of its own. What
the user should know becomes a notice, and what happened a line of the
journal. -/

namespace Workbench

/-- When dirty tabs are saved by themselves: so many milliseconds after the last
edit, if at all. -/
structure AutosavePolicy where
  enabled : Bool
  delay : Nat
  deriving DecidableEq, Inhabited

namespace AutosavePolicy

/-- The usual delay in milliseconds. -/
def defaultDelay : Nat := 1500

/-- No tab is saved by itself. -/
def disabled : AutosavePolicy := { enabled := false, delay := defaultDelay }

/-- Tabs are saved some milliseconds after their last edit. -/
def after (delay : Nat) : AutosavePolicy := { enabled := true, delay }

end AutosavePolicy

/-- The open tabs, the file service, the requests under way and the number given
to the latest of them, and what was told to the user and to the journal. -/
structure Desk (σ : Type) where
  bar : TabBar
  service : σ
  traffic : Traffic
  lastRequest : RequestId
  autosave : AutosavePolicy
  notices : List Notice
  journal : Journal
  /-- Notices are journaled as well. -/
  echoNotices : Bool

namespace Desk

variable {σ : Type}

/-- A desk without tabs. -/
def opening (service : σ) (autosave : AutosavePolicy) (journal : Journal) (echoNotices : Bool) :
    Desk σ :=
  { bar := .empty, service, traffic := .idle, lastRequest := 0, autosave, notices := [],
    journal, echoNotices }

def tab? (desk : Desk σ) (index : Nat) : Option Tab := desk.bar.tabs[index]?

/-- The path of the tab at a position, or the empty text. -/
def pathAt (desk : Desk σ) (index : Nat) : String := ((desk.tab? index).map (·.path)).getD ""

/-- The number of requests under way, read off the requests themselves. A counter that goes up
when a request is started, and down but not below zero when a result is applied, holds the same
number: what was started is always what was applied and what is under way
(`Workspace.Settles.in_flight`). -/
def inFlight (desk : Desk σ) : Nat := desk.traffic.inFlight

def logInfo (desk : Desk σ) (event message : String) : Desk σ :=
  { desk with journal := desk.journal.info event message }

def logWarn (desk : Desk σ) (event message : String) : Desk σ :=
  { desk with journal := desk.journal.warn event message }

def logError (desk : Desk σ) (event message : String) : Desk σ :=
  { desk with journal := desk.journal.error event message }

/-- Tells the user something. -/
def notify (desk : Desk σ) (level : NoticeLevel) (message : String) (details : Option String) :
    Desk σ :=
  let desk := { desk with notices := desk.notices ++ [Notice.mk level message details] }
  if desk.echoNotices then desk.logInfo s!"notify.{level.name}" message else desk

/-- Performs an action on the tabs. An action that is refused changes
nothing. -/
def dispatch (desk : Desk σ) (action : TabAction) : Except TabError TabOutcome × Desk σ :=
  match desk.bar.apply action with
  | .ok (outcome, bar) => (.ok outcome, { desk with bar })
  | .error error => (.error error, desk)

/-- Performs an action on the tabs whose outcome is of no interest. -/
def perform (desk : Desk σ) (action : TabAction) : Desk σ := (desk.dispatch action).2

/-- Opens a file in a tab, or selects the tab it is open in, and tells the
position of the tab. -/
def openFile (desk : Desk σ) (file : FileInfo) (content : String) (encoding : Encoding)
    (etag : Option String) : Nat × Desk σ :=
  let ((index, reused), bar) := desk.bar.openTab file content encoding etag
  let event := if reused then "tab.reselected" else "tab.opened"
  (index, { desk with bar }.logInfo event file.path)

section Service

variable [FileService σ]

def fetchFile (desk : Desk σ) (path : String) : Except FileError FileContent × Desk σ :=
  let (answer, service) := FileService.fetchFile path desk.service
  (answer, { desk with service })

def storeFile (desk : Desk σ) (path content : String) (encoding : Encoding)
    (expected : Option String) : Except FileError WriteResult × Desk σ :=
  let (answer, service) := FileService.storeFile path content encoding expected desk.service
  (answer, { desk with service })

def movePath (desk : Desk σ) (oldPath newPath : String) : Except FileError Unit × Desk σ :=
  let (answer, service) := FileService.movePath oldPath newPath desk.service
  (answer, { desk with service })

def removePath (desk : Desk σ) (path : String) : Except FileError Unit × Desk σ :=
  let (answer, service) := FileService.removePath path desk.service
  (answer, { desk with service })

def listFolder (desk : Desk σ) (path : String) : Except FileError (List DirEntry) × Desk σ :=
  let (answer, service) := FileService.listFolder path desk.service
  (answer, { desk with service })

end Service

@[simp] theorem bar_logInfo (desk : Desk σ) (event message : String) :
    (desk.logInfo event message).bar = desk.bar := rfl

@[simp] theorem bar_logWarn (desk : Desk σ) (event message : String) :
    (desk.logWarn event message).bar = desk.bar := rfl

@[simp] theorem bar_logError (desk : Desk σ) (event message : String) :
    (desk.logError event message).bar = desk.bar := rfl

@[simp] theorem bar_notify (desk : Desk σ) (level : NoticeLevel) (message : String)
    (details : Option String) : (desk.notify level message details).bar = desk.bar := by
  unfold notify
  dsimp only
  split <;> rfl

@[simp] theorem service_logInfo (desk : Desk σ) (event message : String) :
    (desk.logInfo event message).service = desk.service := rfl

@[simp] theorem service_logWarn (desk : Desk σ) (event message : String) :
    (desk.logWarn event message).service = desk.service := rfl

@[simp] theorem service_logError (desk : Desk σ) (event message : String) :
    (desk.logError event message).service = desk.service := rfl

@[simp] theorem service_notify (desk : Desk σ) (level : NoticeLevel) (message : String)
    (details : Option String) : (desk.notify level message details).service = desk.service := by
  unfold notify
  dsimp only
  split <;> rfl

@[simp] theorem traffic_logInfo (desk : Desk σ) (event message : String) :
    (desk.logInfo event message).traffic = desk.traffic := rfl

@[simp] theorem traffic_logWarn (desk : Desk σ) (event message : String) :
    (desk.logWarn event message).traffic = desk.traffic := rfl

@[simp] theorem traffic_logError (desk : Desk σ) (event message : String) :
    (desk.logError event message).traffic = desk.traffic := rfl

@[simp] theorem traffic_notify (desk : Desk σ) (level : NoticeLevel) (message : String)
    (details : Option String) : (desk.notify level message details).traffic = desk.traffic := by
  unfold notify
  dsimp only
  split <;> rfl

theorem dispatch_error {desk : Desk σ} {action : TabAction} {error : TabError}
    (h : (desk.dispatch action).1 = .error error) : (desk.dispatch action).2 = desk := by
  unfold dispatch at *
  split at h
  · simp at h
  · rfl

end Desk

end Workbench
