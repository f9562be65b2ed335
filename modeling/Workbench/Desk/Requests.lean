import Workbench.Desk.Basic

/-! # Requests of the desk

How refreshes and saves are started, performed and applied. Applying a result
may start a save that was queued behind it, so waiting for all requests ends
only when none is under way any more (`Desk.settle`). Every application takes
one request away and every started save takes a tab out of the queue, which
bounds the wait. -/

namespace Workbench.Desk

variable {σ : Type}

/-- Whose results are being applied. -/
inductive Phase
  | refresh
  | save
  deriving DecidableEq

def startRefresh (desk : Desk σ) (index : Nat) : Desk σ :=
  let id := desk.lastRequest + 1
  let desk := { desk with lastRequest := id }
  match desk.dispatch (.refreshStarted index id) with
  | (.error _, desk) => desk
  | (.ok _, desk) =>
      match desk.tab? index with
      | none => desk
      | some tab =>
          { desk with
            traffic := desk.traffic.start { tab := tab.id, id, errand := .read tab.path } }

/-- The version a save of a tab expects to find. -/
def expectedEtag (tab : Tab) : Option String :=
  if tab.overwriteOnSave then none else tab.etag

/-- Starts a save of the tab at a position. The request carries the content of
this moment. -/
def startSave (desk : Desk σ) (index : Nat) : Except TabError Unit × Desk σ :=
  let id := desk.lastRequest + 1
  match { desk with lastRequest := id }.dispatch (.saveStarted index id) with
  | (.error error, desk) => (.error error, desk)
  | (.ok _, desk) =>
      match desk.tab? index with
      | none => (.ok (), desk)
      | some tab =>
          let errand := Errand.write tab.path tab.content tab.encoding (expectedEtag tab)
          let desk := { desk with traffic := desk.traffic.start { tab := tab.id, id, errand } }
          (.ok (), desk.logInfo "save.started" tab.path)

/-- Journals the outcome of an applied result, and tells the user about
conflicts and failed saves. -/
def report (desk : Desk σ) (phase : Phase) : Except TabError TabOutcome → Desk σ
  | .ok (.adopted index) => desk.logInfo "refresh.adopted" (desk.pathAt index)
  | .ok (.conflict index reason) =>
      let path := desk.pathAt index
      let message := match phase, reason with
        | _, .pathNotFound => s!"{path} no longer exists on the server"
        | .refresh, .contentChanged => s!"{path} changed on the server while you were editing"
        | .save, .contentChanged => s!"Save rejected: {path} changed on the server"
      (desk.logWarn "tab.conflict" s!"{path}: {reason.name}").notify .info message
        (some "resolve by keeping your changes or taking the server version")
  | .ok (.refreshFailed index message) =>
      desk.logWarn "refresh.failed" s!"{desk.pathAt index}: {message}"
  | .ok (.saved index stillDirty) =>
      desk.logInfo "save.completed" s!"{desk.pathAt index} still_dirty={stillDirty}"
  | .ok (.saveFailed index message) =>
      let path := desk.pathAt index
      (desk.logError "save.failed" s!"{path}: {message}").notify .error s!"Failed to save {path}"
        (some message)
  | .ok (.dropped reason) => desk.logInfo "response.dropped" reason.name
  | .ok _ => desk
  | .error error => desk.logError "tab.action_failed" error.message

/-- Starts the save that was queued for the tab with a number, unless another
request of that tab is under way. A queued save has become pointless when the
tab is in conflict or has nothing unsaved. -/
def startQueuedSave (desk : Desk σ) (id : TabId) : Desk σ :=
  match desk.bar.findId? id with
  | none => desk
  | some index =>
      match desk.tab? index with
      | none => desk
      | some tab =>
          if !tab.saveQueued || tab.isBusy then desk
          else if tab.state.isConflict || !tab.unsaved then
            (desk.logInfo "save.queued_dropped" tab.path).perform (.cancelQueuedSave index)
          else
            match desk.startSave index with
            | (.ok _, desk) => desk
            | (.error error, desk) => desk.logWarn "save.queued_failed" error.message

def phaseOf : RequestResult → Phase
  | .refresh _ => .refresh
  | .save _ => .save

/-- Applies a result to the tab that asked for it. -/
def applyReply (desk : Desk σ) (reply : Reply) : Desk σ :=
  let (outcome, desk) := desk.dispatch reply.action
  (desk.report (phaseOf reply.result) outcome).startQueuedSave reply.tab

/-- Applies the oldest result in the mailbox. -/
def deliver (desk : Desk σ) : Desk σ :=
  match desk.traffic.mailbox with
  | [] => desk
  | reply :: rest =>
      { desk with traffic := { desk.traffic with mailbox := rest } }.applyReply reply

/-- Applies the given number of results. -/
def deliverMany : Nat → Desk σ → Desk σ
  | 0, desk => desk
  | count + 1, desk => deliverMany count desk.deliver

/-- Applies every result in the mailbox and tells their number. -/
def pump (desk : Desk σ) : Nat × Desk σ :=
  let count := desk.traffic.mailbox.length
  (count, deliverMany count desk)

section Service

variable [FileService σ]

/-- Lets the service perform the waiting request at a position and send the result, in one
step. No order of results is lost by that. Where a call is performed early and its result comes
late, the request is released late: nothing is assumed of a service, which may change between
any two steps, so it may have made the call before and answer with what it found then. What is
said of files in memory in particular goes by the order of the calls. -/
def release (desk : Desk σ) (position : Nat) : Option Request × Desk σ :=
  match desk.traffic.waiting[position]? with
  | none => (none, desk)
  | some request =>
      let (result, service) := request.errand.perform desk.service
      let reply := { tab := request.tab, id := request.id, result }
      (some request, { desk with service, traffic := desk.traffic.answered position reply })

/-- Lets the service perform the given number of waiting requests, oldest
first. -/
def releaseMany : Nat → Desk σ → Desk σ
  | 0, desk => desk
  | count + 1, desk => releaseMany count (desk.release 0).2

/-- Lets the service perform every waiting request, oldest first. -/
def releaseAll (desk : Desk σ) : Desk σ := releaseMany desk.traffic.waiting.length desk

/-- Lets the service perform the waiting request whose turn it is. -/
def releaseNext (desk : Desk σ) : Desk σ :=
  match desk.traffic.order with
  | [] => (desk.release 0).2
  | position :: rest =>
      let desk := { desk with traffic := { desk.traffic with order := rest } }
      -- A turn beyond the end is that of the last request.
      (desk.release (min position (desk.traffic.waiting.length - 1))).2

/-- Waits for one result and applies it. -/
def awaitOne (desk : Desk σ) : Desk σ :=
  if desk.traffic.mailbox.isEmpty then desk.releaseNext.deliver else desk.deliver

/-- Waits for results as long as any request is under way, at most the given
number of times, and tells how many were applied. Every wait is taken to end with a result.
Left out is that it is given up after thirty seconds without one, which is journaled as
`settle.timeout` and leaves the requests under way. -/
def settleWithin : Nat → Desk σ → Nat × Desk σ
  | 0, desk => (0, desk)
  | limit + 1, desk =>
      if desk.inFlight = 0 then (0, desk)
      else
        let (applied, desk) := settleWithin limit desk.awaitOne
        (applied + 1, desk)

/-- The number of tabs with a queued save. -/
def queuedSaves (desk : Desk σ) : Nat := desk.bar.tabs.countP (·.saveQueued)

/-- Waits until no request is under way, queued saves included, and tells how
many results were applied. The limit is not reached before (`Workspace.Settles.unlimited`). As a
wait is never given up here, what is said of an operation that waits, such as a rename, a delete
or the end of a session, is said of one whose wait completes. -/
def settle (desk : Desk σ) : Nat × Desk σ :=
  settleWithin (desk.inFlight + desk.queuedSaves) desk

/-- Waits for all requests if a tab at or below a path is being saved, so that
what happens to the path next cannot cross that save. Like `settle` it never gives up. -/
def settleSavesUnder (desk : Desk σ) (path : String) : Nat × Desk σ :=
  let path := Path.normalize path
  if desk.bar.tabs.any fun tab => tab.pendingSave.isSome && Path.isUnder tab.path path then
    (desk.logInfo "save.awaited" path).settle
  else (0, desk)

end Service

end Workbench.Desk
