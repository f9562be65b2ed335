import Workbench.Desk.Conflict
import Workbench.Desk.Saving
import Workbench.Desk.Snapshot
import Workbench.File.Memory
import Workbench.Tree.Workspace

/-! # Runs of a workspace

A run is made of steps. A step is an operation of the desk or of the tree, the
performance of one background request by the file service, the application of
one of its results, or a change that some other client makes to the files. The
operations that wait for requests are runs of such steps themselves, so nothing
that can happen while they wait is left out. -/

namespace Workbench

namespace Workspace

/-- One step of a workspace over a file service with states `σ`. -/
inductive Step (σ : Type)
  | openFile (file : FileInfo) (content : String) (encoding : Encoding) (etag : Option String)
  | openPath (path : String)
  | openUnloaded (file : FileInfo)
  | click (index : Nat)
  | close (index : Nat)
  | closeOthers (index : Nat)
  | closeAll
  | move (source target : Nat)
  | edit (index : Nat) (content : String) (time : Nat)
  | updatePath (oldPath newPath : String)
  | updatePathsUnder (oldFolder newFolder : String)
  | closeByPath (path : String) (isFolder : Bool)
  | externalWrite (path content : String) (encoding : Encoding) (write : WriteResult)
  | save (index : Nat)
  | autosave (now : Nat)
  | resolve (index : Nat) (action : ConflictAction)
  | restore (snapshot : Snapshot)
  | list (folder : String)
  | create (path : String)
  /-- The rename of a file or folder after the saves below it were waited for. -/
  | rename (oldPath newPath : String)
  /-- The removal of a file or folder after the saves below it were waited for. -/
  | delete (path : String)
  | upload (items : List UploadItem)
  /-- The service performs the waiting request at a position. -/
  | release (position : Nat)
  /-- The service performs the waiting request whose turn it is. -/
  | releaseNext
  /-- The oldest result is applied. -/
  | deliver
  /-- The turns of the waiting requests are laid down. -/
  | arrange (order : List Nat)
  /-- Something is noted for the user or in the journal. -/
  | annotate (notices : List Notice) (journal : Journal)
  /-- Another client changes the files. -/
  | outside (change : σ → σ)

variable {σ : Type} [FileService σ]

/-- The workspace after a step. What the step answers is left out. -/
def perform (w : Workspace σ) : Step σ → Workspace σ
  | .openFile file content encoding etag =>
      { w with desk := (w.desk.openFile file content encoding etag).2 }
  | .openPath path => { w with desk := (w.desk.openPath path).2 }
  | .openUnloaded file => { w with desk := (w.desk.openUnloaded file).2 }
  | .click index => { w with desk := w.desk.clickTab index }
  | .close index => { w with desk := (w.desk.closeTab index).2 }
  | .closeOthers index => { w with desk := (w.desk.closeOthers index).2 }
  | .closeAll => { w with desk := w.desk.closeAll.2 }
  | .move source target => { w with desk := (w.desk.moveTab source target).2 }
  | .edit index content time => { w with desk := (w.desk.editTab index content time).2 }
  | .updatePath oldPath newPath => { w with desk := (w.desk.updateTabPath oldPath newPath).2 }
  | .updatePathsUnder oldFolder newFolder =>
      { w with desk := (w.desk.updateTabPathsUnder oldFolder newFolder).2 }
  | .closeByPath path isFolder => { w with desk := (w.desk.closeByPath path isFolder).2 }
  | .externalWrite path content encoding write =>
      { w with desk := w.desk.applyExternalWrite path content encoding write }
  | .save index => { w with desk := (w.desk.saveTab index).2 }
  | .autosave now => { w with desk := (w.desk.runAutosave now).2 }
  | .resolve index action => { w with desk := (w.desk.resolveConflict index action).2 }
  | .restore snapshot => { w with desk := (w.desk.restore snapshot).2 }
  | .list folder => (w.refreshFolder folder).2
  | .create path => (w.createFile path).2
  | .rename oldPath newPath => (w.renameSettled oldPath newPath).2
  | .delete path => (w.deleteSettled path).2
  | .upload items => (w.upload items).workspace
  | .release position => { w with desk := (w.desk.release position).2 }
  | .releaseNext => { w with desk := w.desk.releaseNext }
  | .deliver => { w with desk := w.desk.deliver }
  | .arrange order => { w with desk := { w.desk with traffic := { w.desk.traffic with order } } }
  | .annotate notices journal => { w with desk := { w.desk with notices, journal } }
  | .outside change => { w with desk := { w.desk with service := change w.desk.service } }

/-- The workspace after some steps, the first of them first. -/
def run (w : Workspace σ) (steps : List (Step σ)) : Workspace σ := steps.foldl perform w

@[simp] theorem run_nil (w : Workspace σ) : w.run [] = w := rfl

@[simp] theorem run_cons (w : Workspace σ) (step : Step σ) (rest : List (Step σ)) :
    w.run (step :: rest) = (w.perform step).run rest := rfl

@[simp] theorem run_append (w : Workspace σ) (first second : List (Step σ)) :
    w.run (first ++ second) = (w.run first).run second :=
  List.foldl_append

/-- A workspace before any tab was opened. -/
def opening (service : σ) (autosave : AutosavePolicy) (journal : Journal) (echoNotices : Bool)
    (tree : FileTree) : Workspace σ :=
  { desk := .opening service autosave journal echoNotices, tree }

/-- A new workspace over files in memory, of which there are none yet. -/
def openingMemory : Workspace MemoryFiles := opening .empty .disabled .disabled false .empty

/-! ## Operations that wait -/

/-- The operations of a workspace. Some of them wait for background requests. -/
inductive Operation (σ : Type)
  | step (single : Step σ)
  | pump
  | releaseAll
  | settle
  | settleSavesUnder (path : String)
  | rename (oldPath newPath : String)
  | delete (path : String)

/-- The workspace after an operation. -/
def operate (w : Workspace σ) : Operation σ → Workspace σ
  | .step single => w.perform single
  | .pump => { w with desk := w.desk.pump.2 }
  | .releaseAll => { w with desk := w.desk.releaseAll }
  | .settle => { w with desk := w.desk.settle.2 }
  | .settleSavesUnder path => { w with desk := (w.desk.settleSavesUnder path).2 }
  | .rename oldPath newPath => (w.rename oldPath newPath).2
  | .delete path => (w.delete path).2

/-- The steps of waiting for one result. -/
def awaitSteps (desk : Desk σ) : List (Step σ) :=
  if desk.traffic.mailbox.isEmpty then [.releaseNext, .deliver] else [.deliver]

/-- The steps of waiting for results, at most the given number of times. -/
def settleSteps : Nat → Desk σ → List (Step σ)
  | 0, _ => []
  | limit + 1, desk =>
      if desk.inFlight = 0 then [] else awaitSteps desk ++ settleSteps limit desk.awaitOne

/-- The steps of waiting for the saves below a path. -/
def settleUnderSteps (desk : Desk σ) (path : String) : List (Step σ) :=
  let path := Path.normalize path
  if desk.bar.tabs.any fun tab => tab.pendingSave.isSome && Path.isUnder tab.path path then
    let noted := desk.logInfo "save.awaited" path
    .annotate noted.notices noted.journal ::
      settleSteps (noted.inFlight + noted.queuedSaves) noted
  else []

/-- The steps of an operation. -/
def Operation.steps (w : Workspace σ) : Operation σ → List (Step σ)
  | .step single => [single]
  | .pump => List.replicate w.desk.traffic.mailbox.length .deliver
  | .releaseAll => List.replicate w.desk.traffic.waiting.length (.release 0)
  | .settle => settleSteps (w.desk.inFlight + w.desk.queuedSaves) w.desk
  | .settleSavesUnder path => settleUnderSteps w.desk path
  | .rename oldPath newPath =>
      settleUnderSteps w.desk (Path.normalize oldPath) ++ [.rename oldPath newPath]
  | .delete path => settleUnderSteps w.desk (Path.normalize path) ++ [.delete path]

theorem run_deliver (w : Workspace σ) (count : Nat) :
    w.run (List.replicate count .deliver) = { w with desk := Desk.deliverMany count w.desk } := by
  induction count generalizing w with
  | zero => rfl
  | succ count ih =>
      rw [List.replicate_succ, run_cons, ih]
      rfl

theorem run_release (w : Workspace σ) (count : Nat) :
    w.run (List.replicate count (.release 0)) =
      { w with desk := Desk.releaseMany count w.desk } := by
  induction count generalizing w with
  | zero => rfl
  | succ count ih =>
      rw [List.replicate_succ, run_cons, ih]
      rfl

theorem run_awaitSteps (w : Workspace σ) :
    w.run (awaitSteps w.desk) = { w with desk := w.desk.awaitOne } := by
  unfold awaitSteps Desk.awaitOne
  split <;> rfl

theorem run_settleSteps (w : Workspace σ) (limit : Nat) :
    w.run (settleSteps limit w.desk) = { w with desk := (w.desk.settleWithin limit).2 } := by
  induction limit generalizing w with
  | zero => rfl
  | succ limit ih =>
      unfold settleSteps Desk.settleWithin
      split
      · rfl
      · rw [run_append, run_awaitSteps]
        exact ih { w with desk := w.desk.awaitOne }

theorem run_settleUnderSteps (w : Workspace σ) (path : String) :
    w.run (settleUnderSteps w.desk path) =
      { w with desk := (w.desk.settleSavesUnder path).2 } := by
  unfold settleUnderSteps Desk.settleSavesUnder
  dsimp only
  split
  · exact run_settleSteps { w with desk := w.desk.logInfo "save.awaited" (Path.normalize path) } _
  · rfl

/-- Every operation is the run of its steps. -/
theorem operate_eq_run (w : Workspace σ) (operation : Operation σ) :
    w.operate operation = w.run (operation.steps w) := by
  cases operation with
  | step single => rfl
  | pump => exact (run_deliver w _).symm
  | releaseAll => exact (run_release w _).symm
  | settle => exact (run_settleSteps w _).symm
  | settleSavesUnder path => exact (run_settleUnderSteps w path).symm
  | rename oldPath newPath =>
      unfold Operation.steps
      rw [run_append, run_settleUnderSteps]
      rfl
  | delete path =>
      unfold Operation.steps
      rw [run_append, run_settleUnderSteps]
      rfl

/-- The steps of operations, one after another. -/
def stepsOf (w : Workspace σ) : List (Operation σ) → List (Step σ)
  | [] => []
  | operation :: rest => operation.steps w ++ (w.operate operation).stepsOf rest

/-- Whatever operations are performed, they amount to a run of steps. -/
theorem run_stepsOf (w : Workspace σ) (operations : List (Operation σ)) :
    w.run (w.stepsOf operations) = operations.foldl operate w := by
  induction operations generalizing w with
  | nil => rfl
  | cons operation rest ih => rw [stepsOf, run_append, ← operate_eq_run, ih, List.foldl_cons]

end Workspace

end Workbench
