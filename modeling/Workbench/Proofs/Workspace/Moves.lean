import Workbench.Proofs.Desk.Progress
import Workbench.Proofs.Desk.Settling
import Workbench.Proofs.Workspace.Actions

/-! # The moves of a workspace

Every step of a workspace is made of moves of its desk, so the tabs and the
requests under way agree after any run. A tab keeps what a request was started
for until the result comes; for a save this takes that renames wait for the
saves below them. -/

namespace Workbench.Workspace

open TabBar

variable {σ : Type} [FileService σ]

/-- The step points no tab that is being saved at another path. A rename has
waited for the saves of the tabs at or below the path. -/
def Step.Waits (w : Workspace σ) : Step σ → Prop
  | .rename oldPath _ => ¬ w.desk.SavingUnder (Path.normalize (Path.normalize oldPath))
  | .updatePath _ _ | .updatePathsUnder _ _ => False
  | _ => True

/-- All steps of a run wait. -/
def Waited (w : Workspace σ) : List (Step σ) → Prop
  | [] => True
  | step :: rest => step.Waits w ∧ Waited (w.perform step) rest

theorem Waited.append {w : Workspace σ} {first second : List (Step σ)} (h : Waited w first)
    (h' : Waited (w.run first) second) : Waited w (first ++ second) := by
  induction first generalizing w with
  | nil => exact h'
  | cons step rest ih => exact ⟨h.1, ih h.2 h'⟩

theorem Waited.of_append {w : Workspace σ} {first second : List (Step σ)}
    (h : Waited w (first ++ second)) : Waited w first ∧ Waited (w.run first) second := by
  induction first generalizing w with
  | nil => exact ⟨trivial, h⟩
  | cons step rest ih =>
      obtain ⟨hfirst, hsecond⟩ := ih h.2
      exact ⟨⟨h.1, hfirst⟩, hsecond⟩

theorem moves_rename (w : Workspace σ) (oldPath newPath : String) :
    Desk.Moves ((Step.rename oldPath newPath).Waits w) w.desk
      (w.perform (.rename oldPath newPath)).desk (w.actions (.rename oldPath newPath)) := by
  have hperforms := w.performs_renameSettled oldPath newPath
  have hspares : ∀ action : TabAction,
      (∀ tab : Tab, tab.RepointedBy action →
        Path.isUnder tab.path (Path.normalize (Path.normalize oldPath)) = true) →
      (Step.rename oldPath newPath).Waits w → ∀ tab ∈ w.desk.bar.tabs, tab.RepointedBy action →
        tab.pendingSave = none := by
    intro action hunder hwaits tab htab hrepointed
    cases hsaving : tab.pendingSave with
    | none => rfl
    | some pending =>
        exact absurd ⟨tab, htab, by rw [hsaving]; rfl, hunder tab hrepointed⟩ hwaits
  simp only [actions, perform]
  rcases w.renameActions_cases (Path.normalize oldPath) (Path.normalize newPath) with
    hnone | hfile | hfolder
  · rw [hnone] at hperforms ⊢
    exact .of_unchanged hperforms
  · rw [hfile] at hperforms ⊢
    refine (Desk.Move.acted ?_ (hspares _ ?_) hperforms).moves
    · exact trivial
    · intro tab hrepointed
      have hpath : tab.path = Path.normalize (Path.normalize oldPath) := hrepointed
      rw [hpath]
      exact Path.isUnder_self _
  · rw [hfolder] at hperforms ⊢
    refine (Desk.Move.acted ?_ (hspares _ ?_) hperforms).moves
    · exact trivial
    · exact fun tab hunder => hunder

/-- Every step is made of moves. -/
theorem moves_perform (w : Workspace σ) (hbar : w.desk.bar.Numbered)
    (hwritable : w.desk.bar.Writable) (step : Step σ) :
    Desk.Moves (step.Waits w) w.desk (w.perform step).desk (w.actions step) := by
  have hopen : ∀ service : σ, Desk.OpeningsSatisfy TabAction.Plain service :=
    fun _ _ _ _ _ => ⟨trivial, id⟩
  have hsingle : ∀ {action : TabAction}, action.Plain → ∀ other ∈ [action], other.Plain :=
    fun hplain => List.forall_mem_singleton.mpr hplain
  cases step with
  | openFile file content encoding etag =>
      exact .of_performs (hsingle ⟨trivial, id⟩) (w.desk.performs_openFile file content encoding etag)
  | openPath path =>
      exact .of_performs (Desk.forall_openPathActions (hopen _) _) (w.desk.performs_openPath path)
  | openUnloaded file =>
      exact .of_performs (hsingle ⟨trivial, id⟩) (w.desk.performs_openUnloaded file)
  | click index => exact w.desk.moves_clickTab index
  | close index =>
      exact .of_performs (Desk.forall_closingActions (hopen _) ⟨trivial, id⟩)
        (w.desk.performs_closeTab index)
  | closeOthers index =>
      exact .of_performs (Desk.forall_closingActions (hopen _) ⟨trivial, id⟩)
        (w.desk.performs_closeOthers index)
  | closeAll => exact .of_performs (hsingle ⟨trivial, id⟩) w.desk.performs_closeAll
  | move source target =>
      exact .of_performs (hsingle ⟨trivial, id⟩) (w.desk.performs_moveTab source target)
  | edit index content time =>
      exact .of_performs (hsingle ⟨trivial, id⟩) (w.desk.performs_editTab index content time)
  | updatePath oldPath newPath =>
      dsimp only [perform, actions]
      have hperforms := w.desk.performs_updateTabPath oldPath newPath
      refine (Desk.Move.acted ?_ ?_ hperforms).moves
      · exact trivial
      · exact False.elim
  | updatePathsUnder oldFolder newFolder =>
      dsimp only [perform, actions]
      have hperforms := w.desk.performs_updateTabPathsUnder oldFolder newFolder
      refine (Desk.Move.acted ?_ ?_ hperforms).moves
      · exact trivial
      · exact False.elim
  | closeByPath path isFolder =>
      exact .of_performs (Desk.forall_closeByPathActions (hopen _) (fun _ _ => ⟨trivial, id⟩) _ _)
        (w.desk.performs_closeByPath path isFolder)
  | externalWrite path content encoding write =>
      exact .of_performs (hsingle ⟨trivial, id⟩)
        (w.desk.performs_applyExternalWrite path content encoding write)
  | save index => exact w.desk.moves_saveTab index
  | autosave now => exact w.desk.moves_runAutosave now
  | resolve index action =>
      exact .of_performs (Desk.forall_resolveActions (fun _ _ _ => ⟨trivial, id⟩) ⟨trivial, id⟩
        (fun _ _ _ _ _ _ => ⟨trivial, id⟩) _)
        (w.desk.performs_resolveConflict index action)
  | restore snapshot => exact w.desk.moves_restore snapshot
  | list folder => exact .of_unchanged (w.performs_refreshFolder folder)
  | create path =>
      exact .of_performs (forall_createActions fun _ _ _ => ⟨trivial, id⟩) (w.performs_createFile path)
  | rename oldPath newPath => exact w.moves_rename oldPath newPath
  | delete path =>
      exact .of_performs (forall_deleteActions (hopen _) fun _ _ => ⟨trivial, id⟩)
        (w.performs_deleteSettled path)
  | upload items =>
      exact .of_performs (forall_uploadActions (fun _ _ _ _ => ⟨trivial, id⟩) _ _)
        (w.performs_upload items)
  | release position => exact w.desk.moves_release position
  | releaseNext => exact w.desk.moves_releaseNext
  | deliver => exact Desk.moves_deliver hbar hwritable
  | arrange order =>
      exact Desk.Move.moves (.shuffled rfl rfl (List.Perm.refl w.desk.traffic.tickets))
  | annotate notices journal => exact .of_unchanged ⟨rfl, rfl, rfl⟩
  | outside change => exact .of_unchanged ⟨rfl, rfl, rfl⟩

/-! ## Runs -/

/-- Nothing is open and no request is under way. -/
structure Fresh (w : Workspace σ) : Prop where
  bar : w.desk.bar = .empty
  waiting : w.desk.traffic.waiting = []
  mailbox : w.desk.traffic.mailbox = []

omit [FileService σ] in
theorem Fresh.tickets {w : Workspace σ} (h : w.Fresh) : w.desk.traffic.tickets = [] := by
  rw [Traffic.tickets, h.waiting, h.mailbox]
  rfl

omit [FileService σ] in
theorem fresh_opening (service : σ) (autosave : AutosavePolicy) (journal : Journal)
    (echoNotices : Bool) (tree : FileTree) :
    (opening service autosave journal echoNotices tree).Fresh := ⟨rfl, rfl, rfl⟩

omit [FileService σ] in
theorem Fresh.orderly {w : Workspace σ} (h : w.Fresh) : w.desk.Orderly := by
  have hnone : ∀ tab, tab ∉ w.desk.bar.tabs := by
    rw [h.bar]
    exact fun tab => List.not_mem_nil
  have hidle : ∀ ticket, ticket ∉ w.desk.traffic.tickets := by
    rw [h.tickets]
    exact fun ticket => List.not_mem_nil
  constructor
  case toCoherent =>
    constructor
    case numbered => exact h.bar ▸ numbered_empty
    case writable => exact h.bar ▸ writable_empty
    case nodup =>
      rw [h.tickets]
      exact List.nodup_nil
    case fresh => exact fun ticket hticket => absurd hticket (hidle ticket)
    case known => exact fun ticket hticket => absurd hticket (hidle ticket)
    case attended => exact fun tab htab => absurd htab (hnone tab)
  case queued => exact fun tab htab => absurd htab (hnone tab)

variable {w start : Workspace σ}

theorem moves_step (h : w.desk.Orderly) (step : Step σ) :
    Desk.Moves (step.Waits w) w.desk (w.perform step).desk (w.actions step) :=
  w.moves_perform h.numbered h.writable step

theorem orderly_perform (h : w.desk.Orderly) (step : Step σ) : (w.perform step).desk.Orderly :=
  h.moves (moves_step h step)

theorem orderly_run (h : w.desk.Orderly) (steps : List (Step σ)) : (w.run steps).desk.Orderly := by
  induction steps generalizing w with
  | nil => exact h
  | cons step rest ih => exact ih (orderly_perform h step)

theorem lastRequest_le_run (h : w.desk.Orderly) (steps : List (Step σ)) :
    w.desk.lastRequest ≤ (w.run steps).desk.lastRequest := by
  induction steps generalizing w with
  | nil => exact Nat.le_refl _
  | cons step rest ih =>
      exact Nat.le_trans (moves_step h step).lastRequest_le (ih (orderly_perform h step))

/-- Whoever waits for a request after a run waited for it all along, and was steady
if the request is a refresh or the run waited. -/
theorem hadPending_run (h : w.desk.Orderly) (later : List (Step σ)) {tab' : Tab}
    {phase : Desk.Phase} {pending : PendingRequest} (hold : pending.request ≤ w.desk.lastRequest)
    (htab' : tab' ∈ (w.run later).desk.bar.tabs) (hpending : tab'.pending phase = some pending) :
    w.desk.HadPending (Waited w later) phase pending tab' := by
  induction later generalizing w with
  | nil => exact .self hpending htab'
  | cons step rest ih =>
      have hmoves := moves_step h step
      obtain ⟨middle, hmiddle, hid, hmiddle_pending, hsteady⟩ :=
        ih (orderly_perform h step) (Nat.le_trans hold hmoves.lastRequest_le) htab'
      have hfirst := h.hadPending_moves hmoves hold hmiddle hmiddle_pending
      exact (hfirst.mono And.left).trans hid fun hspared => hsteady (hspared.imp_right And.right)

theorem balanced_run (h : w.desk.Orderly) (steps : List (Step σ)) :
    Desk.Balanced w.desk (w.run steps).desk (w.actionsOf steps) := by
  induction steps generalizing w with
  | nil => exact .refl _
  | cons step rest ih => exact (moves_step h step).balanced.trans (ih (orderly_perform h step))

end Workbench.Workspace
