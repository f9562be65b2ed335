import Workbench.Proofs.Desk.Saving
import Workbench.Proofs.Desk.Service
import Workbench.Proofs.Workspace.Actions

/-! # Ordinary steps

Most steps neither apply a result, nor decide a conflict, nor tell of another
writer. What they bring into a tab was read from the file service or was just
created there, unless the caller has opened it. -/

namespace Workbench

namespace TabAction

/-- The action neither applies an answer, nor decides a conflict, nor tells what
another writer has stored. -/
def Ordinary : TabAction → Prop
  | .refreshResolved _ _ _ | .saveResolved _ _ _ => False
  | .acceptServer _ _ | .keepLocal _ | .savedAs _ _ _ => False
  | .externalWrite _ _ _ _ => False
  | _ => True

/-- The action is ordinary, and opens no tab with content. -/
def Bare : TabAction → Prop
  | .openTab _ _ _ _ => False
  | action => action.Ordinary

theorem Bare.ordinary {action : TabAction} (h : action.Bare) : action.Ordinary := by
  cases action <;> first | exact h.elim | exact h

theorem Saving.bare {action : TabAction} (h : action.Saving) : action.Bare := by
  cases action <;> first | exact h.elim | exact trivial

theorem Saving.ordinary {action : TabAction} (h : action.Saving) : action.Ordinary :=
  h.bare.ordinary

end TabAction

namespace Workspace

open TabBar

variable {σ : Type} [FileService σ] {p : TabAction → Prop}

/-- The step tells the tabs what another writer has stored. -/
def Step.Announces : Step σ → Prop
  | .externalWrite _ _ _ _ | .upload _ => True
  | _ => False

theorem announcing_actions (w : Workspace σ) {step : Step σ}
    (hannounces : step.Announces) :
    ∀ action ∈ w.actions step,
      ∃ path content encoding write, action = .externalWrite path content encoding write := by
  cases step with
  | externalWrite path content encoding write =>
      exact List.forall_mem_singleton.mpr ⟨_, _, _, _, rfl⟩
  | upload items => exact forall_uploadActions (fun _ _ _ _ => ⟨_, _, _, _, rfl⟩) _ _
  | _ => exact hannounces.elim

theorem forall_renameActions (hfile : ∀ oldPath newPath, p (.updatePath oldPath newPath))
    (hfolder : ∀ oldPath newPath, p (.updatePathsUnder oldPath newPath)) (w : Workspace σ)
    (oldPath newPath : String) : ∀ action ∈ w.renameActions oldPath newPath, p action := by
  rcases w.renameActions_cases oldPath newPath with hnone | hone | hone
  · rw [hnone]
    exact List.forall_mem_nil _
  · rw [hone]
    exact List.forall_mem_singleton.mpr (hfile _ _)
  · rw [hone]
    exact List.forall_mem_singleton.mpr (hfolder _ _)

/-- What holds of opening what is read, of opening what was created and of actions
without content holds of all actions of an ordinary step. -/
theorem forall_actions (w : Workspace σ) {step : Step σ}
    (hread : ∀ service, FileService.Called w.desk.service service →
      Desk.OpeningsSatisfy p service)
    (hcreate : ∀ path (service : σ) write,
      (FileService.storeFile path "" .utf8 none service).1 = .ok write →
        p (.openTab (.ofPath path) "" .utf8 (some write.etag)))
    (hfile : ∀ file content encoding etag, step = .openFile file content encoding etag →
      p (.openTab file content encoding etag))
    (hbare : ∀ action, action.Bare → p action)
    (hresolve : ∀ index action, step ≠ .resolve index action) (hdeliver : step ≠ .deliver)
    (hannounces : ¬ step.Announces) : ∀ action ∈ w.actions step, p action := by
  have hopen := hread w.desk.service .refl
  have hsingle : ∀ {action : TabAction}, action.Bare → ∀ other ∈ [action], p other :=
    fun h => List.forall_mem_singleton.mpr (hbare _ h)
  cases step with
  | openFile file content encoding etag =>
      exact List.forall_mem_singleton.mpr (hfile file content encoding etag rfl)
  | openPath path => exact Desk.forall_openPathActions hopen _
  | click index =>
      simp only [actions, Desk.clickActions]
      split
      · exact List.forall_mem_nil _
      · exact Desk.forall_activateActions hopen (fun _ _ => hbare _ trivial)
          (fun _ => hbare _ trivial) index
  | close index => exact Desk.forall_closingActions hopen (hbare _ trivial)
  | closeOthers index => exact Desk.forall_closingActions hopen (hbare _ trivial)
  | closeByPath path isFolder =>
      exact Desk.forall_closeByPathActions hopen (fun _ _ => hbare _ trivial) _ _
  | save index =>
      intro action haction
      exact hbare _ (Desk.saving_saveActions _ _ action haction).bare
  | autosave now =>
      intro action haction
      exact hbare _ (Desk.saving_autosaveActions _ _ action haction).bare
  | resolve index action => exact absurd rfl (hresolve index action)
  | restore snapshot =>
      exact Desk.forall_restoreActions hopen (fun _ => hbare _ trivial)
        (fun _ _ => hbare _ trivial) (fun _ => hbare _ trivial) snapshot
  | create path => exact forall_createActions (hcreate _)
  | rename oldPath newPath =>
      exact forall_renameActions (fun _ _ => hbare _ trivial) (fun _ _ => hbare _ trivial) _ _ _
  | delete path =>
      exact forall_deleteActions (hread _ (.removed .refl _)) fun _ _ => hbare _ trivial
  | externalWrite | upload => exact absurd trivial hannounces
  | deliver => exact absurd rfl hdeliver
  | list | release | releaseNext | arrange | annotate | outside => exact List.forall_mem_nil _
  | _ => exact hsingle trivial

/-- Apart from deciding conflicts, applying results and telling of other writers, all
steps are ordinary. -/
theorem ordinary_actions (w : Workspace σ) {step : Step σ}
    (hresolve : ∀ index action, step ≠ .resolve index action) (hdeliver : step ≠ .deliver)
    (hannounces : ¬ step.Announces) : ∀ action ∈ w.actions step, action.Ordinary :=
  w.forall_actions (fun _ _ _ _ _ _ => trivial) (fun _ _ _ _ => trivial)
    (fun _ _ _ _ _ => trivial) (fun _ h => h.ordinary) hresolve hdeliver hannounces

end Workspace

end Workbench
