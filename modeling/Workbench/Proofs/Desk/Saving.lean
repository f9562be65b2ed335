import Workbench.Proofs.Desk.Actions
import Workbench.Proofs.Tabs.Saving

/-! # Saves of the desk -/

namespace Workbench.Desk

open TabBar

variable {σ : Type}

theorem saving_saveActions (desk : Desk σ) (index : Nat) :
    ∀ action ∈ desk.saveActions index, action.Saving := by
  rcases desk.saveTab_cases index with
    ⟨-, hnone⟩ | ⟨tab, -, ⟨-, -, hqueues⟩ | ⟨-, -, -, -, -, hstarts⟩⟩
  · rw [hnone]
    exact List.forall_mem_nil _
  · rw [hqueues]
    exact List.forall_mem_singleton.mpr trivial
  · rw [hstarts]
    exact List.forall_mem_singleton.mpr trivial

theorem saving_autosaveActions (indices : List Nat) (desk : Desk σ) :
    ∀ action ∈ autosaveActions indices desk, action.Saving := by
  induction indices generalizing desk with
  | nil => exact List.forall_mem_nil _
  | cons index rest ih =>
      rw [autosaveActions, List.forall_mem_append]
      exact ⟨saving_saveActions desk index, ih (desk.autosaved index)⟩

theorem saving_queuedActions (desk : Desk σ) (id : TabId) :
    ∀ action ∈ desk.queuedActions id, action.Saving := by
  unfold queuedActions
  split
  · exact List.forall_mem_nil _
  · split
    · exact List.forall_mem_nil _
    · split
      · exact List.forall_mem_nil _
      · split
        · exact List.forall_mem_singleton.mpr trivial
        · exact List.forall_mem_singleton.mpr trivial

/-- The application of a result is followed by the start or the end of a queued save
only. -/
theorem deliverActions_cases (desk : Desk σ) :
    desk.deliverActions = [] ∨
      ∃ reply rest actions, desk.traffic.mailbox = reply :: rest ∧
        desk.deliverActions = reply.action :: actions ∧ ∀ action ∈ actions, action.Saving := by
  unfold deliverActions
  cases desk.traffic.mailbox with
  | nil => exact .inl rfl
  | cons reply rest => exact .inr ⟨reply, rest, _, rfl, rfl, saving_queuedActions _ _⟩

end Workbench.Desk
