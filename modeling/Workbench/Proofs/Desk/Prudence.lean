import Workbench.Proofs.Desk.Moves
import Workbench.Proofs.Tabs.SaveStates

/-! # The desk starts requests with care

Whatever moves the desk makes, it starts a request only for a tab without one, and
a save only for a tab with unsaved edits. -/

namespace Workbench.Desk

open TabBar

variable {σ : Type} {before after : Desk σ} {actions : List TabAction} {sparing : Prop}

theorem Sends.prudent {phase : Phase} {index : Nat} {tab : Tab}
    (h : before.Sends after phase index tab) :
    Prudent before.bar (startAction index (before.lastRequest + 1) phase) := by
  cases phase with
  | refresh =>
      intro other hother
      obtain rfl := Option.some.inj (h.found.symm.trans hother)
      exact h.idle
  | save =>
      intro other hother
      obtain rfl := Option.some.inj (h.found.symm.trans hother)
      exact ⟨h.idle, h.unsaved rfl⟩

theorem Turn.prudent {id : TabId} (h : before.Turn id after actions) :
    Along Prudent before.bar actions := by
  cases h with
  | passed => exact trivial
  | dropped => exact ⟨trivial, trivial⟩
  | started _ _ hsends => exact ⟨hsends.prudent, trivial⟩

theorem prudent_reply (bar : TabBar) (reply : Reply) : Prudent bar reply.action := by
  unfold Reply.action
  split <;> trivial

theorem Move.prudent (h : Move sparing before after actions) :
    Along Prudent before.bar actions := by
  cases h with
  | @acted action hsilent =>
      refine ⟨?_, trivial⟩
      cases action <;> trivial
  | queued => exact ⟨trivial, trivial⟩
  | sent hsends => exact ⟨hsends.prudent, trivial⟩
  | shuffled => exact trivial
  | delivered hmailbox hturn => exact ⟨prudent_reply _ _, hturn.prudent⟩

theorem Moves.prudent (h : Moves sparing before after actions) :
    Along Prudent before.bar actions := by
  induction h with
  | refl => exact trivial
  | cons first _ ih =>
      rw [along_append, ← first.bar]
      exact ⟨first.prudent, ih⟩

end Workbench.Desk
