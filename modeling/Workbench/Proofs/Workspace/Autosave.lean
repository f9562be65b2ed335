import Workbench.Proofs.Desk.Autosave
import Workbench.Proofs.Tabs.Consistency
import Workbench.Proofs.Workspace.Moves

/-! # Autosave forgets no tab

A tab is due when it is dirty, writable and idle, has no queued save, and is known to
have been edited long enough ago. Once nothing is under way, a tab with unsaved edits
that is not in conflict has all this but for the time, whatever was done before. So
autosave waits for the clock alone. -/

namespace Workbench

namespace Tab

variable {tab : Tab}

/-- Nothing but the clock keeps autosave from saving the tab. -/
structure Unhindered (tab : Tab) : Prop where
  dirty : tab.state = .dirty
  writable : tab.file.readOnly = false
  idle : tab.pendingSave = none
  unqueued : tab.saveQueued = false
  dated : tab.lastEdit.isSome = true

/-- The tab has unsaved edits, is not in conflict, and was last edited at least so long
ago. -/
structure Overdue (delay now : Nat) (tab : Tab) : Prop where
  unsaved : tab.unsaved = true
  calm : tab.state.isConflict = false
  aged : ∃ time, tab.lastEdit = some time ∧ time + delay ≤ now

/-- Of all states, only a conflict and that of a running save show edits besides the
dirty one. -/
theorem Consistent.dirty (h : tab.Consistent) (hunsaved : tab.unsaved = true)
    (hcalm : tab.state.isConflict = false) (hidle : tab.pendingSave = none) :
    tab.state = .dirty := by
  obtain ⟨hclean, hsaved⟩ := h.shown hunsaved
  cases hstate : tab.state with
  | dirty => rfl
  | clean => exact absurd hstate hclean
  | saved => exact absurd hstate hsaved
  | saving =>
      have hsaving := h.saving hstate
      rw [hidle] at hsaving
      cases hsaving
  | conflict reason =>
      rw [hstate] at hcalm
      cases hcalm

theorem Consistent.unhindered (h : tab.Consistent) (hunsaved : tab.unsaved = true)
    (hcalm : tab.state.isConflict = false) (hidle : tab.pendingSave = none)
    (hunqueued : tab.saveQueued = false) : tab.Unhindered where
  dirty := h.dirty hunsaved hcalm hidle
  writable := by
    by_contra hreadOnly
    have hsaved := (h.readOnly (Bool.not_eq_false _ ▸ hreadOnly)).1
    rw [hunsaved] at hsaved
    cases hsaved
  idle := hidle
  unqueued := hunqueued
  dated := h.dated hunsaved

end Tab

namespace Desk

variable {σ : Type} {desk : Desk σ}

/-- The time since the last edit is counted from zero up, so a delay of zero would have
passed even before the edit. -/
theorem isDue_iff {delay : Nat} (hdelay : 0 < delay) (now : Nat) (tab : Tab) :
    isDue delay now tab = true ↔ tab.Overdue delay now ∧ tab.Unhindered := by
  constructor
  · intro hdue
    simp only [isDue, Bool.and_eq_true, beq_iff_eq, Bool.not_eq_true', Option.any_eq_true,
      Option.isNone_iff_eq_none, decide_eq_true_eq] at hdue
    obtain ⟨⟨⟨⟨⟨hdirty, hunsaved⟩, hwritable⟩, hidle⟩, hunqueued⟩, time, htime, hpassed⟩ := hdue
    refine ⟨⟨hunsaved, by rw [hdirty]; rfl, time, htime, by omega⟩, ?_⟩
    exact ⟨hdirty, hwritable, hidle, hunqueued, by rw [htime]; rfl⟩
  · rintro ⟨⟨hunsaved, -, time, htime, hpassed⟩, hdirty, hwritable, hidle, hunqueued, -⟩
    have hwaited : delay ≤ now - time := by omega
    simp [isDue, hdirty, hunsaved, hwritable, hidle, hunqueued, htime, hwaited]

/-- What is due at a time are the tabs whose edits are old enough, in their order. -/
structure ForgetsNothing (desk : Desk σ) (now : Nat) : Prop where
  ascending : (desk.autosaveDue now).Pairwise (· < ·)
  due_iff : ∀ index, index ∈ desk.autosaveDue now ↔
    ∃ tab, desk.tab? index = some tab ∧ tab.Overdue desk.autosave.delay now
  /-- Of the tabs with edits to be saved, none is left out for another reason. -/
  unhindered : ∀ tab ∈ desk.bar.tabs, tab.unsaved = true → tab.state.isConflict = false →
    tab.Unhindered

end Desk

namespace Workspace

open TabBar

variable {σ : Type} [FileService σ] {start : Workspace σ}

theorem consistent_bar (hstart : start.desk.bar = .empty) (history : List (Step σ)) :
    ∀ tab ∈ (start.run history).desk.bar.tabs, tab.Consistent := by
  rw [bar_run_eq hstart]
  exact consistent_run _

/-- After any run that leaves nothing under way, autosave forgets no tab. -/
theorem forgetsNothing_run (hstart : start.Fresh) (history : List (Step σ))
    (hidle : (start.run history).desk.inFlight = 0)
    (henabled : (start.run history).desk.autosave.enabled = true)
    (hdelay : 0 < (start.run history).desk.autosave.delay) (now : Nat) :
    (start.run history).desk.ForgetsNothing now := by
  have hconsistent := consistent_bar hstart.bar history
  have hquiet := (orderly_run hstart.orderly history).quiet hidle
  have hunhindered : ∀ tab ∈ (start.run history).desk.bar.tabs, tab.unsaved = true →
      tab.state.isConflict = false → tab.Unhindered := by
    intro tab htab hunsaved hcalm
    obtain ⟨hbusy, hunqueued⟩ := hquiet tab htab
    exact (hconsistent tab htab).unhindered hunsaved hcalm (Tab.isBusy_eq_false.mp hbusy).2
      hunqueued
  constructor
  case ascending => exact Desk.pairwise_autosaveDue _ now
  case due_iff =>
    intro index
    rw [Desk.mem_autosaveDue henabled]
    refine exists_congr fun tab => and_congr_right fun htab => ?_
    rw [Desk.isDue_iff hdelay]
    refine and_iff_left_of_imp fun hoverdue => ?_
    exact hunhindered tab (List.mem_of_getElem? htab) hoverdue.unsaved hoverdue.calm
  case unhindered => exact hunhindered

/-- A new workspace in which tabs are saved a second after their last edit. -/
def openingAutosave : Workspace MemoryFiles :=
  opening .empty (.after 1000) .disabled false .empty

/-- Of three edited tabs, one is left dirty by a save that failed, one is in conflict,
and one was edited later. -/
def failedSave : List (Step MemoryFiles) :=
  [.openFile (.ofPath "/plan") "one" .utf8 none, .openFile (.ofPath "/notes") "one" .utf8 none,
   .openFile (.ofPath "/draft") "one" .utf8 none, .edit 0 "two" 5, .edit 1 "two" 6,
   .edit 2 "two" 700, .outside (.plan ⟨.write, "/plan", .transport "down"⟩), .save 0,
   .upload [.ofText "/notes" "three"], .release 0, .deliver]

theorem failedSave_forgetsNothing :
    openingAutosave.Fresh ∧ (openingAutosave.run failedSave).desk.inFlight = 0 ∧
      (openingAutosave.run failedSave).desk.autosaveDue 1010 = [0] ∧
      (openingAutosave.run failedSave).desk.ForgetsNothing 1010 := by
  have hfresh : openingAutosave.Fresh := fresh_opening _ _ _ _ _
  have hidle : (openingAutosave.run failedSave).desk.inFlight = 0 := by decide +kernel
  refine ⟨hfresh, hidle, by decide +kernel, ?_⟩
  exact forgetsNothing_run hfresh failedSave hidle (by decide +kernel) (by decide +kernel) 1010

end Workspace

end Workbench
