import Workbench.Proofs.Tabs.UnsavedEdits

/-! # The queue of saves

A tab enters the queue by one action only, and leaves it when its save starts,
when the tab is or comes into conflict, or on request. Where such requests are
made only for tabs with nothing to save, no queued save is ever lost. -/

namespace Workbench

/-- A save of the tab would be refused or would have nothing to store. -/
def Tab.SavePointless (tab : Tab) : Prop := tab.state.isConflict = true ∨ tab.unsaved = false

namespace TabBar

variable {bar : TabBar} {action : TabAction} {actions : List TabAction} {tab tab' : Tab}
  {id : TabId}

/-- Only the action that queues a save lets a tab into the queue. -/
theorem Becomes.saveQueued_before (h : Becomes bar action tab tab')
    (hqueued : tab'.saveQueued = true) (hother : ∀ index, action ≠ .queueSave index) :
    tab.saveQueued = true := by
  cases h with
  | edited _ hedited => cases hedited <;> exact hqueued
  | refreshed hrefreshed => cases hrefreshed <;> exact hqueued
  | queued => exact absurd rfl (hother _)
  | unqueued => cases hqueued
  | saveStarted => cases hqueued
  | saved hanswered => cases hanswered <;> exact hqueued
  | accepted => cases hqueued
  | storedAs => cases hqueued
  | overwritten hwritten =>
      cases hwritten with
      | contested => cases hqueued
      | _ => exact hqueued
  | _ => exact hqueued

/-- A tab is taken out of the queue when its save starts, when it is or comes
into conflict, or on request. -/
theorem Becomes.leaves_queue (h : Becomes bar action tab tab') (hqueued : tab.saveQueued = true)
    (hleft : tab'.saveQueued = false) :
    (bar.saveStart? tab.id action).isSome = true ∨ tab.state.isConflict = true ∨
      tab'.state.isConflict = true ∨
      ∃ index, action = .cancelQueuedSave index ∧ bar.tabs[index]? = some tab := by
  have hkept : tab.saveQueued ≠ false := by simp [hqueued]
  cases h with
  | edited _ hedited => cases hedited <;> exact absurd hleft hkept
  | refreshed hrefreshed => cases hrefreshed <;> exact absurd hleft hkept
  | queued => cases hleft
  | unqueued htab => exact .inr (.inr (.inr ⟨_, rfl, htab⟩))
  | saveStarted request htab hcalm hwritable =>
      have hstarts : (startSave request tab).isOk = true := isOk_startSave hcalm hwritable
      exact .inl (by simp [saveStart?, htab, hstarts])
  | saved hanswered => cases hanswered <;> exact absurd hleft hkept
  | accepted content htab hconflict => exact .inr (.inl hconflict)
  | storedAs newPath write htab hconflict => exact .inr (.inl hconflict)
  | overwritten hwritten =>
      cases hwritten with
      | contested => exact .inr (.inr (.inl rfl))
      | _ => exact absurd hleft hkept
  | _ => exact absurd hleft hkept

/-- Some action finds the tab with a number in the queue, and starts its save, or
the save is pointless just before or just after that action. -/
def LeavesQueue (bar : TabBar) (id : TabId) (actions : List TabAction) : Prop :=
  ∃ front action rest, actions = front ++ action :: rest ∧
    ∃ tab ∈ (bar.run front).tabs, tab.id = id ∧ tab.saveQueued = true ∧
      (((bar.run front).saveStart? id action).isSome = true ∨ tab.SavePointless ∨
        ∃ tab' ∈ ((bar.run front).next action).tabs, tab'.id = id ∧ tab'.SavePointless)

theorem LeavesQueue.append (h : LeavesQueue bar id actions) (later : List TabAction) :
    LeavesQueue bar id (actions ++ later) := by
  obtain ⟨front, action, rest, rfl, htab⟩ := h
  exact ⟨front, action, rest ++ later, by simp, htab⟩

theorem LeavesQueue.cons (h : LeavesQueue (bar.next action) id actions) :
    LeavesQueue bar id (action :: actions) := by
  obtain ⟨front, first, rest, rfl, htab⟩ := h
  exact ⟨action :: front, first, rest, rfl, htab⟩

/-- Queued saves are dropped on request only where they are pointless. -/
def Guarded (bar : TabBar) : List TabAction → Prop
  | [] => True
  | action :: rest =>
      (∀ index tab, action = .cancelQueuedSave index → bar.tabs[index]? = some tab →
        tab.SavePointless) ∧ Guarded (bar.next action) rest

theorem Guarded.of_ne (h : ∀ index, action ≠ .cancelQueuedSave index)
    (hrest : Guarded (bar.next action) actions) : Guarded bar (action :: actions) :=
  ⟨fun index _ hcancels => absurd hcancels (h index), hrest⟩

theorem Guarded.append {later : List TabAction} (h : Guarded bar actions)
    (h' : Guarded (bar.run actions) later) : Guarded bar (actions ++ later) := by
  induction actions generalizing bar with
  | nil => exact h'
  | cons action rest ih => exact ⟨h.1, ih h.2 h'⟩

theorem leavesQueue_of_next (hbar : bar.Numbered) (hguarded : Guarded bar [action])
    (htab : tab ∈ bar.tabs) (hqueued : tab.saveQueued = true)
    (htab' : tab' ∈ (bar.next action).tabs) (hid : tab'.id = tab.id)
    (hleft : tab'.saveQueued = false) : LeavesQueue bar tab.id [action] := by
  rcases (transition_next hbar.nodup action).successor hbar htab htab' hid with rfl | hbecomes
  · rw [hqueued] at hleft
    cases hleft
  · refine ⟨[], action, [], rfl, tab, htab, rfl, hqueued, ?_⟩
    rcases hbecomes.leaves_queue hqueued hleft with
      hstarts | hbefore | hafter | ⟨index, hcancels, hindex⟩
    · exact .inl hstarts
    · exact .inr (.inl (.inl hbefore))
    · exact .inr (.inr ⟨tab', htab', hid, .inl hafter⟩)
    · exact .inr (.inl (hguarded.1 index tab hcancels hindex))

/-- A tab that stays open leaves the queue for a reason. -/
theorem leavesQueue_of_run (hbar : bar.Numbered) (hguarded : Guarded bar actions)
    (htab : tab ∈ bar.tabs) (hqueued : tab.saveQueued = true)
    (htab' : tab' ∈ (bar.run actions).tabs) (hid : tab'.id = tab.id)
    (hleft : tab'.saveQueued = false) : LeavesQueue bar tab.id actions := by
  induction actions generalizing bar tab with
  | nil =>
      obtain rfl := eq_of_id_eq hbar.nodup htab' htab hid
      rw [hqueued] at hleft
      cases hleft
  | cons action rest ih =>
      have hopen : tab.id ∈ (bar.run (action :: rest)).ids := hid ▸ mem_ids_of_mem htab'
      obtain ⟨now, hnow, hnow_id⟩ := mem_ids_iff.mp (hbar.mem_ids_of_run htab hopen)
      cases hstill : now.saveQueued with
      | true =>
          rw [← hnow_id] at hid ⊢
          exact (ih (hbar.next action) hguarded.2 hnow hstill htab' hid).cons
      | false =>
          exact (leavesQueue_of_next hbar ⟨hguarded.1, trivial⟩ htab hqueued hnow hnow_id
            hstill).append rest

end TabBar

end Workbench
