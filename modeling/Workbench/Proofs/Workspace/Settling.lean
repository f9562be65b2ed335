import Workbench.Proofs.Workspace.Moves
import Workbench.Proofs.Workspace.Requests

/-! # Every run can settle

After any run the requests under way are known, no tab waits for anything else,
and however the service performs them, only so many results come in before the
workspace is at rest. -/

namespace Workbench.Workspace

open TabBar

variable {σ : Type} [FileService σ] {w start : Workspace σ}

theorem load_perform (h : w.desk.Orderly) {step : Step σ} (hstep : step.Background) :
    (w.perform step).desk.load + (Desk.applied (w.actions step)).length ≤ w.desk.load := by
  cases step with
  | release position => exact Nat.le_of_eq (w.desk.load_release position)
  | releaseNext => exact Nat.le_of_eq w.desk.load_releaseNext
  | deliver => exact Desk.load_deliver h.toCoherent
  | arrange order => exact Nat.le_refl _
  | _ => exact hstep.elim

theorem load_run (h : w.desk.Orderly) {steps : List (Step σ)}
    (hsteps : ∀ step ∈ steps, step.Background) :
    (w.run steps).desk.load + (Desk.applied (w.actionsOf steps)).length ≤ w.desk.load := by
  induction steps generalizing w with
  | nil => exact Nat.le_refl _
  | cons step rest ih =>
      obtain ⟨hfirst, hrest⟩ := List.forall_mem_cons.mp hsteps
      have hstep := load_perform h hfirst
      have hlater := ih (orderly_perform h step) hrest
      rw [run_cons, actionsOf, Desk.applied, List.filterMap_append, List.length_append]
      unfold Desk.applied at hstep hlater
      omega

/-- What is known of the requests under way after a run, and of the wait for
them. -/
structure Settles (start : Workspace σ) (history : List (Step σ)) : Prop where
  /-- Under way are the requests that were started and whose results were not yet
  applied. -/
  under_way : (Desk.started (start.actionsOf history)).Perm
    (Desk.applied (start.actionsOf history) ++ (start.run history).desk.requests)
  in_flight : (start.run history).desk.inFlight + (Desk.applied (start.actionsOf history)).length =
    (Desk.started (start.actionsOf history)).length
  /-- What a tab waits for is under way for it. -/
  pending : ∀ tab ∈ (start.run history).desk.bar.tabs, ∀ phase pending,
    tab.pending phase = some pending →
      { tab := tab.id, id := pending.request, phase } ∈ (start.run history).desk.traffic.tickets
  /-- A queued save has a request of its tab to wait for. -/
  queued : ∀ tab ∈ (start.run history).desk.bar.tabs, tab.saveQueued = true →
    ∃ ticket ∈ (start.run history).desk.traffic.tickets, ticket.tab = tab.id
  /-- In whatever order requests are performed and results applied, there are no
  more results to apply. -/
  bounded : ∀ steps : List (Step σ), (∀ step ∈ steps, step.Background) →
    (Desk.applied ((start.run history).actionsOf steps)).length ≤
      (start.run history).desk.inFlight + (start.run history).desk.queuedSaves
  count_le : (start.run history).desk.settle.1 ≤
    (start.run history).desk.inFlight + (start.run history).desk.queuedSaves
  idle : (start.run history).desk.settle.2.inFlight = 0
  quiet : ∀ tab ∈ (start.run history).desk.settle.2.bar.tabs,
    tab.pendingRefresh = none ∧ tab.pendingSave = none ∧ tab.saveQueued = false
  /-- The wait ends because nothing is under way, not because of its limit. -/
  unlimited : ∀ limit, (start.run history).desk.inFlight + (start.run history).desk.queuedSaves ≤
    limit → (start.run history).desk.settleWithin limit = (start.run history).desk.settle
  /-- A tab that stays open leaves the queue when its save starts or is
  pointless. -/
  leaves : ∀ step, ∀ tab ∈ (start.run history).desk.bar.tabs, tab.saveQueued = true →
    ∀ tab' ∈ ((start.run history).perform step).desk.bar.tabs, tab'.id = tab.id →
      tab'.saveQueued = false →
        (start.run history).desk.bar.LeavesQueue tab.id ((start.run history).actions step)

/-- Whatever was done before, a workspace settles. -/
theorem settles_run (start : Workspace σ) (hstart : start.Fresh) (history : List (Step σ)) :
    Settles start history := by
  have horderly := orderly_run hstart.orderly history
  have hperm : (Desk.started (start.actionsOf history)).Perm
      (Desk.applied (start.actionsOf history) ++ (start.run history).desk.requests) := by
    have hbalanced := balanced_run hstart.orderly history
    rwa [Desk.Balanced, Desk.requests, hstart.tickets, List.map_nil, List.append_nil] at hbalanced
  obtain ⟨hsettled, hidle, hcount⟩ := Desk.settle_spec horderly
  constructor
  case under_way => exact hperm
  case in_flight =>
    have hlength := hperm.length_eq
    rw [List.length_append, Desk.requests, List.length_map, Traffic.length_tickets] at hlength
    rw [hlength, Nat.add_comm]
    rfl
  case pending =>
    exact fun tab htab phase pending hpending =>
      ((horderly.attended tab htab).pending phase pending hpending).1
  case queued => exact horderly.queued
  case bounded =>
    intro steps hsteps
    exact Nat.le_trans (Nat.le_add_left _ _) (load_run horderly hsteps)
  case count_le => exact hcount
  case idle => exact hidle
  case quiet =>
    intro tab htab
    obtain ⟨hbusy, hqueued⟩ := hsettled.quiet hidle tab htab
    have hnone := Tab.isBusy_eq_false_iff.mp hbusy
    exact ⟨hnone .refresh, hnone .save, hqueued⟩
  case unlimited =>
    exact fun limit hlimit => Desk.settleWithin_congr horderly hlimit (Nat.le_refl _)
  case leaves =>
    intro step tab htab hqueued tab' htab' hid hleft
    rw [bar_perform] at htab'
    exact leavesQueue_of_run horderly.numbered (moves_step horderly step).guarded htab hqueued
      htab' hid hleft

/-- A save that is queued behind another one of the same tab. -/
def queuedBehind : List (Step MemoryFiles) :=
  [.outside fun m => (m.put "/plan" "one").2, .openPath "/plan", .edit 0 "two" 5, .save 0,
   .edit 0 "three" 6, .save 0]

theorem queuedBehind_settles :
    openingMemory.Fresh ∧ (openingMemory.run queuedBehind).desk.inFlight = 1 ∧
      (openingMemory.run queuedBehind).desk.queuedSaves = 1 ∧
      Settles openingMemory queuedBehind := by
  have hfresh : openingMemory.Fresh := fresh_opening _ _ _ _ _
  exact ⟨hfresh, by decide +kernel, by decide +kernel, settles_run openingMemory hfresh queuedBehind⟩

end Workbench.Workspace
