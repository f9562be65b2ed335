import Workbench.Proofs.Desk.Prudence
import Workbench.Proofs.Workspace.Conflict
import Workbench.Proofs.Workspace.Moves

/-! # Save states in a workspace

In a workspace a tab is dirty, or in conflict over its content, only with unsaved
edits, unless its edits were dropped or stored elsewhere while a save of them was
running, and the tab was told of that save, or of another writer, afterwards. -/

namespace Workbench.Workspace

open TabBar

variable {σ : Type} [FileService σ] {w start : Workspace σ} {step : Step σ} {tab tab' : Tab}
  {action : TabAction} {front rest : List TabAction}

theorem prudent_actions (h : w.desk.Orderly) (step : Step σ) :
    Along Prudent w.desk.bar (w.actions step) :=
  (moves_step h step).prudent

theorem prudent_actionsOf (h : w.desk.Orderly) (steps : List (Step σ)) :
    Along Prudent w.desk.bar (w.actionsOf steps) := by
  induction steps generalizing w with
  | nil => exact trivial
  | cons step rest ih =>
      rw [actionsOf, along_append, ← bar_perform]
      exact ⟨prudent_actions h step, ih (orderly_perform h step)⟩

theorem savesEdits_bar (hstart : start.Fresh) (history : List (Step σ)) :
    ∀ tab ∈ (start.run history).desk.bar.tabs, tab.SavesEdits := by
  rw [bar_run]
  refine savesEdits_run hstart.orderly.numbered (prudent_actionsOf hstart.orderly history) ?_
  rw [hstart.bar]
  exact fun tab htab => absurd htab List.not_mem_nil

/-! ## Which steps report and which decide -/

/-- The actions that a step can take. -/
inductive Course (w : Workspace σ) (step : Step σ) : List TabAction → Prop
  /-- A result is applied, and queued saves are started or end. -/
  | delivered {reply : Reply} {replies : List Reply} {queued : List TabAction}
      (hstep : step = .deliver) (hmailbox : w.desk.traffic.mailbox = reply :: replies)
      (hqueued : ∀ action ∈ queued, action.Saving) : Course w step (reply.action :: queued)
  /-- A conflict is decided. -/
  | decided {index : Nat} {decision : ConflictAction} {action : TabAction}
      (hstep : step = .resolve index decision) (htakes : decision.Takes index action) :
      Course w step [action]
  /-- The tabs are told what another writer has stored. -/
  | announced {actions : List TabAction} (hstep : step.Announces)
      (hwritten : ∀ action ∈ actions, ∃ path content encoding write,
        action = .externalWrite path content encoding write) : Course w step actions
  | ordinary {actions : List TabAction} (hordinary : ∀ action ∈ actions, action.Ordinary) :
      Course w step actions

theorem course_actions (w : Workspace σ) (step : Step σ) : Course w step (w.actions step) := by
  by_cases hannounces : step.Announces
  · exact .announced hannounces (announcing_actions w hannounces)
  by_cases hdeliver : step = .deliver
  · subst hdeliver
    simp only [actions]
    rcases w.desk.deliverActions_cases with
      hnone | ⟨reply, replies, queued, hmailbox, hall, hsaving⟩
    · rw [hnone]
      exact .ordinary (List.forall_mem_nil _)
    · rw [hall]
      exact .delivered rfl hmailbox hsaving
  by_cases hresolve : ∃ index decision, step = .resolve index decision
  · obtain ⟨index, decision, rfl⟩ := hresolve
    simp only [actions]
    rcases w.desk.resolveActions_cases index decision with hnone | ⟨action, hone, htakes⟩
    · rw [hnone]
      exact .ordinary (List.forall_mem_nil _)
    · rw [hone]
      exact .decided rfl htakes
  · exact .ordinary (ordinary_actions w
      (fun index decision heq => hresolve ⟨index, decision, heq⟩) hdeliver hannounces)

/-- An action that applies a result or decides a conflict comes first in its step. It
is followed by the start or the end of a queued save at most. -/
theorem loud_cases (hsplit : w.actions step = front ++ action :: rest) (hloud : ¬ action.Quiet) :
    front = [] ∧
      ((step = .deliver ∧ (∀ later ∈ rest, later.Saving) ∧
          ∃ reply replies, w.desk.traffic.mailbox = reply :: replies ∧ action = reply.action) ∨
        (rest = [] ∧ ∃ index decision, step = .resolve index decision ∧
          decision.Takes index action)) := by
  have hmem : action ∈ w.actions step := by simp [hsplit]
  have hcourse := w.course_actions step
  generalize w.actions step = actions at hsplit hmem hcourse
  cases hcourse with
  | delivered hstep hmailbox hqueued =>
      rcases List.cons_eq_append_iff.mp hsplit with ⟨rfl, hhead⟩ | ⟨tail, rfl, htail⟩
      · obtain ⟨rfl, rfl⟩ := List.cons.inj hhead
        exact ⟨rfl, .inl ⟨hstep, hqueued, _, _, hmailbox, rfl⟩⟩
      · have hsaving : action.Saving := hqueued action (by simp [htail])
        exact absurd hsaving.ordinary.quiet hloud
  | decided hstep htakes =>
      rcases List.cons_eq_append_iff.mp hsplit with ⟨rfl, hlast⟩ | ⟨tail, rfl, htail⟩
      · obtain ⟨rfl, rfl⟩ := List.cons.inj hlast
        exact ⟨rfl, .inr ⟨rfl, _, _, hstep, htakes⟩⟩
      · simp at htail
  | announced _ hwritten =>
      obtain ⟨path, content, encoding, write, rfl⟩ := hwritten action hmem
      exact absurd trivial hloud
  | ordinary hordinary => exact absurd (hordinary action hmem).quiet hloud

/-- What another writer stores is told in steps that do nothing else. -/
theorem announces_of_externalWrite {path content : String} {encoding : Encoding}
    {write : WriteResult} (hmem : .externalWrite path content encoding write ∈ w.actions step) :
    step.Announces := by
  have hcourse := w.course_actions step
  generalize w.actions step = actions at hmem hcourse
  cases hcourse with
  | delivered _ _ hqueued =>
      rcases List.mem_cons.mp hmem with hreply | hqueued_mem
      · unfold Reply.action at hreply
        split at hreply <;> cases hreply
      · exact (hqueued _ hqueued_mem).elim
  | @decided _ decision _ _ htakes =>
      obtain rfl := List.mem_singleton.mp hmem
      cases decision <;> exact htakes.elim
  | announced hstep => exact hstep
  | ordinary hordinary => exact (hordinary _ hmem).elim

/-! ## Overruled saves -/

/-- The step resolves the conflict of the tab with success, and not by keeping its
edits. -/
def Overrules (w : Workspace σ) (tab : Tab) (step : Step σ) : Prop :=
  ∃ index decision, step = .resolve index decision ∧ decision ≠ .keepLocal ∧
    w.desk.tab? index = some tab ∧ (w.desk.resolveConflict index decision).1 = .ok ()

/-- The edits of a tab are given up by a step that overrules them. -/
theorem overrules_of_givesUp (hsplit : w.actions step = front ++ action :: rest)
    (hgives : GivesUp (w.desk.bar.run front) tab action) :
    front = [] ∧ rest = [] ∧ Overrules w tab step := by
  have hloud : ¬ action.Quiet := by
    cases action <;> first | exact id | exact hgives.elim
  obtain ⟨rfl, ⟨-, -, reply, -, -, rfl⟩ | ⟨rfl, index, decision, rfl, htakes⟩⟩ :=
    loud_cases hsplit hloud
  · unfold Reply.action at hgives
    split at hgives <;> exact hgives.elim
  · have hmem : action ∈ w.actions (.resolve index decision) := by simp [hsplit]
    refine ⟨rfl, rfl, index, decision, rfl, ?_, ?_, Desk.resolveConflict_eq_ok hmem⟩
    · rintro rfl
      cases action <;> first | exact hgives.elim | exact htakes.elim
    · cases action with
      | acceptServer position content =>
          cases decision <;>
            first | exact htakes.elim | exact (show position = index from htakes) ▸ hgives
      | savedAs position newPath write =>
          cases decision <;>
            first | exact htakes.elim | exact (show position = index from htakes) ▸ hgives
      | _ => exact hgives.elim

/-- A tab that is overruled in the course of a step was overruled before the step with
the same save, or is overruled by the step. -/
theorem overruled_front (h : w.desk.Orderly) (hsplit : w.actions step = front ++ rest)
    (htab' : tab' ∈ (w.desk.bar.run front).tabs) (hunsaved : tab'.unsaved = false)
    {pending : PendingRequest} (hpending : tab'.pendingSave = some pending) :
    ∃ tab ∈ w.desk.bar.tabs, tab.id = tab'.id ∧ tab.pendingSave = some pending ∧
      (tab.unsaved = false ∨ (rest = [] ∧ Overrules w tab step)) := by
  have hprudent := prudent_actions h step
  rw [hsplit, along_append] at hprudent
  have hcause := held_or_meets (r := Prudent)
    (p := fun tab => tab.unsaved = false ∧ tab.pendingSave = some pending)
    (q := fun bar tab action => GivesUp bar tab action ∧ tab.pendingSave = some pending)
    (fun hfit hbecomes hafter => by
      obtain ⟨hbefore, hedits⟩ := hbecomes.overruled hfit hafter.1 hafter.2
      exact hedits.imp (fun hnone => ⟨hnone, hbefore⟩) (fun hgives => ⟨hgives, hbefore⟩))
    (fun _ _ _ _ _ hopened => by cases hopened.2)
    h.numbered hprudent.1 htab' ⟨hunsaved, hpending⟩
  rcases hcause with ⟨tab, htab, hid, hnone, hsaving⟩ |
    ⟨first, action, later, rfl, tab, htab, hid, hgives, hsaving⟩
  · exact ⟨tab, htab, hid, hsaving, .inl hnone⟩
  · rw [List.append_assoc, List.cons_append] at hsplit
    obtain ⟨rfl, hlast, hoverrules⟩ := overrules_of_givesUp hsplit hgives
    exact ⟨tab, htab, hid, hsaving, .inr ⟨(List.append_eq_nil_iff.mp hlast).2, hoverrules⟩⟩

/-- Some step of a run overruled the tab with a number while the given save of it was
running. -/
def OverruledBefore (start : Workspace σ) (history : List (Step σ)) (id : TabId)
    (pending : PendingRequest) : Prop :=
  ∃ earlier step later, history = earlier ++ step :: later ∧
    ∃ former ∈ (start.run earlier).desk.bar.tabs, former.id = id ∧
      former.pendingSave = some pending ∧ Overrules (start.run earlier) former step

/-- Every overruled tab was overruled by a decision that some step took. -/
theorem overruledBefore_run (hstart : start.Fresh) (history : List (Step σ))
    (htab : tab ∈ (start.run history).desk.bar.tabs) (hunsaved : tab.unsaved = false)
    {pending : PendingRequest} (hpending : tab.pendingSave = some pending) :
    OverruledBefore start history tab.id pending := by
  obtain ⟨earlier, step, later, rfl, hbefore, hafter⟩ := exists_turn
    (p := fun history => ∃ now ∈ (start.run history).desk.bar.tabs, now.id = tab.id ∧
      now.unsaved = false ∧ now.pendingSave = some pending)
    (by simp [hstart.bar, empty]) ⟨tab, htab, rfl, hunsaved, hpending⟩
  obtain ⟨now, hnow, hid, hnow_saved, hnow_saving⟩ := hafter
  have horderly := orderly_run hstart.orderly earlier
  rw [run_append, run_cons, run_nil, bar_perform] at hnow
  have hall : (start.run earlier).actions step = (start.run earlier).actions step ++ [] :=
    (List.append_nil _).symm
  obtain ⟨old, hold, hold_id, hsaving, hnone | ⟨-, hoverrules⟩⟩ :=
    overruled_front horderly hall hnow hnow_saved hnow_saving
  · exact absurd ⟨old, hold, hold_id.trans hid, hnone, hsaving⟩ hbefore
  · exact ⟨earlier, step, later, rfl, old, hold, hold_id.trans hid, hsaving, hoverrules⟩

/-! ## Reports to overruled tabs -/

/-- In the course of the step, the tab with a number is told of its running save or of
another writer although it is overruled. -/
def Misreports (w : Workspace σ) (id : TabId) (step : Step σ) : Prop :=
  Meets (fun bar tab action => tab.Overruled ∧ Reports bar tab action) w.desk.bar id
    (w.actions step)

/-- Only a tab that was overruled before a step can be overruled when the step reports
to it. -/
theorem overruledBefore_of_misreports (hstart : start.Fresh) (history : List (Step σ))
    {id : TabId} (h : Misreports (start.run history) id step) :
    ∃ pending, OverruledBefore start history id pending := by
  obtain ⟨front, action, rest, hsplit, now, hnow, rfl, hoverruled, -⟩ := h
  obtain ⟨pending, hpending⟩ := Option.isSome_iff_exists.mp hoverruled.saving
  have horderly := orderly_run hstart.orderly history
  obtain ⟨tab, htab, hid, hsaving, hnone | ⟨hlast, -⟩⟩ :=
    overruled_front horderly hsplit hnow hoverruled.unsaved hpending
  · exact ⟨pending, hid ▸ overruledBefore_run hstart history htab hnone hsaving⟩
  · cases hlast

/-- A step that reports to an overruled tab leaves it open, in a state that does not
agree with its edits. -/
theorem exists_disagreeing_of_misreports (h : w.desk.Orderly)
    (hsaves : ∀ tab ∈ w.desk.bar.tabs, tab.SavesEdits) {id : TabId} (hmis : Misreports w id step) :
    ∃ tab' ∈ (w.perform step).desk.bar.tabs, tab'.id = id ∧ ¬ tab'.StateAgrees := by
  obtain ⟨front, action, rest, hsplit, now, hnow, rfl, hoverruled, hreports⟩ := hmis
  have hprudent := prudent_actions h step
  rw [hsplit, along_append] at hprudent
  have hbar := h.numbered.run front
  have hnow_saves := savesEdits_run h.numbered hprudent.1 hsaves now hnow
  obtain ⟨after, hafter, hbecomes, hdisagrees⟩ :=
    exists_disagreeing_next hbar hnow hnow_saves hoverruled hreports
  have hperform : (w.perform step).desk.bar =
      (((w.desk.bar.run front).next action).run rest) := by
    rw [bar_perform, hsplit, TabBar.run_append, TabBar.run_cons]
  rw [hperform]
  cases action with
  | saveResolved tabId request result =>
      obtain ⟨rfl, ⟨-, hsaving, -⟩ | ⟨-, index, decision, -, htakes⟩⟩ := loud_cases hsplit id
      · obtain ⟨tab', htab', hid, hstays⟩ :=
          exists_disagreeing_of_saving (hbar.next _) hprudent.2.2 hsaving hafter hdisagrees
        exact ⟨tab', htab', hid.trans hbecomes.id_eq, hstays⟩
      · cases decision <;> exact htakes.elim
  | externalWrite path content encoding write =>
      have hmem : .externalWrite path content encoding write ∈ w.actions step := by simp [hsplit]
      have hwritten := announcing_actions w (announces_of_externalWrite hmem)
      rw [hsplit, List.forall_mem_append, List.forall_mem_cons] at hwritten
      obtain ⟨tab', htab', hid, hstays⟩ := exists_disagreeing_of_written (hbar.next _)
        hwritten.2.2 hafter (hbecomes.stays_overruled hoverruled).1 hdisagrees
      exact ⟨tab', htab', hid.trans hbecomes.id_eq, hstays⟩
  | _ => exact hreports.elim

/-! ## Agreement -/

/-- How far the state of a tab agrees with its edits after a run, and after one more
step. -/
structure SaveStatesRespected (start : Workspace σ) (history : List (Step σ)) (tab : Tab) :
    Prop where
  /-- The state agrees, unless some step reported to the tab after its edits were
  overruled during a save. -/
  agrees : tab.StateAgrees ∨ ∃ earlier step later, history = earlier ++ step :: later ∧
    Misreports (start.run earlier) tab.id step ∧
    ∃ pending, OverruledBefore start earlier tab.id pending
  /-- While it agrees, it goes on doing so exactly if the next step makes no such
  report. -/
  agrees_iff : tab.StateAgrees → ∀ step,
    ((∀ tab' ∈ ((start.run history).perform step).desk.bar.tabs,
        tab'.id = tab.id → tab'.StateAgrees) ↔ ¬ Misreports (start.run history) tab.id step)

theorem misreported_of_disagreeing (hstart : start.Fresh) (history : List (Step σ))
    (htab : tab ∈ (start.run history).desk.bar.tabs) (hdisagrees : ¬ tab.StateAgrees) :
    ∃ earlier step later, history = earlier ++ step :: later ∧
      Misreports (start.run earlier) tab.id step ∧
      ∃ pending, OverruledBefore start earlier tab.id pending := by
  obtain ⟨earlier, step, later, rfl, hbefore, now, hnow, hid, hnow_disagrees⟩ := exists_turn
    (p := fun history => ∃ now ∈ (start.run history).desk.bar.tabs, now.id = tab.id ∧
      ¬ now.StateAgrees)
    (by simp [hstart.bar, empty]) ⟨tab, htab, rfl, hdisagrees⟩
  have horderly := orderly_run hstart.orderly earlier
  rw [run_append, run_cons, run_nil, bar_perform] at hnow
  have hcause := held_or_meets (p := fun tab => ¬ tab.StateAgrees)
    (q := fun bar tab action => tab.Overruled ∧ Reports bar tab action)
    (fun _ hbecomes hafter => by
      by_contra hneither
      obtain ⟨hagreed, hends⟩ := not_or.mp hneither
      rcases hbecomes.stateAgrees (not_not.mp hagreed) with hagrees | hreports
      · exact hafter hagrees
      · exact hends hreports)
    (fun _ _ _ _ _ hopened => hopened (.of_state (by simp [Tab.opened]) (by simp [Tab.opened])))
    horderly.numbered (prudent_actions horderly step) hnow hnow_disagrees
  rw [hid] at hcause
  rcases hcause with ⟨old, hold, hold_id, hdisagreed⟩ | hmis
  · exact absurd ⟨old, hold, hold_id, hdisagreed⟩ hbefore
  · exact ⟨earlier, step, later, rfl, hmis, overruledBefore_of_misreports hstart earlier hmis⟩

/-- A tab is dirty, or in conflict over its content, only with unsaved edits, as long
as no conflict of it is resolved for the stored version or another path while a save
of it is under way. -/
theorem saveStates_respected (start : Workspace σ) (hstart : start.Fresh)
    (history : List (Step σ)) (htab : tab ∈ (start.run history).desk.bar.tabs) :
    SaveStatesRespected start history tab := by
  have horderly := orderly_run hstart.orderly history
  constructor
  case agrees =>
    by_cases hagrees : tab.StateAgrees
    · exact .inl hagrees
    · exact .inr (misreported_of_disagreeing hstart history htab hagrees)
  case agrees_iff =>
    intro hagrees step
    constructor
    · intro hkept hmis
      obtain ⟨tab', htab', hid, hdisagrees⟩ :=
        exists_disagreeing_of_misreports horderly (savesEdits_bar hstart history) hmis
      exact hdisagrees (hkept tab' htab' hid)
    · intro hmis tab' htab' hid
      rw [bar_perform] at htab'
      have hfate := holds_or_meets (fun _ hbecomes hbefore => hbecomes.stateAgrees hbefore)
        horderly.numbered (prudent_actions horderly step) htab hagrees htab' hid
      exact hfate.resolve_right hmis

/-- A conflict that is resolved for the stored version while the edits are still being
saved. The service refuses that save afterwards. -/
def acceptedWhileSaving : List (Step MemoryFiles) :=
  [.outside fun m => (m.put "/plan" "one").2, .openPath "/plan", .edit 0 "two" 5, .save 0,
   .upload [.ofText "/plan" "three"], .resolve 0 .acceptServer, .release 0]

theorem acceptedWhileSaving_respected :
    openingMemory.Fresh ∧
      ∃ tab ∈ (openingMemory.run acceptedWhileSaving).desk.bar.tabs,
        (tab.content = "three" ∧ tab.state = .clean) ∧
          SaveStatesRespected openingMemory acceptedWhileSaving tab := by
  have hfresh : openingMemory.Fresh := fresh_opening _ _ _ _ _
  have hfound : ∃ tab ∈ (openingMemory.run acceptedWhileSaving).desk.bar.tabs,
      tab.content = "three" ∧ tab.state = .clean := by
    decide +kernel
  obtain ⟨tab, htab, hclean⟩ := hfound
  exact ⟨hfresh, tab, htab, hclean,
    saveStates_respected openingMemory hfresh acceptedWhileSaving htab⟩

/-- The late refusal puts the tab into conflict over edits that it does not have any
more. -/
theorem acceptedWhileSaving_ends_contested :
    ∃ tab ∈ (openingMemory.run (acceptedWhileSaving ++ [.deliver])).desk.bar.tabs,
      tab.state = .conflict .contentChanged ∧ tab.unsaved = false ∧ tab.content = "three" := by
  decide +kernel

end Workbench.Workspace
