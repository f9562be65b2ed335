import Workbench.Proofs.Desk.Requests
import Workbench.Proofs.Workspace.Actions

/-! # Where requests and results come from

A request that waits was started by some step, for a tab as that step has left
it. A result that waits is what some step got from the service for a request
that waited then. -/

namespace Workbench.Workspace

open TabBar

variable {σ : Type} [FileService σ] {request : Request} {reply : Reply}

/-- The step performs or applies requests, and nothing else. -/
def Step.Background : Step σ → Prop
  | .release _ | .releaseNext | .deliver | .arrange _ => True
  | _ => False

/-- What any other step starts reads the file of a tab or saves it, as the tab is
after the step. -/
theorem adds_perform (w : Workspace σ) (hbar : w.desk.bar.Numbered) {step : Step σ}
    (hstep : ¬ step.Background) :
    w.desk.Adds (w.perform step).desk
      fun request => (w.perform step).desk.Fetches request ∨ (w.perform step).desk.Saves request := by
  cases step with
  | openFile | annotate | outside => exact .of_traffic_eq rfl
  | openPath path => exact .of_traffic_eq (w.desk.performs_openPath path).traffic
  | openUnloaded file => exact .of_traffic_eq (w.desk.performs_openUnloaded file).traffic
  | click index => exact (w.desk.adds_clickTab index).mono fun _ => .inl
  | close index => exact .of_traffic_eq (w.desk.performs_closeTab index).traffic
  | closeOthers index => exact .of_traffic_eq (w.desk.performs_closeOthers index).traffic
  | closeAll => exact .of_traffic_eq w.desk.performs_closeAll.traffic
  | move source target => exact .of_traffic_eq (w.desk.performs_moveTab source target).traffic
  | edit index content time =>
      exact .of_traffic_eq (w.desk.performs_editTab index content time).traffic
  | updatePath oldPath newPath =>
      apply Desk.Adds.of_traffic_eq
      rw [perform, (w.desk.performs_updateTabPath oldPath newPath).traffic]
  | updatePathsUnder oldFolder newFolder =>
      apply Desk.Adds.of_traffic_eq
      rw [perform, (w.desk.performs_updateTabPathsUnder oldFolder newFolder).traffic]
  | closeByPath path isFolder =>
      exact .of_traffic_eq (w.desk.performs_closeByPath path isFolder).traffic
  | externalWrite path content encoding write =>
      apply Desk.Adds.of_traffic_eq
      rw [perform, (w.desk.performs_applyExternalWrite path content encoding write).traffic]
  | save index => exact (w.desk.adds_saveTab index).mono fun _ => .inr
  | autosave now => exact (w.desk.adds_runAutosave hbar now).mono fun _ => .inr
  | resolve index action =>
      exact .of_traffic_eq (w.desk.performs_resolveConflict index action).traffic
  | restore snapshot => exact (w.desk.adds_restore snapshot).mono fun _ => .inl
  | list folder => exact .of_traffic_eq (w.performs_refreshFolder folder).traffic
  | create path => exact .of_traffic_eq (w.performs_createFile path).traffic
  | rename oldPath newPath =>
      exact .of_traffic_eq (w.performs_renameSettled oldPath newPath).traffic
  | delete path => exact .of_traffic_eq (w.performs_deleteSettled path).traffic
  | upload items => exact .of_traffic_eq (w.performs_upload items).traffic
  | release | releaseNext | deliver | arrange => exact absurd trivial hstep

theorem waiting_perform (w : Workspace σ) (hbar : w.desk.bar.Numbered) (step : Step σ)
    (hrequest : request ∈ (w.perform step).desk.traffic.waiting) :
    request ∈ w.desk.traffic.waiting ∨ (w.perform step).desk.Fetches request ∨
      (w.perform step).desk.Saves request := by
  by_cases hstep : step.Background
  · cases step with
    | release position => exact .inl (w.desk.waiting_release position request hrequest)
    | releaseNext => exact .inl (w.desk.waiting_releaseNext request hrequest)
    | deliver => exact (w.desk.adds_deliver request hrequest).imp_right .inr
    | arrange order => exact .inl hrequest
    | _ => exact hstep.elim
  · exact (w.adds_perform hbar hstep).mem_waiting hrequest

theorem mailbox_perform (w : Workspace σ) (hbar : w.desk.bar.Numbered) (step : Step σ)
    (hreply : reply ∈ (w.perform step).desk.traffic.mailbox) :
    reply ∈ w.desk.traffic.mailbox ∨
      ∃ request, w.desk.Answers (w.perform step).desk request reply := by
  by_cases hstep : step.Background
  · cases step with
    | release position => exact w.desk.mailbox_release position reply hreply
    | releaseNext => exact w.desk.mailbox_releaseNext reply hreply
    | deliver => exact .inl (w.desk.mailbox_deliver reply hreply)
    | arrange order => exact .inl hreply
    | _ => exact hstep.elim
  · rw [(w.adds_perform hbar hstep).mailbox_eq] at hreply
    exact .inl hreply

/-- A step after a run starts a request for a tab, and the request is about the
tab as it is after the step. -/
structure Starts (start : Workspace σ) (earlier : List (Step σ)) (step : Step σ) (tab : Tab)
    (request : Request) : Prop where
  fresh : request ∉ (start.run earlier).desk.traffic.waiting
  waits : request ∈ (start.run (earlier ++ [step])).desk.traffic.waiting
  mem_tabs : tab ∈ (start.run (earlier ++ [step])).desk.bar.tabs
  id_eq : tab.id = request.tab
  errand_eq : request.errand = .read tab.path ∨ request.errand = Desk.saveErrand tab

/-- Every request that waits to be performed was started by some step. -/
theorem exists_starts (start : Workspace σ) (hstart : start.desk.bar = .empty)
    (hidle : start.desk.traffic.waiting = []) (history : List (Step σ))
    (hrequest : request ∈ (start.run history).desk.traffic.waiting) :
    ∃ earlier step later tab, history = earlier ++ step :: later ∧
      Starts start earlier step tab request := by
  obtain ⟨earlier, step, later, rfl, hfresh, hwaits⟩ := exists_turn
    (p := fun history => request ∈ (start.run history).desk.traffic.waiting)
    (by simp [hidle]) hrequest
  have hperformed := hwaits
  rw [run_append, run_cons, run_nil] at hperformed
  -- The request was not there before, so the step has started it.
  have hasked : ∃ tab ∈ ((start.run earlier).perform step).desk.bar.tabs, tab.id = request.tab ∧
      (request.errand = .read tab.path ∨ request.errand = Desk.saveErrand tab) := by
    rcases waiting_perform _ (numbered_bar hstart earlier) step hperformed with
      hsame | ⟨tab, htab, hid, hread⟩ | ⟨tab, htab, hid, hsave⟩
    · exact absurd hsame hfresh
    · exact ⟨tab, htab, hid, .inl hread⟩
    · exact ⟨tab, htab, hid, .inr hsave⟩
  obtain ⟨tab, htab, hid, herrand⟩ := hasked
  refine ⟨earlier, step, later, tab, rfl, hfresh, hwaits, ?_, hid, herrand⟩
  rw [run_append]
  exact htab

/-- Every result that waits to be applied is the answer to a request that waited
before. -/
theorem exists_answers (start : Workspace σ) (hstart : start.desk.bar = .empty)
    (hidle : start.desk.traffic.mailbox = []) (history : List (Step σ))
    (hreply : reply ∈ (start.run history).desk.traffic.mailbox) :
    ∃ earlier step later request, history = earlier ++ step :: later ∧
      (start.run earlier).desk.Answers (start.run (earlier ++ [step])).desk request reply := by
  obtain ⟨earlier, step, later, rfl, hbefore, hanswered⟩ := exists_turn
    (p := fun history => reply ∈ (start.run history).desk.traffic.mailbox)
    (by simp [hidle]) hreply
  rw [run_append, run_cons, run_nil] at hanswered
  rcases mailbox_perform _ (numbered_bar hstart earlier) step hanswered with
    hold | ⟨request, hanswers⟩
  · exact absurd hold hbefore
  · refine ⟨earlier, step, later, request, rfl, ?_⟩
    rw [run_append]
    exact hanswers

end Workbench.Workspace
