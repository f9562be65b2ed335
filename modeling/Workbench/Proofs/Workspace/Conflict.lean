import Workbench.Proofs.Desk.Saving
import Workbench.Proofs.Tabs.Conflict
import Workbench.Proofs.Workspace.Ordinary

/-! # How a conflict ends in a workspace

In a workspace a decision about a conflict comes from `resolveConflict` alone,
and answers reach the tabs one at a time. So a conflict over unsaved edits lasts
until it is decided, the tab is closed or the missing file is found again, with
one exception: the answer of a save that was under way when the conflict
arose. -/

namespace Workbench

theorem TabAction.Ordinary.quiet {action : TabAction} (h : action.Ordinary) : action.Quiet := by
  cases action <;> trivial

/-- The action by which a decision about the conflict at a position is taken. -/
def ConflictAction.Takes (index : Nat) : ConflictAction → TabAction → Prop
  | .acceptServer, .acceptServer position _ => position = index
  | .keepLocal, .keepLocal position => position = index
  | .saveAs _, .savedAs position _ _ => position = index
  | _, _ => False

/-- Such an action concerns the tab at that position only. -/
theorem ConflictAction.Takes.found {index : Nat} {decision : ConflictAction} {action : TabAction}
    (h : decision.Takes index action) {bar : TabBar} {tab tab' : Tab}
    (hbecomes : TabBar.Becomes bar action tab tab') : bar.tabs[index]? = some tab := by
  cases decision with
  | acceptServer =>
      cases hbecomes with
      | accepted content htab => exact (show _ = index from h) ▸ htab
      | _ => exact h.elim
  | keepLocal =>
      cases hbecomes with
      | keptLocal htab => exact (show _ = index from h) ▸ htab
      | _ => exact h.elim
  | saveAs newPath =>
      cases hbecomes with
      | storedAs newPath write htab => exact (show _ = index from h) ▸ htab
      | _ => exact h.elim

namespace Desk

variable {σ : Type} [FileService σ]

/-- Resolving a conflict takes at most one action. -/
theorem resolveActions_cases (desk : Desk σ) (index : Nat) (decision : ConflictAction) :
    desk.resolveActions index decision = [] ∨
      ∃ action, desk.resolveActions index decision = [action] ∧ decision.Takes index action := by
  unfold resolveActions
  split
  · exact .inl rfl
  · split
    · exact .inl rfl
    · cases decision with
      | acceptServer =>
          dsimp only
          split
          · exact .inr ⟨_, rfl, rfl⟩
          · exact .inl rfl
      | keepLocal => exact .inr ⟨_, rfl, rfl⟩
      | saveAs newPath =>
          dsimp only
          unfold saveAsActions
          split
          · exact .inl rfl
          · split
            · exact .inr ⟨_, rfl, rfl⟩
            · exact .inl rfl

omit [FileService σ] in
/-- The tab in conflict can be stored at a path at which no other tab holds edits. -/
theorem exists_apply_savedAs {desk : Desk σ} {index : Nat} {tab : Tab} {path : String}
    (hfound : desk.bar.tabs[index]? = some tab) (hconflict : tab.state.isConflict = true)
    (hfree : desk.holdsEdits tab.id path = false) (write : WriteResult) :
    ∃ outcome after, desk.bar.apply (.savedAs index path write) = .ok (outcome, after) := by
  have hvacated : ∃ vacated, desk.bar.vacate tab.id path = .ok vacated := by
    unfold TabBar.vacate
    split
    · exact ⟨_, rfl⟩
    next hfind =>
      split
      · exact ⟨_, rfl⟩
      next target htarget =>
        split
        · exact ⟨_, rfl⟩
        next hother =>
          have hsaved : target.unsaved = false := by
            simpa [holdsEdits, tab?, hfind, htarget, hother] using hfree
          simp [hsaved]
  obtain ⟨vacated, hvacated⟩ := hvacated
  simp only [TabBar.apply, TabBar.savedAs, hfound, hconflict, hvacated]
  cases vacated.findId? tab.id with
  | none => exact ⟨_, _, rfl⟩
  | some position => exact ⟨_, _, rfl⟩

theorem checkSaveAsTarget_eq_ok {desk checked : Desk σ} {id : TabId} {path : String}
    (h : desk.checkSaveAsTarget id path = (.ok (), checked)) :
    desk.holdsEdits id path = false ∧ checked.bar = desk.bar := by
  have hbar := (desk.performs_checkSaveAsTarget id path).bar
  rw [h] at hbar
  refine ⟨?_, hbar⟩
  by_contra hholds
  rw [Bool.not_eq_false] at hholds
  simp [checkSaveAsTarget, hholds] at h

theorem saveAs_eq_ok {desk : Desk σ} {index : Nat} {tab : Tab} {newPath : String}
    {action : TabAction} (hfound : desk.tab? index = some tab)
    (hconflict : tab.state.isConflict = true)
    (h : action ∈ desk.saveAsActions index tab (Path.normalize newPath)) :
    (desk.saveAs index tab newPath).1 = .ok () := by
  unfold saveAsActions at h
  split at h
  next => cases h
  next checked hchecked =>
    split at h
    next write hstored =>
      obtain ⟨hfree, hbar⟩ := checkSaveAsTarget_eq_ok hchecked
      obtain ⟨outcome, after, happly⟩ := exists_apply_savedAs hfound hconflict hfree write
      simp only [saveAs, hchecked, storeFile, hstored, dispatch, hbar, happly]
    next => cases h

/-- A decision that takes an action succeeds. -/
theorem resolveConflict_eq_ok {desk : Desk σ} {index : Nat} {decision : ConflictAction}
    {action : TabAction} (h : action ∈ desk.resolveActions index decision) :
    (desk.resolveConflict index decision).1 = .ok () := by
  unfold resolveActions at h
  split at h
  next => cases h
  next tab hfound =>
    split at h
    next => cases h
    next hnot =>
      have hconflict : tab.state.isConflict = true := by simpa using hnot
      have htab : desk.bar.tabs[index]? = some tab := hfound
      cases decision with
      | acceptServer =>
          dsimp only at h
          split at h
          next content hread =>
            simp [resolveConflict, hfound, hconflict, acceptServer, fetchFile, hread, dispatch,
              TabBar.apply, TabBar.atConflict, TabBar.act, htab]
          next => cases h
      | keepLocal =>
          simp [resolveConflict, hfound, hconflict, keepLocal, dispatch, TabBar.apply,
            TabBar.atConflict, TabBar.act, htab]
      | saveAs newPath =>
          simp only [resolveConflict, hfound, hconflict]
          exact saveAs_eq_ok hfound hconflict h

end Desk

namespace Workspace

open TabBar

variable {σ : Type} [FileService σ] {tab : Tab}

/-- Apart from deciding conflicts and applying results, all steps are quiet. -/
theorem quiet_actions (w : Workspace σ) {step : Step σ}
    (hresolve : ∀ index action, step ≠ .resolve index action) (hdeliver : step ≠ .deliver) :
    ∀ action ∈ w.actions step, action.Quiet := by
  intro action haction
  by_cases hannounces : step.Announces
  · obtain ⟨path, content, encoding, write, rfl⟩ :=
      announcing_actions w hannounces action haction
    trivial
  · exact (ordinary_actions w hresolve hdeliver hannounces action haction).quiet

/-! ## The fate of a conflict -/

/-- The step applies a result, by an action of a kind. -/
def Applies (w : Workspace σ) (step : Step σ) (kind : TabAction → Prop) : Prop :=
  step = .deliver ∧ ∃ reply rest, w.desk.traffic.mailbox = reply :: rest ∧ kind reply.action

/-- The step resolves the conflict of a tab. -/
def Resolves (w : Workspace σ) (tab : Tab) (step : Step σ) : Prop :=
  ∃ index action, step = .resolve index action ∧ w.desk.tab? index = some tab

theorem contested_resolve (w : Workspace σ) (hbar : w.desk.bar.Numbered) {index : Nat}
    {action : ConflictAction} (htab : tab ∈ w.desk.bar.tabs) (hcontested : tab.Contested)
    (hopen : tab.id ∈ (w.perform (.resolve index action)).desk.bar.ids) :
    (∃ tab' ∈ (w.perform (.resolve index action)).desk.bar.tabs,
        tab'.id = tab.id ∧ tab'.Contested) ∨ Resolves w tab (.resolve index action) := by
  rw [bar_perform] at hopen ⊢
  simp only [actions] at hopen ⊢
  rcases w.desk.resolveActions_cases index action with hnone | ⟨decision, hone, htakes⟩
  · rw [hnone]
    exact .inl ⟨tab, htab, rfl, hcontested⟩
  · rw [hone, TabBar.run_cons, TabBar.run_nil] at hopen ⊢
    obtain ⟨tab', htab', hid⟩ := mem_ids_iff.mp hopen
    rcases (transition_next hbar.nodup decision).successor hbar htab htab' hid with
      rfl | hbecomes
    · exact .inl ⟨tab', htab', rfl, hcontested⟩
    · exact .inr ⟨index, action, rfl, htakes.found hbecomes⟩

theorem contested_deliver (w : Workspace σ) (hbar : w.desk.bar.Numbered)
    (htab : tab ∈ w.desk.bar.tabs) (hcontested : tab.Contested)
    (hopen : tab.id ∈ (w.perform .deliver).desk.bar.ids) :
    (∃ tab' ∈ (w.perform .deliver).desk.bar.tabs, tab'.id = tab.id ∧ tab'.Contested) ∨
      Applies w .deliver (Returns tab) ∨ Applies w .deliver (AnswersSave tab) := by
  rw [bar_perform] at hopen ⊢
  cases hmailbox : w.desk.traffic.mailbox with
  | nil =>
      simp only [actions, Desk.deliverActions, hmailbox]
      exact .inl ⟨tab, htab, rfl, hcontested⟩
  | cons reply rest =>
      simp only [actions, Desk.deliverActions, hmailbox, Desk.answerActions] at hopen ⊢
      obtain ⟨now, hnow, hid⟩ := mem_ids_iff.mp (hbar.mem_ids_of_run htab hopen)
      have hkept : now.Contested ∨ Returns tab reply.action ∨ AnswersSave tab reply.action := by
        rcases (transition_next hbar.nodup reply.action).successor hbar htab hnow hid with
          rfl | hbecomes
        · exact .inl hcontested
        · rcases hbecomes.contested hcontested with hkept | hdecides | hends
          · exact .inl hkept
          · unfold Reply.action at hdecides
            split at hdecides <;> exact hdecides.elim
          · exact .inr hends
      rcases hkept with hkept | hreturns | hanswers
      · -- All that follows the answer is the start or the end of a queued save.
        rw [TabBar.run_cons, ← hid] at hopen
        have hquiet := fun action haction =>
          (Desk.saving_queuedActions { w.desk with bar := w.desk.bar.next reply.action } reply.tab
            action haction).ordinary.quiet
        obtain ⟨tab', htab', hid', hcontested'⟩ :=
          contested_run_of_quiet (hbar.next reply.action) hquiet hnow hkept hopen
        exact .inl ⟨tab', htab', hid'.trans hid, hcontested'⟩
      · exact .inr (.inl ⟨rfl, reply, rest, hmailbox, hreturns⟩)
      · exact .inr (.inr ⟨rfl, reply, rest, hmailbox, hanswers⟩)

/-- After the answer of its running save, a tab is open and not in conflict. -/
theorem exists_calm_of_answersSave (w : Workspace σ) (hbar : w.desk.bar.Numbered)
    (htab : tab ∈ w.desk.bar.tabs) {step : Step σ} (h : Applies w step (AnswersSave tab)) :
    ∃ tab' ∈ (w.perform step).desk.bar.tabs, tab'.id = tab.id ∧ tab'.state.isConflict = false := by
  obtain ⟨rfl, reply, rest, hmailbox, hanswers⟩ := h
  rw [bar_perform]
  simp only [actions, Desk.deliverActions, hmailbox, Desk.answerActions]
  obtain ⟨now, hnow, hid, hcalm⟩ := exists_calm_next_of_answersSave hbar htab hanswers
  obtain ⟨tab', htab', hsame⟩ :=
    exists_sameFile_run (hbar.next reply.action) (Desk.saving_queuedActions _ reply.tab) hnow
  exact ⟨tab', htab', hsame.id.trans hid, hsame.calm hcalm⟩

omit [FileService σ] in
/-- The answer of a save says nothing about a missing file. -/
theorem not_returns_of_answersSave (w : Workspace σ) {step : Step σ}
    (h : Applies w step (AnswersSave tab)) : ¬ Applies w step (Returns tab) := by
  obtain ⟨-, reply, rest, hmailbox, hanswers⟩ := h
  rintro ⟨-, other, rest', hmailbox', hreturns⟩
  obtain ⟨rfl, -⟩ := List.cons.inj (hmailbox.symm.trans hmailbox')
  unfold Reply.action at hanswers hreturns
  cases hresult : reply.result with
  | refresh result => simp [hresult, AnswersSave] at hanswers
  | save result => simp [hresult, Returns] at hreturns

theorem not_contested_of_answersSave (w : Workspace σ) (hbar : w.desk.bar.Numbered)
    (htab : tab ∈ w.desk.bar.tabs) {step : Step σ} (h : Applies w step (AnswersSave tab)) :
    ∀ tab' ∈ (w.perform step).desk.bar.tabs, tab'.id = tab.id → ¬ tab'.Contested := by
  intro tab' htab' hid hcontested
  have hnext : (w.perform step).desk.bar.Numbered := by
    rw [bar_perform]
    exact hbar.run _
  obtain ⟨calm, hcalm, hid', hfree⟩ := exists_calm_of_answersSave w hbar htab h
  obtain rfl := eq_of_id_eq hnext.nodup htab' hcalm (hid.trans hid'.symm)
  have hconflict := hcontested.conflict
  rw [hfree] at hconflict
  cases hconflict

omit [FileService σ] in
theorem exists_pendingSave_of_answersSave (w : Workspace σ) {step : Step σ}
    (h : Applies w step (AnswersSave tab)) : ∃ pending, tab.pendingSave = some pending := by
  obtain ⟨-, reply, rest, -, hanswers⟩ := h
  unfold Reply.action at hanswers
  split at hanswers
  · exact hanswers.elim
  · obtain ⟨pending, hpending, -⟩ := Option.map_eq_some_iff.mp hanswers.2.1
    exact ⟨pending, hpending⟩

/-- A conflict over the edits of a tab that stays open is kept by a step, or is
resolved by it, or ends with a result that the step applies. -/
theorem contested_perform (w : Workspace σ) (hbar : w.desk.bar.Numbered)
    (htab : tab ∈ w.desk.bar.tabs) (hcontested : tab.Contested) (step : Step σ)
    (hopen : tab.id ∈ (w.perform step).desk.bar.ids) :
    (∃ tab' ∈ (w.perform step).desk.bar.tabs, tab'.id = tab.id ∧ tab'.Contested) ∨
      Resolves w tab step ∨ Applies w step (Returns tab) ∨
        Applies w step (AnswersSave tab) := by
  by_cases hdeliver : step = .deliver
  · subst hdeliver
    rcases contested_deliver w hbar htab hcontested hopen with hkept | hends
    · exact .inl hkept
    · exact .inr (.inr hends)
  · by_cases hresolve : ∃ index action, step = .resolve index action
    · obtain ⟨index, action, rfl⟩ := hresolve
      rcases contested_resolve w hbar htab hcontested hopen with hkept | hresolves
      · exact .inl hkept
      · exact .inr (.inl hresolves)
    · -- All other steps consist of quiet actions.
      have hquiet := quiet_actions w
        (fun index action heq => hresolve ⟨index, action, heq⟩) hdeliver
      rw [bar_perform] at hopen
      left
      rw [bar_perform]
      exact contested_run_of_quiet hbar hquiet htab hcontested hopen

/-- What one more step after a run does to a conflict over unsaved edits. -/
structure ConflictRespected (start : Workspace σ) (history : List (Step σ)) (step : Step σ)
    (tab : Tab) : Prop where
  /-- The conflict and the edits are kept, or the conflict is decided, the tab is
  closed or its missing file is back, exactly if the step does not answer the
  running save of the tab. -/
  kept_iff :
    ((∃ tab' ∈ ((start.run history).perform step).desk.bar.tabs,
          tab'.id = tab.id ∧ tab'.Contested) ∨
        Resolves (start.run history) tab step ∨
        tab.id ∉ ((start.run history).perform step).desk.bar.ids ∨
        Applies (start.run history) step (Returns tab)) ↔
      ¬ Applies (start.run history) step (AnswersSave tab)
  /-- The answered save was under way when the conflict arose. -/
  under_way : Applies (start.run history) step (AnswersSave tab) →
    SavingBeforeConflict (start.actionsOf history) tab

/-- A conflict over unsaved edits lasts until it is decided, the tab is closed or
its missing file is found again, unless a save was under way when it arose:
the answer of that save ends it. -/
theorem conflict_respected (start : Workspace σ) (hstart : start.desk.bar = .empty)
    (history : List (Step σ)) (step : Step σ) (htab : tab ∈ (start.run history).desk.bar.tabs)
    (hcontested : tab.Contested) : ConflictRespected start history step tab := by
  have hbar := numbered_bar hstart history
  constructor
  case kept_iff =>
    constructor
    · intro hends hanswers
      rcases hends with ⟨tab', htab', hid, hkept⟩ | hresolves | hgone | hreturns
      · exact not_contested_of_answersSave _ hbar htab hanswers tab' htab' hid hkept
      · obtain ⟨index, action, rfl, -⟩ := hresolves
        cases hanswers.1
      · obtain ⟨calm, hcalm, hid, -⟩ := exists_calm_of_answersSave _ hbar htab hanswers
        exact hgone (hid ▸ mem_ids_of_mem hcalm)
      · exact not_returns_of_answersSave _ hanswers hreturns
    · intro hanswers
      by_cases hopen : tab.id ∈ ((start.run history).perform step).desk.bar.ids
      · rcases contested_perform _ hbar htab hcontested step hopen with
          hkept | hresolves | hreturns | hsave
        · exact .inl hkept
        · exact .inr (.inl hresolves)
        · exact .inr (.inr (.inr hreturns))
        · exact absurd hsave hanswers
      · exact .inr (.inr (.inl hopen))
  case under_way =>
    intro hanswers
    obtain ⟨pending, hpending⟩ := exists_pendingSave_of_answersSave _ hanswers
    rw [bar_run_eq hstart] at htab
    exact saving_before_conflict _ htab hcontested.conflict hpending

/-- A file that is replaced by an upload while the edits of its tab are being
saved. -/
def uploadDuringSave : List (Step MemoryFiles) :=
  [.outside fun m => (m.put "/plan" "one").2, .openPath "/plan", .edit 0 "two" 5, .save 0,
   .release 0, .upload [.ofText "/plan" "three"]]

theorem uploadDuringSave_respected :
    ∃ tab ∈ (openingMemory.run uploadDuringSave).desk.bar.tabs, tab.Contested ∧
      ConflictRespected openingMemory uploadDuringSave .deliver tab := by
  have hfound : ∃ tab ∈ (openingMemory.run uploadDuringSave).desk.bar.tabs,
      tab.state.isConflict = true ∧ tab.unsaved = true := by decide +kernel
  obtain ⟨tab, htab, hconflict, hunsaved⟩ := hfound
  exact ⟨tab, htab, ⟨hconflict, hunsaved⟩,
    conflict_respected openingMemory rfl uploadDuringSave .deliver htab ⟨hconflict, hunsaved⟩⟩

/-- The late answer ends the conflict although nobody decided it: the tab counts
as saved, while the service holds the content of the upload. -/
theorem uploadDuringSave_ends_conflict :
    ∃ tab ∈ (openingMemory.run uploadDuringSave).desk.bar.tabs, tab.Contested ∧
      ¬ Resolves (openingMemory.run uploadDuringSave) tab .deliver ∧
      ¬ Applies (openingMemory.run uploadDuringSave) .deliver (Returns tab) ∧
      ∃ tab' ∈ ((openingMemory.run uploadDuringSave).perform .deliver).desk.bar.tabs,
        tab'.id = tab.id ∧ tab'.state = .saved ∧ tab'.unsaved = false ∧ tab'.content = "two" ∧
          ((openingMemory.run uploadDuringSave).perform .deliver).desk.service.content? "/plan" =
            some "three" := by
  have hfound : ∃ tab ∈ (openingMemory.run uploadDuringSave).desk.bar.tabs,
      (tab.state.isConflict = true ∧ tab.unsaved = true) ∧
        ∃ tab' ∈ ((openingMemory.run uploadDuringSave).perform .deliver).desk.bar.tabs,
          tab'.id = tab.id ∧ tab'.state = .saved ∧ tab'.unsaved = false ∧ tab'.content = "two" ∧
            ((openingMemory.run uploadDuringSave).perform .deliver).desk.service.content?
              "/plan" = some "three" := by
    decide +kernel
  have hsaves : ∀ reply ∈ (openingMemory.run uploadDuringSave).desk.traffic.mailbox,
      Desk.phaseOf reply.result = .save := by
    decide +kernel
  obtain ⟨tab, htab, ⟨hconflict, hunsaved⟩, hafter⟩ := hfound
  refine ⟨tab, htab, ⟨hconflict, hunsaved⟩, ?_, ?_, hafter⟩
  · rintro ⟨index, action, hstep, -⟩
    cases hstep
  · rintro ⟨-, reply, rest, hmailbox, hreturns⟩
    have hsave := hsaves reply (hmailbox ▸ List.mem_cons_self)
    unfold Reply.action at hreturns
    cases hresult : reply.result with
    | refresh result => simp [hresult, Desk.phaseOf] at hsave
    | save result => simp [hresult, Returns] at hreturns

end Workspace

end Workbench
