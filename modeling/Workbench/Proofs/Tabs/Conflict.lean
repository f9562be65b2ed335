import Workbench.Proofs.Tabs.UnsavedEdits

/-! # How a conflict ends

A conflict over unsaved edits outlasts every action but a decision about the
tab, a refresh that finds the missing file again, and the answer of a save that
was under way. No save starts in a conflict, so that save was under way before
the conflict arose. -/

namespace Workbench

/-- The tab is in conflict and holds unsaved edits. -/
structure Tab.Contested (tab : Tab) : Prop where
  conflict : tab.state.isConflict = true
  unsaved : tab.unsaved = true

/-- The action neither applies an answer nor decides a conflict. -/
def TabAction.Quiet : TabAction → Prop
  | .refreshResolved _ _ _ | .saveResolved _ _ _ => False
  | .acceptServer _ _ | .keepLocal _ | .savedAs _ _ _ => False
  | _ => True

namespace TabBar

variable {bar : TabBar} {action : TabAction} {tab tab' : Tab}

/-- The action decides the conflict of the tab. -/
def Decides (bar : TabBar) (tab : Tab) : TabAction → Prop
  | .acceptServer index _ | .keepLocal index | .savedAs index _ _ => bar.tabs[index]? = some tab
  | _ => False

/-- The action tells the tab that its missing file is back as the tab knows
it. -/
def Returns (tab : Tab) : TabAction → Prop
  | .refreshResolved id _ (.fetched content) =>
      id = tab.id ∧ tab.state = .conflict .pathNotFound ∧ tab.etag = some content.etag
  | _ => False

/-- The action answers the running save of the tab, and not with another
version. -/
def AnswersSave (tab : Tab) : TabAction → Prop
  | .saveResolved id request result =>
      id = tab.id ∧ tab.pendingSave.map (·.request) = some request ∧ result ≠ .versionMismatch
  | _ => False

/-- The answer to a refresh keeps a conflict unless the missing file is back. -/
theorem contested_of_refreshed {request : RequestId} {result : RefreshResult}
    (h : tab.Refreshed request result tab') (htab : tab.Contested) :
    tab'.Contested ∨ Returns tab (.refreshResolved tab.id request result) := by
  cases h with
  | dropped => exact .inl htab
  | outdated => exact .inl ⟨htab.conflict, htab.unsaved⟩
  | confirmed => exact .inl ⟨htab.conflict, htab.unsaved⟩
  | returned content hpending hetag hstate => exact .inr ⟨rfl, hstate, hetag⟩
  | contested => exact .inl ⟨rfl, htab.unsaved⟩
  | adopted content hpending hetag hsaved =>
      have hunsaved := htab.unsaved
      rw [hsaved] at hunsaved
      cases hunsaved
  | missing => exact .inl ⟨rfl, htab.unsaved⟩
  | failed => exact .inl ⟨htab.conflict, htab.unsaved⟩

/-- Any answer to a save but another version takes a tab out of its conflict, if
the tab waits for it. -/
theorem calm_or_contested_of_saveAnswered {request : RequestId} {result : SaveResult}
    (h : tab.SaveAnswered request result tab') :
    (tab'.state.isConflict = false ∧ AnswersSave tab (.saveResolved tab.id request result)) ∨
      (¬ AnswersSave tab (.saveResolved tab.id request result) ∧
        (tab.Contested → tab'.Contested)) := by
  have hanswers : ∀ generation, tab.pendingSave = some { request, generation } →
      result ≠ .versionMismatch → AnswersSave tab (.saveResolved tab.id request result) := by
    intro generation hpending hresult
    exact ⟨rfl, Tab.request_of_pending hpending, hresult⟩
  cases h with
  | dropped result hother => exact .inr ⟨fun hsave => hother hsave.2.1, id⟩
  | stored write hpending => exact .inl ⟨rfl, hanswers _ hpending (by simp)⟩
  | storedOlder write hpending => exact .inl ⟨rfl, hanswers _ hpending (by simp)⟩
  | refused hpending =>
      exact .inr ⟨fun hsave => hsave.2.2 rfl, fun htab => ⟨rfl, htab.unsaved⟩⟩
  | failed message hpending => exact .inl ⟨rfl, hanswers _ hpending (by simp)⟩

theorem contested_of_writtenOver {content : String} {encoding : Encoding} {write : WriteResult}
    (h : tab.WrittenOver content encoding write tab') (htab : tab.Contested) :
    tab'.Contested := by
  cases h with
  | same => exact htab
  | contested => exact ⟨rfl, htab.unsaved⟩
  | adopted hetag hsaved =>
      have hunsaved := htab.unsaved
      rw [hsaved] at hunsaved
      cases hunsaved

theorem contested_of_edited {content : String} {time : Nat} (h : tab.Edited content time tab')
    (htab : tab.Contested) : tab'.Contested := by
  cases h with
  | same => exact htab
  | changed =>
      have hstate : ¬ (tab.state = .clean ∨ tab.state = .saved) := by
        rintro (hstate | hstate) <;>
          · have hconflict := htab.conflict
            rw [hstate] at hconflict
            cases hconflict
      refine ⟨?_, rfl⟩
      dsimp only
      rw [if_neg hstate]
      exact htab.conflict

/-- What an action makes of a contested tab is contested, unless the action is
one of the three that end a conflict. -/
theorem Becomes.contested (h : Becomes bar action tab tab') (htab : tab.Contested) :
    tab'.Contested ∨ Decides bar tab action ∨ Returns tab action ∨ AnswersSave tab action := by
  cases h with
  | reopened content encoding etag hpath hsaved =>
      have hunsaved := htab.unsaved
      rw [hsaved] at hunsaved
      cases hunsaved
  | edited _ hedited => exact .inl (contested_of_edited hedited htab)
  | refreshed hrefreshed =>
      rcases contested_of_refreshed hrefreshed htab with hkept | hreturns
      · exact .inl hkept
      · exact .inr (.inr (.inl hreturns))
  | saveStarted request hindex hcalm =>
      rw [htab.conflict] at hcalm
      cases hcalm
  | saved hanswered =>
      rcases calm_or_contested_of_saveAnswered hanswered with ⟨_, hanswers⟩ | ⟨_, hkept⟩
      · exact .inr (.inr (.inr hanswers))
      · exact .inl (hkept htab)
  | accepted content hindex => exact .inr (.inl hindex)
  | keptLocal hindex => exact .inr (.inl hindex)
  | storedAs newPath write hindex => exact .inr (.inl hindex)
  | overwritten hwritten => exact .inl (contested_of_writtenOver hwritten htab)
  | moved => exact .inl ⟨htab.conflict, htab.unsaved⟩
  | relocated => exact .inl ⟨htab.conflict, htab.unsaved⟩
  | refreshStarted => exact .inl ⟨htab.conflict, htab.unsaved⟩
  | queued => exact .inl ⟨htab.conflict, htab.unsaved⟩
  | unqueued => exact .inl ⟨htab.conflict, htab.unsaved⟩

/-- No quiet action ends a conflict. -/
theorem Becomes.contested_of_quiet (h : Becomes bar action tab tab') (hquiet : action.Quiet)
    (htab : tab.Contested) : tab'.Contested := by
  rcases h.contested htab with hkept | hdecides | hreturns | hanswers
  · exact hkept
  · cases action <;> first | exact hdecides.elim | exact hquiet.elim
  · cases action <;> first | exact hreturns.elim | exact hquiet.elim
  · cases action <;> first | exact hanswers.elim | exact hquiet.elim

/-- Quiet actions leave a contested tab contested as long as it is open. -/
theorem contested_run_of_quiet (hbar : bar.Numbered) {actions : List TabAction}
    (hquiet : ∀ action ∈ actions, action.Quiet) (htab : tab ∈ bar.tabs) (hcontested : tab.Contested)
    (hopen : tab.id ∈ (bar.run actions).ids) :
    ∃ tab' ∈ (bar.run actions).tabs, tab'.id = tab.id ∧ tab'.Contested := by
  obtain ⟨tab', htab', hid⟩ := mem_ids_iff.mp hopen
  have hfits : Along (fun _ action => action.Quiet) bar actions :=
    along_of_forall fun action haction _ => hquiet action haction
  exact ⟨tab', htab', hid, holds_run (fun hfirst hbecomes => hbecomes.contested_of_quiet hfirst)
    hbar hfits htab hcontested htab' hid⟩

/-- The answer of a running save takes its tab out of a conflict. -/
theorem exists_calm_next_of_answersSave (hbar : bar.Numbered) (htab : tab ∈ bar.tabs)
    (hanswers : AnswersSave tab action) :
    ∃ tab' ∈ (bar.next action).tabs, tab'.id = tab.id ∧ tab'.state.isConflict = false := by
  cases action with
  | saveResolved id request result =>
      have hid : id = tab.id := hanswers.1
      subst hid
      obtain ⟨tab', htab', hanswered⟩ := exists_saveAnswered_next hbar htab request result
      refine ⟨tab', htab', hanswered.id_eq, ?_⟩
      rcases calm_or_contested_of_saveAnswered hanswered with ⟨hcalm, -⟩ | ⟨hnot, -⟩
      · exact hcalm
      · exact absurd hanswers hnot
  | _ => exact hanswers.elim

/-! ## The save under way -/

/-- An action after which a tab has a running save and is in conflict found the
tab with the same running save. -/
theorem exists_pendingSave_before (hbar : bar.Numbered) {pending : PendingRequest}
    (htab' : tab' ∈ (bar.next action).tabs) (hconflict : tab'.state.isConflict = true)
    (hpending : tab'.pendingSave = some pending) :
    ∃ tab ∈ bar.tabs, tab.id = tab'.id ∧ tab.pendingSave = some pending := by
  rcases (transition_next hbar.nodup action).origin hbar.nodup htab' with
    hsame | ⟨tab, htab, hbecomes⟩ | ⟨file, content, encoding, etag, -, -, rfl⟩
  · exact ⟨tab', hsame, rfl, hpending⟩
  · refine ⟨tab, htab, hbecomes.id_eq.symm, ?_⟩
    cases hstart : bar.saveStart? tab.id action with
    | none =>
        rcases hbecomes.pendingSave_eq hstart with hnone | hsame
        · rw [hnone] at hpending
          cases hpending
        · exact hsame ▸ hpending
    | some started =>
        -- A started save leaves its tab saving.
        obtain ⟨request, start⟩ := started
        have hsaving := eq_of_saveStart?_eq_some hbar hstart htab' hbecomes.id_eq
        rw [hsaving] at hconflict
        cases hconflict
  · cases hpending

/-- At some time of a run the tab had the save that it has now and no conflict,
and ever since it has been in conflict. -/
def SavingBeforeConflict (history : List TabAction) (tab : Tab) : Prop :=
  ∃ earlier later, history = earlier ++ later ∧
    (∃ old ∈ (empty.run earlier).tabs, old.id = tab.id ∧ old.state.isConflict = false ∧
      old.pendingSave = tab.pendingSave) ∧
    ∀ middle rest, later = middle ++ rest → middle ≠ [] →
      ∃ now ∈ (empty.run (earlier ++ middle)).tabs, now.id = tab.id ∧
        now.state.isConflict = true

/-- A save that runs for a tab in conflict was under way before the conflict
arose. -/
theorem saving_before_conflict (history : List TabAction) {pending : PendingRequest}
    (htab : tab ∈ (empty.run history).tabs) (hconflict : tab.state.isConflict = true)
    (hpending : tab.pendingSave = some pending) : SavingBeforeConflict history tab := by
  induction history using List.reverseRecOn generalizing tab with
  | nil => exact absurd htab List.not_mem_nil
  | append_singleton history action ih =>
      have hnow := htab
      rw [run_append] at htab
      obtain ⟨old, hold, hid, hsame⟩ :=
        exists_pendingSave_before (numbered_run history) htab hconflict hpending
      cases hbefore : old.state.isConflict with
      | false =>
          -- The conflict arose with the last action.
          refine ⟨history, [action], rfl, ⟨old, hold, hid, hbefore, hsame.trans hpending.symm⟩, ?_⟩
          intro middle rest hsplit hne
          rcases List.append_eq_singleton_iff.mp hsplit.symm with ⟨rfl, _⟩ | ⟨rfl, _⟩
          · exact absurd rfl hne
          · exact ⟨tab, hnow, rfl, hconflict⟩
      | true =>
          obtain ⟨earlier, later, rfl, ⟨first, hfirst, hfirst_id, hfree, hrunning⟩, hsince⟩ :=
            ih hold hbefore hsame
          refine ⟨earlier, later ++ [action], by rw [List.append_assoc],
            ⟨first, hfirst, hfirst_id.trans hid, hfree, ?_⟩, ?_⟩
          · rw [hrunning, hsame, hpending]
          intro middle rest hsplit hne
          -- A front of the longer run is the whole run or a front of the run before.
          rcases List.eq_nil_or_concat rest with rfl | ⟨front, last, rfl⟩
          · rw [List.append_nil] at hsplit
            rw [← hsplit, ← List.append_assoc]
            exact ⟨tab, hnow, rfl, hconflict⟩
          · rw [List.concat_eq_append, ← List.append_assoc] at hsplit
            obtain ⟨hlater, -⟩ := List.append_inj' hsplit rfl
            obtain ⟨now, hnow, hnow_id, hin⟩ := hsince middle front hlater hne
            exact ⟨now, hnow, hnow_id.trans hid, hin⟩

end TabBar

end Workbench
