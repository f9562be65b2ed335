import Workbench.Proofs.Tabs.Saving
import Workbench.Proofs.Tabs.UnsavedEdits

/-! # What the state of a tab says of its edits

A dirty tab, and a tab whose file was changed by others, holds unsaved edits. Only
one kind of tab comes to say so wrongly: one whose edits were dropped, or stored
elsewhere, while a save of them was running. The answer of that save, or what
another writer stores, is still taken to be about edits. -/

namespace Workbench

namespace Tab

variable {tab tab' : Tab}

/-- A dirty tab, and a tab in conflict over its content, holds unsaved edits. -/
structure StateAgrees (tab : Tab) : Prop where
  dirty : tab.state = .dirty → tab.unsaved = true
  contested : tab.state = .conflict .contentChanged → tab.unsaved = true

/-- A save of the tab runs, but none of its edits are left to be saved. -/
structure Overruled (tab : Tab) : Prop where
  unsaved : tab.unsaved = false
  saving : tab.pendingSave.isSome = true

/-- The running save was started with unsaved edits. They are still unsaved unless
the content has been replaced since. -/
def SavesEdits (tab : Tab) : Prop :=
  ∀ pending, tab.pendingSave = some pending →
    pending.generation ≤ tab.generation ∧
      (pending.generation = tab.generation → tab.unsaved = true)

namespace StateAgrees

theorem of_unsaved (h : tab.unsaved = true) : tab.StateAgrees := ⟨fun _ => h, fun _ => h⟩

theorem of_state (hdirty : tab.state ≠ .dirty)
    (hcontested : tab.state ≠ .conflict .contentChanged) : tab.StateAgrees :=
  ⟨fun h => absurd h hdirty, fun h => absurd h hcontested⟩

theorem of_same (h : tab.StateAgrees) (hstate : tab'.state = tab.state)
    (hunsaved : tab'.unsaved = tab.unsaved) : tab'.StateAgrees := by
  constructor
  · rw [hstate, hunsaved]
    exact h.dirty
  · rw [hstate, hunsaved]
    exact h.contested

/-- The state that a decision leaves is that of the edits. -/
theorem of_settled (hstate : tab'.state = tab.settledState)
    (hunsaved : tab'.unsaved = tab.unsaved) : tab'.StateAgrees := by
  rw [settledState] at hstate
  cases hedited : tab.unsaved with
  | true => exact of_unsaved (hunsaved.trans hedited)
  | false =>
      rw [hedited] at hstate
      exact of_state (by simp [hstate]) (by simp [hstate])

end StateAgrees

namespace SavesEdits

theorem of_idle (h : tab.pendingSave = none) : tab.SavesEdits := by
  intro pending hpending
  rw [h] at hpending
  cases hpending

theorem of_same (h : tab.SavesEdits) (hsave : tab'.pendingSave = tab.pendingSave)
    (hgeneration : tab'.generation = tab.generation) (hunsaved : tab'.unsaved = tab.unsaved) :
    tab'.SavesEdits := by
  unfold SavesEdits
  rw [hsave, hgeneration, hunsaved]
  exact h

/-- New content is not that of the running save. -/
theorem of_succ (h : tab.SavesEdits) (hsave : tab'.pendingSave = tab.pendingSave)
    (hgeneration : tab'.generation = tab.generation + 1) : tab'.SavesEdits := by
  intro pending hpending
  have hle := (h pending (hsave ▸ hpending)).1
  rw [hgeneration]
  exact ⟨by omega, by omega⟩

/-- The running save of an overruled tab was started with other content. -/
theorem generation_ne (h : tab.SavesEdits) (hoverruled : tab.Overruled) {pending : PendingRequest}
    (hpending : tab.pendingSave = some pending) : tab.generation ≠ pending.generation := by
  intro hsame
  have hunsaved := (h pending hpending).2 hsame.symm
  rw [hoverruled.unsaved] at hunsaved
  cases hunsaved

end SavesEdits

end Tab

namespace TabBar

variable {bar : TabBar} {action : TabAction} {actions : List TabAction} {tab tab' : Tab}

/-- Requests are started for idle tabs, and saves for tabs with unsaved edits. -/
def Prudent (bar : TabBar) : TabAction → Prop
  | .refreshStarted index _ => ∀ tab, bar.tabs[index]? = some tab → tab.isBusy = false
  | .saveStarted index _ =>
      ∀ tab, bar.tabs[index]? = some tab → tab.isBusy = false ∧ tab.unsaved = true
  | _ => True

/-- The action drops the edits of the tab, or tells that they were stored at another
path. -/
def GivesUp (bar : TabBar) (tab : Tab) : TabAction → Prop
  | .acceptServer index _ | .savedAs index _ _ => bar.tabs[index]? = some tab
  | _ => False

/-- The action tells the tab what became of its running save, or that another writer
has stored another version. -/
def Reports (bar : TabBar) (tab : Tab) : TabAction → Prop
  | .saveResolved id request _ => id = tab.id ∧ tab.pendingSave.map (·.request) = some request
  | .externalWrite path _ _ write =>
      (∃ index, bar.find? path = some index ∧ bar.tabs[index]? = some tab) ∧
        tab.etag ≠ some write.etag
  | _ => False

theorem stateAgrees_of_refreshed {request : RequestId} {result : RefreshResult}
    (h : tab.Refreshed request result tab') (htab : tab.StateAgrees) : tab'.StateAgrees := by
  cases h with
  | dropped => exact htab
  | returned => exact .of_settled rfl rfl
  | contested content _ _ hunsaved => exact .of_unsaved hunsaved
  | adopted => exact .of_state (by simp [Tab.adopt]) (by simp [Tab.adopt])
  | missing => exact .of_state (by simp) (by simp)
  | _ => exact htab.of_same rfl rfl

theorem stateAgrees_of_saveAnswered {request : RequestId} {result : SaveResult}
    (h : tab.SaveAnswered request result tab') (htab : tab.StateAgrees) :
    tab'.StateAgrees ∨ (tab.Overruled ∧ Reports bar tab (.saveResolved tab.id request result)) := by
  have hends : ∀ generation, tab.pendingSave = some { request, generation } →
      tab'.unsaved = tab.unsaved → tab'.StateAgrees ∨
        (tab.Overruled ∧ Reports bar tab (.saveResolved tab.id request result)) := by
    intro generation hpending hsame
    cases hunsaved : tab.unsaved with
    | true => exact .inl (.of_unsaved (hsame.trans hunsaved))
    | false =>
        exact .inr ⟨⟨hunsaved, by simp [hpending]⟩, rfl, Tab.request_of_pending hpending⟩
  cases h with
  | dropped => exact .inl htab
  | stored => exact .inl (.of_state (by simp) (by simp))
  | storedOlder write hpending => exact hends _ hpending rfl
  | refused hpending => exact hends _ hpending rfl
  | failed message hpending => exact hends _ hpending rfl

/-- A tab whose state agrees with its edits is made disagree only by a report to a
tab that is overruled. -/
theorem Becomes.stateAgrees (h : Becomes bar action tab tab') (htab : tab.StateAgrees) :
    tab'.StateAgrees ∨ (tab.Overruled ∧ Reports bar tab action) := by
  cases h with
  | reopened => exact .inl (.of_state (by simp) (by simp))
  | edited _ hedited =>
      cases hedited with
      | same => exact .inl htab
      | changed => exact .inl (.of_unsaved rfl)
  | refreshed hrefreshed => exact .inl (stateAgrees_of_refreshed hrefreshed htab)
  | saveStarted => exact .inl (.of_state (by simp) (by simp))
  | saved hanswered => exact stateAgrees_of_saveAnswered hanswered htab
  | accepted => exact .inl (.of_state (by simp [Tab.adopt]) (by simp [Tab.adopt]))
  | keptLocal => exact .inl (.of_settled rfl rfl)
  | storedAs => exact .inl (.of_state (by simp [storeAt]) (by simp [storeAt]))
  | overwritten hwritten hfind hindex =>
      cases hwritten with
      | same => exact .inl htab
      | contested hetag hbusy =>
          cases hunsaved : tab.unsaved with
          | true => exact .inl (.of_unsaved rfl)
          | false =>
              have hsaving := hbusy.resolve_left (by simp [hunsaved])
              exact .inr ⟨⟨hunsaved, hsaving⟩, ⟨_, hfind, hindex⟩, hetag⟩
      | adopted => exact .inl (.of_state (by simp) (by simp))
  | _ => exact .inl (htab.of_same rfl rfl)

/-- Where saves are started for unsaved edits only, every running save was started
with unsaved edits. -/
theorem Becomes.savesEdits (h : Becomes bar action tab tab') (hprudent : Prudent bar action)
    (htab : tab.SavesEdits) : tab'.SavesEdits := by
  cases h with
  | reopened content encoding etag hpath hunsaved hidle => exact .of_idle hidle
  | edited _ hedited =>
      cases hedited with
      | same => exact htab
      | changed => exact htab.of_succ rfl rfl
  | refreshed hrefreshed =>
      cases hrefreshed with
      | adopted => exact htab.of_succ rfl rfl
      | _ => exact htab.of_same rfl rfl rfl
  | saveStarted request hindex =>
      intro pending hpending
      obtain rfl := Option.some.inj hpending
      exact ⟨Nat.le_refl _, fun _ => (hprudent tab hindex).2⟩
  | saved hanswered =>
      cases hanswered with
      | dropped => exact htab
      | _ => exact .of_idle rfl
  | accepted => exact htab.of_succ rfl rfl
  | storedAs => exact htab.of_succ rfl rfl
  | overwritten hwritten =>
      cases hwritten with
      | adopted hetag hunsaved hidle => exact .of_idle hidle
      | _ => exact htab.of_same rfl rfl rfl
  | _ => exact htab.of_same rfl rfl rfl

theorem savesEdits_run (hbar : bar.Numbered) (hprudent : Along Prudent bar actions)
    (h : ∀ tab ∈ bar.tabs, tab.SavesEdits) : ∀ tab ∈ (bar.run actions).tabs, tab.SavesEdits := by
  refine hprudent.run (p := fun bar => ∀ tab ∈ bar.tabs, tab.SavesEdits) hbar h ?_
  intro bar action hbar hprudent hbefore
  refine forall_tabs_next hbar hbefore ?_ ?_
  · exact fun tab _ tab' hbecomes htab => hbecomes.savesEdits hprudent htab
  · exact fun _ _ _ _ _ _ => .of_idle rfl

/-- A tab comes to be overruled by a decision that is taken while its save runs. -/
theorem Becomes.overruled (h : Becomes bar action tab tab') (hprudent : Prudent bar action)
    {pending : PendingRequest} (hunsaved : tab'.unsaved = false)
    (hpending : tab'.pendingSave = some pending) :
    tab.pendingSave = some pending ∧
      (tab.unsaved = false ∨ GivesUp bar tab action) := by
  have hbefore : tab.pendingSave = some pending := by
    cases hstart : bar.saveStart? tab.id action with
    | none =>
        rcases h.pendingSave_eq hstart with hnone | hsame
        · rw [hnone] at hpending
          cases hpending
        · exact hsame ▸ hpending
    | some started =>
        -- The save of a tab without edits is not started.
        cases h with
        | saveStarted request hindex =>
            have hedited := (hprudent tab hindex).2
            rw [show tab.unsaved = false from hunsaved] at hedited
            cases hedited
        | _ => cases hstart
  refine ⟨hbefore, ?_⟩
  cases hedited : tab.unsaved with
  | false => exact .inl rfl
  | true =>
      right
      rcases h.unsaved_eq_false hedited hunsaved with haccepts | hstoresAs | ⟨hstores, -⟩
      · cases action <;> first | exact haccepts | exact haccepts.elim
      · cases action <;> first | exact hstoresAs | exact hstoresAs.elim
      · -- The answer of the running save would have ended it.
        cases h with
        | saved hanswered =>
            cases hanswered with
            | dropped => exact absurd hunsaved (by simp [hedited])
            | _ => cases hpending
        | _ => exact hstores.elim

/-! ## Reports to overruled tabs -/

/-- After a report, an overruled tab disagrees with its edits. -/
theorem exists_disagreeing_next (hbar : bar.Numbered) (htab : tab ∈ bar.tabs)
    (hsaves : tab.SavesEdits) (hoverruled : tab.Overruled) (hreports : Reports bar tab action) :
    ∃ tab' ∈ (bar.next action).tabs, Becomes bar action tab tab' ∧ ¬ tab'.StateAgrees := by
  have hunsaved := hoverruled.unsaved
  cases action with
  | saveResolved id request result =>
      obtain ⟨rfl, hrequest⟩ := hreports
      obtain ⟨tab', htab', hanswered⟩ := exists_saveAnswered_next hbar htab request result
      refine ⟨tab', htab', .saved hanswered, ?_⟩
      intro hagrees
      cases hanswered with
      | dropped _ hother => exact hother hrequest
      | stored write hpending => exact hsaves.generation_ne hoverruled hpending rfl
      | storedOlder => exact absurd (hagrees.dirty rfl) (by simp [hunsaved])
      | refused => exact absurd (hagrees.contested rfl) (by simp [hunsaved])
      | failed => exact absurd (hagrees.dirty rfl) (by simp [hunsaved])
  | externalWrite path content encoding write =>
      obtain ⟨⟨index, hfind, hindex⟩, hetag⟩ := hreports
      obtain ⟨found, hfound, rfl⟩ := find?_eq_some hfind
      obtain rfl := Option.some.inj (hfound.symm.trans hindex)
      obtain ⟨tab', htab', hwritten⟩ := exists_writtenOver_next hfind hindex content encoding write
      refine ⟨tab', htab', .overwritten hwritten hfind hindex, ?_⟩
      intro hagrees
      cases hwritten with
      | same hsame => exact hetag hsame
      | contested => exact absurd (hagrees.contested rfl) (by simp [hunsaved])
      | adopted _ _ hidle => exact absurd hoverruled.saving (by simp [hidle])
  | _ => exact hreports.elim

/-- What another writer stores changes neither the edits nor the running save of an
overruled tab. -/
theorem Becomes.stays_overruled {path content : String} {encoding : Encoding} {write : WriteResult}
    (h : Becomes bar (.externalWrite path content encoding write) tab tab')
    (htab : tab.Overruled) : tab'.Overruled ∧ (¬ tab.StateAgrees → ¬ tab'.StateAgrees) := by
  cases h with
  | overwritten hwritten =>
      cases hwritten with
      | same => exact ⟨htab, id⟩
      | contested =>
          refine ⟨⟨htab.unsaved, htab.saving⟩, fun _ hagrees => ?_⟩
          exact absurd (hagrees.contested rfl) (by simp [htab.unsaved])
      | adopted _ _ hidle => exact absurd htab.saving (by simp [hidle])

/-- No save is started for a tab without edits, so its state stays. -/
theorem Becomes.stays_disagreeing (h : Becomes bar action tab tab') (hsaving : action.Saving)
    (hprudent : Prudent bar action) (htab : ¬ tab.StateAgrees) : ¬ tab'.StateAgrees := by
  cases h with
  | queued => exact fun hagrees => htab (hagrees.of_same rfl rfl)
  | unqueued => exact fun hagrees => htab (hagrees.of_same rfl rfl)
  | saveStarted request hindex => exact absurd (.of_unsaved (hprudent tab hindex).2) htab
  | _ => exact hsaving.elim

/-- Neither the start nor the end of a queued save makes a tab agree again. -/
theorem exists_disagreeing_of_saving (hbar : bar.Numbered) (hprudent : Along Prudent bar actions)
    (hsaving : ∀ action ∈ actions, action.Saving) (htab : tab ∈ bar.tabs)
    (hdisagrees : ¬ tab.StateAgrees) :
    ∃ tab' ∈ (bar.run actions).tabs, tab'.id = tab.id ∧ ¬ tab'.StateAgrees := by
  have hfits : Along (fun bar action => Prudent bar action ∧ action.Saving) bar actions :=
    hprudent.and (along_of_forall fun action haction _ => hsaving action haction)
  refine exists_holds_run ?_ ?_ hbar hfits htab hdisagrees
  · exact fun hfit hbecomes hbefore => hbecomes.stays_disagreeing hfit.2 hfit.1 hbefore
  · intro bar action tab hfit hremoves
    cases action <;> first | exact hfit.2 | exact hremoves

/-- Nor does what other writers store, as long as the save runs. -/
theorem exists_disagreeing_of_written (hbar : bar.Numbered)
    (hwritten : ∀ action ∈ actions, ∃ path content encoding write,
      action = .externalWrite path content encoding write)
    (htab : tab ∈ bar.tabs) (hoverruled : tab.Overruled) (hdisagrees : ¬ tab.StateAgrees) :
    ∃ tab' ∈ (bar.run actions).tabs, tab'.id = tab.id ∧ ¬ tab'.StateAgrees := by
  have hfits : Along (fun _ action => ∃ path content encoding write,
      action = .externalWrite path content encoding write) bar actions :=
    along_of_forall fun action haction _ => hwritten action haction
  have hkept := exists_holds_run (p := fun tab => tab.Overruled ∧ ¬ tab.StateAgrees)
    ?_ ?_ hbar hfits htab ⟨hoverruled, hdisagrees⟩
  · obtain ⟨tab', htab', hid, -, hstays⟩ := hkept
    exact ⟨tab', htab', hid, hstays⟩
  · rintro bar _ tab tab' ⟨path, content, encoding, write, rfl⟩ hbecomes ⟨hbefore, hdisagrees⟩
    obtain ⟨hstill, hstays⟩ := hbecomes.stays_overruled hbefore
    exact ⟨hstill, hstays hdisagrees⟩
  · rintro bar _ tab ⟨path, content, encoding, write, rfl⟩ hremoves
    exact hremoves

end TabBar

end Workbench
