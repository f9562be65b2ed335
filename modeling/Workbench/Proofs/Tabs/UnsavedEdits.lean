import Mathlib.Data.List.Induction
import Workbench.Proofs.Tabs.Invariants

/-! # Unsaved edits

Changes that were not saved are not lost silently. What becomes of them is read
off one transition, except for the answer of a save: it ends them only if the
content is still the one that was sent. A save remembers the edit count of its
start, so this rests on an invariant of whole runs: as long as the count is the
same, so is the content. -/

namespace Workbench

namespace Tab

/-- The edit count does not fall, and while it stays so do content and
encoding. -/
structure EditsCounted (tab tab' : Tab) : Prop where
  le : tab.generation ≤ tab'.generation
  content : tab'.generation = tab.generation → tab'.content = tab.content
  encoding : tab'.generation = tab.generation → tab'.encoding = tab.encoding

namespace EditsCounted

variable {tab tab' tab'' : Tab}

theorem of_same (hgeneration : tab'.generation = tab.generation)
    (hcontent : tab'.content = tab.content) (hencoding : tab'.encoding = tab.encoding) :
    tab.EditsCounted tab' where
  le := Nat.le_of_eq hgeneration.symm
  content _ := hcontent
  encoding _ := hencoding

theorem refl (tab : Tab) : tab.EditsCounted tab := of_same rfl rfl rfl

theorem of_succ (h : tab'.generation = tab.generation + 1) : tab.EditsCounted tab' where
  le := by omega
  content := by omega
  encoding := by omega

theorem trans (h : tab.EditsCounted tab') (h' : tab'.EditsCounted tab'') :
    tab.EditsCounted tab'' where
  le := Nat.le_trans h.le h'.le
  content heq := by
    -- A count that is the same at both ends did not move in between.
    have hle := h.le
    have hle' := h'.le
    rw [h'.content (by omega), h.content (by omega)]
  encoding heq := by
    have hle := h.le
    have hle' := h'.le
    rw [h'.encoding (by omega), h.encoding (by omega)]

theorem of_edited {content : String} {time : Nat} (h : tab.Edited content time tab') :
    tab.EditsCounted tab' := by
  cases h with
  | same => exact refl tab
  | changed => exact of_succ rfl

theorem of_refreshed {request : RequestId} {result : RefreshResult}
    (h : tab.Refreshed request result tab') : tab.EditsCounted tab' := by
  cases h with
  | adopted => exact of_succ rfl
  | _ => exact of_same rfl rfl rfl

theorem of_saveAnswered {request : RequestId} {result : SaveResult}
    (h : tab.SaveAnswered request result tab') : tab.EditsCounted tab' := by
  cases h <;> exact of_same rfl rfl rfl

theorem of_writtenOver {content : String} {encoding : Encoding} {write : WriteResult}
    (h : tab.WrittenOver content encoding write tab') : tab.EditsCounted tab' := by
  cases h with
  | same => exact refl tab
  | contested => exact of_same rfl rfl rfl
  | adopted => exact of_succ rfl

end EditsCounted

end Tab

namespace TabBar

variable {bar : TabBar} {action : TabAction} {tab tab' : Tab}

theorem Becomes.editsCounted (h : Becomes bar action tab tab') : tab.EditsCounted tab' := by
  cases h with
  | reopened => exact .of_succ rfl
  | edited _ hedited => exact .of_edited hedited
  | moved => exact .of_same rfl rfl rfl
  | relocated => exact .of_same rfl rfl rfl
  | refreshStarted => exact .of_same rfl rfl rfl
  | refreshed hrefreshed => exact .of_refreshed hrefreshed
  | queued => exact .of_same rfl rfl rfl
  | unqueued => exact .of_same rfl rfl rfl
  | saveStarted => exact .of_same rfl rfl rfl
  | saved hanswered => exact .of_saveAnswered hanswered
  | accepted => exact .of_succ rfl
  | keptLocal => exact .of_same rfl rfl rfl
  | storedAs => exact .of_succ rfl
  | overwritten hwritten => exact .of_writtenOver hwritten

/-- A tab that stays open counts its edits. -/
theorem editsCounted_run (hbar : bar.Numbered) {actions : List TabAction} (htab : tab ∈ bar.tabs)
    (htab' : tab' ∈ (bar.run actions).tabs) (hid : tab'.id = tab.id) : tab.EditsCounted tab' := by
  have hfits : Along (fun _ _ => True) bar actions := along_of_forall fun _ _ _ => trivial
  refine holds_run (p := tab.EditsCounted) ?_ hbar hfits htab (.refl tab) htab' hid
  exact fun _ hbecomes hcounted => hcounted.trans hbecomes.editsCounted

/-! ## Decisions about a tab -/

/-- The action replaces the content of the tab by hand. -/
def Edits (bar : TabBar) (tab : Tab) : TabAction → Prop
  | .edit index _ _ => bar.tabs[index]? = some tab
  | _ => False

/-- The action drops the edits of the tab for the stored version. -/
def Accepts (bar : TabBar) (tab : Tab) : TabAction → Prop
  | .acceptServer index _ => bar.tabs[index]? = some tab
  | _ => False

/-- The action tells that the edits of the tab were stored at another path. -/
def StoresAs (bar : TabBar) (tab : Tab) : TabAction → Prop
  | .savedAs index _ _ => bar.tabs[index]? = some tab
  | _ => False

/-- The action answers the running save of the tab, which was stored. -/
def Stores (tab : Tab) : TabAction → Prop
  | .saveResolved id request (.written _) =>
      id = tab.id ∧ tab.pendingSave.map (·.request) = some request
  | _ => False

/-- Unsaved content changes by an edit or by taking the stored version only. -/
theorem Becomes.content_eq (h : Becomes bar action tab tab') (hunsaved : tab.unsaved = true) :
    Edits bar tab action ∨ Accepts bar tab action ∨
      (tab'.content = tab.content ∧ tab'.encoding = tab.encoding) := by
  cases h with
  | reopened content encoding etag hpath hsaved => simp [hunsaved] at hsaved
  | edited htab => exact .inl htab
  | accepted content htab => exact .inr (.inl htab)
  | refreshed hrefreshed =>
      cases hrefreshed with
      | adopted content hpending hetag hsaved => simp [hunsaved] at hsaved
      | _ => exact .inr (.inr ⟨rfl, rfl⟩)
  | saved hanswered => cases hanswered <;> exact .inr (.inr ⟨rfl, rfl⟩)
  | overwritten hwritten =>
      cases hwritten with
      | adopted hetag hsaved => simp [hunsaved] at hsaved
      | _ => exact .inr (.inr ⟨rfl, rfl⟩)
  | _ => exact .inr (.inr ⟨rfl, rfl⟩)

/-- Unsaved changes end by a decision, or by the answer of a save that was
started at the present edit count. -/
theorem Becomes.unsaved_eq_false (h : Becomes bar action tab tab') (hunsaved : tab.unsaved = true)
    (hsaved : tab'.unsaved = false) :
    Accepts bar tab action ∨ StoresAs bar tab action ∨
      (Stores tab action ∧
        ∃ pending, tab.pendingSave = some pending ∧ tab.generation = pending.generation) := by
  have hkept : tab.unsaved ≠ false := by simp [hunsaved]
  cases h with
  | reopened content encoding etag hpath hidle => exact absurd hidle hkept
  | edited htab hedited =>
      cases hedited with
      | same => exact absurd hsaved hkept
      | changed => cases hsaved
  | accepted content htab => exact .inl htab
  | storedAs newPath write htab => exact .inr (.inl htab)
  | refreshed hrefreshed =>
      cases hrefreshed with
      | adopted content hpending hetag hidle => exact absurd hidle hkept
      | _ => exact absurd hsaved hkept
  | saved hanswered =>
      cases hanswered with
      | stored write hpending =>
          exact .inr (.inr ⟨⟨rfl, Tab.request_of_pending hpending⟩, _, hpending, rfl⟩)
      | _ => exact absurd hsaved hkept
  | overwritten hwritten =>
      cases hwritten with
      | adopted hetag hidle => exact absurd hidle hkept
      | _ => exact absurd hsaved hkept
  | _ => exact absurd hsaved hkept

/-! ## The start of a running save -/

/-- The request of a save that the action starts for the tab with a number, and
the tab as it was. -/
def saveStart? (bar : TabBar) (id : TabId) : TabAction → Option (RequestId × Tab)
  | .saveStarted index request =>
      match bar.tabs[index]? with
      | some tab =>
          if tab.id = id ∧ (startSave request tab).isOk then some (request, tab) else none
      | none => none
  | _ => none

/-- The last save that a run from the empty bar has started for the tab with a
number: its request, and the tab as it was. -/
def lastSave? (id : TabId) (history : List TabAction) : Option (RequestId × Tab) :=
  (history.foldl
    (fun (state : TabBar × Option (RequestId × Tab)) action =>
      (state.1.next action, state.1.saveStart? id action <|> state.2))
    (empty, none)).2

theorem lastSave?_concat (id : TabId) (history : List TabAction) (action : TabAction) :
    lastSave? id (history ++ [action]) =
      ((empty.run history).saveStart? id action <|> lastSave? id history) := by
  let step := fun (state : TabBar × Option (RequestId × Tab)) (action : TabAction) =>
    (state.1.next action, state.1.saveStart? id action <|> state.2)
  -- The first component of the fold is the bar after the run.
  have hbar : ∀ (actions : List TabAction) (state : TabBar × Option (RequestId × Tab)),
      (actions.foldl step state).1 = state.1.run actions := by
    intro actions
    induction actions with
    | nil => exact fun _ => rfl
    | cons first rest ih => exact fun state => ih (step state first)
  unfold lastSave?
  rw [List.foldl_append, List.foldl_cons, List.foldl_nil, ← hbar history (empty, none)]

theorem saveStart?_eq_some {id : TabId} {request : RequestId} {start : Tab}
    (h : bar.saveStart? id action = some (request, start)) :
    ∃ index outcome tab', action = .saveStarted index request ∧
      bar.tabs[index]? = some start ∧ start.id = id ∧
      startSave request start = .ok (outcome, tab') := by
  unfold saveStart? at h
  split at h
  next index request' =>
    split at h
    next tab htab =>
      split at h
      next hstarts =>
        obtain ⟨rfl, rfl⟩ := Prod.mk.inj (Option.some.inj h)
        cases hstart : startSave request' tab with
        | error error => simp [hstart, Except.isOk, Except.toBool] at hstarts
        | ok result => exact ⟨index, result.1, result.2, rfl, htab, hstarts.1, rfl⟩
      next => simp at h
    next => simp at h
  next => simp at h

/-- A save that is started is the running save of its tab. -/
theorem eq_of_saveStart?_eq_some (hbar : bar.Numbered) {id : TabId} {request : RequestId}
    {start : Tab} (h : bar.saveStart? id action = some (request, start))
    (htab' : tab' ∈ (bar.next action).tabs) (hid : tab'.id = id) :
    tab' = { start with
      state := .saving
      saveQueued := false
      pendingSave := some { request, generation := start.generation } } := by
  obtain ⟨index, outcome, started, rfl, hstart, rfl, hok⟩ := saveStart?_eq_some h
  have hnext : bar.next (.saveStarted index request) =
      { bar with tabs := bar.tabs.set index started } := by
    have happly : bar.apply (.saveStarted index request) =
        .ok (outcome, { bar with tabs := bar.tabs.set index started }) := by
      simp [apply, act, hstart, hok]
    exact next_of_ok happly
  have hmem : started ∈ (bar.next (.saveStarted index request)).tabs := by
    rw [hnext]
    exact mem_set_self hstart
  -- Numbers are distinct, so no other tab has the number.
  have hstarted := (startSave_eq_ok hok).2.2
  have hsame : tab'.id = started.id := by rw [hid, hstarted]
  rw [eq_of_id_eq (hbar.next _).nodup htab' hmem hsame, hstarted]

/-- The running save of a tab stays what it is unless it ends or another one is
started. -/
theorem Becomes.pendingSave_eq (h : Becomes bar action tab tab')
    (hstart : bar.saveStart? tab.id action = none) :
    tab'.pendingSave = none ∨ tab'.pendingSave = tab.pendingSave := by
  cases h with
  | edited htab hedited => cases hedited <;> exact .inr rfl
  | refreshed hrefreshed => cases hrefreshed <;> exact .inr rfl
  | saveStarted request htab hcalm hwritable =>
      have hstarts : (startSave request tab).isOk = true := isOk_startSave hcalm hwritable
      simp [saveStart?, htab, hstarts] at hstart
  | saved hanswered =>
      cases hanswered with
      | dropped => exact .inr rfl
      | _ => exact .inl rfl
  | overwritten hwritten => cases hwritten <;> exact .inr rfl
  | _ => exact .inr rfl

/-- The running save of a tab is the last one that was started for it, and
remembers the edit count of then. -/
theorem pendingSave_of_run (history : List TabAction) {pending : PendingRequest}
    (htab : tab ∈ (empty.run history).tabs) (hpending : tab.pendingSave = some pending) :
    ∃ start, lastSave? tab.id history = some (pending.request, start) ∧
      pending.generation = start.generation ∧ start.EditsCounted tab := by
  induction history using List.reverseRecOn generalizing tab with
  | nil => exact absurd htab List.not_mem_nil
  | append_singleton history action ih =>
      rw [run_append] at htab
      have hbar := numbered_run history
      rw [lastSave?_concat]
      -- Either the last action started the save, or it was running before.
      cases hstart : (empty.run history).saveStart? tab.id action with
      | some captured =>
          obtain ⟨request, start⟩ := captured
          have heq := eq_of_saveStart?_eq_some hbar hstart htab rfl
          rw [heq] at hpending
          obtain rfl := Option.some.inj hpending
          refine ⟨start, rfl, rfl, ?_⟩
          rw [heq]
          exact .of_same rfl rfl rfl
      | none =>
          have htransition := transition_next hbar.nodup action
          rcases htransition.origin hbar.nodup htab with
            hsame | ⟨old, hold, hbecomes⟩ | ⟨file, content, encoding, etag, -, -, rfl⟩
          · exact ih hsame hpending
          · rw [hbecomes.id_eq] at hstart
            rcases hbecomes.pendingSave_eq hstart with hnone | hsame
            · simp [hnone] at hpending
            · obtain ⟨start, hlast, hgeneration, hcounted⟩ := ih hold (hsame ▸ hpending)
              refine ⟨start, ?_, hgeneration, hcounted.trans hbecomes.editsCounted⟩
              rw [hbecomes.id_eq]
              exact hlast
          · simp [Tab.opened] at hpending

/-! ## The fate of unsaved edits -/

/-- What one more action after a run can do to the unsaved edits of a tab. -/
structure EditsRespected (history : List TabAction) (action : TabAction) (tab : Tab) : Prop where
  /-- Content and encoding change by an edit or by taking the stored version. -/
  content : ∀ tab' ∈ ((empty.run history).next action).tabs, tab'.id = tab.id →
    Edits (empty.run history) tab action ∨ Accepts (empty.run history) tab action ∨
      (tab'.content = tab.content ∧ tab'.encoding = tab.encoding)
  /-- The edits end by a decision, or when exactly what the running save was
  started with is stored. -/
  unsaved : ∀ tab' ∈ ((empty.run history).next action).tabs, tab'.id = tab.id →
    tab'.unsaved = false →
      Accepts (empty.run history) tab action ∨ StoresAs (empty.run history) tab action ∨
        (Stores tab action ∧ ∃ request start,
          tab.pendingSave.map (·.request) = some request ∧
          lastSave? tab.id history = some (request, start) ∧
          tab.content = start.content ∧ tab.encoding = start.encoding)
  /-- The tab is closed on request, or because another one moves to its path. -/
  closed : tab.id ∉ ((empty.run history).next action).ids →
    Removes (empty.run history) tab action
  /-- Storing another tab's edits at the path of this one does not close it. -/
  savedAs : ∀ index newPath write, action = .savedAs index newPath write →
    tab.id ∈ ((empty.run history).next action).ids

/-- Unsaved edits are never lost silently, whatever was done before and
whatever is done next. -/
theorem unsaved_edits_respected (history : List TabAction) (action : TabAction)
    (htab : tab ∈ (empty.run history).tabs) (hunsaved : tab.unsaved = true) :
    EditsRespected history action tab := by
  have hbar := numbered_run history
  have htransition := transition_next hbar.nodup action
  constructor
  case content =>
    intro tab' htab' hid
    rcases htransition.successor hbar htab htab' hid with rfl | hbecomes
    · exact .inr (.inr ⟨rfl, rfl⟩)
    · exact hbecomes.content_eq hunsaved
  case unsaved =>
    intro tab' htab' hid hsaved
    rcases htransition.successor hbar htab htab' hid with rfl | hbecomes
    · rw [hunsaved] at hsaved
      cases hsaved
    rcases hbecomes.unsaved_eq_false hunsaved hsaved with
      haccepts | hstoresAs | ⟨hstores, pending, hpending, hgeneration⟩
    · exact .inl haccepts
    · exact .inr (.inl hstoresAs)
    · -- The edit count is that of the start of the save, and so is the content.
      obtain ⟨start, hlast, hstart, hcounted⟩ := pendingSave_of_run history htab hpending
      have hsame : tab.generation = start.generation := hgeneration.trans hstart
      refine .inr (.inr ⟨hstores, pending.request, start, ?_, hlast, hcounted.content hsame,
        hcounted.encoding hsame⟩)
      rw [hpending, Option.map_some]
  case closed => exact htransition.removes hbar.nodup htab
  case savedAs =>
    rintro index newPath write rfl
    by_contra hgone
    have hsaved : tab.unsaved = false := (htransition.removes hbar.nodup htab hgone).2
    rw [hunsaved] at hsaved
    cases hsaved

/-- A draft that is being saved. -/
def savingDraft : List TabAction :=
  [.openTab (.ofPath "/notes/plan") "one" .utf8 (some "v1"), .edit 0 "two" 5, .saveStarted 0 1]

theorem savingDraft_respected : ∃ tab ∈ (empty.run savingDraft).tabs, tab.unsaved = true ∧
    EditsRespected savingDraft
      (.saveResolved 1 1 (.written ⟨"/notes/plan", 3, some 7, "v2"⟩)) tab := by
  have hlt : 0 < (empty.run savingDraft).tabs.length := by decide
  let tab := (empty.run savingDraft).tabs[0]
  have htab : tab ∈ (empty.run savingDraft).tabs := List.getElem_mem _
  have hunsaved : tab.unsaved = true := rfl
  exact ⟨tab, htab, hunsaved, unsaved_edits_respected savingDraft _ htab hunsaved⟩

end TabBar

end Workbench
