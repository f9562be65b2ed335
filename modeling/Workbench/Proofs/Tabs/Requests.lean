import Workbench.Proofs.Tabs.UnsavedEdits

/-! # Requests of a tab

A tab knows the requests that run for it by their numbers and by the edit count
of their start. This module tells what each action does to them: which actions
start or answer one, and what else of the tab stays as long as it is known to
wait. -/

namespace Workbench

namespace TabAction

/-- The request that the action starts. -/
def started? : TabAction → Option RequestId
  | .refreshStarted _ request | .saveStarted _ request => some request
  | _ => none

/-- The request whose answer the action applies. -/
def applied? : TabAction → Option RequestId
  | .refreshResolved _ request _ | .saveResolved _ request _ => some request
  | _ => none

/-- The action neither starts nor answers a request, and leaves the queue of
saves to the operations that look after it. -/
def Silent : TabAction → Prop
  | .refreshStarted _ _ | .saveStarted _ _ => False
  | .refreshResolved _ _ _ | .saveResolved _ _ _ => False
  | .queueSave _ | .cancelQueuedSave _ => False
  | _ => True

/-- The action points tabs at other paths. -/
def Repoints : TabAction → Prop
  | .updatePath _ _ | .updatePathsUnder _ _ => True
  | _ => False

/-- The action leaves requests, the queue of saves and paths alone. -/
def Plain (action : TabAction) : Prop := action.Silent ∧ ¬ action.Repoints

theorem Silent.started?_eq {action : TabAction} (h : action.Silent) : action.started? = none := by
  cases action <;> first | rfl | exact h.elim

theorem Silent.applied?_eq {action : TabAction} (h : action.Silent) : action.applied? = none := by
  cases action <;> first | rfl | exact h.elim

end TabAction

namespace Tab

variable {tab tab' tab'' : Tab}

/-- The action points the tab at another path, if it stays open. -/
def RepointedBy (tab : Tab) : TabAction → Prop
  | .updatePath oldPath _ => tab.path = oldPath
  | .updatePathsUnder oldFolder _ => Path.isUnder tab.path oldFolder = true
  | _ => False

theorem RepointedBy.repoints {action : TabAction} (h : tab.RepointedBy action) :
    action.Repoints := by
  cases action <;> first | exact h.elim | trivial

/-- As long as the edit count stays, so does everything that a save sends and a
refresh compares. -/
structure Steady (tab tab' : Tab) : Prop extends tab.EditsCounted tab' where
  path : tab'.generation = tab.generation → tab'.path = tab.path
  etag : tab'.generation = tab.generation → tab'.etag = tab.etag

/-- The tabs hold the same text of the same file, read or written at the same
version. -/
structure Agrees (tab tab' : Tab) : Prop where
  path : tab'.path = tab.path
  content : tab'.content = tab.content
  encoding : tab'.encoding = tab.encoding
  etag : tab'.etag = tab.etag

namespace Steady

theorem agrees (h : tab.Steady tab') (hgeneration : tab'.generation = tab.generation) :
    tab.Agrees tab' :=
  ⟨h.path hgeneration, h.content hgeneration, h.encoding hgeneration, h.etag hgeneration⟩

theorem of_same (hgeneration : tab'.generation = tab.generation) (hpath : tab'.path = tab.path)
    (hcontent : tab'.content = tab.content) (hencoding : tab'.encoding = tab.encoding)
    (hetag : tab'.etag = tab.etag) : tab.Steady tab' where
  toEditsCounted := .of_same hgeneration hcontent hencoding
  path _ := hpath
  etag _ := hetag

theorem refl (tab : Tab) : tab.Steady tab := of_same rfl rfl rfl rfl rfl

theorem of_succ (h : tab'.generation = tab.generation + 1) : tab.Steady tab' where
  toEditsCounted := .of_succ h
  path := by omega
  etag := by omega

theorem trans (h : tab.Steady tab') (h' : tab'.Steady tab'') : tab.Steady tab'' where
  toEditsCounted := h.toEditsCounted.trans h'.toEditsCounted
  path heq := by
    have hle := h.le
    have hle' := h'.le
    rw [h'.path (by omega), h.path (by omega)]
  etag heq := by
    have hle := h.le
    have hle' := h'.le
    rw [h'.etag (by omega), h.etag (by omega)]

end Steady

/-- The running requests of a tab stay what they are, except that a refresh may
be forgotten. -/
structure KeepsRequests (tab tab' : Tab) : Prop where
  id : tab'.id = tab.id
  pendingRefresh : tab'.pendingRefresh = none ∨ tab'.pendingRefresh = tab.pendingRefresh
  pendingSave : tab'.pendingSave = tab.pendingSave
  generation : tab.generation ≤ tab'.generation

end Tab

namespace TabBar

variable {bar : TabBar} {action : TabAction} {tab tab' other : Tab}

/-! ## What single actions do to requests -/

/-- An action that neither starts nor answers a request leaves the requests of a
tab alone. -/
theorem Becomes.keepsRequests (h : Becomes bar action tab tab') (hstarts : action.started? = none)
    (happlies : action.applied? = none) : tab.KeepsRequests tab' := by
  have hle := h.editsCounted.le
  cases h with
  | edited _ hedited => cases hedited <;> exact ⟨rfl, .inr rfl, rfl, hle⟩
  | moved => exact ⟨rfl, .inl rfl, rfl, hle⟩
  | relocated => exact ⟨rfl, .inl rfl, rfl, hle⟩
  | refreshStarted => cases hstarts
  | refreshed => cases happlies
  | saveStarted => cases hstarts
  | saved => cases happlies
  | storedAs => exact ⟨rfl, .inl rfl, rfl, hle⟩
  | overwritten hwritten => cases hwritten <;> exact ⟨rfl, .inr rfl, rfl, hle⟩
  | _ => exact ⟨rfl, .inr rfl, rfl, hle⟩

/-- An action leaves a tab steady, or points it at another path, which makes it
forget a running refresh, or ends its running save. -/
theorem Becomes.steady_or (h : Becomes bar action tab tab') :
    tab.Steady tab' ∨ (tab.RepointedBy action ∧ tab'.pendingRefresh = none) ∨
      (tab.pendingSave.isSome = true ∧ tab'.pendingSave = none) := by
  cases h with
  | reopened => exact .inl (.of_succ rfl)
  | edited _ hedited =>
      cases hedited with
      | same => exact .inl (.refl tab)
      | changed => exact .inl (.of_succ rfl)
  | moved => exact .inr (.inl ⟨rfl, rfl⟩)
  | relocated hpath =>
      refine .inr (.inl ⟨?_, rfl⟩)
      rw [Tab.RepointedBy, ← Path.isSome_rebase?, hpath, Option.isSome_some]
  | refreshed hrefreshed =>
      cases hrefreshed with
      | adopted => exact .inl (.of_succ rfl)
      | _ => exact .inl (.of_same rfl rfl rfl rfl rfl)
  | saved hanswered =>
      cases hanswered with
      | stored write hpending => exact .inr (.inr ⟨by rw [hpending]; rfl, rfl⟩)
      | storedOlder write hpending => exact .inr (.inr ⟨by rw [hpending]; rfl, rfl⟩)
      | _ => exact .inl (.of_same rfl rfl rfl rfl rfl)
  | accepted => exact .inl (.of_succ rfl)
  | storedAs => exact .inl (.of_succ rfl)
  | overwritten hwritten =>
      cases hwritten with
      | adopted => exact .inl (.of_succ rfl)
      | _ => exact .inl (.of_same rfl rfl rfl rfl rfl)
  | _ => exact .inl (.of_same rfl rfl rfl rfl rfl)

/-- A running refresh is the one that the action starts, or was running
before. -/
theorem Becomes.pendingRefresh_eq (h : Becomes bar action tab tab') {pending : PendingRequest}
    (hpending : tab'.pendingRefresh = some pending) :
    action.started? = some pending.request ∨ tab.pendingRefresh = some pending := by
  cases h with
  | edited _ hedited => cases hedited <;> exact .inr hpending
  | refreshStarted => exact .inl (by rw [← Option.some.inj hpending]; rfl)
  | refreshed hrefreshed =>
      cases hrefreshed with
      | dropped => exact .inr hpending
      | _ => cases hpending
  | moved => cases hpending
  | relocated => cases hpending
  | storedAs => cases hpending
  | saved hanswered => cases hanswered <;> exact .inr hpending
  | overwritten hwritten => cases hwritten <;> exact .inr hpending
  | _ => exact .inr hpending

/-- A running save is the one that the action starts, or was running before. -/
theorem Becomes.pendingSave_eq_some (h : Becomes bar action tab tab') {pending : PendingRequest}
    (hpending : tab'.pendingSave = some pending) :
    action.started? = some pending.request ∨ tab.pendingSave = some pending := by
  cases hstart : bar.saveStart? tab.id action with
  | none =>
      rcases h.pendingSave_eq hstart with hnone | hsame
      · rw [hnone] at hpending
        cases hpending
      · exact .inr (hsame ▸ hpending)
  | some started =>
    cases h with
    | saveStarted => exact .inl (by rw [← Option.some.inj hpending]; rfl)
    | _ => cases hstart

/-! ## Unsaved tabs are writable -/

/-- No tab that is read-only holds unsaved edits. -/
def Writable (bar : TabBar) : Prop :=
  ∀ tab ∈ bar.tabs, tab.unsaved = true → tab.file.readOnly = false

theorem Becomes.writable (h : Becomes bar action tab tab')
    (htab : tab.unsaved = true → tab.file.readOnly = false) (hunsaved : tab'.unsaved = true) :
    tab'.file.readOnly = false := by
  cases h with
  | reopened content encoding etag hpath hsaved => exact absurd hunsaved (by simp [hsaved])
  | edited _ hedited =>
      cases hedited with
      | same => exact htab hunsaved
      | changed hwritable => exact hwritable
  | refreshed hrefreshed =>
      cases hrefreshed with
      | adopted => cases hunsaved
      | _ => exact htab hunsaved
  | saved hanswered =>
      cases hanswered with
      | stored => cases hunsaved
      | _ => exact htab hunsaved
  | accepted => cases hunsaved
  | storedAs => cases hunsaved
  | overwritten hwritten =>
      cases hwritten with
      | adopted hetag hsaved => exact absurd hunsaved (by simp [hsaved])
      | _ => exact htab hunsaved
  | _ => exact htab hunsaved

theorem writable_empty : empty.Writable := fun _ htab => absurd htab List.not_mem_nil

theorem Writable.next (hbar : bar.Numbered) (h : bar.Writable) (action : TabAction) :
    (bar.next action).Writable := by
  refine forall_tabs_next hbar h ?_ ?_
  · exact fun tab _ tab' hbecomes htab hunsaved => hbecomes.writable htab hunsaved
  · exact fun _ _ _ _ _ _ => nofun

/-! ## The tab that a request is started for -/

/-- With distinct numbers, a changed tab takes the place of the former one and
the others stay. -/
theorem mem_set_cases (hnodup : bar.ids.Nodup) {index : Nat} (htab : bar.tabs[index]? = some tab)
    (hother : other ∈ bar.tabs.set index tab') :
    other = tab' ∨ (other ∈ bar.tabs ∧ other.id ≠ tab.id) := by
  obtain ⟨position, hposition⟩ := List.mem_iff_getElem?.mp hother
  by_cases heq : index = position
  · subst heq
    rw [List.getElem?_set_self (List.getElem?_eq_some_iff.mp htab).1] at hposition
    exact .inl (Option.some.inj hposition).symm
  · rw [List.getElem?_set_ne heq] at hposition
    refine .inr ⟨List.mem_of_getElem? hposition, ?_⟩
    intro hid
    exact heq (index_eq_of_id_eq hnodup htab hposition hid.symm)

theorem next_cancelQueuedSave {index : Nat} (htab : bar.tabs[index]? = some tab) :
    bar.next (.cancelQueuedSave index) =
      { bar with tabs := bar.tabs.set index { tab with saveQueued := false } } := by
  simp [next, apply, act, htab]

theorem apply_saveStarted {index : Nat} (htab : bar.tabs[index]? = some tab)
    (hcalm : tab.state.isConflict = false) (hwritable : tab.file.readOnly = false)
    (request : RequestId) :
    bar.apply (.saveStarted index request) =
      .ok (.updated,
        { bar with
          tabs := bar.tabs.set index
            { tab with
              state := .saving
              saveQueued := false
              pendingSave := some { request, generation := tab.generation } } }) := by
  simp only [apply, act, htab, startSave_of_calm hcalm hwritable]

end TabBar

end Workbench
