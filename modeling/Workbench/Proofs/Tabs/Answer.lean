import Workbench.Tab.Bar

/-! # What becomes of a single tab

Edits, answers and the stores of other writers change one tab. For each of them
a relation lists what it can make of the tab, with everything that is known in
each case, so that no other proof has to look into their definitions. -/

namespace Workbench

namespace Tab

variable {tab tab' : Tab}

/-! ## Answers to refreshes -/

/-- What the answer to a refresh makes of the tab that it is for. -/
inductive Refreshed (tab : Tab) (request : RequestId) : RefreshResult → Tab → Prop
  /-- The tab does not wait for this answer. -/
  | dropped (result : RefreshResult)
      (hother : tab.pendingRefresh.map (·.request) ≠ some request) :
      Refreshed tab request result tab
  /-- The content has changed since the refresh was started. -/
  | outdated (result : RefreshResult) {generation : Nat}
      (hpending : tab.pendingRefresh = some { request, generation })
      (hedited : tab.generation ≠ generation) :
      Refreshed tab request result { tab with pendingRefresh := none }
  /-- The tab holds what is stored. -/
  | confirmed (content : FileContent)
      (hpending : tab.pendingRefresh = some { request, generation := tab.generation })
      (hetag : tab.etag = some content.etag) (hstate : tab.state ≠ .conflict .pathNotFound) :
      Refreshed tab request (.fetched content) { tab with pendingRefresh := none }
  /-- The missing file is back as the tab holds it. -/
  | returned (content : FileContent)
      (hpending : tab.pendingRefresh = some { request, generation := tab.generation })
      (hetag : tab.etag = some content.etag) (hstate : tab.state = .conflict .pathNotFound) :
      Refreshed tab request (.fetched content)
        { tab with pendingRefresh := none, state := tab.settledState }
  /-- Another version is stored, but the tab holds unsaved changes. -/
  | contested (content : FileContent)
      (hpending : tab.pendingRefresh = some { request, generation := tab.generation })
      (hetag : tab.etag ≠ some content.etag) (hunsaved : tab.unsaved = true) :
      Refreshed tab request (.fetched content)
        { tab with pendingRefresh := none, state := .conflict .contentChanged }
  /-- The tab takes the other version that is stored. -/
  | adopted (content : FileContent)
      (hpending : tab.pendingRefresh = some { request, generation := tab.generation })
      (hetag : tab.etag ≠ some content.etag) (hunsaved : tab.unsaved = false) :
      Refreshed tab request (.fetched content)
        { tab.adopt content with pendingRefresh := none }
  /-- Nothing is stored any more. -/
  | missing (hpending : tab.pendingRefresh = some { request, generation := tab.generation }) :
      Refreshed tab request .notFound
        { tab with pendingRefresh := none, state := .conflict .pathNotFound }
  | failed (message : String)
      (hpending : tab.pendingRefresh = some { request, generation := tab.generation }) :
      Refreshed tab request (.failed message) { tab with pendingRefresh := none }

/-- The answer that is waited for is found by its number. -/
theorem awaited?_eq_some {pending : Option PendingRequest} {request : RequestId}
    {awaited : PendingRequest} (h : awaited? pending request = some awaited) :
    pending = some { request, generation := awaited.generation } := by
  obtain ⟨hpending, hrequest⟩ := Option.filter_eq_some_iff.mp h
  rw [hpending, ← beq_iff_eq.mp hrequest]

theorem awaited?_eq_none {pending : Option PendingRequest} {request : RequestId}
    (h : awaited? pending request = none) : pending.map (·.request) ≠ some request := by
  intro hsome
  obtain ⟨other, rfl, hrequest⟩ := Option.map_eq_some_iff.mp hsome
  simp [awaited?, Option.filter, hrequest] at h

theorem request_of_pending {pending : Option PendingRequest} {request : RequestId}
    {generation : Nat} (h : pending = some { request, generation }) :
    pending.map (·.request) = some request := by
  rw [h, Option.map_some]

theorem refreshed_applyRefresh (tab : Tab) (request : RequestId) (result : RefreshResult)
    (index : Nat) : tab.Refreshed request result (tab.applyRefresh request result index).2 := by
  unfold applyRefresh
  split
  next hnone => exact .dropped result (awaited?_eq_none hnone)
  next pending hsome =>
    have hpending := awaited?_eq_some hsome
    dsimp only
    split
    next hedited => exact .outdated result hpending hedited
    next hsame =>
      rw [← Decidable.not_not.mp hsame] at hpending
      cases result with
      | fetched content =>
          dsimp only
          unfold compare
          split
          next hetag =>
            split
            next hstate => exact .returned content hpending hetag hstate
            next hstate => exact .confirmed content hpending hetag hstate
          next hetag =>
            split
            next hunsaved => exact .contested content hpending hetag hunsaved
            next hsaved => exact .adopted content hpending hetag (by simpa using hsaved)
      | notFound => exact .missing hpending
      | failed message => exact .failed message hpending

/-! ## Answers to saves -/

/-- What the answer to a save makes of the tab that it is for. -/
inductive SaveAnswered (tab : Tab) (request : RequestId) : SaveResult → Tab → Prop
  /-- The tab does not wait for this answer. -/
  | dropped (result : SaveResult) (hother : tab.pendingSave.map (·.request) ≠ some request) :
      SaveAnswered tab request result tab
  /-- What the tab holds is stored. -/
  | stored (write : WriteResult)
      (hpending : tab.pendingSave = some { request, generation := tab.generation }) :
      SaveAnswered tab request (.written write)
        { tab with
          pendingSave := none
          file := tab.file.withWrite write
          etag := some write.etag
          overwriteOnSave := false
          unsaved := false
          state := .saved }
  /-- What the tab held before it was edited again is stored. -/
  | storedOlder (write : WriteResult) {generation : Nat}
      (hpending : tab.pendingSave = some { request, generation })
      (hedited : tab.generation ≠ generation) :
      SaveAnswered tab request (.written write)
        { tab with
          pendingSave := none
          file := tab.file.withWrite write
          etag := some write.etag
          overwriteOnSave := false
          state := .dirty }
  /-- Another version is stored. -/
  | refused {generation : Nat} (hpending : tab.pendingSave = some { request, generation }) :
      SaveAnswered tab request .versionMismatch
        { tab with pendingSave := none, state := .conflict .contentChanged }
  | failed (message : String) {generation : Nat}
      (hpending : tab.pendingSave = some { request, generation }) :
      SaveAnswered tab request (.failed message) { tab with pendingSave := none, state := .dirty }

theorem saveAnswered_applySave (tab : Tab) (request : RequestId) (result : SaveResult)
    (index : Nat) : tab.SaveAnswered request result (tab.applySave request result index).2 := by
  unfold applySave
  split
  next hnone => exact .dropped result (awaited?_eq_none hnone)
  next pending hsome =>
    have hpending := awaited?_eq_some hsome
    cases result with
    | written write =>
        dsimp only
        by_cases hedited : tab.generation = pending.generation
        · have hclean : (tab.generation != pending.generation) = false := by simpa using hedited
          rw [hclean]
          rw [← hedited] at hpending
          exact .stored write hpending
        · have hdirty : (tab.generation != pending.generation) = true := by simpa using hedited
          rw [hdirty]
          exact .storedOlder write hpending hedited
    | versionMismatch => exact .refused hpending
    | failed message => exact .failed message hpending

/-! ## Edits and the stores of other writers -/

/-- What an edit makes of the tab that it is for. -/
inductive Edited (tab : Tab) (content : String) (time : Nat) : Tab → Prop
  | same (hcontent : tab.content = content) : Edited tab content time tab
  | changed (hwritable : tab.file.readOnly = false) (hcontent : tab.content ≠ content) :
      Edited tab content time
        { tab with
          content
          unsaved := true
          generation := tab.generation + 1
          lastEdit := some time
          state := if tab.state = .clean ∨ tab.state = .saved then .dirty else tab.state }

/-- What another writer's store makes of the tab at its path. -/
inductive WrittenOver (tab : Tab) (content : String) (encoding : Encoding) (write : WriteResult) :
    Tab → Prop
  | same (hetag : tab.etag = some write.etag) : WrittenOver tab content encoding write tab
  | contested (hetag : tab.etag ≠ some write.etag)
      (hbusy : tab.unsaved = true ∨ tab.pendingSave.isSome = true) :
      WrittenOver tab content encoding write
        { tab with state := .conflict .contentChanged, saveQueued := false }
  | adopted (hetag : tab.etag ≠ some write.etag) (hunsaved : tab.unsaved = false)
      (hidle : tab.pendingSave = none) :
      WrittenOver tab content encoding write
        { tab with
          file := tab.file.withWrite write
          content, encoding
          etag := some write.etag
          state := .clean
          overwriteOnSave := false
          generation := tab.generation + 1 }

/-! ## Numbers and paths stay -/

theorem Refreshed.id_eq {request : RequestId} {result : RefreshResult}
    (h : tab.Refreshed request result tab') : tab'.id = tab.id := by
  cases h <;> rfl

theorem Refreshed.path_eq {request : RequestId} {result : RefreshResult}
    (h : tab.Refreshed request result tab') : tab'.path = tab.path := by
  cases h <;> rfl

theorem SaveAnswered.id_eq {request : RequestId} {result : SaveResult}
    (h : tab.SaveAnswered request result tab') : tab'.id = tab.id := by
  cases h <;> rfl

theorem SaveAnswered.path_eq {request : RequestId} {result : SaveResult}
    (h : tab.SaveAnswered request result tab') : tab'.path = tab.path := by
  cases h <;> rfl

theorem Edited.id_eq {content : String} {time : Nat} (h : tab.Edited content time tab') :
    tab'.id = tab.id := by
  cases h <;> rfl

theorem Edited.path_eq {content : String} {time : Nat} (h : tab.Edited content time tab') :
    tab'.path = tab.path := by
  cases h <;> rfl

theorem WrittenOver.id_eq {content : String} {encoding : Encoding} {write : WriteResult}
    (h : tab.WrittenOver content encoding write tab') : tab'.id = tab.id := by
  cases h <;> rfl

theorem WrittenOver.path_eq {content : String} {encoding : Encoding} {write : WriteResult}
    (h : tab.WrittenOver content encoding write tab') : tab'.path = tab.path := by
  cases h <;> rfl

end Tab

namespace TabBar

variable {tab tab' : Tab} {outcome : TabOutcome}

theorem edited_of_editTab {content : String} {time : Nat}
    (h : editTab content time tab = .ok (outcome, tab')) : tab.Edited content time tab' := by
  unfold editTab at h
  split at h
  next => simp at h
  next hwritable =>
    split at h
    next hcontent =>
      obtain rfl := congrArg Prod.snd (Except.ok.inj h)
      exact .same hcontent
    next hcontent =>
      obtain rfl := congrArg Prod.snd (Except.ok.inj h)
      exact .changed (by simpa using hwritable) hcontent

/-- A save is started for a tab that is neither in conflict nor read-only, and
changes its state, its queue and its pending save only. -/
theorem startSave_eq_ok {request : RequestId} (h : startSave request tab = .ok (outcome, tab')) :
    tab.state.isConflict = false ∧ tab.file.readOnly = false ∧
      tab' = { tab with
        state := .saving
        saveQueued := false
        pendingSave := some { request, generation := tab.generation } } := by
  unfold startSave at h
  split at h
  next => simp at h
  next hstate =>
    have hconflict : tab.state.isConflict = false := SaveState.isConflict_eq_false hstate
    split at h
    · simp at h
    next hwritable =>
      simp only [Except.ok.injEq, Prod.mk.injEq] at h
      exact ⟨hconflict, by simpa using hwritable, h.2.symm⟩

/-- The save of a tab that is neither in conflict nor read-only is started. -/
theorem startSave_of_calm {request : RequestId} (hcalm : tab.state.isConflict = false)
    (hwritable : tab.file.readOnly = false) :
    startSave request tab = .ok (.updated,
      { tab with
        state := .saving
        saveQueued := false
        pendingSave := some { request, generation := tab.generation } }) := by
  unfold startSave
  split
  next reason hstate =>
    rw [hstate] at hcalm
    cases hcalm
  next =>
    rw [hwritable]
    rfl

theorem isOk_startSave {request : RequestId} (hcalm : tab.state.isConflict = false)
    (hwritable : tab.file.readOnly = false) : (startSave request tab).isOk = true := by
  rw [startSave_of_calm hcalm hwritable]
  rfl

theorem writtenOver_overwrittenBy (content : String) (encoding : Encoding) (write : WriteResult)
    (index : Nat) (tab : Tab) :
    tab.WrittenOver content encoding write
      (overwrittenBy content encoding write index tab).2 := by
  unfold overwrittenBy
  split
  next hetag => exact .same hetag
  next hetag =>
    split
    next hbusy => exact .contested hetag (by simpa using hbusy)
    next hidle =>
      simp only [Bool.or_eq_true, not_or, Bool.not_eq_true, Option.isSome_eq_false_iff,
        Option.isNone_iff_eq_none] at hidle
      exact .adopted hetag hidle.1 hidle.2

end TabBar

end Workbench
