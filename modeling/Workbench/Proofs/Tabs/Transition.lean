import Workbench.Proofs.Tabs.Answer
import Workbench.Proofs.Tabs.Run

/-! # What one action can do

An action leaves the bar as it is, selects, adds, changes, moves or closes
tabs. `Transition` lists these possibilities with everything that is known in
each of them, so that a property of all runs needs a look at each of them only
once. Two relations tell the fate of a single tab: `Becomes`, what an action
can make of it, and `Removes`, when an action can close it. -/

namespace Workbench

namespace TabBar

variable {bar after : TabBar} {action : TabAction} {outcome : TabOutcome}

/-! ## The fate of a tab -/

/-- What an action can make of a tab that stays open, if it does not leave it as
it is. -/
inductive Becomes (bar : TabBar) : TabAction → Tab → Tab → Prop
  | reopened {tab : Tab} {file : FileInfo} (content : String) (encoding : Encoding)
      (etag : Option String) (hpath : tab.path = file.path) (hunsaved : tab.unsaved = false)
      (hidle : tab.pendingSave = none) :
      Becomes bar (.openTab file content encoding etag) tab
        { tab with
          file, content, encoding, etag
          state := .clean
          overwriteOnSave := false
          generation := tab.generation + 1 }
  | edited {index time : Nat} {content : String} {tab tab' : Tab}
      (htab : bar.tabs[index]? = some tab) (hedited : tab.Edited content time tab') :
      Becomes bar (.edit index content time) tab tab'
  | moved (tab : Tab) (newPath : String) :
      Becomes bar (.updatePath tab.path newPath) tab (tab.moveTo newPath)
  | relocated {tab : Tab} {oldFolder newFolder path : String}
      (hpath : Path.rebase? tab.path oldFolder newFolder = some path) :
      Becomes bar (.updatePathsUnder oldFolder newFolder) tab (tab.moveTo path)
  | refreshStarted {index : Nat} {tab : Tab} (request : RequestId)
      (htab : bar.tabs[index]? = some tab) :
      Becomes bar (.refreshStarted index request) tab
        { tab with pendingRefresh := some { request, generation := tab.generation } }
  | refreshed {tab tab' : Tab} {request : RequestId} {result : RefreshResult}
      (hrefreshed : tab.Refreshed request result tab') :
      Becomes bar (.refreshResolved tab.id request result) tab tab'
  | queued {index : Nat} {tab : Tab} (htab : bar.tabs[index]? = some tab) :
      Becomes bar (.queueSave index) tab { tab with saveQueued := true }
  | unqueued {index : Nat} {tab : Tab} (htab : bar.tabs[index]? = some tab) :
      Becomes bar (.cancelQueuedSave index) tab { tab with saveQueued := false }
  | saveStarted {index : Nat} {tab : Tab} (request : RequestId)
      (htab : bar.tabs[index]? = some tab) (hcalm : tab.state.isConflict = false)
      (hwritable : tab.file.readOnly = false) :
      Becomes bar (.saveStarted index request) tab
        { tab with
          state := .saving
          saveQueued := false
          pendingSave := some { request, generation := tab.generation } }
  | saved {tab tab' : Tab} {request : RequestId} {result : SaveResult}
      (hanswered : tab.SaveAnswered request result tab') :
      Becomes bar (.saveResolved tab.id request result) tab tab'
  | accepted {index : Nat} {tab : Tab} (content : FileContent)
      (htab : bar.tabs[index]? = some tab) (hconflict : tab.state.isConflict = true) :
      Becomes bar (.acceptServer index content) tab
        { tab.adopt content with saveQueued := false }
  | keptLocal {index : Nat} {tab : Tab} (htab : bar.tabs[index]? = some tab)
      (hconflict : tab.state.isConflict = true) :
      Becomes bar (.keepLocal index) tab
        { tab with state := tab.settledState, overwriteOnSave := true }
  | storedAs {index : Nat} {tab : Tab} (newPath : String) (write : WriteResult)
      (htab : bar.tabs[index]? = some tab) (hconflict : tab.state.isConflict = true) :
      Becomes bar (.savedAs index newPath write) tab (storeAt newPath write tab)
  | overwritten {index : Nat} {tab tab' : Tab} {content : String} {encoding : Encoding}
      {write : WriteResult} (hwritten : tab.WrittenOver content encoding write tab')
      (hfind : bar.find? tab.path = some index) (htab : bar.tabs[index]? = some tab) :
      Becomes bar (.externalWrite tab.path content encoding write) tab tab'

/-- When an action can close a tab: it asks for it, or points another tab at the
path of this one. Only a tab without unsaved changes makes room for a content
stored at another path. -/
def Removes (bar : TabBar) (tab : Tab) : TabAction → Prop
  | .close index => bar.tabs[index]? = some tab
  | .closeOthers index => bar.tabs[index]? ≠ some tab
  | .closeAll => True
  | .closeByPath path isFolder =>
      if isFolder then Path.isUnder tab.path path = true else tab.path = path
  | .updatePath oldPath newPath =>
      oldPath ≠ newPath ∧ bar.find? oldPath ≠ none ∧ tab.path = newPath
  | .updatePathsUnder oldFolder newFolder =>
      Path.rebase? tab.path oldFolder newFolder = none ∧
        ∃ other ∈ bar.tabs, Path.rebase? other.path oldFolder newFolder = some tab.path
  | .savedAs _ newPath _ => tab.path = newPath ∧ tab.unsaved = false
  | _ => False

/-- An action that can add a tab, and what the tab holds then. -/
inductive Opens : TabAction → FileInfo → String → Encoding → Option String → Prop
  | loaded (file : FileInfo) (content : String) (encoding : Encoding) (etag : Option String) :
      Opens (.openTab file content encoding etag) file content encoding etag
  | unloaded (file : FileInfo) : Opens (.openUnloaded file) file "" .utf8 none

theorem Becomes.id_eq {tab tab' : Tab} (h : Becomes bar action tab tab') :
    tab'.id = tab.id := by
  cases h with
  | edited htab hedited => exact hedited.id_eq
  | refreshed hrefreshed => exact hrefreshed.id_eq
  | saved hanswered => exact hanswered.id_eq
  | overwritten hwritten => exact hwritten.id_eq
  | _ => rfl

/-! ## The bar as a whole -/

/-- Everything an action can do to the bar. -/
inductive Transition (bar : TabBar) : TabAction → TabBar → Prop
  | same (action : TabAction) : Transition bar action bar
  | selected (action : TabAction) {index : Nat} (h : index < bar.tabs.length) :
      Transition bar action { bar with active := some index }
  | changed {action : TabAction} {index : Nat} {tab tab' : Tab} {active : Option Nat}
      (htab : bar.tabs[index]? = some tab) (hbecomes : Becomes bar action tab tab')
      (hpath : tab'.path = tab.path) (hactive : active = bar.active ∨ active = some index) :
      Transition bar action { bar with tabs := bar.tabs.set index tab', active }
  | opened {action : TabAction} {file : FileInfo} {content : String} {encoding : Encoding}
      {etag : Option String} {active : Option Nat} (hopens : Opens action file content encoding etag)
      (hfree : bar.find? file.path = none)
      (hactive : active = some bar.tabs.length ∨ active = (bar.active <|> some bar.tabs.length)) :
      Transition bar action { bar.push file content encoding etag with active }
  | closed {index : Nat} (h : index < bar.tabs.length) :
      Transition bar (.close index) (bar.closeAt index)
  | isolated {index : Nat} {tab : Tab} (htab : bar.tabs[index]? = some tab) :
      Transition bar (.closeOthers index) { bar with tabs := [tab], active := some 0 }
  | emptied : Transition bar .closeAll { bar with tabs := [], active := none }
  | swept (path : String) (isFolder : Bool) :
      Transition bar (.closeByPath path isFolder) (bar.closeByPath path isFolder).2
  | reordered {source target : Nat} {tab : Tab} (htab : bar.tabs[source]? = some tab)
      (htarget : target < bar.tabs.length) :
      Transition bar (.reorder source target)
        { bar with
          tabs := (bar.tabs.eraseIdx source).insertIdx target tab
          active := bar.active.map (positionAfterMove source target) }
  | relocated {oldFolder newFolder : String} (hne : oldFolder ≠ newFolder) :
      Transition bar (.updatePathsUnder oldFolder newFolder)
        (bar.updatePathsUnder oldFolder newFolder).2
  | moved {action : TabAction} {index : Nat} {tab tab' : Tab}
      (htab : bar.tabs[index]? = some tab) (hbecomes : Becomes bar action tab tab')
      (hfree : ∀ position other, bar.find? tab'.path = some position →
        bar.tabs[position]? = some other → other.id = tab.id) :
      Transition bar action { bar with tabs := bar.tabs.set index tab' }
  | movedOver {action : TabAction} {position index : Nat} {other tab tab' : Tab}
      (hfind : bar.find? tab'.path = some position) (hother : bar.tabs[position]? = some other)
      (hremoves : bar.Removes other action)
      (htab : (bar.closeAt position).tabs[index]? = some tab)
      (hbecomes : Becomes bar action tab tab') :
      Transition bar action
        { bar.closeAt position with tabs := (bar.closeAt position).tabs.set index tab' }

theorem act_eq_ok {index : Nat} {step : Tab → Except TabError (TabOutcome × Tab)}
    (h : bar.act index step = .ok (outcome, after)) :
    ∃ tab tab', bar.tabs[index]? = some tab ∧ step tab = .ok (outcome, tab') ∧
      after = { bar with tabs := bar.tabs.set index tab' } := by
  unfold act at h
  split at h
  · simp at h
  next tab htab =>
    split at h
    · simp at h
    next tab' hstep =>
      simp only [Except.ok.injEq, Prod.mk.injEq] at h
      obtain ⟨rfl, rfl⟩ := h
      exact ⟨tab, tab', htab, hstep, rfl⟩

theorem atConflict_eq_ok {index : Nat} {step : Tab → TabOutcome × Tab}
    (h : bar.atConflict index step = .ok (outcome, after)) :
    ∃ tab, bar.tabs[index]? = some tab ∧ tab.state.isConflict = true ∧
      after = { bar with tabs := bar.tabs.set index (step tab).2 } := by
  obtain ⟨tab, tab', htab, hstep, rfl⟩ := act_eq_ok h
  split at hstep
  next hconflict =>
    simp only [Except.ok.injEq] at hstep
    exact ⟨tab, htab, hconflict, by rw [hstep]⟩
  next => simp at hstep

/-- An answer changes the tab with the number, if that is open. -/
theorem answer_cases (bar : TabBar) (id : TabId) (apply : Nat → Tab → TabOutcome × Tab) :
    (id ∉ bar.ids ∧ (bar.answer id apply).2 = bar) ∨
      ∃ index tab, bar.tabs[index]? = some tab ∧ tab.id = id ∧
        (bar.answer id apply).2 = { bar with tabs := bar.tabs.set index (apply index tab).2 } := by
  unfold answer
  split
  next hnone =>
    refine .inl ⟨?_, rfl⟩
    rw [mem_ids_iff]
    rintro ⟨tab, htab, hid⟩
    exact findId?_eq_none_iff.mp hnone tab htab hid
  next index hindex =>
    obtain ⟨tab, htab, hid⟩ := findId?_eq_some hindex
    rw [htab]
    exact .inr ⟨index, tab, htab, hid, rfl⟩

theorem set_getElem?_self {index : Nat} {tab : Tab} (h : bar.tabs[index]? = some tab) :
    { bar with tabs := bar.tabs.set index tab } = bar := by
  obtain ⟨hlt, rfl⟩ := List.getElem?_eq_some_iff.mp h
  rw [List.set_getElem_self]

theorem transition_openTab (file : FileInfo) (content : String) (encoding : Encoding)
    (etag : Option String) :
    Transition bar (.openTab file content encoding etag)
      (bar.openTab file content encoding etag).2 := by
  unfold openTab
  split
  next index hindex =>
    obtain ⟨tab, htab, hpath⟩ := find?_eq_some hindex
    have hlt : index < bar.tabs.length := (List.getElem?_eq_some_iff.mp htab).1
    dsimp only
    rw [modifyAt_eq_set htab]
    split
    next =>
      rw [set_getElem?_self htab]
      exact .selected _ hlt
    next hidle =>
      simp only [Bool.or_eq_true, not_or, Bool.not_eq_true, Option.isSome_eq_false_iff,
        Option.isNone_iff_eq_none] at hidle
      exact .changed htab (.reopened content encoding etag hpath hidle.1 hidle.2) hpath.symm
        (.inr rfl)
  next hfree => exact .opened (.loaded file content encoding etag) hfree (.inl rfl)

theorem transition_openUnloaded (file : FileInfo) :
    Transition bar (.openUnloaded file) (bar.openUnloaded file).2 := by
  unfold openUnloaded
  split
  next => exact .same _
  next hfree => exact .opened (.unloaded file) hfree (.inr rfl)

theorem transition_reorder {source target : Nat}
    (h : bar.reorder source target = .ok (outcome, after)) :
    Transition bar (.reorder source target) after := by
  unfold reorder at h
  split at h
  · simp at h
  next tab htab =>
    split at h
    · simp at h
    next htarget =>
      split at h
      · simp only [Except.ok.injEq, Prod.mk.injEq] at h
        obtain ⟨-, rfl⟩ := h
        exact .same _
      · simp only [Except.ok.injEq, Prod.mk.injEq] at h
        obtain ⟨-, rfl⟩ := h
        exact .reordered htab (Nat.lt_of_not_le htarget)

theorem transition_updatePath (oldPath newPath : String) :
    Transition bar (.updatePath oldPath newPath) (bar.updatePath oldPath newPath).2 := by
  unfold updatePath
  split
  next => exact .same _
  next hmoves =>
    obtain ⟨hne, hopen⟩ := not_or.mp hmoves
    cases hnew : bar.find? newPath with
    | none =>
        dsimp only
        cases hold : bar.find? oldPath with
        | none => exact absurd hold hopen
        | some index =>
            obtain ⟨tab, htab, rfl⟩ := find?_eq_some hold
            dsimp only
            rw [modifyAt_eq_set htab]
            refine .moved htab (.moved tab newPath) ?_
            intro position other hposition
            rw [Tab.path_moveTo, hnew] at hposition
            simp at hposition
    | some position =>
        obtain ⟨other, hother, hpath⟩ := find?_eq_some hnew
        dsimp only
        cases hold : (bar.closeAt position).find? oldPath with
        | none =>
            -- The tab of the old path is another one than the closed tab.
            obtain ⟨index, hindex⟩ := Option.ne_none_iff_exists'.mp hopen
            obtain ⟨tab, htab, rfl⟩ := find?_eq_some hindex
            have hdiff : index ≠ position := by
              rintro rfl
              rw [htab] at hother
              exact hne ((congrArg Tab.path (Option.some.inj hother)).trans hpath)
            have hmem : tab ∈ (bar.closeAt position).tabs :=
              List.mem_eraseIdx_iff_getElem?.mpr ⟨index, hdiff, htab⟩
            exact absurd rfl (find?_eq_none_iff.mp hold tab hmem)
        | some index =>
            obtain ⟨tab, htab, rfl⟩ := find?_eq_some hold
            dsimp only
            rw [modifyAt_eq_set htab]
            have hfind : bar.find? (tab.moveTo newPath).path = some position := hnew
            exact .movedOver hfind hother ⟨hne, hopen, hpath⟩ htab (.moved tab newPath)

theorem vacate_eq_ok {id : TabId} {path : String} (h : bar.vacate id path = .ok after) :
    (after = bar ∧ ∀ position other, bar.find? path = some position →
        bar.tabs[position]? = some other → other.id = id) ∨
      ∃ position other, bar.find? path = some position ∧ bar.tabs[position]? = some other ∧
        other.path = path ∧ other.id ≠ id ∧ other.unsaved = false ∧
        after = bar.closeAt position := by
  unfold vacate at h
  split at h
  next hnone =>
    refine .inl ⟨(Except.ok.inj h).symm, ?_⟩
    intro position other hposition
    rw [hnone] at hposition
    simp at hposition
  next index hindex =>
    obtain ⟨target, htarget, hpath⟩ := find?_eq_some hindex
    rw [htarget] at h
    dsimp only at h
    split at h
    next hid =>
      refine .inl ⟨(Except.ok.inj h).symm, ?_⟩
      intro position other hposition hother
      rw [hindex] at hposition
      obtain rfl := Option.some.inj hposition
      rw [htarget] at hother
      exact Option.some.inj hother ▸ hid
    next hid =>
      split at h
      · simp at h
      next hunsaved =>
        exact .inr ⟨index, target, hindex, htarget, hpath, hid, by simpa using hunsaved,
          (Except.ok.inj h).symm⟩

theorem transition_savedAs (hnodup : bar.ids.Nodup) {index : Nat} {newPath : String}
    {write : WriteResult} (h : bar.savedAs index newPath write = .ok (outcome, after)) :
    Transition bar (.savedAs index newPath write) after := by
  unfold savedAs at h
  split at h
  · simp at h
  next tab htab =>
    split at h
    · simp at h
    next hconflict =>
      have hconflict : tab.state.isConflict = true := by simpa using hconflict
      have hbecomes := Becomes.storedAs newPath write htab hconflict
      split at h
      · simp at h
      next vacated hvacate =>
        rcases vacate_eq_ok hvacate with ⟨rfl, hfree⟩ |
            ⟨position, other, hfind, hother, hpath, hid, hunsaved, rfl⟩
        · split at h
          next hnone =>
            exact absurd rfl (findId?_eq_none_iff.mp hnone tab (List.mem_of_getElem? htab))
          next index' hindex' =>
            -- The stored tab is found again by its number.
            obtain ⟨tab', htab', hid'⟩ := findId?_eq_some hindex'
            obtain rfl := index_eq_of_id_eq hnodup htab' htab hid'
            simp only [Except.ok.injEq, Prod.mk.injEq] at h
            obtain ⟨-, rfl⟩ := h
            rw [modifyAt_eq_set htab]
            exact .moved htab hbecomes hfree
        · -- Another tab made room, so the stored one may have moved down.
          have hdiff : index ≠ position := by
            rintro rfl
            rw [htab] at hother
            exact hid (congrArg Tab.id (Option.some.inj hother)).symm
          have hmem : tab ∈ (bar.closeAt position).tabs :=
            List.mem_eraseIdx_iff_getElem?.mpr ⟨index, hdiff, htab⟩
          split at h
          next hnone => exact absurd rfl (findId?_eq_none_iff.mp hnone tab hmem)
          next index' hindex' =>
            obtain ⟨tab', htab', hid'⟩ := findId?_eq_some hindex'
            have hmem' : tab' ∈ bar.tabs :=
              List.mem_of_mem_eraseIdx (List.mem_of_getElem? htab')
            obtain rfl := eq_of_id_eq hnodup hmem' (List.mem_of_getElem? htab) hid'
            simp only [Except.ok.injEq, Prod.mk.injEq] at h
            obtain ⟨-, rfl⟩ := h
            rw [modifyAt_eq_set htab']
            have hstored : bar.find? (storeAt newPath write tab').path = some position := hfind
            exact .movedOver hstored hother ⟨hpath, hunsaved⟩ htab' hbecomes

theorem transition_externalWrite (path content : String) (encoding : Encoding)
    (write : WriteResult) :
    Transition bar (.externalWrite path content encoding write)
      (bar.externalWrite path content encoding write).2 := by
  unfold externalWrite
  split
  next => exact .same _
  next index hindex =>
    obtain ⟨tab, htab, rfl⟩ := find?_eq_some hindex
    rw [htab]
    have hwritten := writtenOver_overwrittenBy content encoding write index tab
    exact .changed htab (.overwritten hwritten hindex htab) hwritten.path_eq (.inl rfl)

theorem eq_snd_of_ok {result : TabOutcome × TabBar}
    (h : (Except.ok result : Except TabError (TabOutcome × TabBar)) = .ok (outcome, after)) :
    after = result.2 := by
  rw [Except.ok.inj h]

/-- An action that is performed takes one of the listed ways. -/
theorem transition_of_apply (hnodup : bar.ids.Nodup)
    (h : bar.apply action = .ok (outcome, after)) : Transition bar action after := by
  cases action with
  | openTab file content encoding etag =>
      rw [apply] at h
      obtain rfl := eq_snd_of_ok h
      exact transition_openTab file content encoding etag
  | openUnloaded file =>
      rw [apply] at h
      obtain rfl := eq_snd_of_ok h
      exact transition_openUnloaded file
  | activate index =>
      rw [apply] at h
      split at h
      · simp at h
      next hlt =>
        split at h
        · obtain rfl := eq_snd_of_ok h
          exact .same _
        · obtain rfl := eq_snd_of_ok h
          exact .selected _ (Nat.lt_of_not_le hlt)
  | close index =>
      rw [apply] at h
      split at h
      · simp at h
      next hlt =>
        obtain rfl := eq_snd_of_ok h
        exact .closed (Nat.lt_of_not_le hlt)
  | closeOthers index =>
      rw [apply] at h
      split at h
      · simp at h
      next tab htab =>
        obtain rfl := eq_snd_of_ok h
        exact .isolated htab
  | closeAll =>
      rw [apply] at h
      obtain rfl := eq_snd_of_ok h
      exact .emptied
  | reorder source target => exact transition_reorder h
  | edit index content time =>
      rw [apply] at h
      obtain ⟨tab, tab', htab, hedit, rfl⟩ := act_eq_ok h
      have hedited := edited_of_editTab hedit
      exact .changed htab (.edited htab hedited) hedited.path_eq (.inl rfl)
  | updatePath oldPath newPath =>
      rw [apply] at h
      obtain rfl := eq_snd_of_ok h
      exact transition_updatePath oldPath newPath
  | updatePathsUnder oldFolder newFolder =>
      rw [apply] at h
      obtain rfl := eq_snd_of_ok h
      by_cases hne : oldFolder = newFolder
      · simp only [updatePathsUnder, hne, if_true]
        exact .same _
      · exact .relocated hne
  | closeByPath path isFolder =>
      rw [apply] at h
      obtain rfl := eq_snd_of_ok h
      exact .swept path isFolder
  | refreshStarted index request =>
      rw [apply] at h
      obtain ⟨tab, tab', htab, hstart, rfl⟩ := act_eq_ok h
      simp only [Except.ok.injEq, Prod.mk.injEq] at hstart
      obtain ⟨-, rfl⟩ := hstart
      exact .changed htab (.refreshStarted request htab) rfl (.inl rfl)
  | refreshResolved id request result =>
      rw [apply] at h
      obtain rfl := eq_snd_of_ok h
      rcases bar.answer_cases id (fun index tab => tab.applyRefresh request result index) with
        ⟨-, hsame⟩ | ⟨index, tab, htab, rfl, hafter⟩
      · rw [hsame]
        exact .same _
      · rw [hafter]
        have hrefreshed := tab.refreshed_applyRefresh request result index
        exact .changed htab (.refreshed hrefreshed) hrefreshed.path_eq (.inl rfl)
  | queueSave index =>
      rw [apply] at h
      obtain ⟨tab, tab', htab, hqueue, rfl⟩ := act_eq_ok h
      simp only [Except.ok.injEq, Prod.mk.injEq] at hqueue
      obtain ⟨-, rfl⟩ := hqueue
      exact .changed htab (.queued htab) rfl (.inl rfl)
  | cancelQueuedSave index =>
      rw [apply] at h
      obtain ⟨tab, tab', htab, hcancel, rfl⟩ := act_eq_ok h
      simp only [Except.ok.injEq, Prod.mk.injEq] at hcancel
      obtain ⟨-, rfl⟩ := hcancel
      exact .changed htab (.unqueued htab) rfl (.inl rfl)
  | saveStarted index request =>
      rw [apply] at h
      obtain ⟨tab, tab', htab, hstart, rfl⟩ := act_eq_ok h
      obtain ⟨hcalm, hwritable, rfl⟩ := startSave_eq_ok hstart
      exact .changed htab (.saveStarted request htab hcalm hwritable) rfl (.inl rfl)
  | saveResolved id request result =>
      rw [apply] at h
      obtain rfl := eq_snd_of_ok h
      rcases bar.answer_cases id (fun index tab => tab.applySave request result index) with
        ⟨-, hsame⟩ | ⟨index, tab, htab, rfl, hafter⟩
      · rw [hsame]
        exact .same _
      · rw [hafter]
        have hanswered := tab.saveAnswered_applySave request result index
        exact .changed htab (.saved hanswered) hanswered.path_eq (.inl rfl)
  | acceptServer index content =>
      rw [apply] at h
      obtain ⟨tab, htab, hconflict, rfl⟩ := atConflict_eq_ok h
      exact .changed htab (.accepted content htab hconflict) rfl (.inl rfl)
  | keepLocal index =>
      rw [apply] at h
      obtain ⟨tab, htab, hconflict, rfl⟩ := atConflict_eq_ok h
      exact .changed htab (.keptLocal htab hconflict) rfl (.inl rfl)
  | savedAs index newPath write => exact transition_savedAs hnodup h
  | externalWrite path content encoding write =>
      rw [apply] at h
      obtain rfl := eq_snd_of_ok h
      exact transition_externalWrite path content encoding write

/-- Every action, performed or refused, takes the bar to the next one in one of
the listed ways. -/
theorem transition_next (hnodup : bar.ids.Nodup) (action : TabAction) :
    Transition bar action (bar.next action) := by
  cases happly : bar.apply action with
  | error error =>
      rw [next_of_error happly]
      exact .same _
  | ok result =>
      rw [next_of_ok happly]
      exact transition_of_apply hnodup happly

end TabBar

end Workbench
