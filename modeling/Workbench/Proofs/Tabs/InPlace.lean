import Workbench.Proofs.InPlace
import Workbench.Proofs.Tabs.Transition

/-! # Actions carried out in place

`TabBar.apply` gives the next bar only if an action succeeds, so that an action that is
refused has no bar to show for it. Here the same actions work on the bar where it stands,
one check or change after the other, and what was changed before a check fails stays
changed. Both ways come to the same, as every action makes its checks before its first
change. -/

namespace Workbench.TabBar

open Workbench.InPlace

/-- Work on a bar. -/
abbrev InPlace (α : Type) := Workbench.InPlace TabError TabBar α

namespace InPlace

/-- The tab at a position. -/
def tabAt (index : Nat) : InPlace Tab := do
  let bar ← get
  match bar.tabs[index]? with
  | none => throw (bar.outOfRange index)
  | some tab => return tab

/-- The tab at a position, which must be in conflict. -/
def conflictAt (index : Nat) : InPlace Tab := do
  let tab ← tabAt index
  if tab.state.isConflict then return tab else throw (.notInConflict tab.path)

/-- Changes the tab at a position. -/
def change (index : Nat) (outcome : TabOutcome) (f : Tab → Tab) : InPlace TabOutcome := do
  modify (·.modifyAt index f)
  return outcome

/-- Changes the tab at a position, if there is one. -/
def changeAt (index : Nat) (f : Tab → Tab) : InPlace TabOutcome := do
  let _ ← tabAt index
  change index .updated f

def activate (index : Nat) : InPlace TabOutcome := do
  let _ ← tabAt index
  let bar ← get
  if bar.active = some index then return .unchanged
  else
    set { bar with active := some index }
    return .updated

def close (index : Nat) : InPlace TabOutcome := do
  let _ ← tabAt index
  modify (·.closeAt index)
  return .closed 1

def closeOthers (index : Nat) : InPlace TabOutcome := do
  let tab ← tabAt index
  let bar ← get
  set { bar with tabs := [tab], active := some 0 }
  return .closed (bar.tabs.length - 1)

def reorder (source target : Nat) : InPlace TabOutcome := do
  let tab ← tabAt source
  let _ ← tabAt target
  if source = target then return .unchanged
  else
    modify fun bar => { bar with tabs := bar.tabs.eraseIdx source }
    modify fun bar =>
      { bar with
        tabs := bar.tabs.insertIdx target tab
        active := bar.active.map (positionAfterMove source target) }
    return .updated

def edit (index : Nat) (content : String) (time : Nat) : InPlace TabOutcome := do
  let tab ← tabAt index
  if tab.file.readOnly then throw (.readOnly tab.path)
  else if tab.content = content then return .unchanged
  else
    change index .updated fun tab =>
      { tab with
        content
        unsaved := true
        generation := tab.generation + 1
        lastEdit := some time
        state := if tab.state = .clean ∨ tab.state = .saved then .dirty else tab.state }

def startSave (index : Nat) (request : RequestId) : InPlace TabOutcome := do
  let tab ← tabAt index
  match tab.state with
  | .conflict reason => throw (.saveBlockedByConflict tab.path reason)
  | _ =>
      if tab.file.readOnly then throw (.readOnly tab.path)
      else
        change index .updated fun tab =>
          { tab with
            state := .saving
            saveQueued := false
            pendingSave := some { request, generation := tab.generation } }

/-- Closes a tab that is open at a path, unless it is the one with the given number. It
must not hold unsaved changes. -/
def makeRoom (id : TabId) (path : String) : InPlace Unit := do
  let bar ← get
  match bar.find? path with
  | none => return
  | some index =>
      match bar.tabs[index]? with
      | none => return
      | some target =>
          if target.id = id then return
          else if target.unsaved then throw (.targetHasUnsavedChanges path)
          else set (bar.closeAt index)

def savedAs (index : Nat) (newPath : String) (write : WriteResult) : InPlace TabOutcome := do
  let tab ← conflictAt index
  makeRoom tab.id newPath
  -- The tab is looked up again, as the closed one may have stood before it.
  let bar ← get
  match bar.findId? tab.id with
  | none => return .dropped .tabClosed
  | some index => change index .updated (storeAt newPath write)

/-- Carries out an action. -/
def reduce : TabAction → InPlace TabOutcome
  | .openTab file content encoding etag =>
      modifyGet fun bar =>
        let ((index, reused), bar) := bar.openTab file content encoding etag
        (.opened index reused, bar)
  | .openUnloaded file => modifyGet (·.openUnloaded file)
  | .activate index => activate index
  | .close index => close index
  | .closeOthers index => closeOthers index
  | .closeAll =>
      modifyGet fun bar => (.closed bar.tabs.length, { bar with tabs := [], active := none })
  | .reorder source target => reorder source target
  | .edit index content time => edit index content time
  | .updatePath oldPath newPath => modifyGet (·.updatePath oldPath newPath)
  | .updatePathsUnder oldFolder newFolder => modifyGet (·.updatePathsUnder oldFolder newFolder)
  | .closeByPath path isFolder => modifyGet (·.closeByPath path isFolder)
  | .refreshStarted index request =>
      changeAt index fun tab =>
        { tab with pendingRefresh := some { request, generation := tab.generation } }
  | .refreshResolved tab request result =>
      modifyGet (·.answer tab fun index tab => tab.applyRefresh request result index)
  | .queueSave index => changeAt index ({ · with saveQueued := true })
  | .cancelQueuedSave index => changeAt index ({ · with saveQueued := false })
  | .saveStarted index request => startSave index request
  | .saveResolved tab request result =>
      modifyGet (·.answer tab fun index tab => tab.applySave request result index)
  | .acceptServer index content => do
      let _ ← conflictAt index
      change index (.adopted index) fun tab => { tab.adopt content with saveQueued := false }
  | .keepLocal index => do
      let _ ← conflictAt index
      change index .updated fun tab =>
        { tab with state := tab.settledState, overwriteOnSave := true }
  | .savedAs index newPath write => savedAs index newPath write
  | .externalWrite path content encoding write =>
      modifyGet (·.externalWrite path content encoding write)

/-! ## Running in-place work -/

variable {bar : TabBar} {index : Nat} {tab : Tab}

theorem on_tabAt_of_some (htab : bar.tabs[index]? = some tab) :
    on (tabAt index) bar = (.ok tab, bar) := by
  simp only [tabAt, on_bind, on_get, htab, on_pure]

theorem on_tabAt_of_none (hnone : bar.tabs[index]? = none) :
    on (tabAt index) bar = (.error (bar.outOfRange index), bar) := by
  simp only [tabAt, on_bind, on_get, hnone, on_throw]

theorem on_change (htab : bar.tabs[index]? = some tab) (outcome : TabOutcome) (f : Tab → Tab) :
    on (change index outcome f) bar =
      (.ok outcome, { bar with tabs := bar.tabs.set index (f tab) }) := by
  rw [← modifyAt_eq_set htab]
  rfl

/-! ## Both ways come to the same -/

/-- To work on the tab at a position is to put another one there. -/
theorem on_act {work : Tab → InPlace TabOutcome}
    {step : Tab → Except TabError (TabOutcome × Tab)}
    (h : ∀ tab, bar.tabs[index]? = some tab → on (work tab) bar =
      answered bar ((step tab).map fun (outcome, tab) =>
        (outcome, { bar with tabs := bar.tabs.set index tab }))) :
    on (tabAt index >>= work) bar = answered bar (bar.act index step) := by
  rw [on_bind, act]
  cases htab : bar.tabs[index]? with
  | none =>
      rw [on_tabAt_of_none htab]
      rfl
  | some tab =>
      rw [on_tabAt_of_some htab]
      dsimp only
      rw [h tab htab]
      cases step tab <;> rfl

theorem on_atConflict {work : Tab → InPlace TabOutcome} {step : Tab → TabOutcome × Tab}
    (h : ∀ tab, bar.tabs[index]? = some tab → on (work tab) bar =
      (.ok (step tab).1, { bar with tabs := bar.tabs.set index (step tab).2 })) :
    on (conflictAt index >>= work) bar = answered bar (bar.atConflict index step) := by
  rw [conflictAt, bind_assoc, atConflict]
  refine on_act fun tab htab => ?_
  cases tab.state.isConflict with
  | false => rfl
  | true =>
      rw [if_pos rfl, pure_bind, h tab htab]
      rfl

theorem on_changeAt (index : Nat) (f : Tab → Tab) (bar : TabBar) :
    on (changeAt index f) bar = answered bar (bar.act index fun tab => .ok (.updated, f tab)) := by
  refine on_act fun tab htab => ?_
  exact on_change htab .updated f

theorem on_activate (index : Nat) (bar : TabBar) :
    on (activate index) bar = answered bar (bar.apply (.activate index)) := by
  rw [activate, TabBar.apply, on_bind]
  cases htab : bar.tabs[index]? with
  | none =>
      rw [on_tabAt_of_none htab, if_pos (List.getElem?_eq_none_iff.mp htab)]
      rfl
  | some tab =>
      rw [on_tabAt_of_some htab, if_neg (Nat.not_le_of_lt (List.getElem?_eq_some_iff.mp htab).1)]
      simp only [on_bind, on_get]
      split <;> rfl

theorem on_close (index : Nat) (bar : TabBar) :
    on (close index) bar = answered bar (bar.apply (.close index)) := by
  rw [close, TabBar.apply, on_bind]
  cases htab : bar.tabs[index]? with
  | none =>
      rw [on_tabAt_of_none htab, if_pos (List.getElem?_eq_none_iff.mp htab)]
      rfl
  | some tab =>
      rw [on_tabAt_of_some htab, if_neg (Nat.not_le_of_lt (List.getElem?_eq_some_iff.mp htab).1)]
      rfl

theorem on_closeOthers (index : Nat) (bar : TabBar) :
    on (closeOthers index) bar = answered bar (bar.apply (.closeOthers index)) := by
  rw [closeOthers, TabBar.apply, on_bind]
  cases htab : bar.tabs[index]? with
  | none =>
      rw [on_tabAt_of_none htab]
      rfl
  | some tab =>
      rw [on_tabAt_of_some htab]
      rfl

theorem on_reorder (source target : Nat) (bar : TabBar) :
    on (reorder source target) bar = answered bar (bar.reorder source target) := by
  rw [reorder, TabBar.reorder, on_bind]
  cases hsource : bar.tabs[source]? with
  | none =>
      rw [on_tabAt_of_none hsource]
      rfl
  | some tab =>
      rw [on_tabAt_of_some hsource]
      dsimp only
      rw [on_bind]
      cases htarget : bar.tabs[target]? with
      | none =>
          rw [on_tabAt_of_none htarget, if_pos (List.getElem?_eq_none_iff.mp htarget)]
          rfl
      | some other =>
          have hlt := (List.getElem?_eq_some_iff.mp htarget).1
          rw [on_tabAt_of_some htarget, if_neg (Nat.not_le_of_lt hlt)]
          dsimp only
          split <;> rfl

theorem on_edit (index : Nat) (content : String) (time : Nat) (bar : TabBar) :
    on (edit index content time) bar = answered bar (bar.act index (editTab content time)) := by
  refine on_act fun tab htab => ?_
  unfold editTab
  cases tab.file.readOnly with
  | true => rfl
  | false =>
      rw [if_neg Bool.false_ne_true, if_neg Bool.false_ne_true]
      by_cases hsame : tab.content = content
      · rw [if_pos hsame, if_pos hsame]
        change _ = (_, { bar with tabs := bar.tabs.set index tab })
        rw [set_getElem?_self htab]
        rfl
      · rw [if_neg hsame, if_neg hsame]
        exact on_change htab _ _

theorem on_startSave (index : Nat) (request : RequestId) (bar : TabBar) :
    on (startSave index request) bar = answered bar (bar.act index (TabBar.startSave request)) := by
  refine on_act fun tab htab => ?_
  unfold TabBar.startSave
  cases tab.file.readOnly with
  | true => cases tab.state <;> rfl
  | false =>
      cases tab.state with
      | conflict reason => rfl
      | _ => exact on_change htab _ _

theorem on_makeRoom (id : TabId) (path : String) (bar : TabBar) :
    on (makeRoom id path) bar =
      match bar.vacate id path with
      | .ok vacated => (.ok (), vacated)
      | .error error => (.error error, bar) := by
  simp only [makeRoom, vacate, on_bind, on_get]
  cases bar.find? path with
  | none => rfl
  | some position =>
      dsimp only
      cases bar.tabs[position]? with
      | none => rfl
      | some target =>
          dsimp only
          by_cases hsame : target.id = id
          · rw [if_pos hsame, if_pos hsame]
            rfl
          · rw [if_neg hsame, if_neg hsame]
            cases target.unsaved <;> rfl

/-- The other tab is closed only after the last check. -/
theorem on_savedAs (index : Nat) (newPath : String) (write : WriteResult) (bar : TabBar) :
    on (savedAs index newPath write) bar = answered bar (bar.savedAs index newPath write) := by
  rw [savedAs, conflictAt, bind_assoc, TabBar.savedAs, on_bind]
  cases htab : bar.tabs[index]? with
  | none =>
      rw [on_tabAt_of_none htab]
      rfl
  | some tab =>
      rw [on_tabAt_of_some htab]
      dsimp only
      cases tab.state.isConflict with
      | false => rfl
      | true =>
          rw [if_pos rfl, pure_bind, on_bind, on_makeRoom]
          cases bar.vacate tab.id newPath with
          | error error => rfl
          | ok vacated =>
              simp only [on_bind, on_get]
              cases vacated.findId? tab.id <;> rfl

/-- An action that is carried out in place answers and leaves what it does when it is
applied as a whole. -/
theorem on_reduce (bar : TabBar) (action : TabAction) :
    on (reduce action) bar = answered bar (bar.apply action) := by
  cases action with
  | openTab file content encoding etag => rfl
  | openUnloaded file => rfl
  | activate index => exact on_activate index bar
  | close index => exact on_close index bar
  | closeOthers index => exact on_closeOthers index bar
  | closeAll => rfl
  | reorder source target => exact on_reorder source target bar
  | edit index content time => exact on_edit index content time bar
  | updatePath oldPath newPath => rfl
  | updatePathsUnder oldFolder newFolder => rfl
  | closeByPath path isFolder => rfl
  | refreshStarted index request => exact on_changeAt index _ bar
  | refreshResolved id request result => rfl
  | queueSave index => exact on_changeAt index _ bar
  | cancelQueuedSave index => exact on_changeAt index _ bar
  | saveStarted index request => exact on_startSave index request bar
  | saveResolved id request result => rfl
  | acceptServer index content => exact on_atConflict fun tab htab => on_change htab _ _
  | keepLocal index => exact on_atConflict fun tab htab => on_change htab _ _
  | savedAs index newPath write => exact on_savedAs index newPath write bar
  | externalWrite path content encoding write => rfl

/-- An action that is refused leaves the bar as it was, although whatever it had changed
would stay changed. -/
theorem on_reduce_error {action : TabAction} {error : TabError}
    (h : (on (reduce action) bar).1 = .error error) : (on (reduce action) bar).2 = bar := by
  rw [on_reduce] at h ⊢
  exact (answered_eq_error.mp (Prod.ext h rfl)).2

end InPlace

end Workbench.TabBar
