import Workbench.Proofs.Desk.Moves
import Workbench.Proofs.File.Answers
import Workbench.Proofs.Tabs.InPlace
import Workbench.Proofs.Workspace.Conflict

/-! # Operations that are refused

Some operations of the desk check, call the service and then act on the tabs, which check
once more. If an operation is refused, wherever that happens, tabs and requests are as
before, and all that was asked of the service are reads and writes that it refused. In
particular no action is refused once the service has stored something. -/

namespace Workbench

/-- A file service after some reads and some writes that it refused. -/
inductive FileService.OnlyAsked {σ : Type} [FileService σ] (before : σ) : σ → Prop
  | nothing : OnlyAsked before before
  | read {now after : σ} {path : String} {answer : Except FileError FileContent}
      (h : OnlyAsked before now) (hread : fetchFile path now = (answer, after)) :
      OnlyAsked before after
  | refused {now after : σ} {path content : String} {encoding : Encoding}
      {expected : Option String} {error : FileError} (h : OnlyAsked before now)
      (hstore : storeFile path content encoding expected now = (.error error, after)) :
      OnlyAsked before after

open FileService

theorem MemoryFiles.sameStore_of_onlyAsked {m after : MemoryFiles} (h : OnlyAsked m after) :
    SameStore m after := by
  induction h with
  | nothing => exact .refl m
  | @read now _ path _ _ hread ih =>
      have hsame := sameStore_fetchFile path now
      rw [hread] at hsame
      exact ih.trans hsame
  | refused _ hstore ih =>
      have hsame := sameStore_storeFile (congrArg Prod.fst hstore)
      rw [hstore] at hsame
      exact ih.trans hsame

namespace Desk

open TabBar

variable {σ : Type} [FileService σ] {desk middle after : Desk σ} {error : TabError} {index : Nat}
  {path : String}

/-- Tabs and requests are as before, and the service was asked in vain. What was told to
the user and to the journal may differ. -/
structure Undisturbed (before after : Desk σ) : Prop where
  bar : after.bar = before.bar
  traffic : after.traffic = before.traffic
  lastRequest : after.lastRequest = before.lastRequest
  service : OnlyAsked before.service after.service

namespace Undisturbed

theorem refl (desk : Desk σ) : desk.Undisturbed desk := ⟨rfl, rfl, rfl, .nothing⟩

theorem logWarn (h : desk.Undisturbed after) (event message : String) :
    desk.Undisturbed (after.logWarn event message) := ⟨h.1, h.2, h.3, h.4⟩

theorem notify (h : desk.Undisturbed after) (level : NoticeLevel) (message : String)
    (details : Option String) : desk.Undisturbed (after.notify level message details) where
  bar := (after.bar_notify level message details).trans h.bar
  traffic := (after.traffic_notify level message details).trans h.traffic
  lastRequest := (after.lastRequest_notify level message details).trans h.lastRequest
  service := (after.service_notify level message details).symm ▸ h.service

theorem fetchFile {answer : Except FileError FileContent} (h : desk.Undisturbed middle)
    (hread : middle.fetchFile path = (answer, after)) : desk.Undisturbed after := by
  obtain ⟨-, rfl⟩ := Prod.mk.inj hread
  exact ⟨h.bar, h.traffic, h.lastRequest, .read h.service rfl⟩

theorem storeFile {content : String} {encoding : Encoding} {expected : Option String}
    {error : FileError} (h : desk.Undisturbed middle)
    (hstore : middle.storeFile path content encoding expected = (.error error, after)) :
    desk.Undisturbed after := by
  obtain ⟨hrefused, rfl⟩ := Prod.mk.inj hstore
  exact ⟨h.bar, h.traffic, h.lastRequest, .refused h.service (Prod.ext hrefused rfl)⟩

/-- An action that is refused has not touched the desk. -/
theorem dispatch {action : TabAction} (h : desk.Undisturbed middle)
    (hrefused : middle.dispatch action = (.error error, after)) : desk.Undisturbed after := by
  have hsame := dispatch_error (congrArg Prod.fst hrefused)
  rw [hrefused] at hsame
  obtain rfl : after = middle := hsame
  exact h

end Undisturbed

/-! ## The operations -/

omit [FileService σ] in
/-- The operation whose answer is passed on was refused itself. -/
theorem eq_error_of_map {α β : Type} {answered : Except TabError α × Desk σ} {f : α → β}
    (h : answered.map (·.map f) id = (.error error, after)) : answered = (.error error, after) := by
  obtain ⟨answer, now⟩ := answered
  cases answer with
  | ok _ => cases h
  | error refused =>
      obtain ⟨hrefused, rfl⟩ := Prod.mk.inj h
      obtain rfl : refused = error := Except.error.inj hrefused
      rfl

theorem undisturbed_openPath (h : desk.openPath path = (.error error, after)) :
    desk.Undisturbed after := by
  unfold openPath at h
  dsimp only at h
  split at h
  next => cases h
  next hread =>
    obtain ⟨-, rfl⟩ := Prod.mk.inj h
    exact (((Undisturbed.refl desk).fetchFile hread).logWarn _ _).notify _ _ _

theorem undisturbed_closeTab (h : desk.closeTab index = (.error error, after)) :
    desk.Undisturbed after := by
  unfold closeTab at h
  split at h
  next hclose =>
    obtain ⟨-, rfl⟩ := Prod.mk.inj h
    exact (Undisturbed.refl desk).dispatch hclose
  next => cases h

theorem undisturbed_closeOthers (h : desk.closeOthers index = (.error error, after)) :
    desk.Undisturbed after := by
  unfold closeOthers at h
  split at h
  next hclose =>
    obtain ⟨-, rfl⟩ := Prod.mk.inj h
    exact (Undisturbed.refl desk).dispatch hclose
  next => cases h

theorem undisturbed_saveTab (h : desk.saveTab index = (.error error, after)) :
    desk.Undisturbed after := by
  unfold saveTab at h
  split at h
  next =>
    obtain ⟨-, rfl⟩ := Prod.mk.inj h
    exact .refl desk
  next tab hfound =>
    split at h
    next =>
      obtain ⟨-, rfl⟩ := Prod.mk.inj h
      exact (Undisturbed.refl desk).logWarn _ _
    next hstate =>
      have hcalm : tab.state.isConflict = false := SaveState.isConflict_eq_false hstate
      split at h
      next =>
        obtain ⟨-, rfl⟩ := Prod.mk.inj h
        exact .refl desk
      next hwritable =>
        split at h
        next => cases h
        next =>
          split at h
          next =>
            exact (Undisturbed.refl desk).dispatch (eq_error_of_map h)
          next =>
            have hstarted := startSave_eq_savingAt hfound hcalm (by simpa using hwritable)
            have hrefused : desk.startSave index = (.error error, after) := eq_error_of_map h
            rw [hrefused] at hstarted
            cases hstarted

/-- The check for room at a path reads at most. -/
theorem undisturbed_checkSaveAsTarget {id : TabId} {answer : Except TabError Unit}
    (h : desk.checkSaveAsTarget id path = (answer, after)) : desk.Undisturbed after := by
  unfold checkSaveAsTarget at h
  split at h
  next =>
    obtain ⟨-, rfl⟩ := Prod.mk.inj h
    exact .refl desk
  next =>
    split at h
    next hread =>
      obtain ⟨-, rfl⟩ := Prod.mk.inj h
      exact (Undisturbed.refl desk).fetchFile hread
    next hread =>
      split at h <;>
      · obtain ⟨-, rfl⟩ := Prod.mk.inj h
        exact (Undisturbed.refl desk).fetchFile hread

theorem undisturbed_acceptServer (h : desk.acceptServer index path = (.error error, after)) :
    desk.Undisturbed after := by
  unfold acceptServer at h
  split at h
  next hread =>
    split at h
    next haccept =>
      obtain ⟨-, rfl⟩ := Prod.mk.inj h
      exact ((Undisturbed.refl desk).fetchFile hread).dispatch haccept
    next => cases h
  next hread =>
    obtain ⟨-, rfl⟩ := Prod.mk.inj h
    exact ((Undisturbed.refl desk).fetchFile hread).notify _ _ _

theorem undisturbed_keepLocal (h : desk.keepLocal index path = (.error error, after)) :
    desk.Undisturbed after := by
  unfold keepLocal at h
  split at h
  next hkeep =>
    obtain ⟨-, rfl⟩ := Prod.mk.inj h
    exact (Undisturbed.refl desk).dispatch hkeep
  next => cases h

/-- Once the content is stored, the tab moves to it: the check has made sure that no other
tab with edits is in the way. -/
theorem undisturbed_saveAs {tab : Tab} (hfound : desk.tab? index = some tab)
    (hconflict : tab.state.isConflict = true) {newPath : String}
    (h : desk.saveAs index tab newPath = (.error error, after)) : desk.Undisturbed after := by
  unfold saveAs at h
  dsimp only at h
  split at h
  next hcheck =>
    obtain ⟨-, rfl⟩ := Prod.mk.inj h
    exact (undisturbed_checkSaveAsTarget hcheck).notify _ _ _
  next checked hcheck =>
    split at h
    next hstore =>
      obtain ⟨-, rfl⟩ := Prod.mk.inj h
      exact ((undisturbed_checkSaveAsTarget hcheck).storeFile hstore).notify _ _ _
    next write stored hstore =>
      obtain ⟨hfree, hbar⟩ := checkSaveAsTarget_eq_ok hcheck
      obtain ⟨outcome, bar, happly⟩ := exists_apply_savedAs hfound hconflict hfree write
      have hsame : stored.bar = desk.bar := by
        obtain ⟨-, rfl⟩ := Prod.mk.inj hstore
        exact hbar
      simp only [dispatch, hsame, happly] at h
      cases h

theorem undisturbed_resolveConflict {action : ConflictAction}
    (h : desk.resolveConflict index action = (.error error, after)) : desk.Undisturbed after := by
  unfold resolveConflict at h
  split at h
  next =>
    obtain ⟨-, rfl⟩ := Prod.mk.inj h
    exact .refl desk
  next tab hfound =>
    split at h
    next =>
      obtain ⟨-, rfl⟩ := Prod.mk.inj h
      exact .refl desk
    next hnot =>
      have hconflict : tab.state.isConflict = true := by simpa using hnot
      cases action with
      | acceptServer => exact undisturbed_acceptServer h
      | keepLocal => exact undisturbed_keepLocal h
      | saveAs newPath => exact undisturbed_saveAs hfound hconflict h

/-! ## Any operation that can be refused -/

/-- An operation of the desk that can be refused, a bare action on the tabs included. -/
inductive Attempt
  | openPath (path : String)
  | close (index : Nat)
  | closeOthers (index : Nat)
  | move (source target : Nat)
  | edit (index : Nat) (content : String) (time : Nat)
  | save (index : Nat)
  | resolve (index : Nat) (action : ConflictAction)
  | dispatch (action : TabAction)
  deriving DecidableEq

/-- Performs an operation. Of its answer only the failure is told. -/
def attempt (desk : Desk σ) : Attempt → Except TabError Unit × Desk σ
  | .openPath path => (desk.openPath path).map (·.map fun _ => ()) id
  | .close index => desk.closeTab index
  | .closeOthers index => (desk.closeOthers index).map (·.map fun _ => ()) id
  | .move source target => desk.moveTab source target
  | .edit index content time => desk.editTab index content time
  | .save index => (desk.saveTab index).map (·.map fun _ => ()) id
  | .resolve index action => desk.resolveConflict index action
  | .dispatch action => (desk.dispatch action).map (·.map fun _ => ()) id

theorem undisturbed_attempt {attempt : Attempt}
    (h : desk.attempt attempt = (.error error, after)) : desk.Undisturbed after := by
  cases attempt with
  | openPath path => exact undisturbed_openPath (eq_error_of_map h)
  | close index => exact undisturbed_closeTab h
  | closeOthers index => exact undisturbed_closeOthers (eq_error_of_map h)
  | move source target => exact (Undisturbed.refl desk).dispatch (eq_error_of_map h)
  | edit index content time => exact (Undisturbed.refl desk).dispatch (eq_error_of_map h)
  | save index => exact undisturbed_saveTab (eq_error_of_map h)
  | resolve index action => exact undisturbed_resolveConflict h
  | dispatch action => exact (Undisturbed.refl desk).dispatch (eq_error_of_map h)

/-- An operation that is refused leaves tabs and requests as they were, whatever the tabs
and the service are like, and files in memory too. An action owes this to its checks: were
it carried out in place, a refusal would leave the tabs as they were all the same. -/
theorem refused_changes_nothing (desk : Desk σ) (stored : Desk MemoryFiles) (attempt : Attempt) :
    (∀ error, (desk.attempt attempt).1 = .error error →
        desk.Undisturbed (desk.attempt attempt).2) ∧
      (∀ error, (stored.attempt attempt).1 = .error error →
        stored.Undisturbed (stored.attempt attempt).2 ∧
          stored.service.SameStore (stored.attempt attempt).2.service) ∧
      ∀ action error, (InPlace.on (InPlace.reduce action) desk.bar).1 = .error error →
        (InPlace.on (InPlace.reduce action) desk.bar).2 = desk.bar := by
  refine ⟨?_, ?_, fun action error => InPlace.on_reduce_error⟩
  · intro error hrefused
    exact undisturbed_attempt (Prod.ext hrefused rfl)
  · intro error hrefused
    have hundisturbed := undisturbed_attempt (Prod.ext hrefused rfl)
    exact ⟨hundisturbed, MemoryFiles.sameStore_of_onlyAsked hundisturbed.service⟩

end Desk

namespace Workspace

open InPlace TabBar.InPlace

/-- A tab in conflict beside a tab with edits, and a path at which a write will fail. -/
def conflictBesideEdits : List (Step MemoryFiles) :=
  [.outside fun m => (m.put "/plan" "one").2, .outside fun m => (m.put "/notes" "old").2,
   .openPath "/plan", .openPath "/notes", .edit 0 "two" 5, .edit 1 "new" 6,
   .upload [.ofText "/plan" "three"],
   .outside (.plan ⟨.write, "/draft", .status 507 "disk full"⟩)]

/-- The content of the tab in conflict would go where the other tab is. -/
def ontoEdits : TabAction := .savedAs 0 "/notes" ⟨"/notes", 3, none, "v1"⟩

/-- Operations that are refused then. The write to the draft fails only after the check has
let it pass. -/
def refusalsBesideEdits : List (Desk.Attempt × TabError) :=
  [(.openPath "/none", .file (.notFound "/none")),
   (.close 2, .indexOutOfRange 2 2),
   (.save 0, .saveBlockedByConflict "/plan" .contentChanged),
   (.resolve 0 (.saveAs "/notes"), .targetHasUnsavedChanges "/notes"),
   (.resolve 0 (.saveAs "/draft"), .file (.status 507 "disk full")),
   (.resolve 1 .acceptServer, .notInConflict "/notes"),
   (.dispatch ontoEdits, .targetHasUnsavedChanges "/notes")]

theorem refused_changes_nothing_besideEdits :
    (∀ refusal ∈ refusalsBesideEdits,
      ((openingMemory.run conflictBesideEdits).desk.attempt refusal.1).1 = .error refusal.2 ∧
        (openingMemory.run conflictBesideEdits).desk.Undisturbed
          ((openingMemory.run conflictBesideEdits).desk.attempt refusal.1).2 ∧
        (openingMemory.run conflictBesideEdits).desk.service.SameStore
          ((openingMemory.run conflictBesideEdits).desk.attempt refusal.1).2.service) ∧
      (on (reduce ontoEdits) (openingMemory.run conflictBesideEdits).desk.bar).1 =
        .error (.targetHasUnsavedChanges "/notes") ∧
      (on (reduce ontoEdits) (openingMemory.run conflictBesideEdits).desk.bar).2 =
        (openingMemory.run conflictBesideEdits).desk.bar := by
  have hrefused : ∀ refusal ∈ refusalsBesideEdits,
      ((openingMemory.run conflictBesideEdits).desk.attempt refusal.1).1 = .error refusal.2 := by
    decide +kernel
  have hplace : (on (reduce ontoEdits) (openingMemory.run conflictBesideEdits).desk.bar).1 =
      .error (.targetHasUnsavedChanges "/notes") := by
    decide +kernel
  have hleaves := Desk.refused_changes_nothing (openingMemory.run conflictBesideEdits).desk
    (openingMemory.run conflictBesideEdits).desk
  refine ⟨fun refusal hmem => ⟨hrefused refusal hmem, ?_⟩, hplace, ?_⟩
  · exact (hleaves refusal.1).2.1 refusal.2 (hrefused refusal hmem)
  · exact (hleaves (.dispatch ontoEdits)).2.2 ontoEdits _ hplace

end Workspace

end Workbench
