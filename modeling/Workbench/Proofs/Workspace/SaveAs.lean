import Workbench.Proofs.File.Answers
import Workbench.Proofs.Workspace.Conflict
import Workbench.Proofs.Workspace.Moves

/-! # Saving a conflict elsewhere

Before the content of a tab in conflict is stored at another path, it is made sure that
neither a stored file nor unsaved edits of another tab are there. So nothing that comes
after the write can fail: either tabs and files are as before, or the file is there and
the tab has moved to it. -/

namespace Workbench

namespace Tab

/-- The tab after its content was stored as a file at a path. -/
structure Rebound (tab : Tab) (path : String) (file : StoredFile) (tab' : Tab) : Prop where
  id : tab'.id = tab.id
  info : tab'.file = { FileInfo.ofPath path with
    size := byteSize file.content, modified := some file.modified, readOnly := tab.file.readOnly }
  content : tab'.content = tab.content
  encoding : tab'.encoding = tab.encoding
  etag : tab'.etag = some file.etag
  state : tab'.state = .clean
  unsaved : tab'.unsaved = false

end Tab

namespace TabBar

variable {bar after : TabBar} {outcome : TabOutcome} {index position : Nat} {tab other : Tab}
  {path : String} {write : WriteResult}

/-- Changing a tab after another one was closed, or closing that one afterwards, is the
same. -/
theorem set_eraseIdx_of_getElem? (hnodup : bar.ids.Nodup) (htab : bar.tabs[index]? = some tab)
    (hne : index ≠ position) {index' : Nat}
    (htab' : (bar.tabs.eraseIdx position)[index']? = some tab) (tab' : Tab) :
    (bar.tabs.eraseIdx position).set index' tab' =
      (bar.tabs.set index tab').eraseIdx position := by
  have hrest : ((bar.tabs.eraseIdx position).map (·.id)).Nodup :=
    hnodup.sublist ((List.eraseIdx_sublist _ _).map _)
  rcases Nat.lt_or_gt_of_ne hne with hlt | hgt
  · have hsame : (bar.tabs.eraseIdx position)[index]? = some tab := by
      rw [List.getElem?_eraseIdx_of_lt hlt, htab]
    obtain rfl := index_eq_of_map_eq (·.id) hrest htab' hsame rfl
    rw [List.eraseIdx_set_gt hlt]
  · have hsame : (bar.tabs.eraseIdx position)[index - 1]? = some tab := by
      rw [List.getElem?_eraseIdx_of_ge (by omega), Nat.sub_add_cancel (by omega), htab]
    obtain rfl := index_eq_of_map_eq (·.id) hrest htab' hsame rfl
    rw [List.eraseIdx_set_lt hgt]

/-- The tabs after one of them was stored at a path: it alone has changed, and another
one at that path, without unsaved changes, may have been closed. -/
inductive MakesRoom (bar : TabBar) (index : Nat) (path : String) (tab' : Tab) : List Tab → Prop
  | free : MakesRoom bar index path tab' (bar.tabs.set index tab')
  | closed {position : Nat} {other : Tab} (hne : index ≠ position)
      (hother : bar.tabs[position]? = some other) (hpath : other.path = path)
      (hunsaved : other.unsaved = false) :
      MakesRoom bar index path tab' ((bar.tabs.set index tab').eraseIdx position)

theorem makesRoom_savedAs (hnodup : bar.ids.Nodup) (htab : bar.tabs[index]? = some tab)
    (h : bar.apply (.savedAs index path write) = .ok (outcome, after)) :
    bar.MakesRoom index path (storeAt path write tab) after.tabs := by
  simp only [apply, savedAs, htab] at h
  split at h
  next => cases h
  next =>
    split at h
    next => cases h
    next vacated hvacate =>
      split at h
      next hnone =>
        -- The tab that is stored is not the one that was closed.
        have hmem : tab ∈ vacated.tabs := by
          rcases vacate_eq_ok hvacate with ⟨rfl, -⟩ | ⟨position, other, -, hother, -, hid, -, rfl⟩
          · exact List.mem_of_getElem? htab
          · rcases mem_closeAt_or_eq hother (List.mem_of_getElem? htab) with hmem | rfl
            · exact hmem
            · exact absurd rfl hid
        exact absurd rfl (findId?_eq_none_iff.mp hnone tab hmem)
      next index' hindex' =>
        obtain ⟨-, rfl⟩ := Prod.mk.inj (Except.ok.inj h)
        obtain ⟨tab', htab', hid'⟩ := findId?_eq_some hindex'
        rw [modifyAt_eq_set htab']
        rcases vacate_eq_ok hvacate with
          ⟨rfl, -⟩ | ⟨position, other, -, hother, hpath, hid, hunsaved, rfl⟩
        · obtain rfl := index_eq_of_id_eq hnodup htab' htab hid'
          obtain rfl := Option.some.inj (htab'.symm.trans htab)
          exact .free
        · have hmem : tab' ∈ bar.tabs := List.mem_of_mem_eraseIdx (List.mem_of_getElem? htab')
          obtain rfl := eq_of_id_eq hnodup hmem (List.mem_of_getElem? htab) hid'
          have hne : index ≠ position := by
            rintro rfl
            obtain rfl := Option.some.inj (hother.symm.trans htab)
            exact hid rfl
          change MakesRoom _ _ _ _ ((bar.tabs.eraseIdx position).set index' _)
          rw [set_eraseIdx_of_getElem? hnodup htab hne htab']
          exact .closed hne hother hpath hunsaved

end TabBar

namespace Desk

open MemoryFiles

variable {desk checked after : Desk MemoryFiles} {id : TabId} {index : Nat} {path : String}

/-- Storing at the path replaces neither a file nor edits, and no failure is planned. -/
structure FreeFor (desk : Desk MemoryFiles) (id : TabId) (path : String) : Prop where
  unheld : desk.holdsEdits id path = false
  missing : desk.service.files.get? path = none
  unread : takeFailure .read path desk.service.failures = none
  unwritten : takeFailure .write path desk.service.failures = none

/-- There is a tab in conflict at the position, and its content can go to the path. -/
def CanSaveAs (desk : Desk MemoryFiles) (index : Nat) (path : String) : Prop :=
  ∃ tab, desk.tab? index = some tab ∧ tab.state.isConflict = true ∧ desk.FreeFor tab.id path

/-- The content of a tab is stored at a path at which nothing was, and the tab has moved
there. -/
structure StoresElsewhere (desk : Desk MemoryFiles) (index : Nat) (path : String)
    (after : Desk MemoryFiles) (tab tab' : Tab) (file : StoredFile) : Prop where
  found : desk.tab? index = some tab
  missing : desk.service.files.get? path = none
  stored : after.service.files.get? path = some file
  others : ∀ other, other ≠ path → after.service.files.get? other = desk.service.files.get? other
  content : file.content = tab.content
  encoding : file.encoding = tab.encoding
  rebound : tab.Rebound path file tab'
  tabs : desk.bar.MakesRoom index path tab' after.bar.tabs

/-- A tab is saved as another file, or nothing is changed. -/
structure AllOrNothing (desk : Desk MemoryFiles) (index : Nat) (path : String)
    (answered : Except TabError Unit × Desk MemoryFiles) : Prop where
  succeeds_iff : answered.1 = .ok () ↔ desk.CanSaveAs index path
  refused : ∀ error, answered.1 = .error error →
    answered.2.bar = desk.bar ∧ SameStore desk.service answered.2.service
  stored : answered.1 = .ok () →
    ∃ tab tab' file, desk.StoresElsewhere index path answered.2 tab tab' file

theorem AllOrNothing.of_refused {answered : Except TabError Unit × Desk MemoryFiles}
    {error : TabError} (herror : answered.1 = .error error) (hbar : answered.2.bar = desk.bar)
    (hstore : SameStore desk.service answered.2.service) (hnot : ¬ desk.CanSaveAs index path) :
    desk.AllOrNothing index path answered where
  succeeds_iff := by
    rw [herror]
    exact ⟨nofun, fun hcan => absurd hcan hnot⟩
  refused _ _ := ⟨hbar, hstore⟩
  stored hok := by
    rw [herror] at hok
    cases hok

/-! ## The check -/

theorem sameStore_checkSaveAsTarget (desk : Desk MemoryFiles) (id : TabId) (path : String) :
    SameStore desk.service (desk.checkSaveAsTarget id path).2.service := by
  have hread := sameStore_fetchFile path desk.service
  unfold checkSaveAsTarget
  split
  · exact .refl _
  · unfold fetchFile
    dsimp only
    split
    next h =>
      obtain ⟨-, rfl⟩ := Prod.mk.inj h
      exact hread
    next h =>
      obtain ⟨-, rfl⟩ := Prod.mk.inj h
      split <;> exact hread

/-- Where nothing is in the way, the check notes a read and nothing else. -/
theorem checkSaveAsTarget_of_freeFor (h : desk.FreeFor id path) :
    desk.checkSaveAsTarget id path =
      (.ok (), { desk with service := desk.service.noted .read path }) := by
  have hread := fetchFile_of_missing h.unread h.missing
  simp [checkSaveAsTarget, h.unheld, fetchFile, hread, FileError.isNotFound]

/-- If the check lets the content pass, nothing is in the way. -/
theorem of_checkSaveAsTarget (htruthful : desk.service.TruthfulReads)
    (h : desk.checkSaveAsTarget id path = (.ok (), checked)) :
    desk.holdsEdits id path = false ∧ desk.service.files.get? path = none ∧
      takeFailure .read path desk.service.failures = none ∧
      checked = { desk with service := desk.service.noted .read path } := by
  obtain ⟨hunheld, -⟩ := checkSaveAsTarget_eq_ok h
  unfold checkSaveAsTarget at h
  rw [hunheld, if_neg Bool.false_ne_true] at h
  unfold fetchFile at h
  cases hread : FileService.fetchFile path desk.service with
  | mk answer read =>
      rw [hread] at h
      cases answer with
      | ok content => cases h
      | error error =>
          dsimp only at h
          split at h
          next hmissing =>
            obtain ⟨-, rfl⟩ := Prod.mk.inj h
            have herror : (FileService.fetchFile path desk.service).1 = .error error := by
              rw [hread]
            obtain ⟨hunread, hnone, hnoted⟩ := of_fetchFile_notFound htruthful herror hmissing
            rw [hread] at hnoted
            exact ⟨hunheld, hnone, hunread, by rw [← hnoted]⟩
          next => cases h

/-! ## The save -/

/-- A tab moves to the file that its content was stored as. -/
theorem rebound_storeAt {tab : Tab} {service stored : MemoryFiles} {write : WriteResult}
    (h : Accepts path tab.content tab.encoding service write stored) :
    tab.Rebound path (service.written tab.content tab.encoding)
      (TabBar.storeAt path write tab) := by
  rw [h.result]
  exact ⟨rfl, rfl, rfl, rfl, rfl, rfl, rfl⟩

/-- Once the content was stored, the tab moves to it. -/
theorem storesElsewhere_of_accepts (hnodup : desk.bar.ids.Nodup) {tab : Tab}
    (hfound : desk.tab? index = some tab) (hmissing : desk.service.files.get? path = none)
    {write : WriteResult} {stored : MemoryFiles} {outcome : TabOutcome} {bar : TabBar}
    (haccepts : Accepts path tab.content tab.encoding (desk.service.noted .read path) write stored)
    (happly : desk.bar.apply (.savedAs index path write) = .ok (outcome, bar))
    (hservice : after.service = stored) (hbar : after.bar = bar) :
    desk.StoresElsewhere index path after tab (TabBar.storeAt path write tab)
      ((desk.service.noted .read path).written tab.content tab.encoding) where
  found := hfound
  missing := hmissing
  stored := by rw [hservice, haccepts.files, Keyed.get?_insert_self]
  others other hne := by
    rw [hservice, haccepts.files, Keyed.get?_insert_ne _ hne.symm]
    rfl
  content := rfl
  encoding := rfl
  rebound := rebound_storeAt haccepts
  tabs := by
    rw [hbar]
    exact TabBar.makesRoom_savedAs hnodup hfound happly

/-- Where nothing is in the way, the content is stored. -/
theorem saveAs_of_freeFor (hnodup : desk.bar.ids.Nodup) {tab : Tab}
    (hfound : desk.tab? index = some tab) (hconflict : tab.state.isConflict = true)
    {newPath : String} (hfree : desk.FreeFor tab.id (Path.normalize newPath)) :
    (desk.saveAs index tab newPath).1 = .ok () ∧
      ∃ tab' file, desk.StoresElsewhere index (Path.normalize newPath)
        (desk.saveAs index tab newPath).2 tab tab' file := by
  unfold saveAs
  dsimp only
  generalize Path.normalize newPath = path at *
  rw [checkSaveAsTarget_of_freeFor hfree]
  have hunwritten : takeFailure .write path (desk.service.noted .read path).failures = none :=
    hfree.unwritten
  obtain ⟨write, stored, hwrite⟩ := exists_storeFile tab.content tab.encoding hunwritten
  obtain ⟨outcome, bar, happly⟩ := exists_apply_savedAs hfound hconflict hfree.unheld write
  simp only [storeFile, hwrite, dispatch, happly]
  refine ⟨trivial, _, _, storesElsewhere_of_accepts hnodup hfound hfree.missing
    (accepts_of_storeFile hwrite) happly ?_ ?_⟩
  · rw [service_notify, service_logInfo]
  · rw [bar_notify, bar_logInfo]

/-- Where something is in the way, tabs and files are as before. -/
theorem saveAs_of_not_freeFor (htruthful : desk.service.TruthfulReads) (index : Nat) {tab : Tab}
    {newPath : String} (hnot : ¬ desk.FreeFor tab.id (Path.normalize newPath)) :
    ∃ error after, desk.saveAs index tab newPath = (.error error, after) ∧
      after.bar = desk.bar ∧ SameStore desk.service after.service := by
  unfold saveAs
  dsimp only
  generalize Path.normalize newPath = path at *
  have hstore := desk.sameStore_checkSaveAsTarget tab.id path
  have hbar := (desk.performs_checkSaveAsTarget tab.id path).bar
  cases hcheck : desk.checkSaveAsTarget tab.id path with
  | mk answer checked =>
      rw [hcheck] at hstore hbar
      cases answer with
      | error error =>
          refine ⟨_, _, rfl, ?_, ?_⟩
          · rw [bar_notify]
            exact hbar
          · rw [service_notify]
            exact hstore
      | ok _ =>
          obtain ⟨hunheld, hmissing, hunread, rfl⟩ := of_checkSaveAsTarget htruthful hcheck
          dsimp only
          unfold storeFile
          cases hwrite : FileService.storeFile path tab.content tab.encoding none
              (desk.service.noted .read path) with
          | mk answer service =>
              cases answer with
              | error error =>
                  have hsame := sameStore_storeFile (congrArg Prod.fst hwrite)
                  rw [hwrite] at hsame
                  refine ⟨_, _, rfl, ?_, ?_⟩
                  · rw [bar_notify]
                  · rw [service_notify]
                    exact hstore.trans hsame
              | ok write =>
                  have haccepts := accepts_of_storeFile hwrite
                  exact absurd ⟨hunheld, hmissing, hunread, haccepts.unplanned⟩ hnot

/-- Saving as another path stores the content there, or changes nothing. -/
theorem allOrNothing_saveAs (hnodup : desk.bar.ids.Nodup)
    (htruthful : desk.service.TruthfulReads) {tab : Tab} (hfound : desk.tab? index = some tab)
    (hconflict : tab.state.isConflict = true) (newPath : String) :
    desk.AllOrNothing index (Path.normalize newPath) (desk.saveAs index tab newPath) := by
  by_cases hfree : desk.FreeFor tab.id (Path.normalize newPath)
  · obtain ⟨hok, tab', file, hstores⟩ := saveAs_of_freeFor hnodup hfound hconflict hfree
    constructor
    case succeeds_iff => exact ⟨fun _ => ⟨tab, hfound, hconflict, hfree⟩, fun _ => hok⟩
    case refused =>
      intro error herror
      rw [hok] at herror
      cases herror
    case stored => exact fun _ => ⟨tab, tab', file, hstores⟩
  · obtain ⟨error, after, hanswer, hbar, hstore⟩ := saveAs_of_not_freeFor htruthful index hfree
    rw [hanswer]
    refine .of_refused rfl hbar hstore ?_
    rintro ⟨other, hother, -, hother_free⟩
    obtain rfl := Option.some.inj (hother.symm.trans hfound)
    exact hfree hother_free

theorem allOrNothing_resolveConflict (hnodup : desk.bar.ids.Nodup)
    (htruthful : desk.service.TruthfulReads) (index : Nat) (newPath : String) :
    desk.AllOrNothing index (Path.normalize newPath)
      (desk.resolveConflict index (.saveAs newPath)) := by
  unfold resolveConflict
  split
  next hnone =>
    refine .of_refused rfl rfl (.refl _) ?_
    rintro ⟨tab, hfound, -⟩
    rw [hnone] at hfound
    cases hfound
  next tab hfound =>
    split
    next hcalm =>
      refine .of_refused rfl rfl (.refl _) ?_
      rintro ⟨other, hother, hconflict, -⟩
      obtain rfl := Option.some.inj (hother.symm.trans hfound)
      rw [hconflict] at hcalm
      cases hcalm
    next hnot =>
      have hconflict : tab.state.isConflict = true := by simpa using hnot
      exact allOrNothing_saveAs hnodup htruthful hfound hconflict newPath

end Desk

namespace Workspace

variable {start : Workspace MemoryFiles}

/-- After any run, saving a conflict as another file stores it there and moves the tab, or
changes neither tabs nor files. -/
theorem allOrNothing_run (hstart : start.Fresh) (history : List (Step MemoryFiles))
    (htruthful : (start.run history).desk.service.TruthfulReads) (index : Nat)
    (newPath : String) :
    (start.run history).desk.AllOrNothing index (Path.normalize newPath)
      ((start.run history).desk.resolveConflict index (.saveAs newPath)) :=
  Desk.allOrNothing_resolveConflict (numbered_bar hstart.bar history).nodup htruthful index newPath

/-- A tab in conflict, and another one whose file was removed meanwhile. -/
def conflictBesideRemoved : List (Step MemoryFiles) :=
  [.outside fun m => (m.put "/plan" "one").2, .outside fun m => (m.put "/notes" "old").2,
   .openPath "/plan", .openPath "/notes", .edit 0 "two" 5, .upload [.ofText "/plan" "three"],
   .outside fun m => (m.remove "/notes").2,
   .outside (.plan ⟨.write, "/draft", .notFound "/draft"⟩)]

theorem conflictBesideRemoved_allOrNothing :
    openingMemory.Fresh ∧
      (openingMemory.run conflictBesideRemoved).desk.service.TruthfulReads ∧
      (openingMemory.run conflictBesideRemoved).desk.CanSaveAs 0 "/notes" ∧
      (openingMemory.run conflictBesideRemoved).desk.AllOrNothing 0 "/notes"
        ((openingMemory.run conflictBesideRemoved).desk.resolveConflict 0 (.saveAs "/notes/")) := by
  have hfresh : openingMemory.Fresh := fresh_opening _ _ _ _ _
  have htruthful : (openingMemory.run conflictBesideRemoved).desk.service.TruthfulReads := by
    decide +kernel
  have hnormal : Path.normalize "/notes/" = "/notes" := by decide +kernel
  have hall := allOrNothing_run hfresh conflictBesideRemoved htruthful 0 "/notes/"
  rw [hnormal] at hall
  exact ⟨hfresh, htruthful, hall.succeeds_iff.mp (by decide +kernel), hall⟩

end Workspace

end Workbench
