import Workbench.Proofs.File.Recorded
import Workbench.Proofs.Tree.Deeds
import Workbench.Proofs.Workspace.Run

/-! # Operations that fail

To create, rename or delete something is shown in the tree before the service is asked.
If it fails, wherever it fails, the entries and the open changes are again those from
before, whatever else is going on in the tree, and no tab has changed. A file is stored
only after the service was asked for it and has not found it. -/

namespace Workbench

open FileTree

namespace FileTree

variable {tree next : FileTree} {id : MutationId} {change : PendingMutation}

/-- Two trees show the same entries and have the same open changes. -/
structure Alike (tree other : FileTree) : Prop where
  entries : other.entries = tree.entries
  pending : other.pending = tree.pending

theorem Alike.refl (tree : FileTree) : tree.Alike tree := ⟨rfl, rfl⟩

/-- A change that has just begun can be confirmed, whatever the service reports. -/
theorem Begins.confirm (h : Begins tree id change next) (hsound : tree.Sound)
    (reported : List DirEntry) : ∃ settled, next.confirm id reported = .ok settled :=
  ⟨_, (h.sound hsound).confirm_eq h.mem_pending reported⟩

end FileTree

namespace Workspace

variable {σ : Type} {w : Workspace σ} {tree next : FileTree} {id : MutationId}

/-- The tree is as before, and so are the tabs and their requests. The service was asked
in between, and the user was told. -/
structure NoTrace (before after : Workspace σ) : Prop where
  tree : before.tree.Alike after.tree
  bar : after.desk.bar = before.desk.bar
  traffic : after.desk.traffic = before.desk.traffic

theorem NoTrace.refl (w : Workspace σ) : w.NoTrace w := ⟨.refl _, rfl, rfl⟩

/-! ## Changes that are undone at once -/

theorem alike_rolledBack {change : PendingMutation} (h : Begins tree id change next)
    (hsound : tree.Sound) : tree.Alike (rolledBack next id) := by
  rw [rolledBack, h.rollback hsound]
  exact ⟨rfl, rfl⟩

/-- The tree is told what became of a change, unless the change was none of its own. -/
theorem alike_undone {answer : Except TreeError (MutationId × FileTree)} {known : Bool}
    {begun : Option MutationId}
    (hbegins : ∀ id next, answer = .ok (id, next) → ∃ change, Begins tree id change next)
    (hsound : tree.Sound)
    (h : (if known then answer.map fun (id, tree) => (some id, tree) else .ok (none, tree)) =
      .ok (begun, next)) :
    tree.Alike (begun.elim next (rolledBack next ·)) := by
  cases known with
  | false =>
      obtain ⟨rfl, rfl⟩ := Prod.mk.inj (Except.ok.inj h)
      exact .refl tree
  | true =>
      cases hanswer : answer with
      | error error =>
          rw [hanswer] at h
          cases h
      | ok opened =>
          rw [hanswer] at h
          obtain ⟨rfl, rfl⟩ := Prod.mk.inj (Except.ok.inj h)
          obtain ⟨change, hchange⟩ := hbegins _ _ hanswer
          exact alike_rolledBack hchange hsound

theorem noTrace_refuseCreation {change : PendingMutation} (h : Begins w.tree id change next)
    (hsound : w.tree.Sound) (path : String) (error : TreeError) (service : σ) :
    w.NoTrace (refuseCreation next id path error { w.desk with service }).2 :=
  ⟨alike_rolledBack h hsound, by simp [refuseCreation], by simp [refuseCreation]⟩

/-! ## The operations -/

variable [FileService σ]

theorem noTrace_createFile (hsound : w.tree.Sound) {path : String} {error : TreeError}
    (h : (w.createFile path).1 = .error error) : w.NoTrace (w.createFile path).2 := by
  unfold createFile Desk.fetchFile Desk.storeFile at h ⊢
  dsimp only at h ⊢
  cases hbegin : w.tree.beginCreate (Path.normalize path) .file with
  | error refused => exact .refl w
  | ok begun =>
      obtain ⟨change, hchange⟩ := begins_of_beginCreate hbegin
      have hrefused := noTrace_refuseCreation hchange hsound (Path.normalize path)
      rw [hbegin] at h
      dsimp only at h ⊢
      cases hfetch : FileService.fetchFile (Path.normalize path) w.desk.service with
      | mk answer service =>
          rw [hfetch] at h
          cases answer with
          | ok content => exact hrefused _ service
          | error missing =>
              dsimp only at h ⊢
              split at h
              next hknown =>
                rw [if_pos hknown]
                exact hrefused _ service
              next hnone =>
                rw [if_neg hnone]
                cases hstore : FileService.storeFile (Path.normalize path) "" .utf8 none service with
                | mk stored service =>
                    rw [hstore] at h
                    cases stored with
                    | ok write => cases h
                    | error refused => exact hrefused _ service

theorem noTrace_renameSettled (hsound : w.tree.Sound) {oldPath newPath : String}
    {error : TreeError} (h : (w.renameSettled oldPath newPath).1 = .error error) :
    w.NoTrace (w.renameSettled oldPath newPath).2 := by
  unfold renameSettled Desk.movePath at h ⊢
  dsimp only at h ⊢
  cases hbegin : beginKnownRename w.tree (Path.normalize oldPath) (Path.normalize newPath) with
  | error refused => exact .refl w
  | ok begun =>
      have hundone := alike_undone (fun _ _ => begins_of_beginRename) hsound hbegin
      rw [hbegin] at h
      dsimp only at h ⊢
      cases hmove : FileService.movePath (Path.normalize oldPath) (Path.normalize newPath)
          w.desk.service with
      | mk answer service =>
          rw [hmove] at h
          cases answer with
          | ok => cases h
          | error refused => exact ⟨hundone, by simp, by simp⟩

theorem noTrace_deleteSettled (hsound : w.tree.Sound) {path : String} {error : TreeError}
    (h : (w.deleteSettled path).1 = .error error) : w.NoTrace (w.deleteSettled path).2 := by
  unfold deleteSettled Desk.removePath at h ⊢
  dsimp only at h ⊢
  cases hbegin : beginKnownDelete w.tree (Path.normalize path) with
  | error refused => exact .refl w
  | ok begun =>
      have hundone := alike_undone (fun _ _ => begins_of_beginDelete) hsound hbegin
      rw [hbegin] at h
      dsimp only at h ⊢
      cases hremove : FileService.removePath (Path.normalize path) w.desk.service with
      | mk answer service =>
          rw [hremove] at h
          cases answer with
          | ok => cases h
          | error refused =>
              dsimp only at h ⊢
              split at h
              next => cases h
              next hfound =>
                rw [if_neg hfound]
                exact ⟨hundone, by simp, by simp⟩

/-! ## What the creation of a file asks of the service -/

/-- Before anything is stored, the same path was asked for and not found. -/
def StoresOnlyMissing (exchanges : List Exchange) : Prop :=
  ∀ earlier path content encoding expected answer later,
    exchanges = earlier ++ .store path content encoding expected answer :: later →
      ∃ missing, .fetch path (.error (.notFound missing)) ∈ earlier

/-- The calls that the creation of a file makes. -/
inductive CreationExchanges (path : String) : List Exchange → Prop
  | none : CreationExchanges path []
  | asked (answer : Except FileError FileContent) : CreationExchanges path [.fetch path answer]
  | stored (missing : String) (answer : Except FileError WriteResult) :
      CreationExchanges path
        [.fetch path (.error (.notFound missing)), .store path "" .utf8 none answer]

theorem CreationExchanges.storesOnlyMissing {path : String} {exchanges : List Exchange}
    (h : CreationExchanges path exchanges) : StoresOnlyMissing exchanges := by
  intro earlier stored content encoding expected answer later hsplit
  cases h with
  | none => simp at hsplit
  | asked => simp [List.singleton_eq_append_iff] at hsplit
  | stored missing answer =>
      rcases earlier with _ | ⟨first, _ | ⟨second, rest⟩⟩
      · simp at hsplit
      · simp only [List.cons_append, List.nil_append, List.cons.injEq,
          Exchange.store.injEq] at hsplit
        obtain ⟨rfl, ⟨rfl, -⟩, -⟩ := hsplit
        exact ⟨missing, List.mem_singleton_self _⟩
      · simp at hsplit

theorem eq_notFound_of_isNotFound {error : FileError} (h : error.isNotFound = true) :
    ∃ path, error = .notFound path := by
  cases error with
  | notFound path => exact ⟨path, rfl⟩
  | _ => cases h

theorem creationExchanges_createFile (w : Workspace (Recorded σ)) (path : String) :
    ∃ made, (w.createFile path).2.desk.service.exchanges = w.desk.service.exchanges ++ made ∧
      CreationExchanges (Path.normalize path) made := by
  unfold createFile refuseCreation Desk.fetchFile Desk.storeFile
  dsimp only
  cases w.tree.beginCreate (Path.normalize path) .file with
  | error error => exact ⟨[], (List.append_nil _).symm, .none⟩
  | ok begun =>
      dsimp only
      have hasked := w.desk.service.exchanges_fetchFile (Path.normalize path)
      cases hfetch : FileService.fetchFile (Path.normalize path) w.desk.service with
      | mk answer service =>
          rw [hfetch] at hasked
          cases answer with
          | ok content => exact ⟨_, by simpa using hasked, .asked _⟩
          | error error =>
              dsimp only at hasked ⊢
              split
              next => exact ⟨_, by simpa using hasked, .asked _⟩
              next hnone =>
                obtain ⟨missing, rfl⟩ := eq_notFound_of_isNotFound (by simpa using hnone)
                have hstored := service.exchanges_storeFile (Path.normalize path) "" .utf8 none
                cases hstore : FileService.storeFile (Path.normalize path) "" .utf8 none service with
                | mk stored service' =>
                    rw [hstore, hasked, List.append_assoc] at hstored
                    refine ⟨_, ?_, .stored missing stored⟩
                    cases stored with
                    | ok write => simpa [Desk.openFile] using hstored
                    | error refused => simpa using hstored

/-! ## Nothing is left of a failure -/

/-- Whatever was done to the tree before, and whatever the service answers: an operation
that fails leaves the tree as it was, and the tabs as they were once their saves had been
waited for. What the operation has begun can always be confirmed, so none fails after the
service has done its part. And the creation of a file stores nothing over what is there. -/
theorem noTrace_of_failure (history : List Deed) (desk : Desk σ) (recorded : Desk (Recorded σ)) :
    let w : Workspace σ := { desk, tree := empty.after history }
    (∀ path error, (w.createFile path).1 = .error error → w.NoTrace (w.createFile path).2) ∧
      (∀ oldPath newPath error, (w.rename oldPath newPath).1 = .error error →
        w.tree.Alike (w.rename oldPath newPath).2.tree ∧
          (w.settleSavesUnder oldPath).NoTrace (w.rename oldPath newPath).2) ∧
      (∀ path error, (w.delete path).1 = .error error →
        w.tree.Alike (w.delete path).2.tree ∧
          (w.settleSavesUnder path).NoTrace (w.delete path).2) ∧
      (∀ id change next, Begins w.tree id change next →
        ∀ reported, ∃ settled, next.confirm id reported = .ok settled) ∧
      ∀ path, ∃ made,
        (({ desk := recorded, tree := w.tree } : Workspace (Recorded σ)).createFile
          path).2.desk.service.exchanges = recorded.service.exchanges ++ made ∧
            StoresOnlyMissing made := by
  intro w
  have hsound : w.tree.Sound := sound_after history
  refine ⟨?_, ?_, ?_, ?_, ?_⟩
  · exact fun path error h => noTrace_createFile hsound h
  · intro oldPath newPath error h
    have hnone := noTrace_renameSettled (w := w.settleSavesUnder oldPath) hsound h
    exact ⟨hnone.tree, hnone⟩
  · intro path error h
    have hnone := noTrace_deleteSettled (w := w.settleSavesUnder path) hsound h
    exact ⟨hnone.tree, hnone⟩
  · exact fun id change next h reported => h.confirm hsound reported
  · intro path
    obtain ⟨made, hmade, hcreation⟩ := creationExchanges_createFile
      ({ desk := recorded, tree := w.tree } : Workspace (Recorded σ)) path
    exact ⟨made, hmade, hcreation.storesOnlyMissing⟩

/-- A folder with a file in it is listed. -/
def listedFolder : List Deed := [.load [⟨"/a", .folder, 0, none⟩, ⟨"/a/b", .file, 3, none⟩]]

/-- The service is about to refuse one call of every kind that changes files. -/
def refusingChanges : MemoryFiles :=
  { MemoryFiles.empty with
    failures :=
      [⟨.write, "/plan", .transport "reset"⟩, ⟨.rename, "/a", .transport "reset"⟩,
        ⟨.delete, "/a", .transport "reset"⟩] }

theorem noTrace_of_refusingChanges :
    let w : Workspace MemoryFiles :=
      { openingMemory.perform (.outside fun _ => refusingChanges) with
        tree := empty.after listedFolder }
    (w.createFile "/plan").1 = .error (.file (.transport "reset")) ∧
      w.NoTrace (w.createFile "/plan").2 ∧
      (w.rename "/a" "/a/b/c").1 = .error (.file (.transport "reset")) ∧
      w.tree.Alike (w.rename "/a" "/a/b/c").2.tree ∧
      (w.delete "/a").1 = .error (.file (.transport "reset")) ∧
      w.tree.Alike (w.delete "/a").2.tree := by
  intro w
  have hcreate : (w.createFile "/plan").1 = .error (.file (.transport "reset")) := by decide +kernel
  have hrename : (w.rename "/a" "/a/b/c").1 = .error (.file (.transport "reset")) := by
    decide +kernel
  have hdelete : (w.delete "/a").1 = .error (.file (.transport "reset")) := by decide +kernel
  obtain ⟨hcreated, hrenamed, hdeleted, -, -⟩ :=
    noTrace_of_failure listedFolder w.desk (.opening (.starting .empty) .disabled .disabled false)
  exact ⟨hcreate, hcreated _ _ hcreate, hrename, (hrenamed _ _ _ hrename).1, hdelete,
    (hdeleted _ _ hdelete).1⟩

end Workspace

end Workbench
