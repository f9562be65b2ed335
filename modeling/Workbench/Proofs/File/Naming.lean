import Workbench.Proofs.File.Calls
import Workbench.Proofs.File.Memory

/-! # Versions name contents

Files in memory are stored at a version that is computed from what they hold. No
call and no other client ends this, so what a read or a write answers is named by
its version, and two files of one version are alike unless their digests clash. -/

namespace Workbench

namespace Keyed

universe u

variable {α : Type u} {m : Keyed α} {p : α → Prop}

/-- All values have a property. -/
def All (p : α → Prop) (m : Keyed α) : Prop := ∀ key a, m.get? key = some a → p a

theorem All.insert (h : m.All p) (key : String) {a : α} (ha : p a) : (m.insert key a).All p := by
  intro other b hb
  rw [get?_insert] at hb
  split at hb
  · exact Option.some.inj hb ▸ ha
  · exact h other b hb

theorem All.filter (h : m.All p) (test : String → α → Bool) : (m.filter test).All p := by
  intro key a ha
  rw [get?_filter, Option.filter_eq_some_iff] at ha
  exact h key a ha.1

theorem All.erase (h : m.All p) (key : String) : (m.erase key).All p := h.filter _

end Keyed

/-! ## Names -/

/-- Two different texts have the same version name. -/
def DigestsClash (text other : String) : Prop := text ≠ other ∧ etagOf text = etagOf other

/-- The text whose digest is the version of a file. -/
def namedText (encoding : Encoding) (content : String) : String := encoding.name ++ ":" ++ content

/-- What a read has found is named by its version. -/
def FileContent.Named (content : FileContent) : Prop :=
  content.etag = MemoryFiles.versionOf content.encoding content.content

/-- What is stored is named by its version. -/
def StoredFile.Named (file : StoredFile) : Prop :=
  file.etag = MemoryFiles.versionOf file.encoding file.content

theorem namedText_inj {encoding other : Encoding} {content text : String}
    (h : namedText encoding content = namedText other text) :
    encoding = other ∧ content = text := by
  have hlist := congrArg String.toList h
  simp only [namedText, String.toList_append] at hlist
  cases encoding <;> cases other <;> simp_all [Encoding.name, String.toList_inj]

namespace MemoryFiles

variable {m after : MemoryFiles}

/-- Two versions are equal only of equal contents, unless their digests clash. -/
theorem eq_or_clash_of_versionOf_eq {encoding other : Encoding} {content text : String}
    (h : versionOf encoding content = versionOf other text) :
    (encoding = other ∧ content = text) ∨
      DigestsClash (namedText encoding content) (namedText other text) := by
  by_cases hsame : namedText encoding content = namedText other text
  · exact .inl (namedText_inj hsame)
  · exact .inr ⟨hsame, h⟩

/-- Everything that is stored is named by its version. -/
def Named (m : MemoryFiles) : Prop := m.files.All StoredFile.Named

theorem named_empty : empty.Named := nofun

/-! ## Calls -/

theorem named_calling {α : Type} {call : FileCall} {path : String}
    {answer : MemoryFiles → Except FileError α × MemoryFiles}
    (hanswer : ∀ m, Named m → Named (answer m).2) (h : m.Named) :
    (calling call path answer m).2.Named := by
  unfold calling
  dsimp only
  split
  · exact h
  · exact hanswer _ h

theorem Named.store (h : m.Named) (path content : String) (encoding : Encoding) :
    (m.store path content encoding).2.Named :=
  Keyed.All.insert h path rfl

theorem Named.write (h : m.Named) (path content : String) (encoding : Encoding)
    (expected : Option String) : (m.write path content encoding expected).2.Named := by
  rcases write_cases path content encoding expected m with hrefused | hstored
  · rw [hrefused]
    exact h
  · rw [hstored]
    exact h.store path content encoding

theorem all_moveFile {files : Keyed StoredFile} {p : StoredFile → Prop} (h : files.All p)
    (oldFolder newFolder path : String) : (moveFile oldFolder newFolder files path).All p := by
  unfold moveFile
  split
  next file target hfile _ => exact (h.erase path).insert target (h path file hfile)
  next => exact h.erase path

/-- A rename keeps the files as they are and stores them at other paths. -/
theorem all_rename {p : StoredFile → Prop} (h : m.files.All p) (oldPath newPath : String) :
    (m.rename oldPath newPath).2.files.All p := by
  unfold MemoryFiles.rename
  split
  · exact h
  · split
    next file hfile => exact (h.erase oldPath).insert newPath (h oldPath file hfile)
    next =>
      split
      · exact h
      · -- The files of a folder are moved one by one.
        have hmoved : ∀ (paths : List String) (files : Keyed StoredFile), files.All p →
            (paths.foldl (moveFile oldPath newPath) files).All p := by
          intro paths
          induction paths with
          | nil => exact fun _ hfiles => hfiles
          | cons path rest ih => exact fun _ hfiles => ih _ (all_moveFile hfiles _ _ path)
        exact hmoved _ _ h

theorem all_delete {p : StoredFile → Prop} (h : m.files.All p) (path : String) :
    (m.delete path).2.files.All p := by
  unfold MemoryFiles.delete
  split
  · exact h.erase path
  · split
    · exact h
    · exact h.filter _

theorem Named.rename (h : m.Named) (oldPath newPath : String) :
    (m.rename oldPath newPath).2.Named :=
  all_rename h oldPath newPath

theorem Named.delete (h : m.Named) (path : String) : (m.delete path).2.Named :=
  all_delete h path

/-- No call of the service ends it. -/
theorem keeps_named : FileService.Keeps Named where
  fetch _ _ h := named_calling (fun _ hm => hm) h
  store path content encoding expected _ h :=
    named_calling (fun _ hm => hm.write path content encoding expected) h
  move oldPath newPath _ h := named_calling (fun _ hm => hm.rename oldPath newPath) h
  remove path _ h := named_calling (fun _ hm => hm.delete path) h
  list _ _ h := h

/-! ## Other clients -/

/-- A change that another client makes, or a failure that is planned. -/
inductive ClientChange : (MemoryFiles → MemoryFiles) → Prop
  | put (path content : String) : ClientChange fun m => (m.put path content).2
  | remove (path : String) : ClientChange fun m => (m.remove path).2
  | plan (failure : PlannedFailure) : ClientChange (plan failure)

theorem Named.clientChange {change : MemoryFiles → MemoryFiles} (h : m.Named)
    (hchange : ClientChange change) : (change m).Named := by
  cases hchange with
  | put path content => exact h.store path content .utf8
  | remove path => exact Keyed.All.erase h path
  | plan failure => exact h

/-! ## Answers -/

theorem Named.read (h : m.Named) {path : String} {content : FileContent}
    (hread : m.read path = .ok content) : content.Named := by
  unfold MemoryFiles.read at hread
  split at hread
  next file hfile =>
    obtain rfl := Except.ok.inj hread
    exact h path file hfile
  next => cases hread

/-- What is read is named. -/
theorem Named.fetchFile (h : m.Named) {path : String} {content : FileContent}
    (hread : (FileService.fetchFile path m).1 = .ok content) : content.Named := by
  simp only [FileService.fetchFile, calling] at hread
  split at hread
  · cases hread
  · exact Named.read (m := { m with calls := m.calls ++ [(.read, path)] }) h hread

/-- The answer to a write names what was written. -/
theorem etag_of_storeFile {path content : String} {encoding : Encoding}
    {expected : Option String} {write : WriteResult}
    (hstored : (FileService.storeFile path content encoding expected m).1 = .ok write) :
    write.etag = versionOf encoding content := by
  simp only [FileService.storeFile, calling] at hstored
  split at hstored
  · cases hstored
  · rcases write_cases path content encoding expected
        { m with calls := m.calls ++ [(.write, path)] } with hrefused | hwritten
    · rw [hrefused] at hstored
      cases hstored
    · rw [hwritten] at hstored
      obtain rfl := Except.ok.inj hstored
      rfl

end MemoryFiles

end Workbench
