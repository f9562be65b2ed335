import Workbench.Desk.Traffic
import Workbench.File.Memory

/-! # Writes to files in memory

A write is refused if a failure was planned for it, or if it expects another
version than the one it finds. Every other write replaces what is stored. -/

namespace Workbench

namespace Errand

/-- The version that a write expects to find. -/
def expected? : Errand → Option String
  | .read _ => none
  | .write _ _ _ expected => expected

/-- The service stores a file for the request. -/
def Stores (errand : Errand) (m : MemoryFiles) : Prop :=
  ∃ write, (errand.perform m).1 = .save (.written write)

end Errand

namespace MemoryFiles

/-- A stored file is replaced exactly if no failure was planned and no other
version is expected. -/
theorem stores_iff {m : MemoryFiles} {errand : Errand} {file : StoredFile}
    (hwrite : errand.isWrite = true) (hfile : m.files.get? errand.path = some file) :
    errand.Stores m ↔ takeFailure .write errand.path m.failures = none ∧
      (errand.expected? = none ∨ errand.expected? = some file.etag) := by
  cases errand with
  | read path => cases hwrite
  | write path content encoding expected =>
      simp only [Errand.path, Errand.expected?] at hfile ⊢
      unfold Errand.Stores
      simp only [Errand.perform, FileService.storeFile, calling]
      cases takeFailure .write path m.failures with
      | some failure =>
          obtain ⟨error, failures⟩ := failure
          cases error <;> simp
      | none =>
          simp only [write, hfile]
          cases expected with
          | none => simp
          | some etag =>
              by_cases heq : file.etag = etag
              · simp [heq]
              · simp [heq, Ne.symm heq]

theorem write_cases (path content : String) (encoding : Encoding) (expected : Option String)
    (m : MemoryFiles) :
    write path content encoding expected m = (.error (.versionMismatch path), m) ∨
      write path content encoding expected m =
        (.ok (m.store path content encoding).1, (m.store path content encoding).2) := by
  unfold write
  dsimp only
  split
  · split
    · exact .inl rfl
    · exact .inr rfl
  · exact .inr rfl

/-- After a write that was accepted, the file is stored at the version that was
answered. -/
theorem get?_of_storeFile {m after : MemoryFiles} {path content : String}
    {encoding : Encoding} {expected : Option String} {stored : WriteResult}
    (h : FileService.storeFile path content encoding expected m = (.ok stored, after)) :
    after.files.get? path =
      some { content, encoding, etag := stored.etag, modified := after.clock } := by
  simp only [FileService.storeFile, calling] at h
  split at h
  next => simp at h
  next =>
    rcases write_cases path content encoding expected
        { m with calls := m.calls ++ [(.write, path)] } with hrefused | hstored
    · rw [hrefused] at h
      simp at h
    · rw [hstored] at h
      obtain ⟨hanswer, rfl⟩ := Prod.mk.inj h
      obtain rfl := Except.ok.inj hanswer
      simp [store]

/-- After a write that was not refused, its content is stored. -/
theorem content?_perform {m : MemoryFiles} {path content : String} {encoding : Encoding}
    {expected : Option String} (h : (Errand.write path content encoding expected).Stores m) :
    ((Errand.write path content encoding expected).perform m).2.content? path =
      some content := by
  obtain ⟨stored, hstored⟩ := h
  unfold Errand.perform at hstored ⊢
  dsimp only at hstored ⊢
  cases hanswer : FileService.storeFile path content encoding expected m with
  | mk answer after =>
      cases answer with
      | ok written => simp [content?, get?_of_storeFile hanswer]
      | error error =>
          rw [hanswer] at hstored
          cases error <;> simp at hstored

end MemoryFiles

end Workbench
