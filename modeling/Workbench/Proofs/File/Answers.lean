import Workbench.Proofs.File.Memory

/-! # Answers of the files in memory

A call is answered with the failure that was planned for it, and otherwise as the files
are. Whatever the failure, it leaves files and folders alone. -/

namespace Workbench.MemoryFiles

variable {m after : MemoryFiles} {path content oldPath newPath : String} {call : FileCall}
  {error : FileError}

/-- The same files and folders; the calls, the clock and the planned failures may
differ. -/
structure SameStore (m after : MemoryFiles) : Prop where
  files : after.files = m.files
  folders : after.folders = m.folders

theorem SameStore.refl (m : MemoryFiles) : SameStore m m := ⟨rfl, rfl⟩

theorem SameStore.trans {middle : MemoryFiles} (h : SameStore m middle)
    (h' : SameStore middle after) : SameStore m after :=
  ⟨h'.files.trans h.files, h'.folders.trans h.folders⟩

/-- A call noted. -/
def noted (call : FileCall) (path : String) (m : MemoryFiles) : MemoryFiles :=
  { m with calls := m.calls ++ [(call, path)] }

theorem sameStore_noted (call : FileCall) (path : String) (m : MemoryFiles) :
    SameStore m (m.noted call path) := ⟨rfl, rfl⟩

/-- A failure that is taken was planned. -/
theorem mem_of_takeFailure {planned rest : List PlannedFailure}
    (h : takeFailure call path planned = some (error, rest)) :
    ∃ failure ∈ planned, failure.call = call ∧ failure.path = path ∧ failure.error = error := by
  induction planned generalizing rest with
  | nil => cases h
  | cons first others ih =>
      rw [takeFailure] at h
      split at h
      next hfits =>
        obtain ⟨rfl, -⟩ := Prod.mk.inj (Option.some.inj h)
        exact ⟨first, List.mem_cons_self, hfits.1, hfits.2, rfl⟩
      next =>
        obtain ⟨⟨taken, left⟩, htaken, heq⟩ := Option.map_eq_some_iff.mp h
        obtain ⟨rfl, -⟩ := Prod.mk.inj heq
        obtain ⟨failure, hmem, hfailure⟩ := ih htaken
        exact ⟨failure, List.mem_cons_of_mem _ hmem, hfailure⟩

/-- A call fails as planned, or is answered from the files as they are. -/
theorem calling_cases {α : Type} (call : FileCall) (path : String)
    (answer : MemoryFiles → Except FileError α × MemoryFiles) (m : MemoryFiles) :
    (∃ error rest, takeFailure call path m.failures = some (error, rest) ∧
        calling call path answer m = (.error error, { m.noted call path with failures := rest })) ∨
      (takeFailure call path m.failures = none ∧
        calling call path answer m = answer (m.noted call path)) := by
  unfold calling
  dsimp only
  split
  next error rest htaken => exact .inl ⟨error, rest, htaken, rfl⟩
  next hnone => exact .inr ⟨hnone, rfl⟩

/-- If the files as they are refuse nothing that changes them, no failing call does. -/
theorem sameStore_calling {α : Type} {answer : MemoryFiles → Except FileError α × MemoryFiles}
    (hanswer : ∀ m error, (answer m).1 = .error error → (answer m).2 = m)
    (h : (calling call path answer m).1 = .error error) :
    SameStore m (calling call path answer m).2 := by
  rcases calling_cases call path answer m with ⟨_, rest, -, hfailed⟩ | ⟨-, hanswered⟩
  · rw [hfailed]
    exact ⟨rfl, rfl⟩
  · rw [hanswered] at h ⊢
    rw [hanswer _ error h]
    exact sameStore_noted call path m

/-! ## Reading -/

theorem sameStore_fetchFile (path : String) (m : MemoryFiles) :
    SameStore m (FileService.fetchFile path m).2 := by
  rcases calling_cases .read path (fun m => (m.read path, m)) m with ⟨_, _, -, h⟩ | ⟨-, h⟩ <;>
  · change SameStore m (calling .read path _ m).2
    rw [h]
    exact ⟨rfl, rfl⟩

/-- No failure is planned by which a read would pretend that the file is missing. -/
def TruthfulReads (m : MemoryFiles) : Prop :=
  ∀ failure ∈ m.failures, failure.call = .read → failure.error.isNotFound = false

instance (m : MemoryFiles) : Decidable m.TruthfulReads :=
  inferInstanceAs (Decidable (∀ failure ∈ m.failures,
    failure.call = .read → failure.error.isNotFound = false))

/-- Then a read that tells that the file is missing was answered from the files as they
are. -/
theorem of_fetchFile_notFound (htruthful : m.TruthfulReads)
    (h : (FileService.fetchFile path m).1 = .error error) (hmissing : error.isNotFound = true) :
    takeFailure .read path m.failures = none ∧ m.files.get? path = none ∧
      (FileService.fetchFile path m).2 = m.noted .read path := by
  change (calling .read path (fun m => (m.read path, m)) m).1 = .error error at h
  change _ ∧ _ ∧ (calling .read path (fun m => (m.read path, m)) m).2 = _
  rcases calling_cases .read path (fun m => (m.read path, m)) m with
    ⟨planned, rest, htaken, hfailed⟩ | ⟨hnone, hanswered⟩
  · rw [hfailed] at h
    obtain rfl := Except.error.inj h
    obtain ⟨failure, hmem, hcall, -, rfl⟩ := mem_of_takeFailure htaken
    rw [htruthful failure hmem hcall] at hmissing
    cases hmissing
  · rw [hanswered] at h ⊢
    refine ⟨hnone, ?_, rfl⟩
    change (m.noted .read path).read path = .error error at h
    unfold MemoryFiles.read at h
    split at h
    next => cases h
    next hmissing => exact hmissing

/-- A file that is not there is reported as missing, unless a failure was planned. -/
theorem fetchFile_of_missing (hplanned : takeFailure .read path m.failures = none)
    (hnone : m.files.get? path = none) :
    FileService.fetchFile path m = (.error (.notFound path), m.noted .read path) := by
  simp only [FileService.fetchFile, calling, hplanned, read, hnone]
  rfl

/-! ## Writing -/

/-- The file that a write leaves at its path. -/
def written (content : String) (encoding : Encoding) (m : MemoryFiles) : StoredFile :=
  { content, encoding, etag := versionOf encoding content, modified := m.clock + 1 }

/-- A write that is accepted stores a file, and the folders above it. -/
structure Accepts (path content : String) (encoding : Encoding) (m : MemoryFiles)
    (stored : WriteResult) (after : MemoryFiles) : Prop where
  unplanned : takeFailure .write path m.failures = none
  files : after.files = m.files.insert path (m.written content encoding)
  folders : after.folders = addFoldersAbove path m.folders
  result : stored = (m.store path content encoding).1

theorem write_error {encoding : Encoding} {expected : Option String}
    (h : (write path content encoding expected m).1 = .error error) :
    (write path content encoding expected m).2 = m := by
  rcases write_cases path content encoding expected m with hrefused | hstored
  · rw [hrefused]
  · rw [hstored] at h
    cases h

theorem accepts_of_storeFile {encoding : Encoding} {expected : Option String}
    {stored : WriteResult}
    (h : FileService.storeFile path content encoding expected m = (.ok stored, after)) :
    Accepts path content encoding m stored after := by
  change calling .write path (write path content encoding expected) m = _ at h
  rcases calling_cases .write path (write path content encoding expected) m with
    ⟨_, _, -, hfailed⟩ | ⟨hnone, hanswered⟩
  · rw [hfailed] at h
    cases h
  · rw [hanswered] at h
    rcases write_cases path content encoding expected (m.noted .write path) with
      hrefused | hstored
    · rw [hrefused] at h
      cases h
    · rw [hstored] at h
      obtain ⟨hanswer, rfl⟩ := Prod.mk.inj h
      obtain rfl := Except.ok.inj hanswer
      exact ⟨hnone, rfl, rfl, rfl⟩

theorem sameStore_storeFile {encoding : Encoding} {expected : Option String}
    (h : (FileService.storeFile path content encoding expected m).1 = .error error) :
    SameStore m (FileService.storeFile path content encoding expected m).2 :=
  sameStore_calling (fun _ _ => write_error) h

/-- A write that expects no version is accepted, unless a failure was planned. -/
theorem exists_storeFile (content : String) (encoding : Encoding)
    (hplanned : takeFailure .write path m.failures = none) :
    ∃ stored after, FileService.storeFile path content encoding none m = (.ok stored, after) := by
  simp only [FileService.storeFile, calling, hplanned, write]
  exact ⟨_, _, rfl⟩

/-! ## Moving and removing -/

/-- A file or a folder is stored at the path. -/
def Stored (m : MemoryFiles) (path : String) : Prop :=
  m.files.contains path = true ∨ m.folders.contains path = true

/-- The files and folders after a folder has moved, the folders above its new place
added. -/
def movedFolder (oldPath newPath : String) (m : MemoryFiles) : MemoryFiles :=
  let under := fun path => Path.isUnder path oldPath
  let folders := (m.folders.keys.filter under).foldl (moveFolder oldPath newPath) m.folders
  { m with
    files := (m.files.keys.filter under).foldl (moveFile oldPath newPath) m.files
    folders := addFoldersAbove newPath folders }

/-- What the files as they are answer to a rename: a refusal, the move of one file, or
the move of a folder. -/
inductive Renames (oldPath newPath : String) (m : MemoryFiles) :
    Except FileError Unit × MemoryFiles → Prop
  | refused (error : FileError) (h : m.Stored newPath ∨ ¬ m.Stored oldPath) :
      Renames oldPath newPath m (.error error, m)
  | file (hvacant : ¬ m.Stored newPath) {file : StoredFile}
      (hfile : m.files.get? oldPath = some file) :
      Renames oldPath newPath m
        (.ok (),
          { m with
            files := (m.files.erase oldPath).insert newPath file
            folders := addFoldersAbove newPath m.folders })
  | folder (hvacant : ¬ m.Stored newPath) (hfile : m.files.contains oldPath = false)
      (hfolder : m.folders.contains oldPath = true) :
      Renames oldPath newPath m (.ok (), m.movedFolder oldPath newPath)

theorem renames_rename (oldPath newPath : String) (m : MemoryFiles) :
    Renames oldPath newPath m (m.rename oldPath newPath) := by
  unfold rename
  split
  next htaken => exact .refused _ (.inl (by simpa [Stored] using htaken))
  next hfree =>
    have hvacant : ¬ m.Stored newPath := by simpa [Stored] using hfree
    split
    next file hfile => exact .file hvacant hfile
    next hnone =>
      have hfile : m.files.contains oldPath = false := m.files.contains_eq_false.mpr hnone
      split
      next hmissing =>
        have hfolder : m.folders.contains oldPath = false := by simpa using hmissing
        exact .refused _ (.inr (by simp [Stored, hfile, hfolder]))
      next hfolder => exact .folder hvacant hfile (by simpa using hfolder)

theorem rename_error (h : (m.rename oldPath newPath).1 = .error error) :
    (m.rename oldPath newPath).2 = m := by
  have hcases := renames_rename oldPath newPath m
  generalize m.rename oldPath newPath = answered at h hcases ⊢
  cases hcases with
  | refused => rfl
  | file => cases h
  | folder => cases h

theorem sameStore_movePath (h : (FileService.movePath oldPath newPath m).1 = .error error) :
    SameStore m (FileService.movePath oldPath newPath m).2 :=
  sameStore_calling (fun _ _ => rename_error) h

theorem renames_of_movePath (h : FileService.movePath oldPath newPath m = (.ok (), after)) :
    Renames oldPath newPath (m.noted .rename oldPath) (.ok (), after) := by
  change calling .rename oldPath (rename oldPath newPath) m = _ at h
  rcases calling_cases .rename oldPath (rename oldPath newPath) m with
    ⟨_, _, -, hfailed⟩ | ⟨-, hanswered⟩
  · rw [hfailed] at h
    cases h
  · rw [hanswered] at h
    rw [← h]
    exact renames_rename oldPath newPath _

/-- A rename succeeds exactly if no failure was planned, nothing is stored at the new
path and something is at the old one. -/
theorem movePath_eq_ok_iff :
    (FileService.movePath oldPath newPath m).1 = .ok () ↔
      takeFailure .rename oldPath m.failures = none ∧ ¬ m.Stored newPath ∧ m.Stored oldPath := by
  change (calling .rename oldPath (rename oldPath newPath) m).1 = .ok () ↔ _
  rcases calling_cases .rename oldPath (rename oldPath newPath) m with
    ⟨_, _, htaken, hfailed⟩ | ⟨hnone, hanswered⟩
  · simp [hfailed, htaken]
  · rw [hanswered]
    have hcases := renames_rename oldPath newPath (m.noted .rename oldPath)
    generalize (m.noted .rename oldPath).rename oldPath newPath = answered at hcases
    cases hcases with
    | refused error hrefused =>
        refine ⟨nofun, ?_⟩
        rintro ⟨-, hvacant, hstored⟩
        exact (hrefused.elim hvacant fun hmissing => hmissing hstored).elim
    | file hvacant hfile =>
        exact ⟨fun _ => ⟨hnone, hvacant, .inl (Keyed.contains_of_get? hfile)⟩, fun _ => rfl⟩
    | folder hvacant _ hfolder => exact ⟨fun _ => ⟨hnone, hvacant, .inr hfolder⟩, fun _ => rfl⟩

theorem delete_error (h : (m.delete path).1 = .error error) : (m.delete path).2 = m := by
  unfold delete at h ⊢
  split at h
  next => cases h
  next =>
    split at h
    next hfile hmissing => rw [if_neg hfile, if_pos hmissing]
    next => cases h

theorem sameStore_removePath (h : (FileService.removePath path m).1 = .error error) :
    SameStore m (FileService.removePath path m).2 :=
  sameStore_calling (fun _ _ => delete_error) h

/-! ## Answers when no failure is planned -/

theorem calling_of_unplanned {α : Type} (h : m.failures = []) (call : FileCall) (path : String)
    (answer : MemoryFiles → Except FileError α × MemoryFiles) :
    calling call path answer m = answer (m.noted call path) := by
  rcases calling_cases call path answer m with ⟨_, _, htaken, -⟩ | ⟨-, hanswered⟩
  · rw [h] at htaken
    cases htaken
  · exact hanswered

theorem error_of_fetchFile (h : m.failures = [])
    (hrefused : (FileService.fetchFile path m).1 = .error error) : error = .notFound path := by
  change (calling .read path (fun m => (m.read path, m)) m).1 = _ at hrefused
  rw [calling_of_unplanned h] at hrefused
  change (m.noted .read path).read path = _ at hrefused
  unfold MemoryFiles.read at hrefused
  split at hrefused
  next => cases hrefused
  next => exact (Except.error.inj hrefused).symm

theorem error_of_storeFile {content : String} {encoding : Encoding} {expected : Option String}
    (h : m.failures = [])
    (hrefused : (FileService.storeFile path content encoding expected m).1 = .error error) :
    error = .versionMismatch path := by
  change (calling .write path (write path content encoding expected) m).1 = _ at hrefused
  rw [calling_of_unplanned h] at hrefused
  rcases write_cases path content encoding expected (m.noted .write path) with hstale | hstored
  · rw [hstale] at hrefused
    exact (Except.error.inj hrefused).symm
  · rw [hstored] at hrefused
    cases hrefused

theorem error_of_movePath (h : m.failures = [])
    (hrefused : (FileService.movePath oldPath newPath m).1 = .error error) :
    error = .alreadyExists newPath ∨ error = .notFound oldPath := by
  change (calling .rename oldPath (rename oldPath newPath) m).1 = _ at hrefused
  rw [calling_of_unplanned h] at hrefused
  unfold rename at hrefused
  split at hrefused
  next => exact .inl (Except.error.inj hrefused).symm
  next =>
    split at hrefused
    next => cases hrefused
    next =>
      split at hrefused
      next => exact .inr (Except.error.inj hrefused).symm
      next => cases hrefused

theorem error_of_removePath (h : m.failures = [])
    (hrefused : (FileService.removePath path m).1 = .error error) : error = .notFound path := by
  change (calling .delete path (delete path) m).1 = _ at hrefused
  rw [calling_of_unplanned h] at hrefused
  unfold delete at hrefused
  split at hrefused
  next => cases hrefused
  next =>
    split at hrefused
    next => exact (Except.error.inj hrefused).symm
    next => cases hrefused

end Workbench.MemoryFiles
