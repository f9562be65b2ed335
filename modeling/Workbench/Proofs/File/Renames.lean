import Workbench.Proofs.File.Folders
import Workbench.Proofs.Relocation

/-! # Renames of the files in memory

A rename moves a file alone, and a folder entry by entry while the others are in place.
As every folder above something stored is a folder, a path at which nothing is stored
has nothing below it either. So whatever the order of the moves, and even when a folder
goes below itself, no entry is moved onto another one. -/

namespace Workbench.MemoryFiles

variable {m after : MemoryFiles} {oldPath newPath : String}

/-! ## Moving a folder -/

/-- The keys at or below a folder that moves to a vacant path go to their places in the
moved folder, whatever is stored under them. -/
theorem relocated_under {α : Type} {entries : Keyed α} {step : Keyed α → String → Keyed α}
    (hnew : Path.Spelled newPath)
    (hstep : ∀ key, Path.isUnder key oldPath = true → ∀ (found : Keyed α) a,
      found.get? key = some a →
        step found key = (found.erase key).insert (Path.placeIn oldPath newPath key) a)
    (hvacant : ∀ key, key = newPath ∨ Path.Above newPath key → entries.contains key = false) :
    entries.Relocated
      ((entries.keys.filter fun key => Path.isUnder key oldPath).foldl step entries)
      (Path.placeIn oldPath newPath) := by
  have hmoving : ∀ key ∈ entries.keys.filter (fun key => Path.isUnder key oldPath),
      entries.contains key = true ∧ Path.isUnder key oldPath = true := by
    intro key hkey
    obtain ⟨hmem, hunder⟩ := List.mem_filter.mp hkey
    exact ⟨entries.mem_keys_iff.mp hmem, hunder⟩
  refine (Keyed.relocated_foldl (fun key hkey => hstep key (hmoving key hkey).2) entries
    (entries.nodup_keys.filter _) (fun key hkey => (hmoving key hkey).1) ?_ ?_).congr ?_
  · intro key hkey
    have htarget := Path.rebase?_eq_some_placeIn newPath (hmoving key hkey).2
    exact hvacant _ (Path.eq_or_above_of_rebase? hnew.unslashed htarget)
  · intro key hkey other hother heq
    have htarget := Path.rebase?_eq_some_placeIn newPath (hmoving key hkey).2
    have htarget' := Path.rebase?_eq_some_placeIn newPath (hmoving other hother).2
    rw [← heq] at htarget'
    exact Path.rebase?_injective hnew.unslashed htarget htarget'
  · intro key hkey
    split
    next => rfl
    next hnot =>
      symm
      apply Path.placeIn_of_not_isUnder
      intro hunder
      exact hnot (List.mem_filter.mpr ⟨entries.mem_keys_iff.mpr hkey, hunder⟩)

/-- Where a stored path lies once another was renamed: a file is moved alone, a folder
with everything at or below it. -/
def place (m : MemoryFiles) (oldPath newPath path : String) : String :=
  if m.files.contains oldPath then (if path = oldPath then newPath else path)
  else Path.placeIn oldPath newPath path

/-- What a rename does to the files: each is found unchanged at its place, and the places
of those that move were vacant. -/
structure Relocates (oldPath newPath : String) (m after : MemoryFiles) : Prop where
  files : m.files.Relocated after.files (m.place oldPath newPath)
  vacant : ∀ path, m.files.contains path = true → m.place oldPath newPath path ≠ path →
    ¬ m.Stored (m.place oldPath newPath path)

theorem Rooted.not_stored_of_at_or_below (h : m.Rooted) (hnew : Path.Spelled newPath)
    (hvacant : ¬ m.Stored newPath) {path : String}
    (hpath : path = newPath ∨ Path.Above newPath path) : ¬ m.Stored path := by
  rcases hpath with rfl | hbelow
  · exact hvacant
  · exact h.not_stored_below hnew hvacant hbelow

/-! The folders, wherever they were moved to, are enough for what stays and, with those
above the new path, for what moves. -/

section Moved

variable {moved : Keyed Unit} {former folder : String}
  (hmoved : m.folders.Relocated moved (Path.placeIn oldPath newPath))
include hmoved

theorem Rooted.contains_of_not_isUnder (h : m.Rooted) (hformer : m.Stored former)
    (hout : ¬ Path.isUnder former oldPath = true) (hmem : folder ∈ Path.ancestors former) :
    moved.contains folder = true := by
  have hout' : ¬ Path.isUnder folder oldPath = true := fun hunder =>
    hout (Path.isUnder_of_above hunder (Path.mem_ancestors_iff.mp hmem).2.2)
  have hkept := hmoved.contains (h former hformer folder hmem)
  rwa [Path.placeIn_of_not_isUnder hout'] at hkept

theorem Rooted.contains_of_placeIn (h : m.Rooted) (hold : Path.Spelled oldPath)
    (hnew : Path.Spelled newPath) (hfolder : m.folders.contains oldPath = true)
    (hformer : m.Stored former)
    (hmem : folder ∈ Path.ancestors (Path.placeIn oldPath newPath former)) :
    moved.contains folder = true ∨ folder ∈ Path.ancestors newPath := by
  by_cases hunder : Path.isUnder former oldPath = true
  · rcases Path.mem_ancestors_placeIn hold hnew hunder hmem with
      habove | rfl | ⟨upper, hupper, -, rfl⟩
    · exact .inr habove
    · have htop := hmoved.contains hfolder
      rw [Path.placeIn, Path.rebase?_self, Option.getD_some] at htop
      exact .inl htop
    · exact .inl (hmoved.contains (h former hformer upper hupper))
  · rw [Path.placeIn_of_not_isUnder hunder] at hmem
    exact .inl (h.contains_of_not_isUnder hmoved hformer hunder hmem)

/-- What lies above the new path was not moved. -/
theorem Rooted.contains_of_mem_ancestors (h : m.Rooted) (hnew : Path.Spelled newPath)
    {lower upper : String} (hlower : lower ∈ Path.ancestors newPath)
    (hcontains : moved.contains lower = true) (hupper : upper ∈ Path.ancestors lower) :
    moved.contains upper = true := by
  obtain ⟨former, hformer, rfl⟩ := hmoved.exists_former hcontains
  have habove := (Path.mem_ancestors_iff.mp hlower).2.2
  by_cases hunder : Path.isUnder former oldPath = true
  · have htarget := Path.rebase?_eq_some_placeIn newPath hunder
    rcases Path.eq_or_above_of_rebase? hnew.unslashed htarget with heq | hbelow
    · exact absurd heq habove.ne
    · exact absurd rfl (habove.trans hbelow).ne
  · rw [Path.placeIn_of_not_isUnder hunder] at hupper
    exact h.contains_of_not_isUnder hmoved (.inr hformer) hunder hupper

end Moved

section MovedFolder

variable (h : m.Rooted) (hnew : Path.Spelled newPath) (hvacant : ¬ m.Stored newPath)
include h hnew hvacant

theorem relocated_files_movedFolder (oldPath : String) :
    m.files.Relocated (m.movedFolder oldPath newPath).files (Path.placeIn oldPath newPath) := by
  apply relocated_under hnew
  · intro key hunder files file hfile
    simp only [moveFile, hfile, Path.rebase?_eq_some_placeIn newPath hunder]
  · intro key hkey
    have hfree := h.not_stored_of_at_or_below hnew hvacant hkey
    exact Bool.eq_false_iff.mpr fun hstored => hfree (.inl hstored)

theorem relocated_folders_movedFolder (oldPath : String) :
    m.folders.Relocated
      ((m.folders.keys.filter fun path => Path.isUnder path oldPath).foldl
        (moveFolder oldPath newPath) m.folders)
      (Path.placeIn oldPath newPath) := by
  apply relocated_under hnew
  · intro key hunder folders _ _
    simp only [moveFolder, Path.rebase?_eq_some_placeIn newPath hunder]
  · intro key hkey
    have hfree := h.not_stored_of_at_or_below hnew hvacant hkey
    exact Bool.eq_false_iff.mpr fun hstored => hfree (.inr hstored)

theorem Rooted.movedFolder (hold : Path.Spelled oldPath)
    (hfolder : m.folders.contains oldPath = true) : (m.movedFolder oldPath newPath).Rooted := by
  have hfiles := relocated_files_movedFolder h hnew hvacant oldPath
  let moved := (m.folders.keys.filter fun path => Path.isUnder path oldPath).foldl
    (moveFolder oldPath newPath) m.folders
  have hfolders : m.folders.Relocated moved (Path.placeIn oldPath newPath) :=
    relocated_folders_movedFolder h hnew hvacant oldPath
  have hcontains : ∀ folder, (m.movedFolder oldPath newPath).folders.contains folder = true ↔
      moved.contains folder = true ∨ folder ∈ Path.ancestors newPath :=
    fun _ => contains_addFoldersAbove fun _ hlower hkept _ hupper =>
      h.contains_of_mem_ancestors hfolders hnew hlower hkept hupper
  intro path hstored folder hmem
  rw [hcontains]
  rcases hstored with hfile | hpath
  · obtain ⟨former, hformer, rfl⟩ := hfiles.exists_former hfile
    exact h.contains_of_placeIn hfolders hold hnew hfolder (.inl hformer) hmem
  · rcases (hcontains path).mp hpath with hmoved | habove
    · obtain ⟨former, hformer, rfl⟩ := hfolders.exists_former hmoved
      exact h.contains_of_placeIn hfolders hold hnew hfolder (.inr hformer) hmem
    · exact .inr (Path.mem_ancestors_trans hmem habove)

end MovedFolder

/-- A rename that is not refused relocates the files and keeps the folders whole. -/
theorem Rooted.renames (h : m.Rooted) (hold : Path.Spelled oldPath) (hnew : Path.Spelled newPath)
    (hrenames : Renames oldPath newPath m (.ok (), after)) :
    Relocates oldPath newPath m after ∧ after.Rooted := by
  cases hrenames with
  | file hvacant hfile =>
      have hstored : m.files.contains oldPath = true := Keyed.contains_of_get? hfile
      have hfree : m.files.contains newPath = false :=
        Bool.eq_false_iff.mpr fun hcontains => hvacant (.inl hcontains)
      have hplace : m.place oldPath newPath = fun path =>
          if path = oldPath then newPath else path := by
        funext path
        rw [place, if_pos hstored]
      refine ⟨⟨?_, ?_⟩, h.add ?_ rfl⟩
      · rw [hplace]
        exact Keyed.relocated_single hfile hfree
      · intro path _ hmoves
        rw [hplace] at hmoves ⊢
        dsimp only at hmoves ⊢
        split at hmoves
        next heq =>
          rw [if_pos heq]
          exact hvacant
        next => exact absurd rfl hmoves
      · intro other hother
        rcases (Keyed.contains_insert _ _).mp hother with heq | hrest
        · exact .inl heq.symm
        · exact .inr ((Keyed.contains_erase _).mp hrest).1
  | folder hvacant hfile hfolder =>
      have hplace : m.place oldPath newPath = Path.placeIn oldPath newPath := by
        funext path
        rw [place, if_neg (by simp [hfile])]
      refine ⟨⟨?_, ?_⟩, h.movedFolder hnew hvacant hold hfolder⟩
      · rw [hplace]
        exact relocated_files_movedFolder h hnew hvacant oldPath
      · intro path _ hmoves
        rw [hplace] at hmoves ⊢
        by_cases hunder : Path.isUnder path oldPath = true
        · have htarget := Path.rebase?_eq_some_placeIn newPath hunder
          exact h.not_stored_of_at_or_below hnew hvacant
            (Path.eq_or_above_of_rebase? hnew.unslashed htarget)
        · exact absurd (Path.placeIn_of_not_isUnder hunder) hmoves

theorem relocates_of_movePath (h : m.Rooted) (hold : Path.Spelled oldPath)
    (hnew : Path.Spelled newPath)
    (hmoved : FileService.movePath oldPath newPath m = (.ok (), after)) :
    Relocates oldPath newPath m after := by
  have hnoted : (m.noted .rename oldPath).Rooted := h
  obtain ⟨hrelocates, -⟩ := hnoted.renames hold hnew (renames_of_movePath hmoved)
  exact ⟨hrelocates.files, hrelocates.vacant⟩

end Workbench.MemoryFiles
