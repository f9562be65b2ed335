import Workbench.Proofs.File.Answers
import Workbench.Proofs.Path.Ancestors

/-! # Folders of the files in memory

Every folder above something stored is a folder. The folders above a new path are added
only up to the first that is there already, which is enough because that one has all
those above it. So a path at which nothing is stored has nothing below it. -/

namespace Workbench.MemoryFiles

variable {m after : MemoryFiles} {path folder : String}

/-- Every folder above something stored is a folder. -/
def Rooted (m : MemoryFiles) : Prop :=
  ∀ path, m.Stored path → ∀ folder ∈ Path.ancestors path, m.folders.contains folder = true

theorem rooted_empty : empty.Rooted := by
  rintro path (hfile | hfolder)
  · cases hfile
  · cases hfolder

/-- Where nothing is stored, nothing is stored below. -/
theorem Rooted.not_stored_below (h : m.Rooted) (hspelled : Path.Spelled folder)
    (hvacant : ¬ m.Stored folder) (hbelow : Path.Above folder path) : ¬ m.Stored path :=
  fun hstored => hvacant (.inr (h path hstored folder (hspelled.mem_ancestors hbelow)))

/-! ## Adding folders -/

theorem contains_foldl_insert (added : List String) (folders : Keyed Unit) :
    (added.foldl (fun found folder => found.insert folder ()) folders).contains folder = true ↔
      folders.contains folder = true ∨ folder ∈ added := by
  induction added generalizing folders with
  | nil => simp
  | cons first rest ih =>
      rw [List.foldl_cons, ih, Keyed.contains_insert, List.mem_cons]
      constructor
      · rintro ((rfl | hold) | hrest)
        · exact .inr (.inl rfl)
        · exact .inl hold
        · exact .inr (.inr hrest)
      · rintro (hold | rfl | hrest)
        · exact .inl (.inr hold)
        · exact .inl (.inl rfl)
        · exact .inr hrest

/-- It is enough to add folders up to the first that is there, if that one has all
those above it. -/
theorem contains_addFoldersAbove {folders : Keyed Unit}
    (hrooted : ∀ lower ∈ Path.ancestors path, folders.contains lower = true →
      ∀ upper ∈ Path.ancestors lower, folders.contains upper = true) :
    (addFoldersAbove path folders).contains folder = true ↔
      folders.contains folder = true ∨ folder ∈ Path.ancestors path := by
  have hadded : ∀ chain : List String, (∀ lower ∈ chain, lower ∈ Path.ancestors path) →
      chain.Pairwise (fun lower upper => upper ∈ Path.ancestors lower) → folder ∈ chain →
        folders.contains folder = true ∨
          folder ∈ chain.takeWhile fun folder => !folders.contains folder := by
    intro chain hchain hordered hmem
    induction chain with
    | nil => cases hmem
    | cons lowest rest ih =>
        obtain ⟨habove, hordered⟩ := List.pairwise_cons.mp hordered
        obtain ⟨hlowest, hrest⟩ := List.forall_mem_cons.mp hchain
        cases hfound : folders.contains lowest with
        | true =>
            rcases List.mem_cons.mp hmem with rfl | hmem
            · exact .inl hfound
            · exact .inl (hrooted lowest hlowest hfound folder (habove folder hmem))
        | false =>
            rw [List.takeWhile_cons_of_pos (by simp [hfound])]
            rcases List.mem_cons.mp hmem with rfl | hmem
            · exact .inr List.mem_cons_self
            · exact (ih hrest hordered hmem).imp_right (List.mem_cons_of_mem _)
  rw [addFoldersAbove, contains_foldl_insert]
  constructor
  · exact Or.imp_right fun hmem => (List.takeWhile_sublist _).subset hmem
  · rintro (hold | hmem)
    · exact .inl hold
    · exact hadded _ (fun _ h => h) (Path.pairwise_ancestors path) hmem

/-- Storing at one path more, with the folders above it. -/
theorem Rooted.add (h : m.Rooted)
    (hfiles : ∀ other, after.files.contains other = true →
      other = path ∨ m.files.contains other = true)
    (hfolders : after.folders = addFoldersAbove path m.folders) : after.Rooted := by
  have hcontains : ∀ folder, after.folders.contains folder = true ↔
      m.folders.contains folder = true ∨ folder ∈ Path.ancestors path := by
    intro folder
    rw [hfolders]
    exact contains_addFoldersAbove fun lower _ hlower => h lower (.inr hlower)
  intro other hstored folder hfolder
  rw [hcontains]
  rcases hstored with hfile | hother
  · rcases hfiles other hfile with rfl | hfile
    · exact .inr hfolder
    · exact .inl (h other (.inl hfile) folder hfolder)
  · rcases (hcontains other).mp hother with hother | hmem
    · exact .inl (h other (.inr hother) folder hfolder)
    · exact .inr (Path.mem_ancestors_trans hfolder hmem)

/-- Dropping files. -/
theorem Rooted.of_files (h : m.Rooted)
    (hfiles : ∀ path, after.files.contains path = true → m.files.contains path = true)
    (hfolders : after.folders = m.folders) : after.Rooted := by
  rintro path (hfile | hpath) folder hfolder
  · rw [hfolders]
    exact h path (.inl (hfiles path hfile)) folder hfolder
  · rw [hfolders] at hpath ⊢
    exact h path (.inr hpath) folder hfolder

theorem Rooted.store (h : m.Rooted) (path content : String) (encoding : Encoding) :
    (m.store path content encoding).2.Rooted := by
  refine h.add ?_ rfl
  intro other hother
  exact ((Keyed.contains_insert _ _).mp hother).imp_left Eq.symm

theorem Rooted.remove (h : m.Rooted) (path : String) : (m.remove path).2.Rooted :=
  h.of_files (fun _ hother => ((Keyed.contains_erase _).mp hother).1) rfl

theorem Rooted.write (h : m.Rooted) (path content : String) (encoding : Encoding)
    (expected : Option String) : (m.write path content encoding expected).2.Rooted := by
  rcases write_cases path content encoding expected m with hrefused | hstored
  · rw [hrefused]
    exact h
  · rw [hstored]
    exact h.store path content encoding

theorem Rooted.delete (h : m.Rooted) (path : String) : (m.delete path).2.Rooted := by
  unfold MemoryFiles.delete
  split
  · exact h.of_files (fun _ hother => ((Keyed.contains_erase _).mp hother).1) rfl
  · split
    · exact h
    · -- Above what is left, nothing was at or below the deleted folder.
      intro other hstored folder hfolder
      have hkept : m.Stored other ∧ (!Path.isUnder other path) = true := by
        rcases hstored with hfile | hother
        · have hfile' := (Keyed.contains_filter _ fun key => !Path.isUnder key path).mp hfile
          exact ⟨.inl hfile'.1, hfile'.2⟩
        · have hother' := (Keyed.contains_filter _ fun key => !Path.isUnder key path).mp hother
          exact ⟨.inr hother'.1, hother'.2⟩
      refine (Keyed.contains_filter _ fun key => !Path.isUnder key path).mpr
        ⟨h other hkept.1 folder hfolder, ?_⟩
      cases hunder : Path.isUnder folder path with
      | false => rfl
      | true =>
          have hbelow := Path.isUnder_of_above hunder (Path.mem_ancestors_iff.mp hfolder).2.2
          simp [hbelow] at hkept

end Workbench.MemoryFiles
