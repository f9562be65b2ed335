import Workbench.Proofs.File.Recorded
import Workbench.Proofs.Path.Hierarchy
import Workbench.Proofs.Path.Spelling
import Workbench.Proofs.Session.Course
import Workbench.Proofs.Tree.Listing

/-! # Listing a folder in a session

A folder is listed at the usual spelling of its path. In a session the path is normalized
twice, once for what is shown and once more for what is asked of the service. So the folder
that is shown is the one that was listed exactly if the second time changes nothing, and for a
typed path it never does. -/

namespace Workbench

open Text

/-! ## Typed folders -/

namespace Command

variable {line verb folder : String} {rest : List Char}

theorem exists_of_map_eq_ok {ε α β : Type} {f : α → β} {e : Except ε α} {b : β}
    (h : e.map f = .ok b) : ∃ a, e = .ok a ∧ f a = b := by
  cases e with
  | error error => cases h
  | ok a => exact ⟨a, rfl, Except.ok.inj h⟩

theorem map_ne_ok {ε α β : Type} {f : α → β} {e : Except ε α} {b : β} (h : ∀ a, f a ≠ b) :
    e.map f ≠ .ok b := by
  intro heq
  obtain ⟨a, -, hb⟩ := exists_of_map_eq_ok heq
  exact h a hb

theorem bind_ne_ok {ε α β : Type} {f : α → Except ε β} {e : Except ε α} {b : β}
    (h : ∀ a, f a ≠ .ok b) : e >>= f ≠ .ok b := by
  cases e with
  | error error => exact nofun
  | ok a => exact h a

/-- The folder to be listed is a word of the line, or the root. -/
theorem folder_of_ofVerb (h : ofVerb verb rest = .ok (.list folder)) :
    folder = "/" ∨ folder.toList ∈ wordsOf rest := by
  unfold ofVerb at h
  dsimp only at h
  split at h
  -- No other verb than `ls` lists a folder.
  all_goals
    first
    | cases h; done
    | exact absurd h (map_ne_ok nofun)
    | exact absurd h (bind_ne_ok fun _ => bind_ne_ok fun _ => nofun)
    | skip
  obtain rfl := list.inj (Except.ok.inj h)
  cases wordsOf rest with
  | nil => exact .inl rfl
  | cons word words => exact .inr (by simp)

theorem folder_of_parse (h : parse line = .ok (some (.list folder))) :
    ∃ rest, folder = "/" ∨ folder.toList ∈ wordsOf rest := by
  unfold parse at h
  split at h
  next => cases h
  next => cases h
  next =>
    obtain ⟨command, hverb, hsome⟩ := exists_of_map_eq_ok h
    obtain rfl := Option.some.inj hsome
    exact ⟨_, folder_of_ofVerb hverb⟩

/-- A folder that is typed has no blank before its last slashes, as it has none at all. -/
theorem not_blankBeforeSlashes_of_parse (h : parse line = .ok (some (.list folder))) :
    ¬ Path.BlankBeforeSlashes folder := by
  rintro ⟨before, blank, slashes, trail, hspell, -, hblank, -⟩
  have hmem : blank ∈ folder.toList := by simp [hspell]
  obtain ⟨rest, rfl | hword⟩ := folder_of_parse h
  · obtain rfl : blank = '/' := by simpa using hmem
    exact absurd hblank (by decide)
  · have hnot := (isWord_of_mem_wordsOf hword).noBlank blank hmem
    simp [hnot] at hblank

end Command

/-! ## What is asked for, and what is shown -/

section Asked

variable {σ : Type} [FileService σ] {path : String}

/-- A listing asks the service for one folder, at the usual spelling. -/
theorem Workspace.asked_refreshFolder (w : Workspace (Recorded σ)) (path : String) :
    ∃ answer, (w.refreshFolder path).2.desk.service.exchanges =
      w.desk.service.exchanges ++ [.list (Path.normalize path) answer] := by
  unfold Workspace.refreshFolder Desk.listFolder
  have hlisted := w.desk.service.exchanges_listFolder (Path.normalize path)
  cases hlist : FileService.listFolder (Path.normalize path) w.desk.service with
  | mk answer service =>
      rw [hlist] at hlisted
      refine ⟨answer, ?_⟩
      cases answer <;> exact hlisted

namespace Shell

/-- In a session the path has been normalized before. -/
theorem workspace_list (shell : Shell σ) (now : Nat) (path : String) :
    (shell.execute now (.list path)).2.workspace =
      (shell.workspace.refreshFolder (Path.normalize path)).2 :=
  congrArg workspace (shell.snd_onTree _ _)

theorem asked_list (shell : Shell (Recorded σ)) (now : Nat) (path : String) :
    ∃ answer, (shell.execute now (.list path)).2.desk.service.exchanges =
      shell.desk.service.exchanges ++ [.list (Path.normalize (Path.normalize path)) answer] := by
  obtain ⟨answer, hanswer⟩ := shell.workspace.asked_refreshFolder (Path.normalize path)
  refine ⟨answer, ?_⟩
  rw [desk, workspace_list, hanswer]
  rfl

/-- The service is asked for the folder that is shown exactly if its path is the same the second
time. -/
theorem asked_list_iff (shell : Shell (Recorded σ)) (now : Nat) :
    (∃ answer, (shell.execute now (.list path)).2.desk.service.exchanges =
        shell.desk.service.exchanges ++ [.list (Path.normalize path) answer]) ↔
      Path.normalize (Path.normalize path) = Path.normalize path := by
  obtain ⟨asked, hasked⟩ := shell.asked_list now path
  rw [hasked]
  constructor
  · rintro ⟨answer, hanswer⟩
    exact (Exchange.list.inj (List.singleton_inj.mp (List.append_cancel_left hanswer))).1
  · exact fun hsettled => ⟨asked, by rw [hsettled]⟩

end Shell

end Asked

namespace Shell

variable {shell : Shell MemoryFiles} {now : Nat} {path : String}

/-- After `ls`, the folder is shown with everything that is stored in it. -/
structure ShowsStored (shell : Shell MemoryFiles) (now : Nat) (path : String) : Prop where
  reply : (shell.execute now (.list path)).1 =
    .ok (folderLines (shell.execute now (.list path)).2.workspace.tree (Path.normalize path))
  shown : ∀ stored, shell.desk.service.Stored stored →
    Path.parent? stored = some (Path.normalize path) →
      stored ∈ ((shell.execute now (.list path)).2.workspace.tree.children
        (Path.normalize path)).map (·.path)

/-- Over files in memory, `ls` loads the listing of the folder at the path normalized twice. -/
theorem tree_list (shell : Shell MemoryFiles) (now : Nat) (path : String) :
    (shell.execute now (.list path)).2.workspace.tree =
      shell.workspace.tree.load
        (shell.desk.service.list (Path.normalize (Path.normalize path))) := rfl

theorem showsStored_of_settled (hown : shell.workspace.tree.OwnPaths)
    (hsettled : Path.normalize (Path.normalize path) = Path.normalize path) :
    shell.ShowsStored now path where
  reply := rfl
  shown stored hstored hparent := by
    rw [tree_list, hsettled, FileTree.mem_children_iff (hown.load _), FileTree.contains_load_iff]
    exact ⟨.inl (shell.desk.service.mem_list_iff.mpr ⟨hstored, hparent⟩), hparent⟩

/-- A file in a folder. -/
def planIn (folder : String) : String := String.ofList (folder.toList ++ '/' :: "plan".toList)

theorem parent?_planIn {folder : String} (h : folder ≠ "") :
    Path.parent? (planIn folder) = some folder := by
  have hcut : cutAtLast '/' (planIn folder).toList = some (folder.toList, "plan".toList) := by
    rw [planIn, String.toList_ofList]
    exact cutAtLast_append (by decide)
  have hne : folder.toList ≠ [] := fun hnil => h (String.toList_injective hnil)
  simp [Path.parent?, hcut, hne]

/-- A shell over one file in a folder. Nothing has been listed yet. -/
def overPlanIn (folder : String) : Shell MemoryFiles :=
  { workspace := Workspace.openingMemory.run [.outside fun m => (m.put (planIn folder) "one").2]
    snapshotFile := none
    disk := .empty }

theorem ownPaths_overPlanIn (folder : String) : (overPlanIn folder).workspace.tree.OwnPaths :=
  fun _ _ hentry => nomatch hentry

theorem stored_planIn (folder : String) : (overPlanIn folder).desk.service.Stored (planIn folder) :=
  .inl ((Keyed.contains_insert _ _).mpr (.inl rfl))

/-- Where the path changes the second time, another folder is listed than the one that is
shown. -/
theorem not_showsStored (hchanges : Path.normalize (Path.normalize path) ≠ Path.normalize path) :
    ¬ (overPlanIn (Path.normalize path)).ShowsStored now path := by
  intro hshows
  have hempty : Path.normalize path ≠ "" := by
    intro heq
    rw [heq] at hchanges
    exact hchanges (by decide)
  have hparent := parent?_planIn hempty
  have hshown := hshows.shown _ (stored_planIn _) hparent
  rw [tree_list, FileTree.mem_children_iff ((ownPaths_overPlanIn _).load _),
    FileTree.contains_load_iff] at hshown
  rcases hshown.1 with hlisted | hheld
  · have hother := (MemoryFiles.mem_list_iff _).mp hlisted
    exact hchanges (Option.some.inj (hother.2.symm.trans hparent))
  · cases hheld

end Shell

/-- What holds of the usual spelling of a path, and what the listing of a folder makes of it. -/
structure CanonicalUnlessBlank (path : String) : Prop where
  begins : ∀ c, (Path.normalize path).toList.head? = some c → isBlank c = false
  unslashed : (Path.normalize path).toList.getLast? = some '/' → Path.normalize path = "/"
  ends_iff : (∀ c, (Path.normalize path).toList.getLast? = some c → isBlank c = false) ↔
    ¬ Path.BlankBeforeSlashes path
  settled_iff : Path.normalize (Path.normalize path) = Path.normalize path ↔
    ¬ Path.BlankBeforeSlashes path
  /-- To list a folder, the service is asked for it at the usual spelling. -/
  listed : ∀ (σ : Type) [FileService σ] (w : Workspace (Recorded σ)),
    ∃ answer, (w.refreshFolder path).2.desk.service.exchanges =
      w.desk.service.exchanges ++ [.list (Path.normalize path) answer]
  /-- In a session it is asked for at the spelling at which the folder is shown. -/
  asked_iff : ∀ (σ : Type) [FileService σ] (shell : Shell (Recorded σ)) (now : Nat),
    (∃ answer, (shell.execute now (.list path)).2.desk.service.exchanges =
        shell.desk.service.exchanges ++ [.list (Path.normalize path) answer]) ↔
      ¬ Path.BlankBeforeSlashes path
  /-- Over files in memory, all that is stored in the folder is shown. -/
  shown_iff : (∀ shell : Shell MemoryFiles, shell.workspace.tree.OwnPaths →
      ∀ now, shell.ShowsStored now path) ↔ ¬ Path.BlankBeforeSlashes path
  /-- No such path can be typed after `ls`. -/
  typed : ∀ line, Command.parse line = .ok (some (.list path)) → ¬ Path.BlankBeforeSlashes path

/-- The usual spelling of a path is canonical, and the folder that a session shows is the one
that it has listed, exactly if no blank stands before the slashes at the end of the path. -/
theorem normalize_canonicalUnlessBlank (path : String) : CanonicalUnlessBlank path where
  begins := Path.begins_normalize path
  unslashed := Path.unslashed_normalize path
  ends_iff := Path.ends_normalize_iff
  settled_iff := Path.normalize_normalize_iff
  listed _ _ w := w.asked_refreshFolder path
  asked_iff _ _ shell now := (shell.asked_list_iff now).trans Path.normalize_normalize_iff
  shown_iff := by
    rw [← Path.normalize_normalize_iff]
    constructor
    · intro hshows
      by_contra hchanges
      exact Shell.not_showsStored hchanges (hshows _ (Shell.ownPaths_overPlanIn _) 0)
    · exact fun hsettled shell hown now => Shell.showsStored_of_settled hown hsettled
  typed _ := Command.not_blankBeforeSlashes_of_parse

/-- A folder whose name ends with a blank is given with a slash. Its usual spelling ends with the
blank and is another one the second time, so the folder is shown empty although a file is stored
in it. -/
theorem blankBeforeSlash_not_canonical :
    (Path.normalize "/x /").toList.getLast? = some ' ' ∧ isBlank ' ' = true ∧
      Path.normalize (Path.normalize "/x /") ≠ Path.normalize "/x /" ∧
      (Shell.overPlanIn "/x ").desk.service.Stored "/x /plan" ∧
      Path.parent? "/x /plan" = some (Path.normalize "/x /") ∧
      ((Shell.overPlanIn "/x ").execute 0 (.list "/x /")).1 = .ok "empty" := by
  have hstored := Shell.stored_planIn "/x "
  rw [show Shell.planIn "/x " = "/x /plan" by decide] at hstored
  exact ⟨by decide +kernel, by decide, by decide +kernel, hstored, by decide +kernel,
    by decide +kernel⟩

end Workbench
