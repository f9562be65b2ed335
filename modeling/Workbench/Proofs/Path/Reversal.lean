import Workbench.Proofs.Tabs.Folders
import Workbench.Proofs.Tree.Rename

/-! # Renames can be reversed

Where a path goes when its folder is renamed is told by what follows the folder in its
spelling, and that is kept. So the way back is the rename in the other direction, a second
rename goes on from where the first one led, and nothing that was apart meets. The tabs and
the entries of the tree move along the same places. -/

namespace Workbench

namespace Path

open Text

variable {path other target oldFolder newFolder : String}

/-- The spellings of a path and of its place in a renamed folder: the folder and its new
name, each followed by the same rest. -/
theorem rebase?_eq_some_iff (hold : oldFolder.toList.getLast? ≠ some '/')
    (hnew : newFolder.toList.getLast? ≠ some '/') :
    rebase? path oldFolder newFolder = some target ↔
      ∃ rest, (rest = [] ∨ rest.head? = some '/') ∧
        path.toList = oldFolder.toList ++ rest ∧ target.toList = newFolder.toList ++ rest := by
  constructor
  · intro h
    rcases rebase?_eq_some hnew h with ⟨rfl, rfl⟩ | ⟨rest, hpath, htarget, hhead⟩
    · exact ⟨[], .inl rfl, (List.append_nil _).symm, (List.append_nil _).symm⟩
    · rw [dropEndWhile_of_unslashed hold] at hpath
      exact ⟨rest, .inr hhead, hpath, htarget⟩
  · rintro ⟨rest, hrest | hhead, hpath, htarget⟩
    · rw [hrest, List.append_nil] at hpath htarget
      obtain rfl := String.toList_injective hpath
      obtain rfl := String.toList_injective htarget
      exact rebase?_self path target
    · obtain ⟨more, rfl⟩ := List.head?_eq_some_iff.mp hhead
      rw [rebase?_of_above hold hnew hpath, ← htarget, String.ofList_toList]

/-- A path comes back from its new place when the folder is given its old name again. -/
theorem rebase?_reverse (hold : oldFolder.toList.getLast? ≠ some '/')
    (hnew : newFolder.toList.getLast? ≠ some '/')
    (h : rebase? path oldFolder newFolder = some target) :
    rebase? target newFolder oldFolder = some path := by
  obtain ⟨rest, hrest, hpath, htarget⟩ := (rebase?_eq_some_iff hold hnew).mp h
  exact (rebase?_eq_some_iff hnew hold).mpr ⟨rest, hrest, htarget, hpath⟩

/-- Two renames lead where one rename from the first name to the last would have led. -/
theorem rebase?_onward {lastFolder : String} (hold : oldFolder.toList.getLast? ≠ some '/')
    (hnew : newFolder.toList.getLast? ≠ some '/') (hlast : lastFolder.toList.getLast? ≠ some '/')
    (h : rebase? path oldFolder newFolder = some target) :
    rebase? target newFolder lastFolder = rebase? path oldFolder lastFolder := by
  obtain ⟨rest, hrest, hpath, htarget⟩ := (rebase?_eq_some_iff hold hnew).mp h
  let final := String.ofList (lastFolder.toList ++ rest)
  have hfinal : final.toList = lastFolder.toList ++ rest := String.toList_ofList
  have honce : rebase? path oldFolder lastFolder = some final :=
    (rebase?_eq_some_iff hold hlast).mpr ⟨rest, hrest, hpath, hfinal⟩
  rw [honce]
  exact (rebase?_eq_some_iff hnew hlast).mpr ⟨rest, hrest, htarget, hfinal⟩

theorem isUnder_of_rebase?_eq_some (hold : oldFolder.toList.getLast? ≠ some '/')
    (hnew : newFolder.toList.getLast? ≠ some '/')
    (h : rebase? path oldFolder newFolder = some target) : isUnder target newFolder = true := by
  rw [← isSome_rebase? target newFolder oldFolder, rebase?_reverse hold hnew h]
  rfl

/-- A rename followed by the reverse one restores every path, apart from those that were in
the new folder already and not in the old one: these are taken along on the way back. -/
theorem placeIn_reverse_iff (hold : oldFolder.toList.getLast? ≠ some '/')
    (hnew : newFolder.toList.getLast? ≠ some '/') :
    placeIn newFolder oldFolder (placeIn oldFolder newFolder path) = path ↔
      (isUnder path newFolder = true → isUnder path oldFolder = true) := by
  by_cases hunder : isUnder path oldFolder = true
  · have hback := rebase?_reverse hold hnew (rebase?_eq_some_placeIn newFolder hunder)
    rw [placeIn, hback, Option.getD_some]
    exact iff_of_true rfl fun _ => hunder
  · rw [placeIn_of_not_isUnder hunder]
    by_cases hin : isUnder path newFolder = true
    · have hplace := rebase?_eq_some_placeIn oldFolder hin
      refine iff_of_false (fun hsame => hunder ?_) (fun h => hunder (h hin))
      have harrives := isUnder_of_rebase?_eq_some hnew hold hplace
      rwa [hsame] at harrives
    · rw [placeIn_of_not_isUnder hin]
      exact iff_of_true rfl fun h => absurd h hin

/-- Of two folders that hold the same path, one holds the other. -/
theorem isUnder_or_isUnder {folder : String} (hfolder : folder.toList.getLast? ≠ some '/')
    (hother : other.toList.getLast? ≠ some '/') (h : isUnder path folder = true)
    (h' : isUnder path other = true) :
    isUnder folder other = true ∨ isUnder other folder = true := by
  rw [isUnder_iff hfolder] at h
  rw [isUnder_iff hother] at h'
  rcases h with rfl | ⟨rest, hrest⟩
  · exact .inl ((isUnder_iff hother).mpr h')
  · rcases h' with rfl | ⟨rest', hrest'⟩
    · exact .inr ((isUnder_iff hfolder).mpr (.inr ⟨rest, hrest⟩))
    · rcases append_sep_cases (hrest.symm.trans hrest') with
        hsame | ⟨gap, hlonger, -⟩ | ⟨gap, hlonger, -⟩
      · exact .inl ((isUnder_iff hother).mpr (.inl (String.toList_injective hsame).symm))
      · exact .inr ((isUnder_iff hfolder).mpr (.inr ⟨gap, hlonger⟩))
      · exact .inl ((isUnder_iff hother).mpr (.inr ⟨gap, hlonger⟩))

end Path

namespace TabBar

variable {bar : TabBar} {tab : Tab} {oldFolder newFolder : String}

/-- No two tabs of a renamed folder go to the same path. -/
theorem nodup_moves (hpaths : bar.paths.Nodup) (hnew : newFolder.toList.getLast? ≠ some '/') :
    ((bar.moves oldFolder newFolder).map (·.2)).Nodup := by
  have hmoves : (bar.moves oldFolder newFolder).map (·.2) =
      bar.paths.filterMap (Path.rebase? · oldFolder newFolder) := by
    simp [moves, paths, List.map_filterMap, List.filterMap_map, Function.comp_def]
  rw [hmoves]
  apply hpaths.filterMap
  intro path other target hpath hother
  exact Path.rebase?_injective hnew hpath hother

/-- A tab of a renamed folder is open at its new place. -/
theorem relocated_mem_updatePathsUnder (hids : bar.ids.Nodup) (hne : oldFolder ≠ newFolder)
    (htab : tab ∈ bar.tabs) (hunder : Path.isUnder tab.path oldFolder = true) :
    tab.relocated oldFolder newFolder ∈ (bar.updatePathsUnder oldFolder newFolder).2.tabs := by
  rw [tabs_updatePathsUnder hids hne]
  refine List.mem_map_of_mem (List.mem_filter.mpr ⟨htab, ?_⟩)
  rw [Bool.not_eq_true', blocks_eq_false_iff]
  exact .inl hunder

theorem ids_nodup_updatePathsUnder (hids : bar.ids.Nodup) (hne : oldFolder ≠ newFolder) :
    (bar.updatePathsUnder oldFolder newFolder).2.ids.Nodup := by
  unfold ids
  rw [tabs_updatePathsUnder hids hne, List.map_map]
  have hsame : (fun tab : Tab => tab.id) ∘ Tab.relocated oldFolder newFolder = Tab.id := by
    funext tab
    exact Tab.id_relocated oldFolder newFolder tab
  rw [hsame]
  exact nodup_ids_of_sublist hids List.filter_sublist

/-- After a rename and its reverse, a tab of the folder is open where it was. -/
theorem mem_updatePathsUnder_reverse (hids : bar.ids.Nodup) (hne : oldFolder ≠ newFolder)
    (hold : oldFolder.toList.getLast? ≠ some '/') (hnew : newFolder.toList.getLast? ≠ some '/')
    (htab : tab ∈ bar.tabs) (hunder : Path.isUnder tab.path oldFolder = true) :
    tab.moveTo tab.path ∈
      ((bar.updatePathsUnder oldFolder newFolder).2.updatePathsUnder newFolder oldFolder).2.tabs := by
  have hplace := Path.rebase?_eq_some_placeIn newFolder hunder
  have hthere := relocated_mem_updatePathsUnder hids hne htab hunder
  rw [Tab.relocated_of_some hplace] at hthere
  have hback := relocated_mem_updatePathsUnder (ids_nodup_updatePathsUnder hids hne) hne.symm
    hthere (Path.isUnder_of_rebase?_eq_some hold hnew hplace)
  rwa [Tab.relocated_of_some (Path.rebase?_reverse hold hnew hplace)] at hback

end TabBar

namespace FileTree

variable {tree next back : FileTree} {key oldFolder newFolder : String} {entry : TreeEntry}
  {provisional : Bool}

/-- No two entries of a renamed folder go to the same key. -/
theorem nodup_keysUnder_placeIn (tree : FileTree) (hnew : newFolder.toList.getLast? ≠ some '/') :
    ((keysUnder tree.entries oldFolder).map (Path.placeIn oldFolder newFolder)).Nodup := by
  refine List.Nodup.map_on ?_ (tree.entries.nodup_keys.filter _)
  intro key hkey other hother hsame
  have hplace := Path.rebase?_eq_some_placeIn newFolder (mem_keysUnder.mp hkey).2
  have hplace' := Path.rebase?_eq_some_placeIn newFolder (mem_keysUnder.mp hother).2
  rw [← hsame] at hplace'
  exact Path.rebase?_injective hnew hplace hplace'

/-- Once a folder has moved to a vacant path that is not below it, nothing is left at or
below its old path. -/
theorem Relocates.vacant_source (h : Relocates oldFolder newFolder provisional tree next)
    (hvacant : tree.Vacant newFolder) (hsource : tree.contains oldFolder = true)
    (hold : oldFolder.toList.getLast? ≠ some '/')
    (hbelow : Path.isUnder newFolder oldFolder = false) : next.Vacant oldFolder := by
  refine ⟨hold, fun key hkey => Bool.eq_false_iff.mpr fun hunder => ?_⟩
  obtain ⟨entry, hentry⟩ := next.entries.contains_iff.mp hkey
  rcases h.origin key entry hentry with ⟨-, hout⟩ | ⟨former, -, -, hplace, -⟩
  · exact hout hunder
  · have harrives := Path.isUnder_of_rebase?_eq_some hold hvacant.unslashed hplace
    rcases Path.isUnder_or_isUnder hvacant.unslashed hold harrives hunder with hnew | hsame
    · rw [hbelow] at hnew
      cases hnew
    · rw [hvacant.nothing oldFolder hsource] at hsame
      cases hsame

/-- Two relocations in opposite directions bring every entry back to its path. What has moved
is marked as the second one marks it. -/
theorem Relocates.reverse {marked : Bool}
    (h : Relocates oldFolder newFolder provisional tree next)
    (hback : Relocates newFolder oldFolder marked next back) (hvacant : tree.Vacant newFolder)
    (hown : tree.OwnPaths) (hold : oldFolder.toList.getLast? ≠ some '/') :
    back.get? key = (tree.get? key).map fun entry =>
      if Path.isUnder key oldFolder then { entry with provisional := marked } else entry := by
  have hnot : ∀ other old, tree.get? other = some old → ¬ Path.isUnder other newFolder = true := by
    intro other old hother
    rw [hvacant.nothing other (Keyed.contains_of_get? hother)]
    exact Bool.false_ne_true
  cases hentry : tree.get? key with
  | some entry =>
      by_cases hunder : Path.isUnder key oldFolder = true
      · have hplace := Path.rebase?_eq_some_placeIn newFolder hunder
        have hreturn := Path.rebase?_reverse hold hvacant.unslashed hplace
        rw [hback.get?_of_rebase? (h.get?_of_rebase? hentry hplace) hreturn, Option.map_some,
          if_pos hunder, ← hown key entry hentry]
      · rw [hback.kept key entry (h.kept key entry hentry hunder) (hnot key entry hentry),
          Option.map_some, if_neg hunder]
  | none =>
      rw [Option.map_none]
      by_contra hfound
      obtain ⟨entry, hthere⟩ := Option.ne_none_iff_exists'.mp hfound
      rcases hback.origin key entry hthere with ⟨hnext, hout⟩ | ⟨former, old, hformer, hreturn, -⟩
      · rcases h.origin key entry hnext with ⟨htree, -⟩ | ⟨former, -, -, hplace, -⟩
        · cases hentry.symm.trans htree
        · exact hout (Path.isUnder_of_rebase?_eq_some hold hvacant.unslashed hplace)
      · rcases h.origin former old hformer with ⟨htree, -⟩ | ⟨first, old', hfirst, hplace, -⟩
        · exact hnot former old htree (isUnder_of_rebase? hreturn)
        · have hsame := Path.rebase?_reverse hold hvacant.unslashed hplace
          obtain rfl := Option.some.inj (hreturn.symm.trans hsame)
          cases hentry.symm.trans hfirst

/-- A rename to a vacant path that is not below the old one can be taken back by the reverse
rename, which brings every entry back to its path. -/
theorem beginRename_reverse (hvacant : tree.Vacant newFolder)
    (hsource : tree.contains oldFolder = true) (hown : tree.OwnPaths)
    (hold : oldFolder.toList.getLast? ≠ some '/')
    (hbelow : Path.isUnder newFolder oldFolder = false) :
    ∃ id next id' back, tree.beginRename oldFolder newFolder = .ok (id, next) ∧
      next.beginRename newFolder oldFolder = .ok (id', back) ∧
      ∀ key, back.get? key = (tree.get? key).map fun entry =>
        if Path.isUnder key oldFolder then { entry with provisional := true } else entry := by
  obtain ⟨id, -, next, hbegun, -, hmoved, -⟩ := hvacant.begins_beginRename hsource
  obtain ⟨folder, hfolder⟩ := tree.entries.contains_iff.mp hsource
  have harrived := hmoved.get?_of_rebase? hfolder (Path.rebase?_self oldFolder newFolder)
  have hfree := hmoved.vacant_source hvacant hsource hold hbelow
  obtain ⟨id', -, back, hreturned, -, hback, -⟩ :=
    hfree.begins_beginRename (Keyed.contains_of_get? harrived)
  exact ⟨id, next, id', back, hbegun, hreturned, fun key => hmoved.reverse hback hvacant hown hold⟩

end FileTree

/-- Renames between two folders can be reversed and carried on, and keep apart what was
apart: for paths, for the open tabs and for the entries of the tree. -/
structure Reversible (oldFolder newFolder : String) : Prop where
  /-- Exactly the paths at or below the folder have a new place. -/
  moves_iff : ∀ path, (Path.rebase? path oldFolder newFolder).isSome = true ↔
    Path.isUnder path oldFolder = true
  arrives : ∀ path target, Path.rebase? path oldFolder newFolder = some target →
    Path.isUnder target newFolder = true
  returns : ∀ path target, Path.rebase? path oldFolder newFolder = some target →
    Path.rebase? target newFolder oldFolder = some path
  /-- From the new place a path goes where it would have gone at once. -/
  onward : ∀ path target lastFolder, lastFolder.toList.getLast? ≠ some '/' →
    Path.rebase? path oldFolder newFolder = some target →
      Path.rebase? target newFolder lastFolder = Path.rebase? path oldFolder lastFolder
  apart : ∀ path other target, Path.rebase? path oldFolder newFolder = some target →
    Path.rebase? other oldFolder newFolder = some target → path = other
  /-- A rename followed by its reverse restores a path, unless the path was in the new folder
  without being in the old one. -/
  restores_iff : ∀ path,
    Path.placeIn newFolder oldFolder (Path.placeIn oldFolder newFolder path) = path ↔
      (Path.isUnder path newFolder = true → Path.isUnder path oldFolder = true)
  /-- No two tabs go to the same path, and the reverse rename brings each of them back. -/
  tabs : oldFolder ≠ newFolder → ∀ bar : TabBar, bar.ids.Nodup → bar.paths.Nodup →
    ((bar.moves oldFolder newFolder).map (·.2)).Nodup ∧
      ∀ tab ∈ bar.tabs, Path.isUnder tab.path oldFolder = true →
        tab.moveTo tab.path ∈ ((bar.updatePathsUnder oldFolder newFolder).2.updatePathsUnder
          newFolder oldFolder).2.tabs
  /-- No two entries of the tree go to the same key. If the new path is vacant and not below
  the old one, the reverse rename brings all of them back. -/
  entries : ∀ tree : FileTree,
    ((FileTree.keysUnder tree.entries oldFolder).map (Path.placeIn oldFolder newFolder)).Nodup ∧
      (tree.Vacant newFolder → tree.contains oldFolder = true → tree.OwnPaths →
        Path.isUnder newFolder oldFolder = false →
        ∃ id next id' back, tree.beginRename oldFolder newFolder = .ok (id, next) ∧
          next.beginRename newFolder oldFolder = .ok (id', back) ∧
          ∀ key, back.get? key = (tree.get? key).map fun entry =>
            if Path.isUnder key oldFolder then { entry with provisional := true } else entry)

/-- Between any two folders that no slash ends, renames are reversible. -/
theorem renames_reversible {oldFolder newFolder : String}
    (hold : oldFolder.toList.getLast? ≠ some '/') (hnew : newFolder.toList.getLast? ≠ some '/') :
    Reversible oldFolder newFolder := by
  constructor
  case moves_iff => exact fun path => Bool.eq_iff_iff.mp (Path.isSome_rebase? path _ _)
  case arrives => exact fun _ _ => Path.isUnder_of_rebase?_eq_some hold hnew
  case returns => exact fun _ _ => Path.rebase?_reverse hold hnew
  case onward => exact fun _ _ _ hlast => Path.rebase?_onward hold hnew hlast
  case apart => exact fun _ _ _ => Path.rebase?_injective hnew
  case restores_iff => exact fun _ => Path.placeIn_reverse_iff hold hnew
  case tabs =>
    intro hne bar hids hpaths
    exact ⟨bar.nodup_moves hpaths hnew, fun tab htab hunder =>
      bar.mem_updatePathsUnder_reverse hids hne hold hnew htab hunder⟩
  case entries =>
    intro tree
    exact ⟨tree.nodup_keysUnder_placeIn hnew, fun hvacant hsource hown hbelow =>
      FileTree.beginRename_reverse hvacant hsource hown hold hbelow⟩

/-- A folder is renamed to a path below itself, with a sibling whose name begins like its
own. A doubled slash and letters beyond ASCII are kept on the way. -/
theorem renames_reversible_largeFolder :
    "/größe".toList.getLast? ≠ some '/' ∧ "/größe/alt".toList.getLast? ≠ some '/' ∧
      Reversible "/größe" "/größe/alt" ∧
      Path.rebase? "/größe//a" "/größe" "/größe/alt" = some "/größe/alt//a" ∧
      Path.rebase? "/größe/alt//a" "/größe/alt" "/größe" = some "/größe//a" ∧
      Path.rebase? "/größen/a" "/größe" "/größe/alt" = none := by
  have hold : "/größe".toList.getLast? ≠ some '/' := by decide
  have hnew : "/größe/alt".toList.getLast? ≠ some '/' := by decide
  have hreversible := renames_reversible hold hnew
  have hplace : Path.rebase? "/größe//a" "/größe" "/größe/alt" = some "/größe/alt//a" := by
    decide
  exact ⟨hold, hnew, hreversible, hplace, hreversible.returns _ _ hplace, by decide⟩

end Workbench
