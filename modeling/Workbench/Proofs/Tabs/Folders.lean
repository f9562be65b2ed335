import Workbench.Proofs.Tabs.Structure

/-! # Tabs in a renamed folder

A renamed folder takes its tabs along one by one, and first closes the tabs that are in
their way. All moves are computed before, so the two folders may overlap: a tab may go where
another one of the folder was. What comes out is the same as if all tabs had moved at once. -/

namespace Workbench.TabBar

variable {bar : TabBar} {oldFolder newFolder : String}

/-- The tab is not in the way of one that the renamed folder takes along. -/
def HasRoom (bar : TabBar) (oldFolder newFolder : String) (tab : Tab) : Prop :=
  Path.isUnder tab.path oldFolder = true ∨
    ∀ other ∈ bar.tabs, Path.rebase? other.path oldFolder newFolder ≠ some tab.path

instance (bar : TabBar) (oldFolder newFolder : String) :
    DecidablePred (bar.HasRoom oldFolder newFolder) := fun _ =>
  inferInstanceAs (Decidable (_ ∨ _))

theorem blocks_eq_false_iff {tab : Tab} :
    bar.blocks oldFolder newFolder tab = false ↔ bar.HasRoom oldFolder newFolder tab := by
  rw [blocks, Bool.and_eq_false_iff, HasRoom, ← Path.isSome_rebase? tab.path oldFolder newFolder]
  simp

theorem length_moves (bar : TabBar) (oldFolder newFolder : String) :
    (bar.moves oldFolder newFolder).length =
      bar.tabs.countP fun tab => Path.isUnder tab.path oldFolder := by
  rw [moves, List.length_filterMap_eq_countP]
  apply List.countP_congr
  intro tab _
  rw [Option.isSome_map, Path.isSome_rebase?]

theorem filter_hasRoom (bar : TabBar) (oldFolder newFolder : String) :
    bar.tabs.filter (fun tab => !bar.blocks oldFolder newFolder tab) =
      bar.tabs.filter (bar.HasRoom oldFolder newFolder ·) := by
  apply List.filter_congr
  intro tab _
  rw [Bool.eq_iff_iff, Bool.not_eq_true', blocks_eq_false_iff, decide_eq_true_iff]

/-- Renaming a folder is a simultaneous relocation. The tabs that stay in the way of others are
closed, those of the folder get the path, name and extension of their new place and wait for no
refresh, and all others are as they were. No two tabs share a path afterwards. -/
theorem apply_updatePathsUnder_simultaneous (hids : bar.ids.Nodup) (hpaths : bar.paths.Nodup)
    (hne : oldFolder ≠ newFolder) (hslash : newFolder.toList.getLast? ≠ some '/') :
    ∃ after, bar.apply (.updatePathsUnder oldFolder newFolder) =
        .ok (.pathsUpdated (bar.tabs.countP fun tab => Path.isUnder tab.path oldFolder), after) ∧
      after.tabs = (bar.tabs.filter (bar.HasRoom oldFolder newFolder ·)).map (fun tab =>
        match Path.rebase? tab.path oldFolder newFolder with
        | some path =>
            { tab with
              file := { tab.file with
                path, name := Path.fileName path, extension := Path.extension? path }
              pendingRefresh := none }
        | none => tab) ∧
      after.paths.Nodup := by
  have hcount : (bar.updatePathsUnder oldFolder newFolder).1 =
      .pathsUpdated (bar.tabs.countP fun tab => Path.isUnder tab.path oldFolder) := by
    rw [← length_moves bar oldFolder newFolder, updatePathsUnder, if_neg hne]
  refine ⟨(bar.updatePathsUnder oldFolder newFolder).2, ?_, ?_,
    nodup_paths_updatePathsUnder hids hpaths hne hslash⟩
  · rw [← hcount]
    rfl
  · rw [tabs_updatePathsUnder hids hne, filter_hasRoom]
    rfl

/-- A folder inside a folder of the same name. When it takes the place of the outer one, the
first tab is in the way, and the third goes where the second was. -/
def nestedFolder : List TabAction :=
  [.openTab (.ofPath "/src/a.rs") "one" .utf8 none,
   .openTab (.ofPath "/src/src/a.rs") "two" .utf8 none,
   .openTab (.ofPath "/src/src/src/a.rs") "three" .utf8 none,
   .openTab (.ofPath "/docs/a.rs") "four" .utf8 none]

theorem apply_updatePathsUnder_nestedFolder :
    (empty.run nestedFolder).ids.Nodup ∧ (empty.run nestedFolder).paths.Nodup ∧
      "/src/src" ≠ "/src" ∧ "/src".toList.getLast? ≠ some '/' ∧
      ∃ after, (empty.run nestedFolder).apply (.updatePathsUnder "/src/src" "/src") =
          .ok (.pathsUpdated 2, after) ∧
        after.tabs.map (fun tab => (tab.id, tab.path)) =
          [(2, "/src/a.rs"), (3, "/src/src/a.rs"), (4, "/docs/a.rs")] ∧
        after.paths.Nodup := by
  have hids : (empty.run nestedFolder).ids.Nodup := by decide
  have hpaths : (empty.run nestedFolder).paths.Nodup := by decide
  have hne : "/src/src" ≠ "/src" := by decide
  have hslash : "/src".toList.getLast? ≠ some '/' := by decide
  have hcount : (empty.run nestedFolder).tabs.countP
      (fun tab => Path.isUnder tab.path "/src/src") = 2 := by decide
  obtain ⟨after, happly, htabs, hnodup⟩ :=
    apply_updatePathsUnder_simultaneous hids hpaths hne hslash
  rw [hcount] at happly
  refine ⟨hids, hpaths, hne, hslash, after, happly, ?_, hnodup⟩
  rw [htabs]
  decide

end Workbench.TabBar
