import Workbench.Proofs.Path.Ancestors
import Workbench.Proofs.Tabs.Fate

/-! # Where the tabs go in a rename

A rename points the tab of the file, or the tabs at or below the folder, at their new
places, and closes those that sit there already. So a tab is still open if no other one
goes to its path, and tabs at other paths stay where they are. -/

namespace Workbench.TabBar

variable {bar : TabBar} {tab tab' : Tab} {oldPath newPath : String}

/-- The bar after a file or a folder was renamed. -/
def repointed (bar : TabBar) (isFile : Bool) (oldPath newPath : String) : TabBar :=
  if isFile then (bar.updatePath oldPath newPath).2 else (bar.updatePathsUnder oldPath newPath).2

theorem repointed_true (bar : TabBar) (oldPath newPath : String) :
    bar.repointed true oldPath newPath = bar.run [.updatePath oldPath newPath] := rfl

theorem repointed_false (bar : TabBar) (oldPath newPath : String) :
    bar.repointed false oldPath newPath = bar.run [.updatePathsUnder oldPath newPath] := rfl

theorem exists_mem_moveTo (hpaths : bar.paths.Nodup) (htab : tab ∈ bar.tabs) :
    ∃ tab' ∈ (match bar.find? oldPath with
      | some index => bar.modifyAt index (·.moveTo newPath)
      | none => bar).tabs, tab'.id = tab.id ∧
        tab'.path = if tab.path = oldPath then newPath else tab.path := by
  cases hold : bar.find? oldPath with
  | none => exact ⟨tab, htab, rfl, (if_neg (find?_eq_none_iff.mp hold tab htab)).symm⟩
  | some index =>
      obtain ⟨found, hfound, hpath⟩ := find?_eq_some hold
      dsimp only
      rw [modifyAt_eq_set hfound]
      by_cases hmoves : tab.path = oldPath
      · obtain rfl : tab = found :=
          List.inj_on_of_nodup_map hpaths htab (List.mem_of_getElem? hfound)
            (hmoves.trans hpath.symm)
        exact ⟨_, mem_set_self hfound, rfl, (if_pos hmoves).symm⟩
      · refine ⟨tab, ?_, rfl, (if_neg hmoves).symm⟩
        rcases mem_set_or_eq hfound htab with hkept | rfl
        · exact hkept
        · exact absurd hpath hmoves

/-- The tab of a renamed file goes to the new path, and every other one that was not
there stays. -/
theorem exists_mem_updatePath (hpaths : bar.paths.Nodup) (hne : oldPath ≠ newPath)
    (htab : tab ∈ bar.tabs) (hfree : tab.path ≠ newPath) :
    ∃ tab' ∈ (bar.updatePath oldPath newPath).2.tabs, tab'.id = tab.id ∧
      tab'.path = if tab.path = oldPath then newPath else tab.path := by
  unfold updatePath
  split
  next hstays =>
    have hopen := hstays.resolve_left hne
    exact ⟨tab, htab, rfl, (if_neg (find?_eq_none_iff.mp hopen tab htab)).symm⟩
  next =>
    cases hnew : bar.find? newPath with
    | none => exact exists_mem_moveTo hpaths htab
    | some index =>
        obtain ⟨other, hother, hpath⟩ := find?_eq_some hnew
        have hrest : (bar.closeAt index).paths.Nodup :=
          hpaths.sublist ((List.eraseIdx_sublist _ _).map _)
        rcases mem_closeAt_or_eq hother htab with hmem | rfl
        · exact exists_mem_moveTo hrest hmem
        · exact absurd hpath hfree

/-- No tab comes from elsewhere: it was there before, or has come to the new path from
the old one. -/
theorem mem_updatePath (hnodup : bar.ids.Nodup)
    (htab' : tab' ∈ (bar.updatePath oldPath newPath).2.tabs) :
    tab' ∈ bar.tabs ∨ ∃ tab ∈ bar.tabs, tab.path = oldPath ∧ tab'.path = newPath := by
  rcases (transition_updatePath oldPath newPath).origin hnodup htab' with
    hsame | ⟨tab, htab, hbecomes⟩ | ⟨_, _, _, _, hopens, -⟩
  · exact .inl hsame
  · cases hbecomes with
    | moved => exact .inr ⟨tab, htab, rfl, rfl⟩
  · cases hopens

/-- A tab goes to its place in the renamed folder, unless another one goes to its path. -/
theorem exists_mem_updatePathsUnder (hnodup : bar.ids.Nodup) (hne : oldPath ≠ newPath)
    (htab : tab ∈ bar.tabs)
    (hfree : ∀ other ∈ bar.tabs, Path.rebase? other.path oldPath newPath ≠ some tab.path) :
    ∃ tab' ∈ (bar.updatePathsUnder oldPath newPath).2.tabs, tab'.id = tab.id ∧
      tab'.path = Path.placeIn oldPath newPath tab.path := by
  rw [tabs_updatePathsUnder hnodup hne]
  have hkept : bar.blocks oldPath newPath tab = false := by
    rw [blocks, Bool.and_eq_false_iff]
    right
    simpa using hfree
  have hmem : tab ∈ bar.tabs.filter fun tab => !bar.blocks oldPath newPath tab :=
    List.mem_filter.mpr ⟨htab, by rw [hkept]; rfl⟩
  refine ⟨_, List.mem_map_of_mem hmem, tab.id_relocated oldPath newPath, ?_⟩
  rw [Path.placeIn]
  cases hpath : Path.rebase? tab.path oldPath newPath with
  | none => rw [Tab.relocated_of_none hpath, Option.getD_none]
  | some path => rw [Tab.relocated_of_some hpath, Tab.path_moveTo, Option.getD_some]

end Workbench.TabBar
