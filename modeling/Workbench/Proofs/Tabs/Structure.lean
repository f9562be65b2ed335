import Workbench.Proofs.Path
import Workbench.Proofs.Tabs.Fate

/-! # The shape of the tab bar

After any run from the empty bar, the active position names a tab whenever
there is one, no two tabs have the same path, and no number is ever given
twice. A folder renamed to a spelling that ends with a slash is left out: it may
send a folder and a tab below it to one path. -/

namespace Workbench

/-- The action does not rename a folder to a spelling that ends with a slash. -/
def TabAction.KeepsSpelling : TabAction → Prop
  | .updatePathsUnder _ newFolder => newFolder.toList.getLast? ≠ some '/'
  | _ => True

namespace TabBar

variable {bar after : TabBar} {action : TabAction}

/-! ## The active position -/

/-- There is an active position exactly if there are tabs, and it is in range. -/
structure ActiveValid (bar : TabBar) : Prop where
  none_iff : bar.active = none ↔ bar.tabs = []
  lt_length : ∀ index, bar.active = some index → index < bar.tabs.length

theorem activeValid_of_some {index : Nat} (hactive : bar.active = some index)
    (hlt : index < bar.tabs.length) : bar.ActiveValid where
  none_iff := by
    have htabs : bar.tabs ≠ [] := List.ne_nil_of_length_pos (Nat.zero_lt_of_lt hlt)
    simp [hactive, htabs]
  lt_length position h := by
    rw [hactive] at h
    exact Option.some.inj h ▸ hlt

theorem activeValid_of_nil (hactive : bar.active = none) (htabs : bar.tabs = []) :
    bar.ActiveValid where
  none_iff := by simp [hactive, htabs]
  lt_length position h := by simp [hactive] at h

theorem ActiveValid.congr (hbar : bar.ActiveValid) (hactive : after.active = bar.active)
    (hlength : after.tabs.length = bar.tabs.length) : after.ActiveValid where
  none_iff := by
    rw [hactive, hbar.none_iff, ← List.length_eq_zero_iff, ← List.length_eq_zero_iff, hlength]
  lt_length := by
    rw [hactive, hlength]
    exact hbar.lt_length

/-- With tabs there is an active one. -/
theorem ActiveValid.exists_active (hbar : bar.ActiveValid) (htabs : bar.tabs ≠ []) :
    ∃ index, bar.active = some index ∧ index < bar.tabs.length := by
  obtain ⟨index, hindex⟩ := Option.ne_none_iff_exists'.mp (mt hbar.none_iff.mp htabs)
  exact ⟨index, hindex, hbar.lt_length index hindex⟩

theorem ActiveValid.closeAt (hbar : bar.ActiveValid) {index : Nat}
    (hlt : index < bar.tabs.length) : (bar.closeAt index).ActiveValid := by
  have hlength : (bar.tabs.eraseIdx index).length = bar.tabs.length - 1 :=
    List.length_eraseIdx_of_lt hlt
  obtain ⟨active, hactive, hrange⟩ := hbar.exists_active (List.ne_nil_of_length_pos (by omega))
  by_cases hlast : bar.tabs.length - 1 = 0
  · -- The only tab is closed.
    apply activeValid_of_nil
    · simp [TabBar.closeAt, activeAfterClose, hlength, hlast]
    · exact List.length_eq_zero_iff.mp (hlength.trans hlast)
  · let next := if index < active then active - 1
      else if active = index then min index (bar.tabs.length - 1 - 1) else active
    have hnext : (bar.closeAt index).active = some next := by
      simp [TabBar.closeAt, activeAfterClose, hlength, hlast, hactive, next]
    apply activeValid_of_some hnext
    rw [tabs_closeAt, hlength]
    dsimp only [next]
    split
    next => omega
    next =>
      split
      next => omega
      next => omega

theorem ActiveValid.foldl_closeId (hbar : bar.ActiveValid) (closing : List TabId) :
    (closing.foldl closeId bar).ActiveValid := by
  induction closing generalizing bar with
  | nil => exact hbar
  | cons id rest ih =>
      refine ih ?_
      unfold closeId
      split
      next index hindex =>
        obtain ⟨tab, htab, -⟩ := findId?_eq_some hindex
        exact hbar.closeAt (List.getElem?_eq_some_iff.mp htab).1
      next => exact hbar

theorem length_foldl_moveId (bar : TabBar) (moving : List (TabId × String)) :
    (moving.foldl moveId bar).tabs.length = bar.tabs.length := by
  induction moving generalizing bar with
  | nil => rfl
  | cons move rest ih =>
      rw [List.foldl_cons, ih]
      unfold moveId
      split
      · simp [modifyAt]
      · rfl

theorem positionAfterMove_lt {source target active length : Nat} (hsource : source < length)
    (htarget : target < length) (hactive : active < length) :
    positionAfterMove source target active < length := by
  unfold positionAfterMove
  split
  · exact htarget
  · split
    · omega
    · split <;> omega

theorem ActiveValid.transition (hbar : bar.ActiveValid) (h : Transition bar action after) :
    after.ActiveValid := by
  cases h with
  | same => exact hbar
  | selected _ hlt => exact activeValid_of_some rfl hlt
  | @changed _ index tab tab' active htab _ _ hactive =>
      have hlt : index < bar.tabs.length := (List.getElem?_eq_some_iff.mp htab).1
      rcases hactive with rfl | rfl
      · exact hbar.congr rfl (by simp)
      · exact activeValid_of_some rfl (by simpa using hlt)
  | @opened _ file content encoding etag active _ _ hactive =>
      have hlength : (bar.push file content encoding etag).tabs.length = bar.tabs.length + 1 := by
        simp [push]
      have hlast : active = some bar.tabs.length ∨
          ∃ index, active = some index ∧ index < bar.tabs.length := by
        rcases hactive with rfl | rfl
        · exact .inl rfl
        · cases hold : bar.active with
          | none => exact .inl rfl
          | some index => exact .inr ⟨index, rfl, hbar.lt_length index hold⟩
      rcases hlast with rfl | ⟨index, rfl, hlt⟩
      · exact activeValid_of_some rfl (by simp [hlength])
      · exact activeValid_of_some rfl (by rw [hlength]; omega)
  | closed hlt => exact hbar.closeAt hlt
  | isolated => exact activeValid_of_some rfl (by simp)
  | emptied => exact activeValid_of_nil rfl rfl
  | swept => exact hbar.foldl_closeId _
  | @reordered source target tab htab htarget =>
      have hlength := (perm_reordered htab htarget).length_eq
      have hsource : source < bar.tabs.length := (List.getElem?_eq_some_iff.mp htab).1
      obtain ⟨active, hactive, hlt⟩ :=
        hbar.exists_active (List.ne_nil_of_length_pos (Nat.zero_lt_of_lt htarget))
      have hmoved : bar.active.map (positionAfterMove source target) =
          some (positionAfterMove source target active) := by rw [hactive, Option.map_some]
      apply activeValid_of_some hmoved
      rw [hlength]
      exact positionAfterMove_lt hsource htarget hlt
  | @relocated oldFolder newFolder hne =>
      let moving := bar.moves oldFolder newFolder
      have hupdate : (bar.updatePathsUnder oldFolder newFolder).2 =
          moving.foldl moveId ((bar.collisions moving).foldl closeId bar) := by
        simp [updatePathsUnder, hne, moving]
      rw [hupdate]
      exact (hbar.foldl_closeId _).congr (active_foldl_moveId _ _) (length_foldl_moveId _ _)
  | moved htab => exact hbar.congr rfl (by simp)
  | @movedOver _ position index other tab tab' hfind hother =>
      have hlt : position < bar.tabs.length := (List.getElem?_eq_some_iff.mp hother).1
      exact (hbar.closeAt hlt).congr rfl (by simp)

/-! ## The paths -/

theorem mem_paths_iff {path : String} : path ∈ bar.paths ↔ ∃ tab ∈ bar.tabs, tab.path = path :=
  List.mem_map

theorem notMem_paths_of_find?_eq_none {path : String} (h : bar.find? path = none) :
    path ∉ bar.paths := by
  intro hmem
  obtain ⟨tab, htab, hpath⟩ := mem_paths_iff.mp hmem
  exact find?_eq_none_iff.mp h tab htab hpath

/-- The tabs that make room are exactly those that would share a path with a
relocated one. -/
theorem nodup_paths_updatePathsUnder (hids : bar.ids.Nodup) (hpaths : bar.paths.Nodup)
    {oldFolder newFolder : String} (hne : oldFolder ≠ newFolder)
    (hslash : newFolder.toList.getLast? ≠ some '/') :
    (bar.updatePathsUnder oldFolder newFolder).2.paths.Nodup := by
  have htabs : bar.tabs.Nodup := List.Nodup.of_map _ hids
  rw [paths, tabs_updatePathsUnder hids hne, List.map_map]
  refine List.Nodup.map_on ?_ (htabs.sublist List.filter_sublist)
  intro tab htab other hother h
  obtain ⟨hmem, hstays⟩ := List.mem_filter.mp htab
  obtain ⟨hmem', hstays'⟩ := List.mem_filter.mp hother
  have heq : (tab.relocated oldFolder newFolder).path =
      (other.relocated oldFolder newFolder).path := h
  have inj : tab.path = other.path → tab = other := List.inj_on_of_nodup_map hpaths hmem hmem'
  cases hpath : Path.rebase? tab.path oldFolder newFolder with
  | none =>
      cases hpath' : Path.rebase? other.path oldFolder newFolder with
      | none =>
          rw [Tab.relocated_of_none hpath, Tab.relocated_of_none hpath'] at heq
          exact inj heq
      | some path' =>
          rw [Tab.relocated_of_none hpath, Tab.relocated_of_some hpath'] at heq
          -- The other tab moves onto this one, which would have been closed.
          have hblocks : bar.blocks oldFolder newFolder tab = true := by
            simp only [blocks, hpath, Option.isNone_none, Bool.true_and, List.any_eq_true]
            exact ⟨other, hmem', by simp [hpath', heq]⟩
          simp [hblocks] at hstays
  | some path =>
      cases hpath' : Path.rebase? other.path oldFolder newFolder with
      | none =>
          rw [Tab.relocated_of_some hpath, Tab.relocated_of_none hpath'] at heq
          have hblocks : bar.blocks oldFolder newFolder other = true := by
            simp only [blocks, hpath', Option.isNone_none, Bool.true_and, List.any_eq_true]
            exact ⟨tab, hmem, by simp [hpath, ← heq]⟩
          simp [hblocks] at hstays'
      | some path' =>
          rw [Tab.relocated_of_some hpath, Tab.relocated_of_some hpath'] at heq
          have heq : path = path' := heq
          rw [← heq] at hpath'
          exact inj (Path.rebase?_injective hslash hpath hpath')

theorem Transition.nodup_paths (hids : bar.ids.Nodup) (hpaths : bar.paths.Nodup)
    (h : Transition bar action after) (hspelling : action.KeepsSpelling) : after.paths.Nodup := by
  cases h with
  | same => exact hpaths
  | selected => exact hpaths
  | changed htab _ hpath =>
      rw [paths, map_set_of_eq (·.path) htab hpath]
      exact hpaths
  | @opened _ file content encoding etag _ _ hfree =>
      have hnew : file.path ∉ bar.paths := notMem_paths_of_find?_eq_none hfree
      have happend : List.map (·.path) (bar.push file content encoding etag).tabs =
          bar.paths ++ [file.path] := by
        simp [push, paths, Tab.opened, Tab.path]
      rw [paths, happend, List.nodup_append']
      exact ⟨hpaths, List.nodup_singleton _, by simpa using hnew⟩
  | closed => exact hpaths.sublist ((List.eraseIdx_sublist _ _).map _)
  | isolated => exact List.nodup_singleton _
  | emptied => exact List.nodup_nil
  | swept path isFolder =>
      rw [paths, tabs_closeByPath hids]
      exact hpaths.sublist (List.filter_sublist.map _)
  | reordered htab htarget => exact ((perm_reordered htab htarget).map _).nodup_iff.mpr hpaths
  | relocated hne => exact nodup_paths_updatePathsUnder hids hpaths hne hspelling
  | @moved _ index tab tab' htab hbecomes hfree =>
      cases hfind : bar.find? tab'.path with
      | none =>
          rw [paths, List.map_set]
          exact hpaths.set (notMem_paths_of_find?_eq_none hfind)
      | some position =>
          obtain ⟨other, hother, hpath⟩ := find?_eq_some hfind
          have hid := hfree position other hfind hother
          obtain rfl := index_eq_of_id_eq hids hother htab hid
          have heq : other = tab := Option.some.inj (hother.symm.trans htab)
          rw [paths, map_set_of_eq (·.path) htab (heq ▸ hpath.symm)]
          exact hpaths
  | @movedOver _ position index other tab tab' hfind hother _ htab hbecomes =>
      obtain ⟨other', hother', hpath⟩ := find?_eq_some hfind
      obtain rfl := Option.some.inj (hother.symm.trans hother')
      have hrest : (bar.closeAt position).paths.Nodup :=
        hpaths.sublist ((List.eraseIdx_sublist _ _).map _)
      -- The only tab at the new path was the closed one.
      have hnew : tab'.path ∉ (bar.closeAt position).paths := by
        intro hmem
        obtain ⟨left, hleft, hleft_path⟩ := mem_paths_iff.mp hmem
        obtain ⟨index', hne, hindex'⟩ := List.mem_eraseIdx_iff_getElem?.mp hleft
        exact hne (index_eq_of_map_eq (·.path) hpaths hindex' hother
          (hleft_path.trans hpath.symm))
      rw [paths, List.map_set]
      exact hrest.set hnew

/-- Whatever was done before, the active position is right. -/
theorem activeValid_run (history : List TabAction) : (empty.run history).ActiveValid := by
  induction history using List.reverseRecOn with
  | nil => exact activeValid_of_nil rfl rfl
  | append_singleton history action ih =>
      rw [run_append, run_cons, run_nil]
      exact ih.transition (transition_next (numbered_run history).nodup action)

/-! ## All together -/

/-- What holds of a bar at any time. -/
structure WellFormed (bar : TabBar) : Prop where
  active : bar.ActiveValid
  paths_nodup : bar.paths.Nodup
  numbered : bar.Numbered

theorem wellFormed_empty : empty.WellFormed where
  active := activeValid_of_nil rfl rfl
  paths_nodup := List.nodup_nil
  numbered := numbered_empty

theorem WellFormed.next (hbar : bar.WellFormed) (hspelling : action.KeepsSpelling) :
    (bar.next action).WellFormed := by
  have h := transition_next hbar.numbered.nodup action
  exact
    { active := hbar.active.transition h
      paths_nodup := h.nodup_paths hbar.numbered.nodup hbar.paths_nodup hspelling
      numbered := hbar.numbered.transition h }

theorem WellFormed.run (hbar : bar.WellFormed) {actions : List TabAction}
    (hspelling : ∀ action ∈ actions, action.KeepsSpelling) : (bar.run actions).WellFormed := by
  induction actions generalizing bar with
  | nil => exact hbar
  | cons action rest ih =>
      obtain ⟨hfirst, hrest⟩ := List.forall_mem_cons.mp hspelling
      exact ih (hbar.next hfirst) hrest

/-- After any run from the empty bar, the active position is right, paths and
numbers are distinct, and the number of a tab that was closed in the course of
the run is not in use. -/
theorem wellFormed_run {history : List TabAction}
    (hspelling : ∀ action ∈ history, action.KeepsSpelling) :
    (empty.run history).WellFormed ∧
      ∀ earlier middle later, history = earlier ++ middle ++ later →
        ∀ id ∈ (empty.run earlier).ids, id ∉ (empty.run (earlier ++ middle)).ids →
          id ∉ (empty.run history).ids := by
  refine ⟨wellFormed_empty.run hspelling, ?_⟩
  rintro earlier middle later rfl id hopen hclosed
  have hearlier := numbered_run earlier
  have hgiven : id ≤ (empty.run (earlier ++ middle)).lastId := by
    rw [run_append]
    exact Nat.le_trans (hearlier.range id hopen).2 (hearlier.lastId_le_run middle)
  rw [run_append]
  exact (numbered_run (earlier ++ middle)).notMem_ids_run hgiven hclosed later

/-- Two tabs, of which one makes room when the folder of the other is renamed,
and a third that is opened afterwards. -/
def folderRename : List TabAction :=
  [.openTab (.ofPath "/drafts/plan") "one" .utf8 none,
   .openTab (.ofPath "/notes/plan") "two" .utf8 none,
   .updatePathsUnder "/drafts" "/notes",
   .openTab (.ofPath "/drafts/plan") "three" .utf8 none]

theorem wellFormed_folderRename :
    (∀ action ∈ folderRename, action.KeepsSpelling) ∧ (empty.run folderRename).WellFormed ∧
      (empty.run folderRename).ids = [1, 3] ∧ 2 ∉ (empty.run folderRename).ids := by
  have hspelling : ∀ action ∈ folderRename, action.KeepsSpelling := by
    simp [folderRename, TabAction.KeepsSpelling]
  obtain ⟨hwell, hclosed⟩ := wellFormed_run hspelling
  refine ⟨hspelling, hwell, by decide, ?_⟩
  exact hclosed (folderRename.take 2) [.updatePathsUnder "/drafts" "/notes"]
    (folderRename.drop 3) rfl 2 (by decide) (by decide)

end TabBar

end Workbench
