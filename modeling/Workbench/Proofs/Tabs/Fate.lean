import Mathlib.Data.List.Perm.Basic
import Workbench.Proofs.Tabs.Transition

/-! # Where tabs come from and where they go

A tab after an action was there before, was made of one that was there before,
or is new and has a number that no tab had. A tab before an action is still open
afterwards unless the action can close it. Both follow from the list of
transitions, and with them the numbers of the tabs are known for all runs. -/

namespace Workbench.TabBar

variable {bar after : TabBar} {action : TabAction}

/-- Closing by path leaves the tabs at other paths. -/
theorem tabs_closeByPath (hnodup : bar.ids.Nodup) (path : String) (isFolder : Bool) :
    (bar.closeByPath path isFolder).2.tabs = bar.tabs.filter fun tab =>
      !(if isFolder then Path.isUnder tab.path path else tab.path == path) := by
  unfold closeByPath
  dsimp only
  rw [tabs_foldl_closeId hnodup]
  apply List.filter_congr
  intro tab htab
  congr 1
  rw [Bool.eq_iff_iff, List.contains_iff_mem, List.mem_map]
  constructor
  · rintro ⟨other, hother, hid⟩
    obtain ⟨hmem, hcloses⟩ := List.mem_filter.mp hother
    rwa [eq_of_id_eq hnodup hmem htab hid] at hcloses
  · intro hcloses
    exact ⟨tab, List.mem_filter.mpr ⟨htab, hcloses⟩, rfl⟩

theorem perm_reordered {source target : Nat} {tab : Tab} (htab : bar.tabs[source]? = some tab)
    (htarget : target < bar.tabs.length) :
    ((bar.tabs.eraseIdx source).insertIdx target tab).Perm bar.tabs := by
  obtain ⟨hsource, rfl⟩ := List.getElem?_eq_some_iff.mp htab
  have hlength : target ≤ (bar.tabs.eraseIdx source).length := by
    rw [List.length_eraseIdx_of_lt hsource]
    omega
  exact (List.perm_insertIdx _ _ hlength).trans (List.getElem_cons_eraseIdx_perm hsource)

/-- Nothing is seen of a changed tab by what it agrees on with the former one. -/
theorem map_set_of_eq {β : Type} (f : Tab → β) {tabs : List Tab} {index : Nat} {tab tab' : Tab}
    (htab : tabs[index]? = some tab) (h : f tab' = f tab) :
    (tabs.set index tab').map f = tabs.map f := by
  obtain ⟨hlt, rfl⟩ := List.getElem?_eq_some_iff.mp htab
  have hlt' : index < (tabs.map f).length := by simpa using hlt
  have hold : f tabs[index] = (tabs.map f)[index] := by simp
  rw [List.map_set, h, hold, List.set_getElem_self]

theorem mem_closeAt_or_eq {index : Nat} {tab other : Tab} (hother : bar.tabs[index]? = some other)
    (htab : tab ∈ bar.tabs) : tab ∈ (bar.closeAt index).tabs ∨ tab = other := by
  obtain ⟨position, hposition⟩ := List.mem_iff_getElem?.mp htab
  by_cases heq : position = index
  · subst heq
    exact .inr (Option.some.inj (hposition.symm.trans hother))
  · exact .inl (List.mem_eraseIdx_iff_getElem?.mpr ⟨position, heq, hposition⟩)

theorem mem_set_or_eq {tabs : List Tab} {index : Nat} {tab other tab' : Tab}
    (hother : tabs[index]? = some other) (htab : tab ∈ tabs) :
    tab ∈ tabs.set index tab' ∨ tab = other := by
  obtain ⟨position, hposition⟩ := List.mem_iff_getElem?.mp htab
  by_cases heq : index = position
  · subst heq
    exact .inr (Option.some.inj (hposition.symm.trans hother))
  · refine .inl (List.mem_of_getElem? (i := position) ?_)
    rw [List.getElem?_set_ne heq, hposition]

theorem mem_set_self {tabs : List Tab} {index : Nat} {other tab' : Tab}
    (hother : tabs[index]? = some other) : tab' ∈ tabs.set index tab' :=
  List.mem_set (List.getElem?_eq_some_iff.mp hother).1 tab'

/-- A tab after an action was there before, was made of such a tab, or is new. -/
theorem Transition.origin (hnodup : bar.ids.Nodup) (h : Transition bar action after) {tab' : Tab}
    (htab' : tab' ∈ after.tabs) :
    tab' ∈ bar.tabs ∨ (∃ tab ∈ bar.tabs, Becomes bar action tab tab') ∨
      ∃ file content encoding etag, Opens action file content encoding etag ∧
        bar.find? file.path = none ∧
        tab' = .opened (bar.lastId + 1) file content encoding etag := by
  cases h with
  | same => exact .inl htab'
  | selected => exact .inl htab'
  | changed htab hbecomes =>
      rcases List.mem_or_eq_of_mem_set htab' with hmem | rfl
      · exact .inl hmem
      · exact .inr (.inl ⟨_, List.mem_of_getElem? htab, hbecomes⟩)
  | opened hopens hfree =>
      rcases List.mem_append.mp htab' with hmem | hnew
      · exact .inl hmem
      · exact .inr (.inr ⟨_, _, _, _, hopens, hfree, List.mem_singleton.mp hnew⟩)
  | closed => exact .inl (List.mem_of_mem_eraseIdx htab')
  | isolated htab =>
      obtain rfl := List.mem_singleton.mp htab'
      exact .inl (List.mem_of_getElem? htab)
  | emptied => exact absurd htab' List.not_mem_nil
  | swept path isFolder =>
      rw [tabs_closeByPath hnodup] at htab'
      exact .inl (List.mem_of_mem_filter htab')
  | reordered htab htarget => exact .inl ((perm_reordered htab htarget).mem_iff.mp htab')
  | relocated hne =>
      rw [tabs_updatePathsUnder hnodup hne] at htab'
      obtain ⟨tab, htab, rfl⟩ := List.mem_map.mp htab'
      have hmem := List.mem_of_mem_filter htab
      cases hpath : Path.rebase? tab.path _ _ with
      | none =>
          rw [Tab.relocated_of_none hpath]
          exact .inl hmem
      | some path =>
          rw [Tab.relocated_of_some hpath]
          exact .inr (.inl ⟨tab, hmem, .relocated hpath⟩)
  | moved htab hbecomes =>
      rcases List.mem_or_eq_of_mem_set htab' with hmem | rfl
      · exact .inl hmem
      · exact .inr (.inl ⟨_, List.mem_of_getElem? htab, hbecomes⟩)
  | movedOver hfind hother hremoves htab hbecomes =>
      rcases List.mem_or_eq_of_mem_set htab' with hmem | rfl
      · exact .inl (List.mem_of_mem_eraseIdx hmem)
      · exact .inr (.inl ⟨_, List.mem_of_mem_eraseIdx (List.mem_of_getElem? htab), hbecomes⟩)

/-- A tab is kept when others are closed by path, or is among them. -/
theorem swept_or_kept (hnodup : bar.ids.Nodup) (path : String) (isFolder : Bool) {tab : Tab}
    (htab : tab ∈ bar.tabs) :
    tab ∈ (bar.closeByPath path isFolder).2.tabs ∨
      Removes bar tab (.closeByPath path isFolder) := by
  rw [tabs_closeByPath hnodup]
  cases hcloses : (if isFolder then Path.isUnder tab.path path else tab.path == path) with
  | true =>
      right
      cases isFolder with
      | true => exact hcloses
      | false => exact beq_iff_eq.mp hcloses
  | false =>
      left
      apply List.mem_filter.mpr
      refine ⟨htab, ?_⟩
      rw [hcloses]
      rfl

/-- When a folder is renamed, a tab stays, follows the folder, or is in the way
of a tab that does. -/
theorem relocated_or_blocked (hnodup : bar.ids.Nodup) {oldFolder newFolder : String}
    (hne : oldFolder ≠ newFolder) {tab : Tab} (htab : tab ∈ bar.tabs) :
    tab ∈ (bar.updatePathsUnder oldFolder newFolder).2.tabs ∨
      (∃ tab' ∈ (bar.updatePathsUnder oldFolder newFolder).2.tabs,
        Becomes bar (.updatePathsUnder oldFolder newFolder) tab tab') ∨
      Removes bar tab (.updatePathsUnder oldFolder newFolder) := by
  rw [tabs_updatePathsUnder hnodup hne]
  by_cases hblocks : bar.blocks oldFolder newFolder tab = true
  · refine .inr (.inr ?_)
    simpa [blocks, Removes] using hblocks
  · have hkept : tab ∈ bar.tabs.filter fun tab => !bar.blocks oldFolder newFolder tab :=
      List.mem_filter.mpr ⟨htab, by simpa using hblocks⟩
    have hmem := List.mem_map_of_mem (f := Tab.relocated oldFolder newFolder) hkept
    cases hpath : Path.rebase? tab.path oldFolder newFolder with
    | none =>
        rw [Tab.relocated_of_none hpath] at hmem
        exact .inl hmem
    | some path =>
        rw [Tab.relocated_of_some hpath] at hmem
        exact .inr (.inl ⟨_, hmem, .relocated hpath⟩)

/-- A tab before an action is left as it is, becomes another one with its
number, or can be closed by the action. -/
theorem Transition.fate (hnodup : bar.ids.Nodup) (h : Transition bar action after) {tab : Tab}
    (htab : tab ∈ bar.tabs) :
    tab ∈ after.tabs ∨ (∃ tab' ∈ after.tabs, Becomes bar action tab tab') ∨
      Removes bar tab action := by
  cases h with
  | same => exact .inl htab
  | selected => exact .inl htab
  | changed hold hbecomes =>
      rcases mem_set_or_eq hold htab with hmem | rfl
      · exact .inl hmem
      · exact .inr (.inl ⟨_, mem_set_self hold, hbecomes⟩)
  | opened => exact .inl (List.mem_append_left _ htab)
  | @closed index hlt =>
      have hindex : bar.tabs[index]? = some bar.tabs[index] := List.getElem?_eq_getElem hlt
      rcases mem_closeAt_or_eq hindex htab with hmem | heq
      · exact .inl hmem
      · exact .inr (.inr (heq ▸ hindex))
  | @isolated index kept hkept =>
      by_cases heq : tab = kept
      · exact .inl (List.mem_singleton.mpr heq)
      · refine .inr (.inr ?_)
        intro hindex
        exact heq (Option.some.inj (hindex.symm.trans hkept))
  | emptied => exact .inr (.inr trivial)
  | swept path isFolder => exact (swept_or_kept hnodup path isFolder htab).imp_right .inr
  | reordered hsource htarget => exact .inl ((perm_reordered hsource htarget).mem_iff.mpr htab)
  | relocated hne => exact relocated_or_blocked hnodup hne htab
  | moved hold hbecomes =>
      rcases mem_set_or_eq hold htab with hmem | rfl
      · exact .inl hmem
      · exact .inr (.inl ⟨_, mem_set_self hold, hbecomes⟩)
  | movedOver hfind hother hremoves hold hbecomes =>
      rcases mem_closeAt_or_eq hother htab with hrest | rfl
      · rcases mem_set_or_eq hold hrest with hmem | rfl
        · exact .inl hmem
        · exact .inr (.inl ⟨_, mem_set_self hold, hbecomes⟩)
      · exact .inr (.inr hremoves)

/-- An action keeps some of the numbers, or adds the next unused one. -/
theorem Transition.ids (hnodup : bar.ids.Nodup) (h : Transition bar action after) :
    (after.lastId = bar.lastId ∧ after.ids.Subperm bar.ids) ∨
      (after.lastId = bar.lastId + 1 ∧ after.ids = bar.ids ++ [bar.lastId + 1]) := by
  cases h with
  | same => exact .inl ⟨rfl, .refl _⟩
  | selected => exact .inl ⟨rfl, .refl _⟩
  | changed htab hbecomes =>
      exact .inl ⟨rfl, (List.Perm.of_eq (map_set_of_eq (·.id) htab hbecomes.id_eq)).subperm⟩
  | opened => exact .inr ⟨rfl, by simp [TabBar.ids, push, Tab.opened]⟩
  | closed => exact .inl ⟨rfl, ((List.eraseIdx_sublist bar.tabs _).map _).subperm⟩
  | isolated htab =>
      have hmem := List.mem_of_getElem? htab
      exact .inl ⟨rfl, ((List.singleton_sublist.mpr hmem).map _).subperm⟩
  | emptied => exact .inl ⟨rfl, (List.nil_sublist _).subperm⟩
  | swept path isFolder =>
      refine .inl ⟨lastId_foldl_closeId _ _, ?_⟩
      rw [TabBar.ids, tabs_closeByPath hnodup]
      exact (List.filter_sublist.map _).subperm
  | reordered htab htarget => exact .inl ⟨rfl, ((perm_reordered htab htarget).map _).subperm⟩
  | @relocated oldFolder newFolder hne =>
      -- Only the tabs in the way are gone; the others keep their numbers.
      have hids : Tab.id ∘ Tab.relocated oldFolder newFolder = Tab.id := by
        funext tab
        exact tab.id_relocated oldFolder newFolder
      refine .inl ⟨by simp [updatePathsUnder, hne], ?_⟩
      rw [TabBar.ids, tabs_updatePathsUnder hnodup hne, List.map_map, hids]
      exact (List.filter_sublist.map _).subperm
  | moved htab hbecomes =>
      exact .inl ⟨rfl, (List.Perm.of_eq (map_set_of_eq (·.id) htab hbecomes.id_eq)).subperm⟩
  | movedOver hfind hother hremoves htab hbecomes =>
      refine .inl ⟨rfl, ?_⟩
      rw [TabBar.ids, map_set_of_eq (·.id) htab hbecomes.id_eq]
      exact ((List.eraseIdx_sublist bar.tabs _).map _).subperm

/-! ## The numbers of the tabs -/

/-- The numbers of the open tabs are distinct and were given by this bar. -/
structure Numbered (bar : TabBar) : Prop where
  nodup : bar.ids.Nodup
  range : ∀ id ∈ bar.ids, 1 ≤ id ∧ id ≤ bar.lastId

theorem numbered_empty : empty.Numbered where
  nodup := List.nodup_nil
  range _ h := absurd h List.not_mem_nil

theorem Numbered.transition (hbar : bar.Numbered) (h : Transition bar action after) :
    after.Numbered := by
  rcases h.ids hbar.nodup with ⟨hlast, kept, hperm, hsub⟩ | ⟨hlast, hids⟩
  · refine ⟨hperm.nodup_iff.mp (hbar.nodup.sublist hsub), ?_⟩
    intro id hid
    rw [hlast]
    exact hbar.range id (hsub.subset (hperm.mem_iff.mpr hid))
  · have hfresh : bar.lastId + 1 ∉ bar.ids := fun hmem =>
      Nat.not_succ_le_self _ (hbar.range _ hmem).2
    constructor
    · rw [hids, List.nodup_append']
      exact ⟨hbar.nodup, List.nodup_singleton _, by simpa using hfresh⟩
    · intro id hid
      rw [hids, List.mem_append, List.mem_singleton] at hid
      rw [hlast]
      rcases hid with hid | rfl
      · exact ⟨(hbar.range id hid).1, Nat.le_succ_of_le (hbar.range id hid).2⟩
      · exact ⟨Nat.succ_pos _, Nat.le_refl _⟩

/-- The tab with the number of a former tab is that tab or was made of it. -/
theorem Transition.successor (hbar : bar.Numbered) (h : Transition bar action after) {tab tab' : Tab}
    (htab : tab ∈ bar.tabs) (htab' : tab' ∈ after.tabs) (hid : tab'.id = tab.id) :
    tab' = tab ∨ Becomes bar action tab tab' := by
  rcases h.origin hbar.nodup htab' with
    hsame | ⟨old, hold, hbecomes⟩ | ⟨file, content, encoding, etag, -, -, rfl⟩
  · exact .inl (eq_of_id_eq hbar.nodup hsame htab hid)
  · obtain rfl := eq_of_id_eq hbar.nodup hold htab (hbecomes.id_eq.symm.trans hid)
    exact .inr hbecomes
  · -- The number of a new tab is above all numbers of former ones.
    have hrange : tab.id ≤ bar.lastId := (hbar.range _ (mem_ids_of_mem htab)).2
    exact absurd (Nat.le_trans (Nat.le_of_eq hid) hrange) (Nat.not_succ_le_self _)

/-- A tab whose number is gone was closed by the action. -/
theorem Transition.removes (hnodup : bar.ids.Nodup) (h : Transition bar action after) {tab : Tab}
    (htab : tab ∈ bar.tabs) (hgone : tab.id ∉ after.ids) : Removes bar tab action := by
  rcases h.fate hnodup htab with hkept | ⟨tab', htab', hbecomes⟩ | hremoves
  · exact absurd (mem_ids_of_mem hkept) hgone
  · exact absurd (hbecomes.id_eq ▸ mem_ids_of_mem htab') hgone
  · exact hremoves

theorem Numbered.next (hbar : bar.Numbered) (action : TabAction) : (bar.next action).Numbered :=
  hbar.transition (transition_next hbar.nodup action)

theorem Numbered.run (hbar : bar.Numbered) (actions : List TabAction) :
    (bar.run actions).Numbered := by
  induction actions generalizing bar with
  | nil => exact hbar
  | cons action rest ih => exact ih (hbar.next action)

theorem numbered_run (history : List TabAction) : (empty.run history).Numbered :=
  numbered_empty.run history

theorem Numbered.lastId_le_next (hbar : bar.Numbered) (action : TabAction) :
    bar.lastId ≤ (bar.next action).lastId := by
  rcases (transition_next hbar.nodup action).ids hbar.nodup with ⟨hlast, _⟩ | ⟨hlast, _⟩
  · exact Nat.le_of_eq hlast.symm
  · exact hlast ▸ Nat.le_succ _

theorem Numbered.lastId_le_run (hbar : bar.Numbered) (actions : List TabAction) :
    bar.lastId ≤ (bar.run actions).lastId := by
  induction actions generalizing bar with
  | nil => exact Nat.le_refl _
  | cons action rest ih => exact Nat.le_trans (hbar.lastId_le_next action) (ih (hbar.next action))

/-- A number that was given and is not open is never open again. -/
theorem Numbered.notMem_ids_run (hbar : bar.Numbered) {id : TabId} (hgiven : id ≤ bar.lastId)
    (hclosed : id ∉ bar.ids) (actions : List TabAction) : id ∉ (bar.run actions).ids := by
  induction actions generalizing bar with
  | nil => exact hclosed
  | cons action rest ih =>
      refine ih (hbar.next action) (Nat.le_trans hgiven (hbar.lastId_le_next action)) ?_
      intro hid
      rcases (transition_next hbar.nodup action).ids hbar.nodup with ⟨_, hsub⟩ | ⟨_, hids⟩
      · exact hclosed (hsub.subset hid)
      · rw [hids, List.mem_append, List.mem_singleton] at hid
        rcases hid with hid | rfl
        · exact hclosed hid
        · exact Nat.not_succ_le_self _ hgiven

/-- A tab that is open at the end of a run was open all the time. -/
theorem Numbered.mem_ids_of_run (hbar : bar.Numbered) {tab : Tab} (htab : tab ∈ bar.tabs)
    {action : TabAction} {rest : List TabAction}
    (hopen : tab.id ∈ (bar.run (action :: rest)).ids) : tab.id ∈ (bar.next action).ids := by
  by_contra hgone
  have hgiven : tab.id ≤ (bar.next action).lastId :=
    Nat.le_trans (hbar.range _ (mem_ids_of_mem htab)).2 (hbar.lastId_le_next action)
  exact (hbar.next action).notMem_ids_run hgiven hgone rest hopen

/-! ## The tab that an answer or a store is for -/

/-- The answer of a save reaches the open tab with the number. -/
theorem exists_saveAnswered_next (hbar : bar.Numbered) {tab : Tab} (htab : tab ∈ bar.tabs)
    (request : RequestId) (result : SaveResult) :
    ∃ tab' ∈ (bar.next (.saveResolved tab.id request result)).tabs,
      tab.SaveAnswered request result tab' := by
  cases hfind : bar.findId? tab.id with
  | none => exact absurd rfl (findId?_eq_none_iff.mp hfind tab htab)
  | some index =>
      obtain ⟨found, hfound, hid⟩ := findId?_eq_some hfind
      obtain rfl := eq_of_id_eq hbar.nodup (List.mem_of_getElem? hfound) htab hid
      have hnext : bar.next (.saveResolved found.id request result) =
          { bar with tabs := bar.tabs.set index (found.applySave request result index).2 } := by
        simp only [next, apply, answer, hfind, hfound]
      rw [hnext]
      exact ⟨_, mem_set_self hfound, found.saveAnswered_applySave request result index⟩

/-- What another writer stores reaches the tab of the path. -/
theorem exists_writtenOver_next {index : Nat} {tab : Tab} {path : String}
    (hfind : bar.find? path = some index) (htab : bar.tabs[index]? = some tab) (content : String)
    (encoding : Encoding) (write : WriteResult) :
    ∃ tab' ∈ (bar.next (.externalWrite path content encoding write)).tabs,
      tab.WrittenOver content encoding write tab' := by
  have hnext : bar.next (.externalWrite path content encoding write) =
      { bar with
        tabs := bar.tabs.set index (overwrittenBy content encoding write index tab).2 } := by
    simp only [next, apply, externalWrite, hfind, htab]
  rw [hnext]
  exact ⟨_, mem_set_self htab, writtenOver_overwrittenBy content encoding write index tab⟩

end Workbench.TabBar
