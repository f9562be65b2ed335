import Workbench.Proofs.Tabs.Active
import Workbench.Proofs.Tabs.Folders
import Workbench.Proofs.Tabs.Renames
import Workbench.Proofs.Workspace.Moves

/-! # Tabs that a rename displaces

Tabs are pointed at other paths on request, or because a file or folder was renamed. What is
open at such a path already is closed, so that no two tabs share it. Unlike a store at another
path, which is refused then, this does not ask whether the tab in the way has unsaved
changes. -/

namespace Workbench

namespace TabBar

variable {bar after : TabBar} {isFile : Bool} {oldPath newPath : String} {id : TabId}

/-- The tab with a number is in the way of a renamed file or folder: it is the one found at
the new path of the file, or sits where a tab of the folder goes. -/
def Displaces (bar : TabBar) (isFile : Bool) (oldPath newPath : String) (id : TabId) : Prop :=
  oldPath ≠ newPath ∧
    if isFile then
      bar.find? oldPath ≠ none ∧ ((bar.find? newPath).bind fun index => bar.ids[index]?) = some id
    else ∃ tab ∈ bar.tabs, tab.id = id ∧ ¬ bar.HasRoom oldPath newPath tab

instance (bar : TabBar) (isFile : Bool) (oldPath newPath : String) (id : TabId) :
    Decidable (bar.Displaces isFile oldPath newPath id) :=
  inferInstanceAs (Decidable (_ ∧ ite _ _ _))

theorem ids_updatePath (hne : oldPath ≠ newPath) (hopen : bar.find? oldPath ≠ none) :
    (bar.updatePath oldPath newPath).2.ids = match bar.find? newPath with
      | some index => bar.ids.eraseIdx index
      | none => bar.ids := by
  rw [updatePath, if_neg (not_or.mpr ⟨hne, hopen⟩)]
  refine (ids_moveTo _ oldPath newPath).trans ?_
  cases bar.find? newPath with
  | none => rfl
  | some index => exact bar.ids_closeAt index

theorem notMem_ids_updatePath_iff (hnodup : bar.ids.Nodup) (hid : id ∈ bar.ids) :
    id ∉ (bar.updatePath oldPath newPath).2.ids ↔ bar.Displaces true oldPath newPath id := by
  rw [Displaces, if_pos rfl]
  by_cases hmoves : oldPath ≠ newPath ∧ bar.find? oldPath ≠ none
  · rw [ids_updatePath hmoves.1 hmoves.2, and_iff_right hmoves.1, and_iff_right hmoves.2]
    cases hfind : bar.find? newPath with
    | none => exact iff_of_false (not_not_intro hid) nofun
    | some index =>
        dsimp only [Option.bind_some]
        rw [← ids_closeAt]
        exact notMem_ids_closeAt_iff hnodup hid
  · refine iff_of_false ?_ fun h => hmoves ⟨h.1, h.2.1⟩
    rw [← not_or, not_not] at hmoves
    rw [updatePath, if_pos hmoves]
    exact not_not_intro hid

theorem ids_updatePathsUnder (hnodup : bar.ids.Nodup) (hne : oldPath ≠ newPath) :
    (bar.updatePathsUnder oldPath newPath).2.ids =
      (bar.tabs.filter (bar.HasRoom oldPath newPath ·)).map (·.id) := by
  rw [TabBar.ids, tabs_updatePathsUnder hnodup hne, filter_hasRoom, List.map_map]
  exact List.map_congr_left fun tab _ => tab.id_relocated oldPath newPath

theorem notMem_ids_updatePathsUnder_iff (hnodup : bar.ids.Nodup) (hid : id ∈ bar.ids) :
    id ∉ (bar.updatePathsUnder oldPath newPath).2.ids ↔
      bar.Displaces false oldPath newPath id := by
  rw [Displaces, if_neg Bool.false_ne_true]
  by_cases heq : oldPath = newPath
  · refine iff_of_false ?_ fun h => h.1 heq
    rw [updatePathsUnder, if_pos heq]
    exact not_not_intro hid
  · obtain ⟨tab, htab, rfl⟩ := mem_ids_iff.mp hid
    rw [ids_updatePathsUnder hnodup heq, and_iff_right heq]
    constructor
    · intro hgone
      refine ⟨tab, htab, rfl, fun hroom => hgone ?_⟩
      exact List.mem_map_of_mem (List.mem_filter.mpr ⟨htab, decide_eq_true hroom⟩)
    · rintro ⟨other, hother, hsame, hroom⟩ hkept
      obtain ⟨kept, hkept, hkept_id⟩ := List.mem_map.mp hkept
      obtain ⟨hmem, hkept_room⟩ := List.mem_filter.mp hkept
      obtain rfl := eq_of_id_eq hnodup hmem hother (hkept_id.trans hsame.symm)
      exact hroom (of_decide_eq_true hkept_room)

/-- Exactly the displaced tabs are closed. -/
theorem notMem_ids_repointed_iff (hnodup : bar.ids.Nodup) (hid : id ∈ bar.ids) :
    id ∉ (bar.repointed isFile oldPath newPath).ids ↔
      bar.Displaces isFile oldPath newPath id := by
  cases isFile with
  | true => exact notMem_ids_updatePath_iff hnodup hid
  | false => exact notMem_ids_updatePathsUnder_iff hnodup hid

/-- No tab was closed, and numbers stay distinct. -/
structure KeepsOpen (bar after : TabBar) : Prop where
  numbered : after.Numbered
  ids : bar.ids ⊆ after.ids

theorem keepsOpen_run (hbar : bar.Numbered) {actions : List TabAction}
    (hspares : ∀ action ∈ actions, ∀ bar tab, ¬ Removes bar tab action) :
    bar.KeepsOpen (bar.run actions) where
  numbered := hbar.run actions
  ids id hid := by
    obtain ⟨tab, htab, rfl⟩ := mem_ids_iff.mp hid
    have hfits : Along (fun bar action => ∀ tab, ¬ Removes bar tab action) bar actions :=
      along_of_forall fun action haction bar tab => hspares action haction bar tab
    obtain ⟨tab', htab', hid', -⟩ := exists_holds_run (p := fun _ => True)
      (fun _ _ _ => trivial) (fun h => h _) hbar hfits htab trivial
    exact hid' ▸ mem_ids_of_mem htab'

end TabBar

namespace Desk

variable {σ : Type} [FileService σ] {desk : Desk σ}

omit [FileService σ] in
theorem keepsOpen_deliver (hbar : desk.bar.Numbered) : desk.bar.KeepsOpen desk.deliver.bar := by
  rw [bar_deliver]
  apply TabBar.keepsOpen_run hbar
  rcases desk.deliverActions_cases with hnone | ⟨reply, rest, actions, -, hall, hsaving⟩
  · rw [hnone]
    exact List.forall_mem_nil _
  · rw [hall, List.forall_mem_cons]
    constructor
    · cases reply with
      | mk tab id result => cases result <;> exact fun _ _ h => h
    · intro action haction bar tab
      have hsaves := hsaving action haction
      cases action <;> first | exact hsaves.elim | exact id

theorem keepsOpen_settleWithin (hbar : desk.bar.Numbered) (limit : Nat) :
    desk.bar.KeepsOpen (desk.settleWithin limit).2.bar := by
  induction limit generalizing desk with
  | zero => exact ⟨hbar, List.Subset.refl _⟩
  | succ limit ih =>
      unfold settleWithin
      split
      · exact ⟨hbar, List.Subset.refl _⟩
      · have hfirst : desk.bar.KeepsOpen desk.awaitOne.bar := by
          unfold awaitOne
          split
          · rw [← desk.bar_releaseNext] at hbar ⊢
            exact keepsOpen_deliver hbar
          · exact keepsOpen_deliver hbar
        have hrest := ih hfirst.numbered
        exact ⟨hrest.numbered, List.Subset.trans hfirst.ids hrest.ids⟩

theorem keepsOpen_settleSavesUnder (hbar : desk.bar.Numbered) (path : String) :
    desk.bar.KeepsOpen (desk.settleSavesUnder path).2.bar := by
  unfold settleSavesUnder
  dsimp only
  split
  · have hnoted : (desk.logInfo "save.awaited" (Path.normalize path)).bar.Numbered := hbar
    exact keepsOpen_settleWithin hnoted _
  · exact ⟨hbar, List.Subset.refl _⟩

end Desk

namespace Workspace

open TabBar

variable {σ : Type} [FileService σ] {w start : Workspace σ} {oldPath newPath : String} {id : TabId}

/-- The ways in which tabs are pointed at other paths. -/
inductive Repointing
  | file (oldPath newPath : String)
  | folder (oldFolder newFolder : String)
  | rename (oldPath newPath : String)

/-- The operation that points the tabs at other paths. -/
def Repointing.operation : Repointing → Operation σ
  | .file oldPath newPath => .step (.updatePath oldPath newPath)
  | .folder oldFolder newFolder => .step (.updatePathsUnder oldFolder newFolder)
  | .rename oldPath newPath => .rename oldPath newPath

/-- The tab with a number is in the way of the operation. A rename that fails displaces no
tab; otherwise it is what the tree knows that decides whether a file or a folder is renamed. -/
def Displaces (w : Workspace σ) : Repointing → TabId → Prop
  | .file oldPath newPath, id =>
      w.desk.bar.Displaces true (Path.normalize oldPath) (Path.normalize newPath) id
  | .folder oldFolder newFolder, id =>
      w.desk.bar.Displaces false (Path.normalize oldFolder) (Path.normalize newFolder) id
  | .rename oldPath newPath, id =>
      (∃ count, (w.rename oldPath newPath).1 = .ok count) ∧
        (w.settleSavesUnder oldPath).desk.bar.Displaces
          (knownFile w.tree (Path.normalize oldPath))
          (Path.normalize (Path.normalize oldPath)) (Path.normalize (Path.normalize newPath)) id

/-- A rename that fails leaves the tabs alone. -/
theorem bar_renameSettled (w : Workspace σ) (oldPath newPath : String) :
    ((∃ count, (w.renameSettled oldPath newPath).1 = .ok count) ∧
        (w.renameSettled oldPath newPath).2.desk.bar =
          w.desk.bar.repointed (knownFile w.tree (Path.normalize oldPath))
            (Path.normalize (Path.normalize oldPath)) (Path.normalize (Path.normalize newPath))) ∨
      ((∃ error, (w.renameSettled oldPath newPath).1 = .error error) ∧
        (w.renameSettled oldPath newPath).2.desk.bar = w.desk.bar) := by
  unfold renameSettled Desk.movePath
  dsimp only
  generalize Path.normalize oldPath = source
  generalize Path.normalize newPath = target
  cases beginKnownRename w.tree source target with
  | error error => exact .inr ⟨⟨error, rfl⟩, rfl⟩
  | ok begun =>
      dsimp only
      cases FileService.movePath source target w.desk.service with
      | mk answer service =>
          cases answer with
          | error error => exact .inr ⟨⟨_, rfl⟩, Desk.bar_notify _ _ _ _⟩
          | ok _ =>
              refine .inl ⟨⟨_, rfl⟩, ?_⟩
              dsimp only
              rw [Desk.bar_notify]
              cases knownFile w.tree source with
              | true =>
                  rw [if_pos rfl, (Desk.performs_updateTabPath _ _ _).bar, repointed_true]
              | false =>
                  rw [if_neg Bool.false_ne_true, (Desk.performs_updateTabPathsUnder _ _ _).bar,
                    repointed_false]

theorem notMem_ids_operate_iff (hbar : w.desk.bar.Numbered) (repointing : Repointing)
    (hid : id ∈ w.desk.bar.ids) :
    id ∉ (w.operate repointing.operation).desk.bar.ids ↔ w.Displaces repointing id := by
  cases repointing with
  | file oldPath newPath =>
      have hafter := (w.desk.performs_updateTabPath oldPath newPath).bar
      simp only [Repointing.operation, operate, perform, hafter, ← repointed_true, Displaces]
      exact notMem_ids_repointed_iff hbar.nodup hid
  | folder oldFolder newFolder =>
      have hafter := (w.desk.performs_updateTabPathsUnder oldFolder newFolder).bar
      simp only [Repointing.operation, operate, perform, hafter, ← repointed_false, Displaces]
      exact notMem_ids_repointed_iff hbar.nodup hid
  | rename oldPath newPath =>
      have hsettled := Desk.keepsOpen_settleSavesUnder hbar (Path.normalize oldPath)
      have hid' : id ∈ (w.settleSavesUnder oldPath).desk.bar.ids := hsettled.ids hid
      simp only [Repointing.operation, operate, Displaces]
      unfold rename
      rcases (w.settleSavesUnder oldPath).bar_renameSettled oldPath newPath with
        ⟨hok, hafter⟩ | ⟨⟨error, hfailed⟩, hafter⟩
      · rw [hafter, and_iff_right hok]
        exact notMem_ids_repointed_iff hsettled.numbered.nodup hid'
      · rw [hafter]
        refine iff_of_false (not_not_intro hid') ?_
        rintro ⟨⟨count, hok⟩, -⟩
        cases hfailed.symm.trans hok

/-- After any run, no tab with unsaved changes is closed when tabs are pointed at other paths,
exactly if none is in the way. -/
theorem keeps_unsaved_iff (hstart : start.Fresh) (history : List (Step σ))
    (repointing : Repointing) :
    (∀ tab ∈ (start.run history).desk.bar.tabs, tab.unsaved = true →
        tab.id ∈ ((start.run history).operate repointing.operation).desk.bar.ids) ↔
      ∀ tab ∈ (start.run history).desk.bar.tabs, tab.unsaved = true →
        ¬ (start.run history).Displaces repointing tab.id := by
  have hbar := numbered_bar hstart.bar history
  refine forall₂_congr fun tab htab => imp_congr_right fun _ => ?_
  rw [← notMem_ids_operate_iff hbar repointing (mem_ids_of_mem htab), not_not]

/-- A tab with unsaved changes beside a folder, and one without where the tab of the folder
goes. -/
def editedBeside : List (Step MemoryFiles) :=
  [.outside fun m => (m.put "/drafts/plan" "one").2, .outside fun m => (m.put "/todo" "two").2,
   .openPath "/drafts/plan", .openUnloaded (.ofPath "/notes/plan"), .openPath "/todo",
   .edit 2 "mine" 5]

theorem editedBeside_keeps_unsaved :
    openingMemory.Fresh ∧ ((openingMemory.run editedBeside).rename "/drafts" "/notes").1 = .ok 1 ∧
      (openingMemory.run editedBeside).Displaces (.rename "/drafts" "/notes") 2 ∧
      ∀ tab ∈ (openingMemory.run editedBeside).desk.bar.tabs, tab.unsaved = true →
        tab.id ∈ ((openingMemory.run editedBeside).operate
          (Repointing.rename "/drafts" "/notes").operation).desk.bar.ids := by
  have hfresh : openingMemory.Fresh := fresh_opening _ _ _ _ _
  have hok : ((openingMemory.run editedBeside).rename "/drafts" "/notes").1 = .ok 1 := by
    decide +kernel
  refine ⟨hfresh, hok, ⟨⟨1, hok⟩, by decide +kernel⟩, ?_⟩
  refine (keeps_unsaved_iff hfresh editedBeside (.rename "/drafts" "/notes")).mpr ?_
  intro tab htab hunsaved hdisplaced
  have hedited : ∀ tab ∈ (openingMemory.run editedBeside).desk.bar.tabs,
      tab.unsaved = true → tab.id = 3 := by decide +kernel
  rw [hedited tab htab hunsaved] at hdisplaced
  exact absurd hdisplaced.2 (by decide +kernel)

/-- The file of a tab with unsaved changes was removed by another client. -/
def editedOfRemoved : List (Step MemoryFiles) :=
  [.outside fun m => (m.put "/a" "one").2, .outside fun m => (m.put "/b" "two").2,
   .openPath "/a", .openPath "/b", .edit 1 "mine" 5, .outside fun m => (m.remove "/b").2]

/-- When another file is renamed to its path, the tab is closed. -/
theorem editedOfRemoved_is_closed :
    openingMemory.Fresh ∧ ((openingMemory.run editedOfRemoved).rename "/a" "/b").1 = .ok 1 ∧
      ∃ tab ∈ (openingMemory.run editedOfRemoved).desk.bar.tabs,
        tab.unsaved = true ∧ tab.content = "mine" ∧
        tab.id ∉ ((openingMemory.run editedOfRemoved).operate
          (Repointing.rename "/a" "/b").operation).desk.bar.ids :=
  ⟨fresh_opening _ _ _ _ _, by decide +kernel, by decide +kernel⟩

end Workspace

end Workbench
