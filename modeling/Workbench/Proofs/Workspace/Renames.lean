import Workbench.Proofs.Desk.Service
import Workbench.Proofs.File.Deeds
import Workbench.Proofs.Tabs.Renames
import Workbench.Proofs.Workspace.Moves

/-! # Tabs follow the files through a rename

The service moves a file, or everything at or below a folder, and the tabs are pointed at
the new paths by the same rule, chosen by what the tree knows. The paths are brought to
their usual spelling once for the service and once more for the tabs. Usually the second
time changes nothing, and then every tab of a file follows it. But where blanks stand
before the last slashes of a path, the slashes go first and the blanks the second time:
the tabs are then looked for at another path than the one that was renamed. -/

namespace Workbench

namespace MemoryFiles

/-- The paths at which a deed reads or changes files and folders. -/
def Deed.paths : Deed → List String
  | .put path _ | .remove path | .read path | .write path _ _ _ | .delete path | .list path =>
      [path]
  | .plan _ => []
  | .rename oldPath newPath => [oldPath, newPath]

/-- All paths of the deed are those of files and folders. -/
def Deed.WellSpelled (deed : Deed) : Prop := ∀ path ∈ deed.paths, Path.Spelled path

theorem Deed.WellSpelled.spelled {deed : Deed} (h : deed.WellSpelled) : deed.Spelled := by
  cases deed with
  | rename oldPath newPath =>
      exact ⟨h oldPath List.mem_cons_self, h newPath (List.mem_cons_of_mem _ List.mem_cons_self)⟩
  | _ => trivial

end MemoryFiles

namespace Workspace

open MemoryFiles TabBar

variable {w : Workspace MemoryFiles} {oldPath newPath : String}

/-- The files were brought about by deeds at usual paths, no path is both a file and a
folder, the tree is right about the path, and no two tabs share a path. -/
structure ReadyToRename (w : Workspace MemoryFiles) (path : String) : Prop where
  reached : ∃ history : List Deed, (∀ deed ∈ history, deed.WellSpelled) ∧
    w.desk.service = empty.after history
  apart : ∀ path, w.desk.service.files.contains path = true →
    w.desk.service.folders.contains path = false
  listed : ∀ entry, w.tree.get? path = some entry →
    (w.desk.service.files.contains path = true → entry.kind = .file) ∧
      (w.desk.service.folders.contains path = true → entry.kind = .folder)
  distinct : w.desk.bar.paths.Nodup

/-- After a rename that succeeds, every tab whose path named a file when the service was
called is still open, and its path names a file of the same content and version. -/
def TabsFollow (w : Workspace MemoryFiles) (oldPath newPath : String) : Prop :=
  ∀ count, (w.rename oldPath newPath).1 = .ok count →
    ∀ tab ∈ (w.settleSavesUnder oldPath).desk.bar.tabs, ∀ file,
      (w.settleSavesUnder oldPath).desk.service.files.get? tab.path = some file →
        ∃ tab' ∈ (w.rename oldPath newPath).2.desk.bar.tabs, tab'.id = tab.id ∧
          ∃ file', (w.rename oldPath newPath).2.desk.service.files.get? tab'.path = some file' ∧
            file'.content = file.content ∧ file'.etag = file.etag

/-! ## What a rename does -/

/-- A rename that succeeds has moved the files, and pointed the tabs at the paths spelled
as usual once more. -/
structure Renamed (w : Workspace MemoryFiles) (source target : String)
    (after : Workspace MemoryFiles) : Prop where
  files : FileService.movePath source target w.desk.service = (.ok (), after.desk.service)
  bar : after.desk.bar = w.desk.bar.repointed (knownFile w.tree source)
    (Path.normalize source) (Path.normalize target)

theorem renameSettled_of_moved {begun : Option MutationId × FileTree}
    (hbegun : beginKnownRename w.tree (Path.normalize oldPath) (Path.normalize newPath) = .ok begun)
    (hmoved : (FileService.movePath (Path.normalize oldPath) (Path.normalize newPath)
      w.desk.service).1 = .ok ()) :
    (∃ count, (w.renameSettled oldPath newPath).1 = .ok count) ∧
      w.Renamed (Path.normalize oldPath) (Path.normalize newPath)
        (w.renameSettled oldPath newPath).2 := by
  unfold renameSettled
  dsimp only
  generalize Path.normalize oldPath = source at *
  generalize Path.normalize newPath = target at *
  rw [hbegun]
  unfold Desk.movePath
  cases hmove : FileService.movePath source target w.desk.service with
  | mk answer service =>
      rw [hmove] at hmoved
      obtain rfl : answer = .ok () := hmoved
      dsimp only
      cases hknown : knownFile w.tree source with
      | true =>
          simp only [if_true]
          refine ⟨⟨_, rfl⟩, ?_, ?_⟩
          · rw [hmove, Desk.service_notify, Desk.service_updateTabPath]
          · rw [Desk.bar_notify, (Desk.performs_updateTabPath _ _ _).bar, hknown, repointed_true]
      | false =>
          simp only [Bool.false_eq_true, if_false]
          refine ⟨⟨_, rfl⟩, ?_, ?_⟩
          · rw [hmove, Desk.service_notify]
            unfold Desk.updateTabPathsUnder
            rw [Desk.service_dispatch]
          · rw [Desk.bar_notify, (Desk.performs_updateTabPathsUnder _ _ _).bar, hknown,
              repointed_false]

theorem renamed_of_ok {count : Nat} (h : (w.renameSettled oldPath newPath).1 = .ok count) :
    w.Renamed (Path.normalize oldPath) (Path.normalize newPath)
      (w.renameSettled oldPath newPath).2 := by
  have hparts : ∃ begun, beginKnownRename w.tree (Path.normalize oldPath)
      (Path.normalize newPath) = .ok begun ∧
        (FileService.movePath (Path.normalize oldPath) (Path.normalize newPath)
          w.desk.service).1 = .ok () := by
    unfold renameSettled at h
    dsimp only at h
    split at h
    next => cases h
    next change tree hbegun =>
      refine ⟨_, hbegun, ?_⟩
      unfold Desk.movePath at h
      split at h
      next answer desk hmove => exact (Prod.mk.inj hmove).1
      next => cases h
  obtain ⟨begun, hbegun, hmoved⟩ := hparts
  exact (renameSettled_of_moved hbegun hmoved).2

theorem ReadyToRename.rooted {path : String} (h : w.ReadyToRename path) :
    w.desk.service.Rooted := by
  obtain ⟨history, hspelled, heq⟩ := h.reached
  rw [heq]
  exact rooted_empty.after fun deed hdeed => (hspelled deed hdeed).spelled

/-! ## Where every tab follows -/

/-- A path of a file goes with it: the rule for the tabs is that of the service. -/
theorem place_eq_of_knownFile {source target : String} (h : w.ReadyToRename source)
    (hstored : w.desk.service.Stored source) (hknown : knownFile w.tree source = true)
    (path : String) :
    w.desk.service.place source target path = if path = source then target else path := by
  have hfile : w.desk.service.files.contains source = true := by
    rcases hstored with hfile | hfolder
    · exact hfile
    · obtain ⟨entry, hentry, hkind⟩ := (Option.any_eq_true _ _).mp hknown
      have hfolder_kind := (h.listed entry hentry).2 hfolder
      simp [TreeEntry.isFolder, hfolder_kind] at hkind
  rw [place, if_pos hfile]

theorem place_eq_placeIn {source target path : String} (h : w.ReadyToRename source)
    (hsource : Path.Spelled source) (hpath : w.desk.service.files.contains path = true) :
    w.desk.service.place source target path = Path.placeIn source target path := by
  rw [place]
  split
  next hfile =>
    split
    next heq => rw [heq, Path.placeIn, Path.rebase?_self, Option.getD_some]
    next hne =>
      -- Nothing is stored below a file.
      symm
      apply Path.placeIn_of_not_isUnder
      intro hunder
      rcases (Path.isUnder_iff hsource.unslashed).mp hunder with heq | habove
      · exact hne heq
      · have hfolder := h.rooted path (.inl hpath) source (hsource.mem_ancestors habove)
        rw [h.apart source hfile] at hfolder
        cases hfolder
  next => rfl

theorem follows_of_renamed {source target : String} {after : Workspace MemoryFiles}
    (hready : w.ReadyToRename source) (hnumbered : w.desk.bar.Numbered)
    (hsource : Path.Spelled source) (htarget : Path.Spelled target)
    (hcanonical : Path.normalize source = source ∧ Path.normalize target = target)
    (hrenamed : w.Renamed source target after) {tab : Tab} (htab : tab ∈ w.desk.bar.tabs)
    {file : StoredFile} (hfile : w.desk.service.files.get? tab.path = some file) :
    ∃ tab' ∈ after.desk.bar.tabs, tab'.id = tab.id ∧
      after.desk.service.files.get? tab'.path = some file := by
  have hrooted := hready.rooted
  obtain ⟨-, hvacant, hstored⟩ := movePath_eq_ok_iff.mp (congrArg Prod.fst hrenamed.files)
  have hrelocates := relocates_of_movePath hrooted hsource htarget hrenamed.files
  have hkept := hrelocates.files.kept tab.path file hfile
  have hcontains := Keyed.contains_of_get? hfile
  have hne : source ≠ target := fun heq => hvacant (heq ▸ hstored)
  have hbar := hrenamed.bar
  rw [hcanonical.1, hcanonical.2] at hbar
  suffices ∃ tab' ∈ after.desk.bar.tabs, tab'.id = tab.id ∧
      tab'.path = w.desk.service.place source target tab.path by
    obtain ⟨tab', htab', hid, hpath⟩ := this
    exact ⟨tab', htab', hid, by rw [hpath, hkept]⟩
  rw [hbar]
  cases hknown : knownFile w.tree source with
  | true =>
      rw [place_eq_of_knownFile hready hstored hknown]
      refine exists_mem_updatePath hready.distinct hne htab ?_
      intro heq
      exact hvacant (.inl (heq ▸ hcontains))
  | false =>
      rw [place_eq_placeIn hready hsource hcontains]
      refine exists_mem_updatePathsUnder hnumbered.nodup hne htab ?_
      intro other _ hgoes
      exact hrooted.not_stored_of_at_or_below htarget hvacant
        (Path.eq_or_above_of_rebase? htarget.unslashed hgoes) (.inl hcontains)

variable {start : Workspace MemoryFiles}

theorem settleSavesUnder_eq_run (w : Workspace MemoryFiles) (path : String) :
    w.settleSavesUnder path = w.run (settleUnderSteps w.desk (Path.normalize path)) :=
  (run_settleUnderSteps w (Path.normalize path)).symm

/-- If the usual spelling of the paths is the same the second time, the tabs follow. -/
theorem tabsFollow_of_canonical (hstart : start.Fresh) (history : List (Step MemoryFiles))
    (hsource : Path.Spelled (Path.normalize oldPath))
    (htarget : Path.Spelled (Path.normalize newPath))
    (hready : ((start.run history).settleSavesUnder oldPath).ReadyToRename (Path.normalize oldPath))
    (hcanonical : Path.normalize (Path.normalize oldPath) = Path.normalize oldPath ∧
      Path.normalize (Path.normalize newPath) = Path.normalize newPath) :
    (start.run history).TabsFollow oldPath newPath := by
  intro count hok tab htab file hfile
  have hnumbered : ((start.run history).settleSavesUnder oldPath).desk.bar.Numbered := by
    rw [settleSavesUnder_eq_run, ← run_append]
    exact numbered_bar hstart.bar _
  obtain ⟨tab', htab', hid, hfile'⟩ := follows_of_renamed hready hnumbered hsource htarget
    hcanonical (renamed_of_ok hok) htab hfile
  exact ⟨tab', htab', hid, file, hfile', rfl, rfl⟩

/-- Nothing is renamed to itself or to a folder above it. -/
theorem tabsFollow_of_isUnder (w : Workspace MemoryFiles)
    (htarget : Path.Spelled (Path.normalize newPath))
    (hready : (w.settleSavesUnder oldPath).ReadyToRename (Path.normalize oldPath))
    (hunder : Path.isUnder (Path.normalize oldPath) (Path.normalize newPath) = true) :
    w.TabsFollow oldPath newPath := by
  intro count hok
  have hrenamed := renamed_of_ok hok
  obtain ⟨-, hvacant, hstored⟩ := movePath_eq_ok_iff.mp (congrArg Prod.fst hrenamed.files)
  have hpath := (Path.isUnder_iff htarget.unslashed).mp hunder
  exact absurd hstored (hready.rooted.not_stored_of_at_or_below htarget hvacant hpath)

/-! ## Where a tab is left behind -/

/-- A workspace with one file, known to the tree. -/
def withFile (path : String) : Workspace MemoryFiles :=
  opening (empty.after [.put path "one"]) .disabled .disabled false
    (.ofListing [{ path, kind := .file, size := 3, modified := none }])

/-- The only file is opened. -/
def openFileOf (path : String) : List (Step MemoryFiles) :=
  [.openFile (.ofPath path) "one" .utf8 none]

/-- The workspace in which the only file is open. -/
def withOpenFile (path : String) : Workspace MemoryFiles := (withFile path).run (openFileOf path)

theorem tabs_withOpenFile (path : String) :
    (withOpenFile path).desk.bar.tabs = [.opened 1 (.ofPath path) "one" .utf8 none] := rfl

theorem path_of_mem_withOpenFile (path : String) :
    ∀ tab ∈ (withOpenFile path).desk.bar.tabs, tab.path = path := by
  intro tab htab
  rw [tabs_withOpenFile] at htab
  rw [List.mem_singleton.mp htab]
  rfl

theorem service_withOpenFile (path : String) :
    (withOpenFile path).desk.service = (withFile path).desk.service := rfl

theorem tree_withOpenFile (path : String) : (withOpenFile path).tree = (withFile path).tree := rfl

theorem settleSavesUnder_withOpenFile (path other : String) :
    (withOpenFile path).settleSavesUnder other = withOpenFile path := rfl

section LeftBehind

variable {source target path : String}

theorem files_withFile_eq_some {file : StoredFile}
    (h : (withFile source).desk.service.files.get? path = some file) : path = source := by
  change ((Keyed.empty : Keyed StoredFile).insert source _).get? path = some file at h
  rw [Keyed.get?_insert] at h
  split at h
  next heq => exact heq.symm
  next => cases h

theorem exists_file_withFile (source : String) :
    ∃ file, (withFile source).desk.service.files.get? source = some file :=
  ⟨_, Keyed.get?_insert_self _ _ _⟩

theorem contains_folders_withFile :
    (withFile source).desk.service.folders.contains path = true ↔ path ∈ Path.ancestors source := by
  change (addFoldersAbove source .empty).contains path = true ↔ _
  have hempty : ∀ key, ¬ (Keyed.empty : Keyed Unit).contains key = true := by simp
  rw [contains_addFoldersAbove fun lower _ hlower => absurd hlower (hempty lower)]
  exact or_iff_right (hempty path)

theorem not_stored_withFile (htarget : Path.Spelled target)
    (hapart : ¬ Path.isUnder source target = true) :
    ¬ (withFile source).desk.service.Stored target := by
  rw [Path.isUnder_iff htarget.unslashed, not_or] at hapart
  rintro (hfile | hfolder)
  · obtain ⟨file, hfile⟩ := (Keyed.contains_iff _).mp hfile
    exact hapart.1 (files_withFile_eq_some hfile).symm
  · exact hapart.2 (Path.mem_ancestors_iff.mp (contains_folders_withFile.mp hfolder)).2.2

theorem get?_tree_withFile (source : String) :
    ∃ entry, (withFile source).tree.get? source = some entry ∧ entry.kind = .file :=
  ⟨_, Keyed.get?_insert_self _ _ _, rfl⟩

theorem knownFile_withFile (source : String) : knownFile (withFile source).tree source = true := by
  obtain ⟨entry, hentry, hkind⟩ := get?_tree_withFile source
  simp [knownFile, hentry, TreeEntry.isFolder, hkind]

theorem exists_beginKnownRename_withFile (hne : source ≠ target) :
    ∃ begun, beginKnownRename (withFile source).tree source target = .ok begun := by
  have hsource : (withFile source).tree.contains source = true :=
    (Keyed.contains_insert _ _).mpr (.inl rfl)
  have htarget : (withFile source).tree.contains target = false := by
    rw [Bool.eq_false_iff]
    intro hcontains
    rcases (Keyed.contains_insert _ _).mp hcontains with heq | hempty
    · exact hne heq
    · cases hempty
  simp [beginKnownRename, hsource, FileTree.beginRename, htarget, Except.map]

theorem readyToRename_withOpenFile (hsource : Path.Spelled source) :
    (withOpenFile source).ReadyToRename source where
  reached := by
    refine ⟨[.put source "one"], ?_, rfl⟩
    intro deed hdeed path hpath
    obtain rfl := List.mem_singleton.mp hdeed
    obtain rfl := List.mem_singleton.mp hpath
    exact hsource
  apart path hfile := by
    obtain ⟨file, hfile⟩ := (Keyed.contains_iff _).mp hfile
    obtain rfl := files_withFile_eq_some hfile
    rw [Bool.eq_false_iff]
    intro hfolder
    exact absurd rfl (Path.mem_ancestors_iff.mp (contains_folders_withFile.mp hfolder)).2.2.ne
  listed entry hentry := by
    obtain ⟨known, hknown, hkind⟩ := get?_tree_withFile source
    obtain rfl := Option.some.inj (hknown.symm.trans hentry)
    refine ⟨fun _ => hkind, fun hfolder => ?_⟩
    exact absurd rfl (Path.mem_ancestors_iff.mp (contains_folders_withFile.mp hfolder)).2.2.ne
  distinct := List.nodup_singleton _

end LeftBehind

/-- The only file is at the new path, and the tabs, looked for at a path spelled
otherwise, are not. -/
theorem left_behind {source target : String} {after : Workspace MemoryFiles}
    (hready : w.ReadyToRename source) (hnodup : w.desk.bar.ids.Nodup)
    (hsource : Path.Spelled source) (htarget : Path.Spelled target)
    (hknown : knownFile w.tree source = true)
    (honly : ∀ path file, w.desk.service.files.get? path = some file → path = source)
    (htabs : ∀ tab ∈ w.desk.bar.tabs, tab.path = source)
    (hchanges : ¬ (Path.normalize source = source ∧ Path.normalize target = target))
    (hrenamed : w.Renamed source target after) :
    ∀ tab' ∈ after.desk.bar.tabs, after.desk.service.files.get? tab'.path = none := by
  intro tab' htab'
  obtain ⟨-, hvacant, hstored⟩ := movePath_eq_ok_iff.mp (congrArg Prod.fst hrenamed.files)
  have hrelocates := relocates_of_movePath hready.rooted hsource htarget hrenamed.files
  rw [Option.eq_none_iff_forall_ne_some]
  intro file hfile
  obtain ⟨former, hformer, hplace⟩ := hrelocates.files.origin _ _ hfile
  obtain rfl := honly former file hformer
  rw [place_eq_of_knownFile hready hstored hknown, if_pos rfl] at hplace
  rw [hrenamed.bar, hknown, repointed, if_pos rfl] at htab'
  rcases mem_updatePath hnodup htab' with hsame | ⟨tab, htab, hold, hnew⟩
  · rw [htabs tab' hsame] at hplace
    exact hvacant (hplace ▸ hstored)
  · exact hchanges ⟨hold.symm.trans (htabs tab htab), hnew.symm.trans hplace.symm⟩

/-- The only file can be renamed to any path that is neither its own nor above it. -/
theorem rename_withOpenFile (htarget : Path.Spelled (Path.normalize newPath))
    (hapart : ¬ Path.isUnder (Path.normalize oldPath) (Path.normalize newPath) = true) :
    (∃ count, ((withOpenFile (Path.normalize oldPath)).rename oldPath newPath).1 = .ok count) ∧
      (withOpenFile (Path.normalize oldPath)).Renamed (Path.normalize oldPath)
        (Path.normalize newPath)
        ((withOpenFile (Path.normalize oldPath)).rename oldPath newPath).2 := by
  have hne : Path.normalize oldPath ≠ Path.normalize newPath := by
    intro heq
    rw [heq, Path.isUnder_self] at hapart
    exact hapart rfl
  obtain ⟨file, hfile⟩ := exists_file_withFile (Path.normalize oldPath)
  obtain ⟨begun, hbegun⟩ := exists_beginKnownRename_withFile hne
  rw [← tree_withOpenFile] at hbegun
  rw [rename, settleSavesUnder_withOpenFile]
  refine renameSettled_of_moved hbegun ?_
  rw [movePath_eq_ok_iff, service_withOpenFile]
  exact ⟨rfl, not_stored_withFile htarget hapart, .inl (Keyed.contains_of_get? hfile)⟩

/-- If the usual spelling of a path is another one the second time, the tab of a file is
not pointed at the path that the file has moved to. -/
theorem not_tabsFollow_withOpenFile (hsource : Path.Spelled (Path.normalize oldPath))
    (htarget : Path.Spelled (Path.normalize newPath))
    (hapart : ¬ Path.isUnder (Path.normalize oldPath) (Path.normalize newPath) = true)
    (hchanges : ¬ (Path.normalize (Path.normalize oldPath) = Path.normalize oldPath ∧
      Path.normalize (Path.normalize newPath) = Path.normalize newPath)) :
    ¬ (withOpenFile (Path.normalize oldPath)).TabsFollow oldPath newPath := by
  intro hfollow
  obtain ⟨⟨count, hok⟩, hrenamed⟩ := rename_withOpenFile htarget hapart
  have hready := readyToRename_withOpenFile hsource
  have hservice := service_withOpenFile (Path.normalize oldPath)
  have htree := tree_withOpenFile (Path.normalize oldPath)
  have htabs := tabs_withOpenFile (Path.normalize oldPath)
  have hpaths := path_of_mem_withOpenFile (Path.normalize oldPath)
  have hsettled := settleSavesUnder_withOpenFile (Path.normalize oldPath) oldPath
  generalize withOpenFile (Path.normalize oldPath) = w at *
  obtain ⟨file, hfile⟩ := exists_file_withFile (Path.normalize oldPath)
  obtain ⟨tab, htab⟩ : ∃ tab, tab ∈ w.desk.bar.tabs := by
    rw [htabs]
    exact ⟨_, List.mem_singleton_self _⟩
  rw [← hservice, ← hpaths tab htab] at hfile
  rw [TabsFollow, hsettled] at hfollow
  obtain ⟨tab', htab', -, file', hfile', -⟩ := hfollow count hok tab htab file hfile
  have hgone := left_behind hready (by rw [TabBar.ids, htabs]; exact List.nodup_singleton _)
    hsource htarget (by rw [htree]; exact knownFile_withFile _)
    (fun path file hpath => files_withFile_eq_some (hservice ▸ hpath)) hpaths
    hchanges hrenamed tab' htab'
  rw [hgone] at hfile'
  cases hfile'

/-- Tabs follow the files through every rename of one path to another exactly if the
usual spelling of both paths is the same the second time, or no such rename can
succeed. -/
theorem tabsFollow_iff
    (hold : Path.normalize oldPath ≠ "" ∧ Path.normalize oldPath ≠ "/")
    (hnew : Path.normalize newPath ≠ "" ∧ Path.normalize newPath ≠ "/") :
    (∀ start : Workspace MemoryFiles, start.Fresh → ∀ history : List (Step MemoryFiles),
        ((start.run history).settleSavesUnder oldPath).ReadyToRename (Path.normalize oldPath) →
          (start.run history).TabsFollow oldPath newPath) ↔
      (Path.normalize (Path.normalize oldPath) = Path.normalize oldPath ∧
          Path.normalize (Path.normalize newPath) = Path.normalize newPath) ∨
        Path.isUnder (Path.normalize oldPath) (Path.normalize newPath) = true := by
  have hsource := Path.spelled_normalize hold.1 hold.2
  have htarget := Path.spelled_normalize hnew.1 hnew.2
  constructor
  · intro hfollow
    by_contra hneither
    obtain ⟨hchanges, hapart⟩ := not_or.mp hneither
    refine not_tabsFollow_withOpenFile hsource htarget hapart hchanges ?_
    exact hfollow _ (fresh_opening _ _ _ _ _) _ (readyToRename_withOpenFile hsource)
  · rintro (hcanonical | hunder) start hstart history hready
    · exact tabsFollow_of_canonical hstart history hsource htarget hready hcanonical
    · exact tabsFollow_of_isUnder _ htarget hready hunder

theorem apart_of_keys {m : MemoryFiles}
    (h : ∀ key ∈ m.files.keys, m.folders.contains key = false) :
    ∀ path, m.files.contains path = true → m.folders.contains path = false :=
  fun path hpath => h path (m.files.mem_keys_iff.mpr hpath)

/-- A file in a folder that is not listed, and a tab in the way of its tab. -/
def draftsOpen : List (Step MemoryFiles) :=
  [.outside fun m => (m.put "/drafts/plan" "one").2, .openPath "/drafts/plan",
   .openUnloaded (.ofPath "/notes/plan")]

theorem draftsOpen_tabsFollow :
    (Path.normalize "/drafts" ≠ "" ∧ Path.normalize "/drafts" ≠ "/") ∧
      (Path.normalize "/notes/" ≠ "" ∧ Path.normalize "/notes/" ≠ "/") ∧
      ((openingMemory.run draftsOpen).rename "/drafts" "/notes/").1 = .ok 1 ∧
      (openingMemory.run draftsOpen).TabsFollow "/drafts" "/notes/" := by
  have hold : Path.normalize "/drafts" ≠ "" ∧ Path.normalize "/drafts" ≠ "/" := by
    decide +kernel
  have hnew : Path.normalize "/notes/" ≠ "" ∧ Path.normalize "/notes/" ≠ "/" := by
    decide +kernel
  refine ⟨hold, hnew, by decide +kernel, ?_⟩
  refine (tabsFollow_iff hold hnew).mpr (.inl (by decide +kernel)) _ (fresh_opening _ _ _ _ _) _ ?_
  constructor
  case reached =>
    refine ⟨[.put "/drafts/plan" "one", .read "/drafts/plan"], ?_, by decide +kernel⟩
    simp only [List.forall_mem_cons, List.not_mem_nil, false_implies, implies_true, and_true,
      Deed.WellSpelled, Deed.paths]
    exact ⟨⟨by decide, by decide⟩, by decide, by decide⟩
  case apart => exact apart_of_keys (by decide +kernel)
  case listed => nofun
  case distinct => decide +kernel

/-- The file of a tab has a blank at the end of its path. -/
def blankAtEnd : List (Step MemoryFiles) :=
  [.outside fun m => (m.put "/x " "one").2, .openPath "/x /"]

/-- When the file is renamed, its tab stays behind. -/
theorem blankAtEnd_stays_behind :
    openingMemory.Fresh ∧ (Path.normalize "/x /" ≠ "" ∧ Path.normalize "/x /" ≠ "/") ∧
      (Path.normalize "/y" ≠ "" ∧ Path.normalize "/y" ≠ "/") ∧
      ((openingMemory.run blankAtEnd).settleSavesUnder "/x /").ReadyToRename
        (Path.normalize "/x /") ∧
      ¬ (openingMemory.run blankAtEnd).TabsFollow "/x /" "/y" := by
  refine ⟨fresh_opening _ _ _ _ _, by decide +kernel, by decide +kernel, ?_, ?_⟩
  · constructor
    case reached =>
      refine ⟨[.put "/x " "one", .read "/x "], ?_, by decide +kernel⟩
      simp only [List.forall_mem_cons, List.not_mem_nil, false_implies, implies_true, and_true,
        Deed.WellSpelled, Deed.paths]
      exact ⟨⟨by decide, by decide⟩, by decide, by decide⟩
    case apart => exact apart_of_keys (by decide +kernel)
    case listed => nofun
    case distinct => decide +kernel
  · intro hfollow
    have hok : ((openingMemory.run blankAtEnd).rename "/x /" "/y").1 = .ok 0 := by
      decide +kernel
    have hopen : ∃ tab ∈ ((openingMemory.run blankAtEnd).settleSavesUnder "/x /").desk.bar.tabs,
        (((openingMemory.run blankAtEnd).settleSavesUnder "/x /").desk.service.files.get?
          tab.path).isSome = true := by decide +kernel
    have hgone : ∀ tab' ∈ ((openingMemory.run blankAtEnd).rename "/x /" "/y").2.desk.bar.tabs,
        ((openingMemory.run blankAtEnd).rename "/x /" "/y").2.desk.service.files.get? tab'.path =
          none := by decide +kernel
    obtain ⟨tab, htab, hstored⟩ := hopen
    obtain ⟨file, hfile⟩ := Option.isSome_iff_exists.mp hstored
    obtain ⟨tab', htab', -, file', hfile', -⟩ := hfollow 0 hok tab htab file hfile
    rw [hgone tab' htab'] at hfile'
    cases hfile'

end Workspace

end Workbench
