import Workbench.Proofs.Desk.Service
import Workbench.Proofs.File.Recorded
import Workbench.Proofs.Tabs.Structure

/-! # Restoring on an empty desk

The tabs of a snapshot are added one by one as placeholders that were never read, the first
of which becomes active. Then the active one of the snapshot is read and selected, whatever
the service answers. -/

namespace Workbench

namespace TabBar

variable {bar : TabBar} {paths : List String} {index : Nat} {tab : Tab}

/-! ## Where a path is found -/

/-- Distinct paths tell positions apart. -/
theorem find?_of_nodup (hnodup : bar.paths.Nodup) (htab : bar.tabs[index]? = some tab) :
    bar.find? tab.path = some index := by
  cases hfind : bar.find? tab.path with
  | none => exact (find?_eq_none_iff.mp hfind tab (List.mem_of_getElem? htab) rfl).elim
  | some position =>
      obtain ⟨other, hother, hpath⟩ := find?_eq_some hfind
      rw [index_eq_of_map_eq (·.path) hnodup hother htab hpath]

theorem getElem?_paths (htab : bar.tabs[index]? = some tab) :
    bar.paths[index]? = some tab.path := by
  rw [paths, List.getElem?_map, htab, Option.map_some]

theorem find?_eq_none_of_notMem {path : String} (h : path ∉ bar.paths) :
    bar.find? path = none :=
  find?_eq_none_iff.mpr fun tab htab hpath => h (mem_paths_iff.mpr ⟨tab, htab, hpath⟩)

/-- The path at the active position is that of the active tab. -/
theorem path_activeTab? (hactive : bar.active = some index) :
    bar.activeTab?.map (·.path) = bar.paths[index]? := by
  rw [activeTab?, hactive, Option.bind_some, paths, List.getElem?_map]

/-! ## Placeholders -/

/-- The tabs have the given paths and were never read. -/
structure Placeholders (bar : TabBar) (paths : List String) : Prop where
  paths : bar.paths = paths
  unread : ∀ tab ∈ bar.tabs, tab.isLoaded = false

theorem placeholders_empty : empty.Placeholders [] := ⟨rfl, List.forall_mem_nil _⟩

theorem Placeholders.add (h : bar.Placeholders paths) {path : String} (hnew : path ∉ paths) :
    (bar.next (.openUnloaded (.ofPath path))).Placeholders (paths ++ [path]) := by
  have hnone : bar.find? path = none := find?_eq_none_of_notMem (h.paths ▸ hnew)
  have hnext : bar.next (.openUnloaded (.ofPath path)) =
      { bar.push (.ofPath path) "" .utf8 none with
        active := bar.active <|> some bar.tabs.length } := by
    have happly : bar.apply (.openUnloaded (.ofPath path)) = .ok (.opened bar.tabs.length false,
        { bar.push (.ofPath path) "" .utf8 none with
          active := bar.active <|> some bar.tabs.length }) := by
      rw [apply, openUnloaded, FileInfo.path_ofPath, hnone]
    exact next_of_ok happly
  rw [hnext]
  constructor
  case paths =>
    rw [← h.paths]
    simp [TabBar.paths, push, Tab.opened, Tab.path]
  case unread =>
    refine List.forall_mem_append.mpr ⟨h.unread, List.forall_mem_singleton.mpr ?_⟩
    rfl

/-- At the position of a tab stands the placeholder for its path. -/
theorem Placeholders.exists_tab {after : TabBar} (h : after.Placeholders bar.paths)
    (htab : bar.tabs[index]? = some tab) : ∃ placeholder, after.tabs[index]? = some placeholder ∧
      placeholder.path = tab.path ∧ placeholder.isLoaded = false := by
  have hthere : after.paths[index]? = some tab.path := by rw [h.paths, getElem?_paths htab]
  rw [TabBar.paths, List.getElem?_map, Option.map_eq_some_iff] at hthere
  obtain ⟨placeholder, hplaceholder, hpath⟩ := hthere
  exact ⟨placeholder, hplaceholder, hpath,
    h.unread placeholder (List.mem_of_getElem? hplaceholder)⟩

/-! ## Reading and selecting -/

/-- Opening a path that is open keeps all paths. -/
theorem paths_next_openTab {file : FileInfo} (hopen : bar.find? file.path = some index)
    (content : String) (encoding : Encoding) (etag : Option String) :
    (bar.next (.openTab file content encoding etag)).paths = bar.paths := by
  obtain ⟨tab, htab, hpath⟩ := find?_eq_some hopen
  have hnext : bar.next (.openTab file content encoding etag) =
      (bar.openTab file content encoding etag).2 := rfl
  rw [hnext, openTab, hopen]
  dsimp only
  rw [modifyAt_eq_set htab, paths]
  refine map_set_of_eq (·.path) htab ?_
  split
  · rfl
  · exact hpath.symm

theorem next_activate (h : index < bar.tabs.length) :
    bar.next (.activate index) = { bar with active := some index } := by
  by_cases hactive : bar.active = some index
  · have hsame : bar.apply (.activate index) = .ok (.unchanged, bar) := by
      rw [apply, if_neg (Nat.not_le.mpr h), if_pos hactive]
    rw [next_of_ok hsame, ← hactive]
  · have hselected : bar.apply (.activate index) =
        .ok (.updated, { bar with active := some index }) := by
      rw [apply, if_neg (Nat.not_le.mpr h), if_neg hactive]
    exact next_of_ok hselected

end TabBar

namespace Desk

open TabBar

variable {σ : Type}

/-! ## Adding placeholders -/

/-- Tabs are added for all paths, if none of them is open and none is named twice. -/
theorem foldl_restoreTab {before paths : List String} {desk : Desk σ} (count : Nat)
    (h : desk.bar.Placeholders before) (hnodup : (before ++ paths).Nodup) :
    (paths.foldl restoreTab (count, desk)).1 = count + paths.length ∧
      (paths.foldl restoreTab (count, desk)).2.bar.Placeholders (before ++ paths) := by
  induction paths generalizing before desk count with
  | nil => exact ⟨rfl, by rwa [List.append_nil]⟩
  | cons path rest ih =>
      have hnew : path ∉ before := fun hmem =>
        (List.nodup_append.mp hnodup).2.2 path hmem path List.mem_cons_self rfl
      have hnone : desk.bar.find? path = none := find?_eq_none_of_notMem (h.paths ▸ hnew)
      have hstep : restoreTab (count, desk) path =
          (count + 1, (desk.openUnloaded (.ofPath path)).2) := by
        rw [restoreTab, hnone]
        rfl
      have hadded : (desk.openUnloaded (.ofPath path)).2.bar.Placeholders (before ++ [path]) := by
        rw [openUnloaded_snd]
        exact h.add hnew
      have hshift : before ++ path :: rest = before ++ [path] ++ rest := by simp
      rw [List.foldl_cons, hstep, hshift]
      obtain ⟨hcount, hrest⟩ := ih (count + 1) hadded (hshift ▸ hnodup)
      refine ⟨?_, hrest⟩
      rw [hcount, List.length_cons]
      omega

/-! ## Reading the active tab -/

section Service

variable [FileService σ]

/-- Reading a tab at once takes one call of the service. -/
theorem service_loadNow {desk : Desk σ} {index : Nat} {tab : Tab}
    (htab : desk.tab? index = some tab) :
    (desk.loadNow index).service = (FileService.fetchFile tab.path desk.service).2 := by
  unfold loadNow fetchFile
  rw [htab]
  dsimp only
  cases FileService.fetchFile tab.path desk.service with
  | mk answer service =>
      cases answer with
      | ok content => rfl
      | error error => simp

/-- Whatever is read for a placeholder, its tab keeps its path. -/
theorem paths_loadNow {desk : Desk σ} {index : Nat} {tab : Tab} (hnodup : desk.bar.paths.Nodup)
    (htab : desk.tab? index = some tab) : (desk.loadNow index).bar.paths = desk.bar.paths := by
  rw [(desk.performs_loadNow index).bar, loadActions, htab]
  dsimp only
  split
  next content _ =>
    have hfind : desk.bar.find? (tab.file.withMeta content).path = some index :=
      find?_of_nodup hnodup htab
    rw [run_cons, run_nil, paths_next_openTab hfind]
  next => rfl

/-- A placeholder that is selected is read, and no path changes. -/
theorem activateAndLoad_placeholder {desk : Desk σ} {index : Nat} {tab : Tab}
    (hnodup : desk.bar.paths.Nodup) (htab : desk.tab? index = some tab)
    (hunread : tab.isLoaded = false) :
    (desk.activateAndLoad index).bar.paths = desk.bar.paths ∧
      (desk.activateAndLoad index).bar.active = some index ∧
      (desk.activateAndLoad index).service = (FileService.fetchFile tab.path desk.service).2 ∧
      (desk.activateAndLoad index).traffic = desk.traffic := by
  have hpaths := paths_loadNow hnodup htab
  have hselected : desk.activateAndLoad index = (desk.loadNow index).perform (.activate index) := by
    rw [activateAndLoad, htab]
    dsimp only
    rw [hunread]
    rfl
  have hlt : index < (desk.loadNow index).bar.tabs.length := by
    have hlength := congrArg List.length hpaths
    rw [TabBar.paths, TabBar.paths, List.length_map, List.length_map] at hlength
    rw [hlength]
    exact (List.getElem?_eq_some_iff.mp htab).1
  rw [hselected]
  refine ⟨?_, ?_, ?_, ?_⟩
  · rw [bar_perform, next_activate hlt]
    exact hpaths
  · rw [bar_perform, next_activate hlt]
  · rw [service_perform, service_loadNow htab]
  · rw [perform, dispatch_snd]
    exact (desk.performs_loadNow index).traffic

end Service

/-! ## The restored session -/

/-- A restored session has the tabs of the one before it, in their order, and the same one is
active. Nothing but that one was read, and no request is under way. -/
structure Resumes (bar : TabBar) (restored : Nat × Desk (Recorded σ)) : Prop where
  paths : restored.2.bar.paths = bar.paths
  active : restored.2.bar.activeTab?.map (·.path) = bar.activeTab?.map (·.path)
  count : restored.1 = bar.tabs.length
  reads : (bar.activeTab? = none ∧ restored.2.service.exchanges = []) ∨
    ∃ tab answer, bar.activeTab? = some tab ∧
      restored.2.service.exchanges = [.fetch tab.path answer]
  idle : restored.2.inFlight = 0

variable [FileService σ] {bar : TabBar} {desk placed : Desk (Recorded σ)} {count index : Nat}
  {tab : Tab}

/-- Once there is a placeholder for every tab, selecting the active one resumes the session. -/
theorem resumes_activate (hadded : placed.bar.Placeholders bar.paths) (hnodup : bar.paths.Nodup)
    (hcount : count = bar.tabs.length) (hquiet : placed.service.exchanges = [])
    (hidle : placed.inFlight = 0) (hposition : bar.active = some index)
    (htab : bar.tabs[index]? = some tab) (event message : String) :
    placed.bar.find? tab.path = some index ∧
      Resumes bar (count, (placed.activateAndLoad index).logInfo event message) := by
  obtain ⟨placeholder, hplaceholder, hpath, hunread⟩ := hadded.exists_tab htab
  have hplaced : placed.bar.paths.Nodup := hadded.paths ▸ hnodup
  obtain ⟨hpaths, hselected, hservice, htraffic⟩ :=
    activateAndLoad_placeholder hplaced hplaceholder hunread
  have hsome : bar.activeTab? = some tab := by
    rw [activeTab?, hposition, Option.bind_some, htab]
  have hread : (placed.activateAndLoad index).service.exchanges =
      [.fetch tab.path (FileService.fetchFile tab.path placed.service).1] := by
    rw [hservice, Recorded.exchanges_fetchFile, hpath, hquiet, List.nil_append]
  refine ⟨hpath ▸ find?_of_nodup hplaced hplaceholder, ?_⟩
  exact
    { paths := hpaths.trans hadded.paths
      active := by
        rw [bar_logInfo, path_activeTab? hselected, hpaths, hadded.paths, path_activeTab? hposition]
      count := hcount
      reads := .inr ⟨tab, _, hsome, hread⟩
      idle := by
        change (placed.activateAndLoad index).traffic.inFlight = 0
        rw [htraffic]
        exact hidle }

/-- A session is restored from its snapshot on a desk that was not used, if no two tabs have
the same path. -/
theorem resumes_restore (hactive : bar.ActiveValid) (hnodup : bar.paths.Nodup)
    (hbar : desk.bar = .empty) (hidle : desk.inFlight = 0)
    (hexchanges : desk.service.exchanges = []) :
    Resumes bar (desk.restore (.capture bar)) := by
  have hstart : desk.bar.Placeholders [] := hbar ▸ placeholders_empty
  have hnew : ([] ++ bar.paths).Nodup := hnodup
  obtain ⟨hcount, hadded⟩ := foldl_restoreTab 0 hstart hnew
  have hsame := foldl_restoreTab_snd bar.paths 0 desk
  rw [TabBar.paths, List.length_map, Nat.zero_add, ← TabBar.paths] at hcount
  rw [List.nil_append] at hadded
  unfold restore
  dsimp only [Snapshot.capture]
  generalize bar.paths.foldl restoreTab (0, desk) = added at hcount hadded hsame ⊢
  obtain ⟨count, placed⟩ := added
  dsimp only at hcount hadded hsame ⊢
  cases hposition : bar.active with
  | none =>
      have hnone : bar.activeTab? = none := by
        rw [activeTab?, hposition]
        rfl
      have hpaths : bar.paths = [] := by
        rw [TabBar.paths, hactive.none_iff.mp hposition]
        rfl
      rw [hpaths] at hsame
      obtain rfl : placed = desk := hsame
      rw [hnone, hbar]
      change Resumes bar (count, placed.logInfo _ _)
      exact
        { paths := hadded.paths
          active := by
            rw [hnone, bar_logInfo, hbar]
            rfl
          count := hcount
          reads := .inl ⟨hnone, hexchanges⟩
          idle := hidle }
  | some index =>
      obtain ⟨tab, htab⟩ : ∃ tab, bar.tabs[index]? = some tab :=
        ⟨_, List.getElem?_eq_getElem (hactive.lt_length index hposition)⟩
      have hquiet : placed.service.exchanges = [] := by
        rw [hsame]
        exact hexchanges
      have hnothing : placed.inFlight = 0 := by
        rw [hsame]
        exact hidle
      obtain ⟨hfind, hresumes⟩ :=
        resumes_activate hadded hnodup hcount hquiet hnothing hposition htab "session.restored"
          s!"{count} tabs"
      rw [activeTab?, hposition, Option.bind_some, htab, Option.map_some, Option.bind_some, hfind]
      exact hresumes

end Desk

end Workbench
