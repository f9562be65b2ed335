import Workbench.Proofs.File.Naming
import Workbench.Proofs.Tabs.Structure
import Workbench.Proofs.Workspace.Moves

/-! # What an upload does to the tabs

Each item that an upload stores is told to the tabs as the write of another client. It is
stored under the path as given, but the tab is looked for at the usual spelling of that path.
Where the two are the same, an item concerns the tab of its file only, and the tab takes over
what was stored unless it has changes of its own. Where they differ, the tab of another path
takes it over. -/

namespace Workbench

namespace Tab.WrittenOver

variable {tab tab' : Tab} {content : String} {encoding : Encoding} {write : WriteResult}

theorem unsaved_eq (h : tab.WrittenOver content encoding write tab') :
    tab'.unsaved = tab.unsaved := by
  cases h <;> rfl

theorem pendingSave_eq (h : tab.WrittenOver content encoding write tab') :
    tab'.pendingSave = tab.pendingSave := by
  cases h <;> rfl

/-- A tab without changes of its own takes over what was stored, or has the version already. -/
theorem holds (h : tab.WrittenOver content encoding write tab') (hsaved : tab.unsaved = false)
    (hidle : tab.pendingSave = none) (hhonest : tab.etag = some write.etag → tab.content = content) :
    tab'.content = content ∧ tab'.etag = some write.etag := by
  cases h with
  | same hetag => exact ⟨hhonest hetag, hetag⟩
  | contested hetag hbusy => simp [hsaved, hidle] at hbusy
  | adopted => exact ⟨rfl, rfl⟩

end Tab.WrittenOver

namespace TabBar

variable {bar : TabBar} {path content : String} {encoding : Encoding} {write : WriteResult}
  {index : Nat} {tab tab' : Tab}

/-- The write of another client changes the first tab at its path at most. -/
theorem next_externalWrite_cases (bar : TabBar) (path content : String) (encoding : Encoding)
    (write : WriteResult) :
    (path ∉ bar.paths ∧ bar.next (.externalWrite path content encoding write) = bar) ∨
      ∃ index tab tab', bar.find? path = some index ∧ bar.tabs[index]? = some tab ∧
        tab.path = path ∧ tab.WrittenOver content encoding write tab' ∧
        bar.next (.externalWrite path content encoding write) =
          { bar with tabs := bar.tabs.set index tab' } := by
  cases hfind : bar.find? path with
  | none =>
      refine .inl ⟨notMem_paths_of_find?_eq_none hfind, ?_⟩
      simp only [next, apply, externalWrite, hfind]
  | some index =>
      obtain ⟨tab, htab, hpath⟩ := find?_eq_some hfind
      refine .inr ⟨index, tab, _, rfl, htab, hpath,
        writtenOver_overwrittenBy content encoding write index tab, ?_⟩
      simp only [next, apply, externalWrite, hfind, htab]

/-- A tab at another path is left as it is. -/
theorem getElem?_next_externalWrite (htab : bar.tabs[index]? = some tab) (hpath : tab.path ≠ path) :
    (bar.next (.externalWrite path content encoding write)).tabs[index]? = some tab := by
  rcases bar.next_externalWrite_cases path content encoding write with
    ⟨-, hnext⟩ | ⟨position, other, other', -, hother, hother_path, -, hnext⟩
  · rw [hnext, htab]
  · have hne : position ≠ index := by
      rintro rfl
      obtain rfl := Option.some.inj (htab.symm.trans hother)
      exact hpath hother_path
    rw [hnext, List.getElem?_set_ne hne, htab]

/-- The tab at the path has taken over what was stored, unless it has changes of its own. -/
theorem holds_next_externalWrite (hpaths : bar.paths.Nodup)
    (hhonest : ∀ tab ∈ bar.tabs, tab.path = path → tab.unsaved = false → tab.pendingSave = none →
      tab.etag = some write.etag → tab.content = content)
    (htab' : tab' ∈ (bar.next (.externalWrite path content encoding write)).tabs)
    (hpath : tab'.path = path) (hsaved : tab'.unsaved = false) (hidle : tab'.pendingSave = none) :
    tab'.content = content ∧ tab'.etag = some write.etag := by
  rcases bar.next_externalWrite_cases path content encoding write with
    ⟨hfree, hnext⟩ | ⟨index, tab, written, -, htab, htab_path, hwritten, hnext⟩
  · rw [hnext] at htab'
    exact absurd (mem_paths_iff.mpr ⟨tab', htab', hpath⟩) hfree
  · have hsame : tab' = written := by
      have hpaths' : (bar.tabs.set index written).map (·.path) = bar.paths :=
        map_set_of_eq (·.path) htab hwritten.path_eq
      rw [hnext] at htab'
      refine List.inj_on_of_nodup_map (f := (·.path)) (hpaths'.symm ▸ hpaths) htab'
        (mem_set_self htab) ?_
      exact hpath.trans (hwritten.path_eq.trans htab_path).symm
    subst hsame
    rw [hwritten.unsaved_eq] at hsaved
    rw [hwritten.pendingSave_eq] at hidle
    exact hwritten.holds hsaved hidle
      (hhonest tab (List.mem_of_getElem? htab) htab_path hsaved hidle)

/-- A tab that was never read takes over what is stored at its path. -/
theorem etag_next_externalWrite_of_unloaded (hfind : bar.find? path = some index)
    (htab : bar.tabs[index]? = some tab) (hunloaded : tab.etag = none)
    (hsaved : tab.unsaved = false) (hidle : tab.pendingSave = none)
    (htab' : (bar.next (.externalWrite path content encoding write)).tabs[index]? = some tab') :
    tab'.etag = some write.etag := by
  rcases bar.next_externalWrite_cases path content encoding write with
    ⟨hfree, -⟩ | ⟨position, found, written, hposition, hfound, -, hwritten, hnext⟩
  · obtain ⟨found, hfound, hpath⟩ := find?_eq_some hfind
    exact absurd (mem_paths_iff.mpr ⟨found, List.mem_of_getElem? hfound, hpath⟩) hfree
  · obtain rfl := Option.some.inj (hfind.symm.trans hposition)
    obtain rfl := Option.some.inj (htab.symm.trans hfound)
    have hlt : index < bar.tabs.length := (List.getElem?_eq_some_iff.mp htab).1
    rw [hnext, List.getElem?_set_self hlt] at htab'
    obtain rfl := Option.some.inj htab'
    exact (hwritten.holds hsaved hidle (by simp [hunloaded])).2

end TabBar

namespace Workspace

open TabBar

/-! ## One item after another -/

section Items

variable {σ : Type} [FileService σ] {w : Workspace σ} {u : UploadState σ} {items : List UploadItem}
  {item : UploadItem} {count : Nat}

/-- An upload before its first item. -/
def uploadStart (w : Workspace σ) (items : List UploadItem) : UploadState σ :=
  UploadState.report
    { workspace := { w with tree := (beginUploads w.tree items).2 }
      progress := .start items
      reported := [] }

/-- The workspace after some of the items of an upload. -/
def uploadedUpTo (w : Workspace σ) (items : List UploadItem) (count : Nat) : Workspace σ :=
  (((beginUploads w.tree items).1.take count).foldl uploadItem (w.uploadStart items)).workspace

theorem desk_uploadedUpTo_zero (w : Workspace σ) (items : List UploadItem) :
    (w.uploadedUpTo items 0).desk = w.desk := rfl

theorem uploadedUpTo_succ (hitem : items[count]? = some item) :
    ∃ u id, u.workspace = w.uploadedUpTo items count ∧
      w.uploadedUpTo items (count + 1) = (uploadItem u (id, item)).workspace := by
  rw [← map_snd_beginUploads w.tree items, List.getElem?_map, Option.map_eq_some_iff] at hitem
  obtain ⟨⟨id, _⟩, hbegun, rfl⟩ := hitem
  refine ⟨_, id, rfl, ?_⟩
  rw [uploadedUpTo, List.take_add_one, hbegun, List.foldl_append]
  rfl

/-- An item that is stored is told to the tabs as the write of another client. -/
theorem desk_uploadItem_of_stored {write : WriteResult} {service : σ} (id : MutationId)
    (hstore : FileService.storeFile item.path item.content item.encoding none
      u.workspace.desk.service = (.ok write, service)) :
    (uploadItem u (id, item)).workspace.desk.service = service ∧
      (uploadItem u (id, item)).workspace.desk.bar = u.workspace.desk.bar.next
        (.externalWrite (Path.normalize item.path) item.content item.encoding write) := by
  unfold uploadItem UploadState.report Desk.storeFile
  dsimp only
  rw [hstore]
  constructor
  · exact Desk.service_applyExternalWrite _ _ _ _ _
  · exact (Desk.performs_applyExternalWrite _ _ _ _ _).bar

end Items

/-! ## The tab of the file -/

variable {w before after : Workspace MemoryFiles} {items : List UploadItem} {item : UploadItem}
  {count : Nat} {path : String}

/-- The tabs at other paths keep their content, version and state. The tab at the path, if it
has no changes of its own, holds the content and version that are stored there. -/
structure ConcernsOnly (path : String) (before after : Workspace MemoryFiles) : Prop where
  elsewhere : ∀ (index : Nat) (tab : Tab), before.desk.bar.tabs[index]? = some tab →
    tab.path ≠ path → ∃ tab' : Tab, after.desk.bar.tabs[index]? = some tab' ∧ tab'.id = tab.id ∧
      tab'.content = tab.content ∧ tab'.etag = tab.etag ∧ tab'.state = tab.state
  there : ∀ tab ∈ after.desk.bar.tabs, tab.path = path → tab.unsaved = false →
    tab.pendingSave = none → ∃ file, after.desk.service.files.get? path = some file ∧
      tab.content = file.content ∧ tab.etag = some file.etag

/-- It is the turn of an item of an upload, and the service will store it. No two tabs share a
path, and the version of the item tells its content from what the tab of the file holds. -/
structure StoresNext (w : Workspace MemoryFiles) (items : List UploadItem) (count : Nat)
    (item : UploadItem) : Prop where
  next : items[count]? = some item
  stored : ∃ write, (FileService.storeFile item.path item.content item.encoding none
    (w.uploadedUpTo items count).desk.service).1 = .ok write
  distinct : (w.uploadedUpTo items count).desk.bar.paths.Nodup
  unambiguous : ∀ tab ∈ (w.uploadedUpTo items count).desk.bar.tabs, tab.path = item.path →
    tab.unsaved = false → tab.pendingSave = none →
      tab.etag = some (MemoryFiles.versionOf item.encoding item.content) →
        tab.content = item.content

/-- The item is stored under its path as given, and told to the tab of the usual spelling. -/
theorem StoresNext.exists_write (h : w.StoresNext items count item) :
    ∃ write, write.etag = MemoryFiles.versionOf item.encoding item.content ∧
      (∃ file, (w.uploadedUpTo items (count + 1)).desk.service.files.get? item.path = some file ∧
        file.content = item.content ∧ file.etag = write.etag) ∧
      (w.uploadedUpTo items (count + 1)).desk.bar = (w.uploadedUpTo items count).desk.bar.next
        (.externalWrite (Path.normalize item.path) item.content item.encoding write) := by
  obtain ⟨write, hwrite⟩ := h.stored
  obtain ⟨u, id, hu, hafter⟩ := w.uploadedUpTo_succ h.next
  rw [← hu] at hwrite
  cases hstore : FileService.storeFile item.path item.content item.encoding none
      u.workspace.desk.service with
  | mk answer service =>
      rw [hstore] at hwrite
      obtain rfl : answer = .ok write := hwrite
      obtain ⟨hservice, hbar⟩ := desk_uploadItem_of_stored id hstore
      have hfile := MemoryFiles.get?_of_storeFile hstore
      refine ⟨write, MemoryFiles.etag_of_storeFile (congrArg Prod.fst hstore), ?_, ?_⟩
      · rw [hafter, hservice]
        exact ⟨_, hfile, rfl, rfl⟩
      · rw [hafter, hbar, hu]

/-- Where the path is spelled as usual, an item concerns the tab of its file only. -/
theorem StoresNext.concernsOnly (h : w.StoresNext items count item)
    (hpath : Path.normalize item.path = item.path) :
    ConcernsOnly item.path (w.uploadedUpTo items count) (w.uploadedUpTo items (count + 1)) := by
  obtain ⟨write, hetag, ⟨file, hfile, hcontent, hversion⟩, hbar⟩ := h.exists_write
  rw [hpath] at hbar
  constructor
  case elsewhere =>
    intro index tab htab hother
    rw [hbar]
    exact ⟨tab, getElem?_next_externalWrite htab hother, rfl, rfl, rfl, rfl⟩
  case there =>
    intro tab' htab' hpath' hsaved hidle
    rw [hbar] at htab'
    obtain ⟨hheld, hheld_etag⟩ := holds_next_externalWrite h.distinct (hetag ▸ h.unambiguous) htab'
      hpath' hsaved hidle
    exact ⟨file, hfile, hheld.trans hcontent.symm, by rw [hheld_etag, hversion]⟩

/-! ## The tab of another path -/

/-- A tab that is still to be read is open at the usual spelling of a path. -/
def openAtUsual (path : String) : List (Step MemoryFiles) :=
  [.openUnloaded (.ofPath (Path.normalize path))]

theorem tabs_openAtUsual (path : String) :
    (openingMemory.run (openAtUsual path)).desk.bar.tabs =
      [.opened 1 (.ofPath (Path.normalize path)) "" .utf8 none] := rfl

theorem mem_openAtUsual {tab : Tab}
    (htab : tab ∈ (openingMemory.run (openAtUsual path)).desk.bar.tabs) :
    tab = .opened 1 (.ofPath (Path.normalize path)) "" .utf8 none :=
  List.mem_singleton.mp htab

theorem storesNext_openAtUsual (hpath : Path.normalize path ≠ path) (content : String) :
    (openingMemory.run (openAtUsual path)).StoresNext [.ofText path content] 0
      (.ofText path content) where
  next := rfl
  stored := ⟨_, rfl⟩
  distinct := List.nodup_singleton _
  unambiguous tab htab hsame := by
    rw [mem_openAtUsual htab] at hsame
    exact absurd hsame hpath

/-- The tab takes over what is stored under another path than its own. -/
theorem not_concernsOnly_openAtUsual (hpath : Path.normalize path ≠ path) (content : String) :
    ¬ ConcernsOnly path
      ((openingMemory.run (openAtUsual path)).uploadedUpTo [.ofText path content] 0)
      ((openingMemory.run (openAtUsual path)).uploadedUpTo [.ofText path content] 1) := by
  intro hconcerns
  obtain ⟨write, -, -, hbar⟩ := (storesNext_openAtUsual hpath content).exists_write
  have htabs := tabs_openAtUsual path
  rw [← desk_uploadedUpTo_zero _ [.ofText path content]] at htabs
  have htab := congrArg (·[0]?) htabs
  obtain ⟨tab', htab', -, -, hkept, -⟩ := hconcerns.elsewhere 0 _ htab hpath
  have hfind : ((openingMemory.run (openAtUsual path)).uploadedUpTo [.ofText path content]
      0).desk.bar.find? (Path.normalize path) = some 0 := by
    rw [find?, htabs, List.findIdx?_cons]
    exact if_pos (beq_self_eq_true _)
  rw [Nat.zero_add] at hbar
  rw [hbar] at htab'
  have htaken := etag_next_externalWrite_of_unloaded hfind htab rfl rfl rfl htab'
  rw [hkept] at htaken
  cases htaken

/-- Items at a path concern the tab of their file only, in every upload after any run, exactly
if the path is spelled as usual. -/
theorem concernsOnly_iff (path : String) :
    (∀ start : Workspace MemoryFiles, start.Fresh → ∀ history : List (Step MemoryFiles),
        ∀ items count item, item.path = path →
          (start.run history).StoresNext items count item →
            ConcernsOnly path ((start.run history).uploadedUpTo items count)
              ((start.run history).uploadedUpTo items (count + 1))) ↔
      Path.normalize path = path := by
  constructor
  · intro hconcerns
    by_contra hpath
    refine not_concernsOnly_openAtUsual hpath "text" ?_
    exact hconcerns openingMemory (fresh_opening _ _ _ _ _) _ _ 0 _ rfl
      (storesNext_openAtUsual hpath "text")
  · rintro hpath start - history items count item rfl hnext
    exact hnext.concernsOnly hpath

/-- Two tabs of stored files. -/
def planAndNotes : List (Step MemoryFiles) :=
  [.outside fun m => (m.put "/plan" "one").2, .outside fun m => (m.put "/notes" "other").2,
   .openPath "/plan", .openPath "/notes"]

theorem planAndNotes_concernsOnly :
    Path.normalize "/plan" = "/plan" ∧ openingMemory.Fresh ∧
      (openingMemory.run planAndNotes).StoresNext [.ofText "/draft" "new", .ofText "/plan" "two"] 1
        (.ofText "/plan" "two") ∧
      ConcernsOnly "/plan"
        ((openingMemory.run planAndNotes).uploadedUpTo
          [.ofText "/draft" "new", .ofText "/plan" "two"] 1)
        ((openingMemory.run planAndNotes).uploadedUpTo
          [.ofText "/draft" "new", .ofText "/plan" "two"] 2) := by
  have hpath : Path.normalize "/plan" = "/plan" := by decide +kernel
  have hfresh : openingMemory.Fresh := fresh_opening _ _ _ _ _
  have hnext : (openingMemory.run planAndNotes).StoresNext
      [.ofText "/draft" "new", .ofText "/plan" "two"] 1 (.ofText "/plan" "two") :=
    { next := rfl
      stored := ⟨_, rfl⟩
      distinct := by decide +kernel
      unambiguous := by decide +kernel }
  exact ⟨hpath, hfresh, hnext,
    (concernsOnly_iff "/plan").mpr hpath openingMemory hfresh planAndNotes _ 1 _ rfl hnext⟩

/-- A slash at the end makes an upload store another file, and the tab takes that over. -/
theorem slashAtEnd_not_concernsOnly :
    openingMemory.Fresh ∧
      (openingMemory.run planAndNotes).StoresNext [.ofText "/plan/" "two"] 0
        (.ofText "/plan/" "two") ∧
      ¬ ConcernsOnly "/plan/"
        ((openingMemory.run planAndNotes).uploadedUpTo [.ofText "/plan/" "two"] 0)
        ((openingMemory.run planAndNotes).uploadedUpTo [.ofText "/plan/" "two"] 1) := by
  refine ⟨fresh_opening _ _ _ _ _, ?_, ?_⟩
  · exact
      { next := rfl
        stored := ⟨_, rfl⟩
        distinct := by decide +kernel
        unambiguous := by decide +kernel }
  · intro hconcerns
    have hbefore : ((openingMemory.run planAndNotes).uploadedUpTo [.ofText "/plan/" "two"]
        0).desk.bar.tabs[0]?.map (fun tab => (tab.path, tab.content)) = some ("/plan", "one") := by
      decide +kernel
    have hafter : ((openingMemory.run planAndNotes).uploadedUpTo [.ofText "/plan/" "two"]
        1).desk.bar.tabs[0]?.map (·.content) = some "two" := by decide +kernel
    obtain ⟨tab, htab, hheld⟩ := Option.map_eq_some_iff.mp hbefore
    obtain ⟨hpath, hcontent⟩ := Prod.mk.inj hheld
    obtain ⟨tab', htab', -, hkept, -⟩ := hconcerns.elsewhere 0 tab htab (by simp [hpath])
    rw [htab', Option.map_some, hkept, hcontent] at hafter
    exact absurd hafter (by decide)

end Workspace

end Workbench
