import Workbench.Proofs.File.Memory
import Workbench.Proofs.Tabs.Versions
import Workbench.Proofs.Workspace.Requests

/-! # What a save may replace

A save carries the version that its tab holds when the save starts, and the
service leaves files of other versions alone. So a save of a tab that holds a
version replaces only what the tab was told before. A tab that was never read
holds none, and its save replaces whatever it finds. -/

namespace Workbench.Workspace

open TabBar

section Service

variable {σ : Type} [FileService σ] {request : Request}

/-! ## Where saves come from -/

/-- A step after a run starts a save for a tab, and the save is for the tab as
it is after the step. -/
structure StartsSave (start : Workspace σ) (earlier : List (Step σ)) (step : Step σ) (tab : Tab)
    (request : Request) : Prop where
  fresh : request ∉ (start.run earlier).desk.traffic.waiting
  mem_tabs : tab ∈ (start.run (earlier ++ [step])).desk.bar.tabs
  id_eq : tab.id = request.tab
  errand_eq : request.errand = Desk.saveErrand tab

/-- Every save that waits to be performed was started by some step. -/
theorem exists_startsSave (start : Workspace σ) (hstart : start.desk.bar = .empty)
    (hidle : start.desk.traffic.waiting = []) (history : List (Step σ))
    (hrequest : request ∈ (start.run history).desk.traffic.waiting)
    (hwrite : request.errand.isWrite = true) :
    ∃ earlier step later tab, history = earlier ++ step :: later ∧
      StartsSave start earlier step tab request := by
  obtain ⟨earlier, step, later, tab, hhistory, hstarts⟩ :=
    exists_starts start hstart hidle history hrequest
  refine ⟨earlier, step, later, tab, hhistory, hstarts.fresh, hstarts.mem_tabs, hstarts.id_eq, ?_⟩
  rcases hstarts.errand_eq with hread | hsave
  · rw [hread] at hwrite
    cases hwrite
  · exact hsave

end Service

/-! ## What saves replace -/

/-- A save is checked if it expects a version and, in whatever state it finds the
files, replaces only a version that its tab was told before. -/
structure Checked (history : List TabAction) (request : Request) : Prop where
  expects : request.errand.expected?.isSome = true
  told : ∀ (m : MemoryFiles) (file : StoredFile),
    m.files.get? request.errand.path = some file → request.errand.Stores m →
      Told history request.tab file.etag

/-- A save is blind if it replaces whatever it finds, as long as no failure was
planned. -/
def Blind (request : Request) : Prop :=
  ∀ (m : MemoryFiles) (file : StoredFile), m.files.get? request.errand.path = some file →
    MemoryFiles.takeFailure .write request.errand.path m.failures = none →
      request.errand.Stores m

/-- A step of a run started the save, and where the save succeeds, the content of
the tab at that time is stored. Unless the tab was marked to overwrite what is
stored, the save is checked exactly if the tab held a version, and blind
otherwise. -/
def Accounted (start : Workspace MemoryFiles) (history : List (Step MemoryFiles))
    (request : Request) : Prop :=
  ∃ earlier step later tab, history = earlier ++ step :: later ∧
    StartsSave start earlier step tab request ∧
    (∀ m : MemoryFiles, request.errand.Stores m →
      (request.errand.perform m).2.content? tab.path = some tab.content) ∧
    (tab.overwriteOnSave = false →
      (Checked (start.actionsOf (earlier ++ [step])) request ↔ tab.isLoaded = true) ∧
        (tab.isLoaded = false → Blind request))

theorem expected?_saveErrand {tab : Tab} (hmarked : tab.overwriteOnSave = false) :
    (Desk.saveErrand tab).expected? = tab.etag := by
  simp [Desk.saveErrand, Errand.expected?, Desk.expectedEtag, hmarked]

/-- Every save that waits during a run is accounted for, whatever other clients
do to the files meanwhile. -/
theorem saves_accounted (start : Workspace MemoryFiles) (hstart : start.desk.bar = .empty)
    (hidle : start.desk.traffic.waiting = []) (history : List (Step MemoryFiles))
    {request : Request} (hrequest : request ∈ (start.run history).desk.traffic.waiting)
    (hwrite : request.errand.isWrite = true) : Accounted start history request := by
  obtain ⟨earlier, step, later, tab, hhistory, hstarts⟩ :=
    exists_startsSave start hstart hidle history hrequest hwrite
  have hcontent : ∀ m : MemoryFiles, request.errand.Stores m →
      (request.errand.perform m).2.content? tab.path = some tab.content := by
    rw [hstarts.errand_eq]
    exact fun m hstores => MemoryFiles.content?_perform hstores
  refine ⟨earlier, step, later, tab, hhistory, hstarts, hcontent, ?_⟩
  intro hmarked
  have hexpected : request.errand.expected? = tab.etag := by
    rw [hstarts.errand_eq, expected?_saveErrand hmarked]
  constructor
  · constructor
    · intro hchecked
      have hsome := hchecked.expects
      rwa [hexpected] at hsome
    · intro hloaded
      refine ⟨hexpected ▸ hloaded, ?_⟩
      intro m file hfile hstores
      obtain ⟨etag, hetag⟩ := Option.isSome_iff_exists.mp hloaded
      -- The service stores over the expected version only.
      have hsame : tab.etag = some file.etag := by
        rcases ((MemoryFiles.stores_iff hwrite hfile).mp hstores).2 with hnone | hsome
        · rw [hexpected, hetag] at hnone
          cases hnone
        · exact hexpected.symm.trans hsome
      have htab := hstarts.mem_tabs
      rw [bar_run_eq hstart] at htab
      rw [← hstarts.id_eq]
      exact told_of_run (start.actionsOf (earlier ++ [step])) htab hsame
  · intro hunread m file hfile hfailure
    have hnone : request.errand.expected? = none :=
      hexpected.trans (Option.isNone_iff_eq_none.mp (by simpa [Tab.isLoaded] using hunread))
    exact (MemoryFiles.stores_iff hwrite hfile).mpr ⟨hfailure, .inl hnone⟩

/-- A draft of a file that was read. -/
def draftOfRead : List (Step MemoryFiles) :=
  [.outside fun m => (m.put "/plan" "one").2, .openPath "/plan", .edit 0 "two" 5, .save 0]

theorem draftOfRead_accounted :
    ∃ request ∈ (openingMemory.run draftOfRead).desk.traffic.waiting,
      request.errand.isWrite = true ∧ request.errand.expected?.isSome = true ∧
        Accounted openingMemory draftOfRead request := by
  have hfound : ∃ request ∈ (openingMemory.run draftOfRead).desk.traffic.waiting,
      request.errand.isWrite = true ∧ request.errand.expected?.isSome = true := by
    decide +kernel
  obtain ⟨request, hrequest, hwrite, hexpects⟩ := hfound
  refine ⟨request, hrequest, hwrite, hexpects, ?_⟩
  exact saves_accounted openingMemory rfl rfl draftOfRead hrequest hwrite

/-- A draft at the path of a file that was never read. -/
def draftOfUnread : List (Step MemoryFiles) :=
  [.outside fun m => (m.put "/plan" "theirs").2, .openUnloaded (.ofPath "/plan"),
   .edit 0 "mine" 5, .save 0]

/-- The draft replaces the file although its tab is not marked to overwrite and
was never told any version. -/
theorem draftOfUnread_overwrites :
    (∃ request ∈ (openingMemory.run draftOfUnread).desk.traffic.waiting,
      request.errand.isWrite = true ∧ request.errand.expected? = none ∧
        (∃ tab ∈ (openingMemory.run draftOfUnread).desk.bar.tabs,
          tab.id = request.tab ∧ tab.overwriteOnSave = false) ∧
        ∀ etag, ¬ Told (openingMemory.actionsOf draftOfUnread) request.tab etag) ∧
      (openingMemory.run draftOfUnread).desk.service.content? "/plan" = some "theirs" ∧
      ((openingMemory.run draftOfUnread).perform (.release 0)).desk.service.content? "/plan" =
        some "mine" := by
  have hfound : ∃ request ∈ (openingMemory.run draftOfUnread).desk.traffic.waiting,
      request.errand.isWrite = true ∧ request.errand.expected? = none ∧
        ∃ tab ∈ (openingMemory.run draftOfUnread).desk.bar.tabs,
          tab.id = request.tab ∧ tab.overwriteOnSave = false := by
    decide +kernel
  have hactions : openingMemory.actionsOf draftOfUnread =
      [.openUnloaded (.ofPath "/plan"), .edit 0 "mine" 5, .saveStarted 0 1] := by
    decide +kernel
  obtain ⟨request, hrequest, hwrite, hnone, hunmarked⟩ := hfound
  refine ⟨⟨request, hrequest, hwrite, hnone, hunmarked, ?_⟩, by decide +kernel,
    by decide +kernel⟩
  -- None of the three actions of the run tells a version.
  rintro etag ⟨earlier, action, later, hsplit, htells, -⟩
  have hmem : action ∈ openingMemory.actionsOf draftOfUnread := by
    rw [hsplit]
    simp
  rw [hactions] at hmem
  simp only [List.mem_cons, List.not_mem_nil, or_false] at hmem
  rcases hmem with rfl | rfl | rfl
  · exact htells
  · exact htells
  · exact htells

end Workbench.Workspace
