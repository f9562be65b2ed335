import Workbench.Proofs.File.Naming
import Workbench.Proofs.Tabs.SaveStates

/-! # What a version says of a tab

A tab without unsaved edits holds the content that its version names, provided
that the tabs are told the truth: contents come with their names, and the answer of
a save with the name of what was sent. That this lasts takes two facts about saves:
they run only for unsaved edits, and never for a tab in conflict. -/

namespace Workbench

namespace Tab

variable {tab tab' : Tab}

/-- The version of the tab, if it has one, names its content. -/
def Named (tab : Tab) : Prop :=
  ∀ etag, tab.etag = some etag → etag = MemoryFiles.versionOf tab.encoding tab.content

/-- Without unsaved edits the tab is named by its version. Besides, a save runs only
alone, for unsaved edits, and while there is no conflict. -/
structure Faithful (tab : Tab) : Prop where
  single : tab.pendingRefresh = none ∨ tab.pendingSave = none
  saving : tab.pendingSave.isSome = true → tab.unsaved = true
  calm : tab.pendingSave.isSome = true → tab.state.isConflict = false
  named : tab.unsaved = false → tab.Named

theorem named_of_etag {etag : String} (hetag : tab.etag = some etag)
    (hnames : etag = MemoryFiles.versionOf tab.encoding tab.content) : tab.Named := by
  intro other hother
  obtain rfl := Option.some.inj (hetag.symm.trans hother)
  exact hnames

namespace Faithful

/-- A tab that is not being saved has only to be named. -/
theorem of_idle (hidle : tab.pendingSave = none) (hnamed : tab.unsaved = false → tab.Named) :
    tab.Faithful := by
  refine ⟨.inr hidle, ?_, ?_, hnamed⟩
  · simp [hidle]
  · simp [hidle]

theorem opened {id : TabId} {file : FileInfo} {content : String} {encoding : Encoding}
    {etag : Option String} (hnamed : (Tab.opened id file content encoding etag).Named) :
    (Tab.opened id file content encoding etag).Faithful :=
  of_idle rfl fun _ => hnamed

theorem idle_of_conflict (h : tab.Faithful) (hconflict : tab.state.isConflict = true) :
    tab.pendingSave = none := by
  cases hsave : tab.pendingSave with
  | none => rfl
  | some pending =>
      have hcalm := h.calm (by simp [hsave])
      rw [hconflict] at hcalm
      cases hcalm

theorem idle_of_refresh (h : tab.Faithful) {pending : PendingRequest}
    (hrefresh : tab.pendingRefresh = some pending) : tab.pendingSave = none :=
  h.single.resolve_left (by simp [hrefresh])

theorem of_edited {content : String} {time : Nat} (h : tab.Faithful)
    (hedited : tab.Edited content time tab') : tab'.Faithful := by
  cases hedited with
  | same => exact h
  | changed =>
      refine ⟨h.single, fun _ => rfl, ?_, nofun⟩
      intro hsaving
      dsimp only
      split
      next => rfl
      next => exact h.calm hsaving

theorem of_refreshed {request : RequestId} {result : RefreshResult} (h : tab.Faithful)
    (hrefreshed : tab.Refreshed request result tab')
    (hread : ∀ content, result = .fetched content → content.Named) : tab'.Faithful := by
  cases hrefreshed with
  | dropped => exact h
  | returned content hpending => exact of_idle (h.idle_of_refresh hpending) h.named
  | contested content hpending => exact of_idle (h.idle_of_refresh hpending) h.named
  | adopted content hpending =>
      exact of_idle (h.idle_of_refresh hpending) fun _ => named_of_etag rfl (hread content rfl)
  | missing hpending => exact of_idle (h.idle_of_refresh hpending) h.named
  | _ => exact ⟨.inl rfl, h.saving, h.calm, h.named⟩

theorem of_saveAnswered {request : RequestId} {result : SaveResult} (h : tab.Faithful)
    (hanswered : tab.SaveAnswered request result tab')
    (hwritten : ∀ write, result = .written write →
      tab.pendingSave = some { request, generation := tab.generation } →
        write.etag = MemoryFiles.versionOf tab.encoding tab.content) : tab'.Faithful := by
  cases hanswered with
  | dropped => exact h
  | stored write hpending =>
      exact of_idle rfl fun _ => named_of_etag rfl (hwritten write rfl hpending)
  | storedOlder write hpending =>
      -- Later edits are still unsaved, and the version need not name them.
      have hunsaved := h.saving (by simp [hpending])
      refine of_idle rfl fun hsaved => ?_
      exact absurd hunsaved (by simp [show tab.unsaved = false from hsaved])
  | refused => exact of_idle rfl h.named
  | failed => exact of_idle rfl h.named

end Faithful

end Tab

namespace TabBar

variable {bar : TabBar} {action : TabAction} {actions : List TabAction} {tab tab' : Tab}

/-- The action tells the truth about versions. What a tab is opened with, and what was
read, comes with its name, and so does what was stored: the content of the tab, or for
a background save the content that is still held at its edit count. Other writers are
not heard. -/
def Truthful (bar : TabBar) : TabAction → Prop
  | .openTab _ content encoding etag =>
      ∀ version, etag = some version → version = MemoryFiles.versionOf encoding content
  | .refreshResolved _ _ result => ∀ content, result = .fetched content → content.Named
  | .saveResolved id request result =>
      ∀ tab ∈ bar.tabs, tab.id = id → ∀ write, result = .written write →
        tab.pendingSave = some { request, generation := tab.generation } →
          write.etag = MemoryFiles.versionOf tab.encoding tab.content
  | .acceptServer _ content => content.Named
  | .savedAs index _ write =>
      ∀ tab, bar.tabs[index]? = some tab →
        write.etag = MemoryFiles.versionOf tab.encoding tab.content
  | .externalWrite _ _ _ _ => False
  | _ => True

theorem Becomes.faithful (h : Becomes bar action tab tab') (hmem : tab ∈ bar.tabs)
    (htruthful : Truthful bar action) (hprudent : Prudent bar action) (htab : tab.Faithful) :
    tab'.Faithful := by
  cases h with
  | reopened content encoding etag _ _ hidle => exact .of_idle hidle fun _ => htruthful
  | edited _ hedited => exact htab.of_edited hedited
  | moved => exact ⟨.inl rfl, htab.saving, htab.calm, htab.named⟩
  | relocated => exact ⟨.inl rfl, htab.saving, htab.calm, htab.named⟩
  | refreshStarted request hindex =>
      exact .of_idle (Tab.isBusy_eq_false.mp (hprudent tab hindex)).2 htab.named
  | refreshed hrefreshed => exact htab.of_refreshed hrefreshed htruthful
  | saveStarted request hindex =>
      obtain ⟨hidle, hunsaved⟩ := hprudent tab hindex
      refine ⟨.inl (Tab.isBusy_eq_false.mp hidle).1, fun _ => hunsaved, fun _ => rfl, ?_⟩
      exact fun hsaved => absurd hunsaved (by simp [show tab.unsaved = false from hsaved])
  | saved hanswered => exact htab.of_saveAnswered hanswered (htruthful tab hmem rfl)
  | accepted content _ hconflict =>
      exact .of_idle (htab.idle_of_conflict hconflict) fun _ => Tab.named_of_etag rfl htruthful
  | keptLocal _ hconflict => exact .of_idle (htab.idle_of_conflict hconflict) htab.named
  | storedAs newPath write hindex hconflict =>
      exact .of_idle (htab.idle_of_conflict hconflict)
        fun _ => Tab.named_of_etag rfl (htruthful tab hindex)
  | overwritten => exact htruthful.elim
  | _ => exact ⟨htab.single, htab.saving, htab.calm, htab.named⟩

/-- Where all actions tell the truth and start requests with care, all tabs are
faithful. -/
theorem faithful_run (hbar : bar.Numbered) (htruthful : Along Truthful bar actions)
    (hprudent : Along Prudent bar actions) (h : ∀ tab ∈ bar.tabs, tab.Faithful) :
    ∀ tab ∈ (bar.run actions).tabs, tab.Faithful := by
  refine (htruthful.and hprudent).run (p := fun bar => ∀ tab ∈ bar.tabs, tab.Faithful) hbar h ?_
  intro bar action hbar hfits hbefore
  refine forall_tabs_next hbar hbefore ?_ ?_
  · exact fun tab hmem tab' hbecomes htab => hbecomes.faithful hmem hfits.1 hfits.2 htab
  · intro id file content encoding etag hopens
    cases hopens with
    | loaded => exact .opened hfits.1
    | unloaded => exact .opened nofun

end TabBar

end Workbench
