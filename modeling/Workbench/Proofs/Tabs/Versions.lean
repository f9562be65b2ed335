import Workbench.Proofs.Tabs.Fate

/-! # Where the version of a tab comes from

A tab holds the version that it read or wrote last. No action makes a version
up: whatever version a tab holds, some earlier action told it to this very
tab. -/

namespace Workbench.TabBar

variable {bar : TabBar} {action : TabAction} {tab tab' : Tab} {etag : String}

/-- The action tells the tab with a number a version: that of the content it is
opened with, of an answer that it waits for, of the stored file that it takes
over, of a file it was stored as, or of what another writer stored. -/
def Tells (bar : TabBar) (id : TabId) (etag : String) : TabAction → Prop
  | .openTab file _ _ version =>
      version = some etag ∧
        ((∃ tab ∈ bar.tabs, tab.id = id ∧ tab.path = file.path) ∨
          bar.find? file.path = none ∧ id = bar.lastId + 1)
  | .refreshResolved reader request (.fetched content) =>
      content.etag = etag ∧ reader = id ∧
        ∃ tab ∈ bar.tabs, tab.id = id ∧ tab.pendingRefresh.map (·.request) = some request
  | .saveResolved writer request (.written write) =>
      write.etag = etag ∧ writer = id ∧
        ∃ tab ∈ bar.tabs, tab.id = id ∧ tab.pendingSave.map (·.request) = some request
  | .acceptServer index content =>
      content.etag = etag ∧ ∃ tab, bar.tabs[index]? = some tab ∧ tab.id = id
  | .savedAs index _ write =>
      write.etag = etag ∧ ∃ tab, bar.tabs[index]? = some tab ∧ tab.id = id
  | .externalWrite path _ _ write =>
      write.etag = etag ∧ ∃ tab ∈ bar.tabs, tab.id = id ∧ tab.path = path
  | _ => False

/-- Some action of a run told the tab with a number a version, and the tab took
it. -/
def Told (history : List TabAction) (id : TabId) (etag : String) : Prop :=
  ∃ earlier action later, history = earlier ++ action :: later ∧
    Tells (empty.run earlier) id etag action ∧
    ∃ tab ∈ ((empty.run earlier).next action).tabs, tab.id = id ∧ tab.etag = some etag

/-- An action leaves a tab its version, takes it away, or tells it the new
one. -/
theorem Becomes.tells (h : Becomes bar action tab tab') (htab : tab ∈ bar.tabs)
    (hetag : tab'.etag = some etag) : tab.etag = some etag ∨ Tells bar tab.id etag action := by
  cases h with
  | reopened content encoding version hpath =>
      exact .inr ⟨hetag, .inl ⟨tab, htab, rfl, hpath⟩⟩
  | edited hindex hedited => cases hedited <;> exact .inl hetag
  | refreshed hrefreshed =>
      cases hrefreshed with
      | adopted content hpending =>
          exact .inr ⟨Option.some.inj hetag, rfl, tab, htab, rfl, Tab.request_of_pending hpending⟩
      | _ => exact .inl hetag
  | saved hanswered =>
      cases hanswered with
      | stored write hpending =>
          exact .inr ⟨Option.some.inj hetag, rfl, tab, htab, rfl, Tab.request_of_pending hpending⟩
      | storedOlder write hpending =>
          exact .inr ⟨Option.some.inj hetag, rfl, tab, htab, rfl, Tab.request_of_pending hpending⟩
      | _ => exact .inl hetag
  | accepted content hindex => exact .inr ⟨Option.some.inj hetag, tab, hindex, rfl⟩
  | storedAs newPath write hindex => exact .inr ⟨Option.some.inj hetag, tab, hindex, rfl⟩
  | overwritten hwritten =>
      cases hwritten with
      | adopted => exact .inr ⟨Option.some.inj hetag, tab, htab, rfl, rfl⟩
      | _ => exact .inl hetag
  | _ => exact .inl hetag

theorem tells_of_opens {file : FileInfo} {content : String} {encoding : Encoding}
    {version : Option String} (h : Opens action file content encoding version)
    (hfree : bar.find? file.path = none) (hetag : version = some etag) :
    Tells bar (bar.lastId + 1) etag action := by
  cases h with
  | loaded => exact ⟨hetag, .inr ⟨hfree, rfl⟩⟩
  | unloaded => cases hetag

/-- A tab held its version before an action, or is told it by the action. -/
theorem tells_next (hbar : bar.Numbered) (htab' : tab' ∈ (bar.next action).tabs)
    (hetag : tab'.etag = some etag) :
    (∃ tab ∈ bar.tabs, tab.id = tab'.id ∧ tab.etag = some etag) ∨
      Tells bar tab'.id etag action := by
  rcases (transition_next hbar.nodup action).origin hbar.nodup htab' with
    hsame | ⟨tab, htab, hbecomes⟩ | ⟨file, content, encoding, version, hopens, hfree, rfl⟩
  · exact .inl ⟨tab', hsame, rfl, hetag⟩
  · have hid := hbecomes.id_eq
    rcases hbecomes.tells htab hetag with hsame | htells
    · exact .inl ⟨tab, htab, hid.symm, hsame⟩
    · rw [hid]
      exact .inr htells
  · exact .inr (tells_of_opens hopens hfree hetag)

/-- Whatever version a tab holds after a run, it was told. -/
theorem told_of_run (history : List TabAction) (htab : tab ∈ (empty.run history).tabs)
    (hetag : tab.etag = some etag) : Told history tab.id etag := by
  obtain ⟨earlier, action, later, rfl, hbefore, now, hnow, hid, hnow_etag⟩ := exists_turn
    (p := fun history => ∃ now ∈ (empty.run history).tabs, now.id = tab.id ∧ now.etag = some etag)
    (fun ⟨_, hnow, _⟩ => List.not_mem_nil hnow) ⟨tab, htab, rfl, hetag⟩
  have hnext := hnow
  rw [run_append] at hnext
  rcases tells_next (numbered_run earlier) hnext hnow_etag with ⟨old, hold, hold_id, hsame⟩ | htells
  · exact absurd ⟨old, hold, hold_id.trans hid, hsame⟩ hbefore
  · exact ⟨earlier, action, later, rfl, hid ▸ htells, now, hnext, hid, hnow_etag⟩

end Workbench.TabBar
