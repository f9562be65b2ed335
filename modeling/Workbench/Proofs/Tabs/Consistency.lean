import Workbench.Proofs.Tabs.Invariants

/-! # Consistent tabs

The state of a tab, its unsaved edits, its running save and the flags of its file
are set one by one, by many actions. Whatever actions are performed and in which
order, they agree with each other. -/

namespace Workbench

/-- What the fields of a tab say of each other. -/
structure Tab.Consistent (tab : Tab) : Prop where
  /-- Unsaved edits are seen from the state. -/
  shown : tab.unsaved = true → tab.state ≠ .clean ∧ tab.state ≠ .saved
  /-- A tab is saving only while a save of it runs. -/
  saving : tab.state = .saving → tab.pendingSave.isSome = true
  /-- Nothing of a read-only file is edited or saved. -/
  readOnly : tab.file.readOnly = true → tab.unsaved = false ∧ tab.pendingSave = none
  /-- It is known when the edits were made. -/
  dated : tab.unsaved = true → tab.lastEdit.isSome = true

namespace Tab

variable {tab tab' : Tab}

theorem settledState_ne_saving (tab : Tab) : tab.settledState ≠ .saving := by
  unfold settledState
  split <;> simp

theorem settledState_of_unsaved (h : tab.unsaved = true) : tab.settledState = .dirty := if_pos h

namespace Consistent

theorem opened (id : TabId) (file : FileInfo) (content : String) (encoding : Encoding)
    (etag : Option String) : (Tab.opened id file content encoding etag).Consistent where
  shown := nofun
  saving := nofun
  readOnly _ := ⟨rfl, rfl⟩
  dated := nofun

/-- The edits of a tab may end as long as its running save, if it keeps one, is
not told by the state. -/
theorem of_saved (h : tab.Consistent) (hfile : tab'.file.readOnly = tab.file.readOnly)
    (hsaved : tab'.unsaved = false) (hstate : tab'.state ≠ .saving)
    (hsave : tab'.pendingSave = none ∨ tab'.pendingSave = tab.pendingSave) : tab'.Consistent where
  shown hunsaved := by simp [hsaved] at hunsaved
  saving hsaving := absurd hsaving hstate
  readOnly hreadOnly := by
    rw [hfile] at hreadOnly
    refine ⟨hsaved, ?_⟩
    rcases hsave with hnone | hsame
    · exact hnone
    · exact hsame.trans (h.readOnly hreadOnly).2
  dated hunsaved := by simp [hsaved] at hunsaved

/-- The state of a tab may change as long as it shows the edits. -/
theorem of_shown (h : tab.Consistent) (hfile : tab'.file.readOnly = tab.file.readOnly)
    (hunsaved : tab'.unsaved = tab.unsaved) (hlast : tab'.lastEdit = tab.lastEdit)
    (hstate : tab'.state ≠ .saving)
    (hshown : tab.unsaved = true → tab'.state ≠ .clean ∧ tab'.state ≠ .saved)
    (hsave : tab'.pendingSave = none ∨ tab'.pendingSave = tab.pendingSave) : tab'.Consistent where
  shown hedited := hshown (hunsaved ▸ hedited)
  saving hsaving := absurd hsaving hstate
  readOnly hreadOnly := by
    rw [hfile] at hreadOnly
    refine ⟨hunsaved.trans (h.readOnly hreadOnly).1, ?_⟩
    rcases hsave with hnone | hsame
    · exact hnone
    · exact hsame.trans (h.readOnly hreadOnly).2
  dated hedited := by
    rw [hlast]
    exact h.dated (hunsaved ▸ hedited)

theorem of_edited {content : String} {time : Nat} (h : tab.Consistent)
    (hedited : tab.Edited content time tab') : tab'.Consistent := by
  cases hedited with
  | same => exact h
  | changed hwritable =>
      constructor
      case shown =>
        intro _
        dsimp only
        split
        next => simp
        next hstate => exact not_or.mp hstate
      case saving =>
        dsimp only
        split
        next => exact nofun
        next => exact h.saving
      case readOnly =>
        intro hreadOnly
        exact absurd hreadOnly (by simp [hwritable])
      case dated => exact fun _ => rfl

theorem of_refreshed {request : RequestId} {result : RefreshResult} (h : tab.Consistent)
    (hrefreshed : tab.Refreshed request result tab') : tab'.Consistent := by
  cases hrefreshed with
  | returned =>
      refine h.of_shown rfl rfl rfl tab.settledState_ne_saving ?_ (.inr rfl)
      intro hunsaved
      rw [settledState_of_unsaved hunsaved]
      simp
  | contested => exact h.of_shown rfl rfl rfl (by simp) (by simp) (.inr rfl)
  | missing => exact h.of_shown rfl rfl rfl (by simp) (by simp) (.inr rfl)
  | adopted => exact h.of_saved rfl rfl (by simp [adopt]) (.inr rfl)
  | _ => exact ⟨h.shown, h.saving, h.readOnly, h.dated⟩

theorem of_saveAnswered {request : RequestId} {result : SaveResult} (h : tab.Consistent)
    (hanswered : tab.SaveAnswered request result tab') : tab'.Consistent := by
  cases hanswered with
  | dropped => exact h
  | stored => exact h.of_saved rfl rfl (by simp) (.inl rfl)
  | storedOlder => exact h.of_shown rfl rfl rfl (by simp) (by simp) (.inl rfl)
  | refused => exact h.of_shown rfl rfl rfl (by simp) (by simp) (.inl rfl)
  | failed => exact h.of_shown rfl rfl rfl (by simp) (by simp) (.inl rfl)

theorem of_writtenOver {content : String} {encoding : Encoding} {write : WriteResult}
    (h : tab.Consistent) (hwritten : tab.WrittenOver content encoding write tab') :
    tab'.Consistent := by
  cases hwritten with
  | same => exact h
  | contested => exact h.of_shown rfl rfl rfl (by simp) (by simp) (.inr rfl)
  | adopted hetag hsaved => exact h.of_saved rfl hsaved (by simp) (.inr rfl)

end Consistent

end Tab

namespace TabBar

variable {bar : TabBar} {action : TabAction} {tab tab' : Tab}

/-- Every action leaves a consistent tab consistent. -/
theorem Becomes.consistent (h : Becomes bar action tab tab') (htab : tab.Consistent) :
    tab'.Consistent := by
  cases h with
  | reopened content encoding etag hpath hsaved hidle =>
      -- The file may be read-only now, but nothing of it is edited or saved.
      refine ⟨?_, nofun, fun _ => ⟨hsaved, hidle⟩, ?_⟩
      · exact fun hunsaved => absurd hunsaved (by simp [hsaved])
      · exact fun hunsaved => absurd hunsaved (by simp [hsaved])
  | edited _ hedited => exact htab.of_edited hedited
  | refreshed hrefreshed => exact htab.of_refreshed hrefreshed
  | saveStarted request _ _ hwritable =>
      refine ⟨?_, fun _ => rfl, ?_, htab.dated⟩
      · exact fun _ => ⟨nofun, nofun⟩
      · exact fun hreadOnly => absurd hreadOnly (by simp [hwritable])
  | saved hanswered => exact htab.of_saveAnswered hanswered
  | accepted => exact htab.of_saved rfl rfl (by simp [Tab.adopt]) (.inr rfl)
  | keptLocal =>
      refine htab.of_shown rfl rfl rfl tab.settledState_ne_saving ?_ (.inr rfl)
      intro hunsaved
      rw [Tab.settledState_of_unsaved hunsaved]
      simp
  | storedAs => exact htab.of_saved rfl rfl (by simp [storeAt]) (.inr rfl)
  | overwritten hwritten => exact htab.of_writtenOver hwritten
  | _ => exact ⟨htab.shown, htab.saving, htab.readOnly, htab.dated⟩

/-- After any run of actions on the empty bar, every open tab is consistent. -/
theorem consistent_run (history : List TabAction) :
    ∀ tab ∈ (empty.run history).tabs, tab.Consistent := by
  induction history using List.reverseRecOn with
  | nil => exact fun tab htab => absurd htab List.not_mem_nil
  | append_singleton history action ih =>
      rw [run_append]
      refine forall_tabs_next (numbered_run history) ih ?_ ?_
      · exact fun tab _ tab' hbecomes htab => hbecomes.consistent htab
      · exact fun id file content encoding etag _ => .opened id file content encoding etag

/-- A conflict that is resolved while a save runs: the tab goes on waiting for the
save, and its answer makes the tab dirty although nothing of it is unsaved. -/
def staleAnswer : List TabAction :=
  [.openTab (.ofPath "/notes/plan") "one" .utf8 (some "v1"), .edit 0 "two" 5, .saveStarted 0 1,
   .externalWrite "/notes/plan" "three" .utf8 ⟨"/notes/plan", 5, some 7, "v3"⟩,
   .acceptServer 0 ⟨"/notes/plan", "three", .utf8, "v3", 5, some 7⟩,
   .saveResolved 1 1 (.failed "unreachable")]

theorem staleAnswer_consistent :
    ∃ tab ∈ (empty.run staleAnswer).tabs, (tab.state = .dirty ∧ tab.unsaved = false) ∧
      tab.Consistent := by
  have hfound : ∃ tab ∈ (empty.run staleAnswer).tabs, tab.state = .dirty ∧ tab.unsaved = false := by
    decide
  obtain ⟨tab, htab, hstate⟩ := hfound
  exact ⟨tab, htab, hstate, consistent_run staleAnswer tab htab⟩

end TabBar

end Workbench
