import Workbench.Proofs.Tabs.Invariants

/-! # Starting and queueing saves

The actions by which a save is started, queued or taken out of the queue leave
every tab open, with the same file, content and version, and put no tab into
conflict. -/

namespace Workbench

/-- The action starts a save, queues one or takes one out of the queue. -/
def TabAction.Saving : TabAction → Prop
  | .saveStarted _ _ | .queueSave _ | .cancelQueuedSave _ => True
  | _ => False

/-- At most the progress of its saves tells a tab from the other one. -/
structure Tab.SameFile (tab tab' : Tab) : Prop where
  id : tab'.id = tab.id
  file : tab'.file = tab.file
  content : tab'.content = tab.content
  encoding : tab'.encoding = tab.encoding
  etag : tab'.etag = tab.etag
  overwriteOnSave : tab'.overwriteOnSave = tab.overwriteOnSave
  calm : tab.state.isConflict = false → tab'.state.isConflict = false

namespace Tab.SameFile

variable {tab tab' tab'' : Tab}

theorem refl (tab : Tab) : tab.SameFile tab := ⟨rfl, rfl, rfl, rfl, rfl, rfl, fun hcalm => hcalm⟩

theorem trans (h : tab.SameFile tab') (h' : tab'.SameFile tab'') : tab.SameFile tab'' where
  id := h'.id.trans h.id
  file := h'.file.trans h.file
  content := h'.content.trans h.content
  encoding := h'.encoding.trans h.encoding
  etag := h'.etag.trans h.etag
  overwriteOnSave := h'.overwriteOnSave.trans h.overwriteOnSave
  calm hcalm := h'.calm (h.calm hcalm)

end Tab.SameFile

namespace TabBar

variable {bar : TabBar} {action : TabAction} {tab tab' : Tab}

theorem Becomes.sameFile (h : Becomes bar action tab tab') (hsaving : action.Saving) :
    tab.SameFile tab' := by
  cases h with
  | queued => exact ⟨rfl, rfl, rfl, rfl, rfl, rfl, fun hcalm => hcalm⟩
  | unqueued => exact ⟨rfl, rfl, rfl, rfl, rfl, rfl, fun hcalm => hcalm⟩
  | saveStarted => exact ⟨rfl, rfl, rfl, rfl, rfl, rfl, fun _ => rfl⟩
  | _ => exact hsaving.elim

/-- Every tab is still there after a run of such actions. -/
theorem exists_sameFile_run (hbar : bar.Numbered) {actions : List TabAction}
    (hsaving : ∀ action ∈ actions, action.Saving) (htab : tab ∈ bar.tabs) :
    ∃ tab' ∈ (bar.run actions).tabs, tab.SameFile tab' := by
  have hfits : Along (fun _ action => action.Saving) bar actions :=
    along_of_forall fun action haction _ => hsaving action haction
  have hkept := exists_holds_run (p := tab.SameFile) ?_ ?_ hbar hfits htab (.refl tab)
  · obtain ⟨tab', htab', -, hsame⟩ := hkept
    exact ⟨tab', htab', hsame⟩
  · exact fun hfirst hbecomes hsame => hsame.trans (hbecomes.sameFile hfirst)
  · intro bar action tab hfirst hremoves
    cases action <;> first | exact hfirst | exact hremoves

end TabBar

end Workbench
