import Workbench.Proofs.Tabs.Fate

/-! # What outlasts a run

A property of tabs outlasts an action if a new tab has it and if it is kept by
whatever the action makes of a tab. Many properties are kept only by actions that
fit the tabs they find, or up to an action that ends them. This module takes both
from single actions to runs: `Along r` says that all actions of a run fit by a
relation `r`, and `Meets q` that some action finds a tab in a situation `q`, where a
property `p` of the tab may end. -/

namespace Workbench.TabBar

variable {bar : TabBar} {action : TabAction} {actions first second : List TabAction}
  {r : TabBar → TabAction → Prop} {p : Tab → Prop} {q : TabBar → Tab → TabAction → Prop}
  {tab tab' : Tab} {id : TabId}

/-- Every tab after an action has a property that new tabs have and that changed
tabs keep. -/
theorem forall_tabs_next (hbar : bar.Numbered) (h : ∀ tab ∈ bar.tabs, p tab)
    (hbecomes : ∀ tab ∈ bar.tabs, ∀ tab', Becomes bar action tab tab' → p tab → p tab')
    (hopens : ∀ id file content encoding etag, Opens action file content encoding etag →
      p (.opened id file content encoding etag)) :
    ∀ tab' ∈ (bar.next action).tabs, p tab' := by
  intro tab' htab'
  rcases (transition_next hbar.nodup action).origin hbar.nodup htab' with
    hsame | ⟨tab, htab, hmade⟩ | ⟨file, content, encoding, etag, hopened, -, rfl⟩
  · exact h tab' hsame
  · exact hbecomes tab htab tab' hmade (h tab htab)
  · exact hopens _ file content encoding etag hopened

/-! ## Runs of fitting actions -/

/-- Every action of a run fits the bar that it finds. -/
def Along (r : TabBar → TabAction → Prop) (bar : TabBar) : List TabAction → Prop
  | [] => True
  | action :: rest => r bar action ∧ Along r (bar.next action) rest

theorem along_of_forall (h : ∀ action ∈ actions, ∀ bar, r bar action) : Along r bar actions := by
  induction actions generalizing bar with
  | nil => exact trivial
  | cons action rest ih =>
      obtain ⟨hfirst, hrest⟩ := List.forall_mem_cons.mp h
      exact ⟨hfirst bar, ih hrest⟩

theorem along_append :
    Along r bar (first ++ second) ↔ Along r bar first ∧ Along r (bar.run first) second := by
  induction first generalizing bar with
  | nil => exact ⟨fun h => ⟨trivial, h⟩, fun h => h.2⟩
  | cons action rest ih => exact (and_congr_right fun _ => ih).trans and_assoc.symm

theorem Along.and {s : TabBar → TabAction → Prop} (h : Along r bar actions)
    (h' : Along s bar actions) :
    Along (fun bar action => r bar action ∧ s bar action) bar actions := by
  induction actions generalizing bar with
  | nil => exact trivial
  | cons action rest ih => exact ⟨⟨h.1, h'.1⟩, ih h.2 h'.2⟩

/-- A run of fitting actions keeps what each fitting action keeps. -/
theorem Along.run {p : TabBar → Prop} (h : Along r bar actions) (hbar : bar.Numbered)
    (hholds : p bar)
    (hnext : ∀ bar action, bar.Numbered → r bar action → p bar → p (bar.next action)) :
    p (bar.run actions) := by
  induction actions generalizing bar with
  | nil => exact hholds
  | cons action rest ih => exact ih h.2 (hbar.next action) (hnext bar action hbar h.1 hholds)

/-! ## Up to an action that ends it -/

/-- Some action of a run finds the tab with a number in a given situation. -/
def Meets (q : TabBar → Tab → TabAction → Prop) (bar : TabBar) (id : TabId)
    (actions : List TabAction) : Prop :=
  ∃ front action rest, actions = front ++ action :: rest ∧
    ∃ tab ∈ (bar.run front).tabs, tab.id = id ∧ q (bar.run front) tab action

theorem meets_head {rest : List TabAction} (htab : tab ∈ bar.tabs) (h : q bar tab action) :
    Meets q bar tab.id (action :: rest) :=
  ⟨[], action, rest, rfl, tab, htab, rfl, h⟩

theorem Meets.cons (h : Meets q (bar.next action) id actions) :
    Meets q bar id (action :: actions) := by
  obtain ⟨front, found, rest, rfl, htab⟩ := h
  exact ⟨action :: front, found, rest, rfl, htab⟩

/-- A tab that stays open keeps a property, or meets an action that ends it. -/
theorem holds_or_meets
    (hbecomes : ∀ {bar action tab tab'}, r bar action → Becomes bar action tab tab' →
      p tab → p tab' ∨ q bar tab action)
    (hbar : bar.Numbered) (hfits : Along r bar actions) (htab : tab ∈ bar.tabs)
    (hholds : p tab) (htab' : tab' ∈ (bar.run actions).tabs) (hid : tab'.id = tab.id) :
    p tab' ∨ Meets q bar tab.id actions := by
  induction actions generalizing bar tab with
  | nil =>
      obtain rfl := eq_of_id_eq hbar.nodup htab' htab hid
      exact .inl hholds
  | cons action rest ih =>
      have hopen : tab.id ∈ (bar.run (action :: rest)).ids := hid ▸ mem_ids_of_mem htab'
      obtain ⟨now, hnow, hnow_id⟩ := mem_ids_iff.mp (hbar.mem_ids_of_run htab hopen)
      have hfirst : p now ∨ q bar tab action := by
        rcases (transition_next hbar.nodup action).successor hbar htab hnow hnow_id with
          rfl | hmade
        · exact .inl hholds
        · exact hbecomes hfits.1 hmade hholds
      rcases hfirst with hkept | hends
      · rw [← hnow_id] at hid ⊢
        exact (ih (hbar.next action) hfits.2 hnow hkept htab' hid).imp_right .cons
      · exact .inr (meets_head htab hends)

/-- A tab that stays open keeps what all fitting actions keep. -/
theorem holds_run
    (hbecomes : ∀ {bar action tab tab'}, r bar action → Becomes bar action tab tab' →
      p tab → p tab')
    (hbar : bar.Numbered) (hfits : Along r bar actions) (htab : tab ∈ bar.tabs)
    (hholds : p tab) (htab' : tab' ∈ (bar.run actions).tabs) (hid : tab'.id = tab.id) :
    p tab' := by
  have hnever := holds_or_meets (q := fun _ _ _ => False)
    (fun hfit hmade hbefore => .inl (hbecomes hfit hmade hbefore)) hbar hfits htab hholds htab' hid
  rcases hnever with hkept | ⟨_, _, _, _, _, _, _, hfalse⟩
  · exact hkept
  · exact hfalse.elim

/-- Where fitting actions close no tab, a tab stays open besides. -/
theorem exists_holds_run
    (hbecomes : ∀ {bar action tab tab'}, r bar action → Becomes bar action tab tab' →
      p tab → p tab')
    (hstays : ∀ {bar action tab}, r bar action → ¬ Removes bar tab action)
    (hbar : bar.Numbered) (hfits : Along r bar actions) (htab : tab ∈ bar.tabs)
    (hholds : p tab) : ∃ tab' ∈ (bar.run actions).tabs, tab'.id = tab.id ∧ p tab' := by
  induction actions generalizing bar tab with
  | nil => exact ⟨tab, htab, rfl, hholds⟩
  | cons action rest ih =>
      rcases (transition_next hbar.nodup action).fate hbar.nodup htab with
        hsame | ⟨now, hnow, hmade⟩ | hremoves
      · exact ih (hbar.next action) hfits.2 hsame hholds
      · obtain ⟨tab', htab', hid, hkept⟩ :=
          ih (hbar.next action) hfits.2 hnow (hbecomes hfits.1 hmade hholds)
        exact ⟨tab', htab', hid.trans hmade.id_eq, hkept⟩
      · exact absurd hremoves (hstays hfits.1)

/-- What a tab has after a run, and new tabs have not, it had before the run, or some
action has brought it about. -/
theorem held_or_meets
    (hbecomes : ∀ {bar action tab tab'}, r bar action → Becomes bar action tab tab' →
      p tab' → p tab ∨ q bar tab action)
    (hopened : ∀ id file content encoding etag, ¬ p (.opened id file content encoding etag))
    (hbar : bar.Numbered) (hfits : Along r bar actions) (htab' : tab' ∈ (bar.run actions).tabs)
    (hholds : p tab') :
    (∃ tab ∈ bar.tabs, tab.id = tab'.id ∧ p tab) ∨ Meets q bar tab'.id actions := by
  induction actions generalizing bar with
  | nil => exact .inl ⟨tab', htab', rfl, hholds⟩
  | cons action rest ih =>
      rcases ih (hbar.next action) hfits.2 htab' with ⟨now, hnow, hnow_id, hheld⟩ | hmeets
      · rcases (transition_next hbar.nodup action).origin hbar.nodup hnow with
          hsame | ⟨tab, htab, hmade⟩ | ⟨file, content, encoding, etag, -, -, rfl⟩
        · exact .inl ⟨now, hsame, hnow_id, hheld⟩
        · have hid : tab.id = tab'.id := hmade.id_eq.symm.trans hnow_id
          rcases hbecomes hfits.1 hmade hheld with hbefore | hends
          · exact .inl ⟨tab, htab, hid, hbefore⟩
          · exact .inr (hid ▸ meets_head htab hends)
        · exact absurd hheld (hopened _ _ _ _ _)
      · exact .inr hmeets.cons

end Workbench.TabBar
