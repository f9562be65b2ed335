import Workbench.Proofs.Workspace.Answers
import Workbench.Proofs.Workspace.SaveStates

/-! # Edits that were kept

When the user keeps the edits of a tab in conflict, they stay unsaved, and the next
save is to overwrite whatever is stored, until that save is answered as written or
the user decides otherwise. One kind of answer comes too early: that of a save which
was under way when the edits were kept. -/

namespace Workbench

/-- The tab holds unsaved edits, and its next save expects no version. -/
structure Tab.KeptLocal (tab : Tab) : Prop where
  unsaved : tab.unsaved = true
  overwrites : tab.overwriteOnSave = true

namespace TabBar

variable {bar : TabBar} {action : TabAction} {tab tab' : Tab}

theorem keptLocal_of_refreshed {request : RequestId} {result : RefreshResult}
    (h : tab.Refreshed request result tab') (htab : tab.KeptLocal) : tab'.KeptLocal := by
  cases h with
  | adopted content _ _ hsaved => exact absurd htab.unsaved (by simp [hsaved])
  | _ => exact ⟨htab.unsaved, htab.overwrites⟩

theorem keptLocal_of_saveAnswered {request : RequestId} {result : SaveResult}
    (h : tab.SaveAnswered request result tab') (htab : tab.KeptLocal) :
    tab'.KeptLocal ∨ Stores tab (.saveResolved tab.id request result) := by
  cases h with
  | stored write hpending => exact .inr ⟨rfl, Tab.request_of_pending hpending⟩
  | storedOlder write hpending => exact .inr ⟨rfl, Tab.request_of_pending hpending⟩
  | _ => exact .inl ⟨htab.unsaved, htab.overwrites⟩

/-- Kept edits end when they are given up, or with the answer that a save of the tab
has been written. -/
theorem Becomes.keeps_local (h : Becomes bar action tab tab') (htab : tab.KeptLocal) :
    tab'.KeptLocal ∨ GivesUp bar tab action ∨ Stores tab action := by
  cases h with
  | reopened content encoding etag hpath hsaved => exact absurd htab.unsaved (by simp [hsaved])
  | edited _ hedited =>
      cases hedited with
      | same => exact .inl htab
      | changed => exact .inl ⟨rfl, htab.overwrites⟩
  | refreshed hrefreshed => exact .inl (keptLocal_of_refreshed hrefreshed htab)
  | saved hanswered => exact (keptLocal_of_saveAnswered hanswered htab).imp_right .inr
  | accepted content hindex => exact .inr (.inl hindex)
  | keptLocal => exact .inl ⟨htab.unsaved, rfl⟩
  | storedAs newPath write hindex => exact .inr (.inl hindex)
  | overwritten hwritten =>
      cases hwritten with
      | adopted hetag hsaved => exact absurd htab.unsaved (by simp [hsaved])
      | _ => exact .inl ⟨htab.unsaved, htab.overwrites⟩
  | _ => exact .inl ⟨htab.unsaved, htab.overwrites⟩

theorem of_stores_reply {reply : Reply} (h : Stores tab reply.action) :
    reply.tab = tab.id ∧ Desk.phaseOf reply.result = .save ∧
      tab.pendingSave.map (·.request) = some reply.id := by
  unfold Reply.action at h
  cases hresult : reply.result with
  | refresh result =>
      rw [hresult] at h
      exact h.elim
  | save result =>
      rw [hresult] at h
      cases result with
      | written write => exact ⟨h.1, rfl, h.2⟩
      | _ => exact h.elim

/-- The answer that a save has been written leaves the tab open, and its next save
expects the version that was written. -/
theorem exists_expecting_next_of_stores (hbar : bar.Numbered) (htab : tab ∈ bar.tabs)
    (hstores : Stores tab action) :
    ∃ tab' ∈ (bar.next action).tabs, tab'.id = tab.id ∧ tab'.overwriteOnSave = false := by
  cases action with
  | saveResolved id request result =>
      cases result with
      | written write =>
          obtain ⟨rfl, hrequest⟩ := hstores
          obtain ⟨tab', htab', hanswered⟩ :=
            exists_saveAnswered_next hbar htab request (.written write)
          refine ⟨tab', htab', hanswered.id_eq, ?_⟩
          cases hanswered with
          | dropped _ hother => exact absurd hrequest hother
          | stored => rfl
          | storedOlder => rfl
      | _ => exact hstores.elim
  | _ => exact hstores.elim

end TabBar

namespace Workspace

open TabBar

variable {σ : Type} [FileService σ] {w start : Workspace σ} {step : Step σ}
  {decided later : List (Step σ)} {tab now : Tab} {index : Nat}

/-! ## One step -/

/-- A step keeps the edits, closes the tab, overrules it, or applies the answer that a
save of it has been written. -/
theorem keptLocal_perform (hbar : w.desk.bar.Numbered) (htab : tab ∈ w.desk.bar.tabs)
    (hkept : tab.KeptLocal) (step : Step σ) :
    (∃ tab' ∈ (w.perform step).desk.bar.tabs, tab'.id = tab.id ∧ tab'.KeptLocal) ∨
      tab.id ∉ (w.perform step).desk.bar.ids ∨ Overrules w tab step ∨
        Applies w step (Stores tab) := by
  by_cases hopen : tab.id ∈ (w.perform step).desk.bar.ids
  · obtain ⟨tab', htab', hid⟩ := mem_ids_iff.mp hopen
    have hactions := htab'
    rw [bar_perform] at hactions
    have hfate := holds_or_meets (r := fun _ _ => True)
      (q := fun bar tab action => GivesUp bar tab action ∨ Stores tab action)
      (fun _ hbecomes hbefore => hbecomes.keeps_local hbefore) hbar
      (along_of_forall fun _ _ _ => trivial) htab hkept hactions hid
    rcases hfate with hstill | ⟨front, action, rest, hsplit, met, hmet, hmet_id, hgives | hstores⟩
    · exact .inl ⟨tab', htab', hid, hstill⟩
    · obtain ⟨rfl, -, hoverrules⟩ := overrules_of_givesUp hsplit hgives
      obtain rfl := eq_of_id_eq hbar.nodup hmet htab hmet_id
      exact .inr (.inr (.inl hoverrules))
    · have hloud : ¬ action.Quiet := by
        cases action <;> first | exact id | exact hstores.elim
      obtain ⟨rfl, ⟨rfl, -, reply, replies, hmailbox, rfl⟩ | ⟨-, index, decision, -, htakes⟩⟩ :=
        loud_cases hsplit hloud
      · obtain rfl := eq_of_id_eq hbar.nodup hmet htab hmet_id
        exact .inr (.inr (.inr ⟨rfl, reply, replies, hmailbox, hstores⟩))
      · cases action <;> first | exact hstores.elim | (cases decision <;> exact htakes.elim)
  · exact .inr (.inl hopen)

/-- After such an answer the tab is open and does not keep its edits any more. -/
theorem exists_expecting_of_stores (hbar : w.desk.bar.Numbered) (htab : tab ∈ w.desk.bar.tabs)
    (h : Applies w step (Stores tab)) :
    ∃ tab' ∈ (w.perform step).desk.bar.tabs, tab'.id = tab.id ∧ tab'.overwriteOnSave = false := by
  obtain ⟨rfl, reply, rest, hmailbox, hstores⟩ := h
  rw [bar_perform]
  simp only [actions, Desk.deliverActions, hmailbox, Desk.answerActions]
  obtain ⟨middle, hmiddle, hid, hexpecting⟩ := exists_expecting_next_of_stores hbar htab hstores
  obtain ⟨tab', htab', hsame⟩ :=
    exists_sameFile_run (hbar.next reply.action) (Desk.saving_queuedActions _ reply.tab) hmiddle
  exact ⟨tab', htab', hsame.id.trans hid, hsame.overwriteOnSave.trans hexpecting⟩

/-! ## The decision -/

/-- When the edits of a tab are kept, the save that runs for it goes on running. -/
theorem exists_kept_of_keepLocal (hfound : w.desk.tab? index = some tab)
    (hunsaved : tab.unsaved = true)
    (hok : (w.desk.resolveConflict index .keepLocal).1 = .ok ()) :
    ∃ tab' ∈ (w.perform (.resolve index .keepLocal)).desk.bar.tabs,
      tab'.id = tab.id ∧ tab'.pendingSave = tab.pendingSave ∧ tab'.KeptLocal := by
  have hconflict : tab.state.isConflict = true := by
    by_contra hcalm
    rw [Bool.not_eq_true] at hcalm
    simp [Desk.resolveConflict, hfound, hcalm] at hok
  have htab : w.desk.bar.tabs[index]? = some tab := hfound
  have hnext : w.desk.bar.next (.keepLocal index) =
      { w.desk.bar with
        tabs := w.desk.bar.tabs.set index
          { tab with
            state := tab.settledState
            overwriteOnSave := true } } := by
    simp [next, apply, atConflict, act, htab, hconflict]
  rw [bar_perform]
  simp only [actions, Desk.resolveActions, hfound, hconflict, Bool.not_true, Bool.false_eq_true,
    if_false, TabBar.run_cons, TabBar.run_nil]
  rw [hnext]
  exact ⟨_, mem_set_self htab, rfl, rfl, hunsaved, rfl⟩

/-! ## After the decision -/

/-- All through the steps after a decision, the tab with a number is open and keeps
its edits. -/
def KeptThroughout (start : Workspace σ) (decided later : List (Step σ)) (id : TabId) : Prop :=
  ∀ first rest, later = first ++ rest →
    ∃ now ∈ (start.run (decided ++ first)).desk.bar.tabs, now.id = id ∧ now.KeptLocal

/-- The running save of a tab was started after a decision, by a new request, and
expects no version. -/
def SavesAnew (start : Workspace σ) (decided later : List (Step σ)) (now : Tab) : Prop :=
  ∃ first step rest asked request, later = first ++ step :: rest ∧
    Starts start (decided ++ first) step asked request ∧ asked.id = now.id ∧
    (start.run decided).desk.lastRequest < request.id ∧
    now.pendingSave.map (·.request) = some request.id ∧
    request.errand = .write asked.path asked.content asked.encoding none

/-- A request that is newer than a decision was started after it. -/
theorem Starts.after (hstart : start.Fresh) {earlier rest : List (Step σ)} {asked : Tab}
    {request : Request} (hstarts : Starts start earlier step asked request)
    (hnew : (start.run decided).desk.lastRequest < request.id)
    (hsplit : decided ++ later = earlier ++ step :: rest) :
    ∃ first, earlier = decided ++ first ∧ later = first ++ step :: rest := by
  rcases List.append_eq_append_iff.mp hsplit with hafter | ⟨between, hdecided, hrest⟩
  · exact hafter
  · rcases List.cons_eq_append_iff.mp hrest with ⟨rfl, hlater⟩ | ⟨others, rfl, -⟩
    · rw [List.append_nil] at hdecided
      exact ⟨[], by rw [hdecided, List.append_nil], hlater⟩
    · -- A request that was started before the decision has a number that was used by then.
      have hbefore := orderly_run hstart.orderly (earlier ++ [step])
      have hused := hbefore.fresh _ (Traffic.mem_tickets_of_waiting hstarts.waits)
      have hgrows := lastRequest_le_run hbefore others
      rw [← run_append, List.append_assoc, List.singleton_append, ← hdecided] at hgrows
      exact absurd (Nat.lt_of_lt_of_le hnew (Nat.le_trans hused hgrows)) (Nat.lt_irrefl _)

/-- While its edits are kept, a save that is answered for a tab was started for the
kept edits, or was running at the time of the decision. -/
theorem savesAnew_or_running (hstart : start.Fresh)
    (hkept : KeptThroughout start decided later now.id)
    (hnow : now ∈ (start.run (decided ++ later)).desk.bar.tabs)
    (hstores : Applies (start.run (decided ++ later)) step (Stores now)) :
    SavesAnew start decided later now ∨
      ∃ tab ∈ (start.run decided).desk.bar.tabs, tab.id = now.id ∧
        tab.pendingSave = now.pendingSave := by
  obtain ⟨-, reply, replies, hmailbox, hstores⟩ := hstores
  obtain ⟨hreply_tab, hsave, hwaits⟩ := of_stores_reply hstores
  obtain ⟨pending, hpending, hrequest⟩ := Option.map_eq_some_iff.mp hwaits
  have hsaving : now.pending .save = some pending := hpending
  by_cases hold : pending.request ≤ (start.run decided).desk.lastRequest
  · rw [run_append] at hnow
    obtain ⟨tab, htab, hid, hwaited, -⟩ :=
      hadPending_run (orderly_run hstart.orderly decided) later hold hnow hsaving
    exact .inr ⟨tab, htab, hid, hwaited.trans hpending.symm⟩
  · left
    rw [Nat.not_le, hrequest] at hold
    have hreply : reply ∈ (start.run (decided ++ later)).desk.traffic.mailbox :=
      hmailbox ▸ List.mem_cons_self
    obtain ⟨earlier, step, between, performing, rest, asked, request, hsplit, hstarts, hanswers,
      herrand⟩ := exists_started hstart hreply
    have hrequest_id : request.id = reply.id := hanswers.id_eq.symm
    rw [← hrequest_id] at hold
    obtain ⟨first, rfl, rfl⟩ := hstarts.after hstart hold hsplit
    -- The tab kept its edits when the save started, so nothing was expected.
    obtain ⟨sender, hsender, hsenderid, hsender_kept⟩ :=
      hkept (first ++ [step]) (between ++ performing :: rest) (by simp)
    have hasked_id : asked.id = now.id := by
      rw [hstarts.id_eq, ← hanswers.tab_eq, hreply_tab]
    have hnodup := (orderly_run hstart.orderly (decided ++ first ++ [step])).numbered.nodup
    rw [← List.append_assoc] at hsender
    obtain rfl := eq_of_id_eq hnodup hsender hstarts.mem_tabs (hsenderid.trans hasked_id.symm)
    refine ⟨first, step, _, sender, request, rfl, hstarts, hsenderid, hold,
      hrequest_id ▸ hwaits, ?_⟩
    rw [herrand, hsave]
    simp [Tab.errand, Desk.saveErrand, Desk.expectedEtag, hsender_kept.overwrites]

theorem keptThroughout_snoc {id : TabId} : KeptThroughout start decided (later ++ [step]) id ↔
    KeptThroughout start decided later id ∧
      ∃ now ∈ ((start.run (decided ++ later)).perform step).desk.bar.tabs,
        now.id = id ∧ now.KeptLocal := by
  have hlast : start.run (decided ++ (later ++ [step])) =
      (start.run (decided ++ later)).perform step := by simp
  constructor
  · intro h
    refine ⟨fun first rest hsplit => h first (rest ++ [step]) (by simp [hsplit]), ?_⟩
    have hnow := h (later ++ [step]) [] (by simp)
    rwa [hlast] at hnow
  · rintro ⟨hkept, hnow⟩ first rest hsplit
    rcases List.eq_nil_or_concat rest with rfl | ⟨others, last, rfl⟩
    · rw [List.append_nil] at hsplit
      rw [← hsplit, hlast]
      exact hnow
    · rw [List.concat_eq_append, ← List.append_assoc] at hsplit
      exact hkept first others (List.append_inj_left' hsplit rfl)

/-- The step closes a tab, overrules it, or applies the answer that a save which was
started since the decision has been written. -/
def Releases (start : Workspace σ) (decided later : List (Step σ)) (now : Tab) (step : Step σ) :
    Prop :=
  now.id ∉ ((start.run (decided ++ later)).perform step).desk.bar.ids ∨
    Overrules (start.run (decided ++ later)) now step ∨
      (Applies (start.run (decided ++ later)) step (Stores now) ∧ SavesAnew start decided later now)

/-- The step applies the answer that the very save which ran for a tab at the time of
the decision has been written. -/
def ComesEarly (start : Workspace σ) (decided later : List (Step σ)) (tab now : Tab)
    (step : Step σ) : Prop :=
  Applies (start.run (decided ++ later)) step (Stores now) ∧ now.pendingSave = tab.pendingSave

/-- A save that was started since the decision is not the one that ran then. -/
theorem SavesAnew.pendingSave_ne (hstart : start.Fresh) (h : SavesAnew start decided later now)
    {former : Tab} (hformer : former ∈ (start.run decided).desk.bar.tabs) :
    now.pendingSave ≠ former.pendingSave := by
  intro hsame
  obtain ⟨first, step, rest, asked, request, -, -, -, hnew, hwaits, -⟩ := h
  obtain ⟨pending, hpending, hrequest⟩ := Option.map_eq_some_iff.mp (hsame ▸ hwaits)
  have horderly := orderly_run hstart.orderly decided
  have hticket := ((horderly.attended former hformer).pending .save pending hpending).1
  have hused : pending.request ≤ (start.run decided).desk.lastRequest := horderly.fresh _ hticket
  rw [hrequest] at hused
  exact absurd hnew (Nat.not_lt_of_le hused)

/-- What follows when the edits of a tab in conflict were kept. The save that the tab
waited for at that time, if any, makes the difference. -/
structure KeepLocalRespected (start : Workspace σ) (decided : List (Step σ)) (tab : Tab) :
    Prop where
  /-- The edits stay unsaved and the next save stays free to overwrite, or the step
  releases the tab, exactly if it does not apply the answer of the save that was
  under way. -/
  kept_iff : ∀ later, KeptThroughout start decided later tab.id → ∀ step,
    ∀ now ∈ (start.run (decided ++ later)).desk.bar.tabs, now.id = tab.id →
      ((KeptThroughout start decided (later ++ [step]) tab.id ∨
          Releases start decided later now step) ↔
        ¬ ComesEarly start decided later tab now step)
  /-- In any further run this lasts, or there is a first step that ends it, in one of
  these ways. -/
  lasts_until : ∀ later, KeptThroughout start decided later tab.id ∨
    ∃ first step rest, later = first ++ step :: rest ∧
      KeptThroughout start decided first tab.id ∧
      ¬ KeptThroughout start decided (first ++ [step]) tab.id ∧
      ∃ now ∈ (start.run (decided ++ first)).desk.bar.tabs, now.id = tab.id ∧
        (Releases start decided first now step ∨ ComesEarly start decided first tab now step)

/-- One more step keeps the edits, releases the tab, or applies an early answer. -/
theorem kept_or_released (hstart : start.Fresh) {former : Tab}
    (hformer : former ∈ (start.run decided).desk.bar.tabs) (hformer_id : former.id = now.id)
    (hkept : KeptThroughout start decided later now.id)
    (hnow : now ∈ (start.run (decided ++ later)).desk.bar.tabs) (step : Step σ) :
    KeptThroughout start decided (later ++ [step]) now.id ∨
      Releases start decided later now step ∨ ComesEarly start decided later former now step := by
  have hbar := (orderly_run hstart.orderly (decided ++ later)).numbered
  obtain ⟨same, hsame, hsame_id, hnow_kept⟩ := hkept later [] (by simp)
  obtain rfl := eq_of_id_eq hbar.nodup hsame hnow hsame_id
  rcases keptLocal_perform hbar hnow hnow_kept step with hstill | hclosed | hoverrules | hstores
  · exact .inl (keptThroughout_snoc.mpr ⟨hkept, hstill⟩)
  · exact .inr (.inl (.inl hclosed))
  · exact .inr (.inl (.inr (.inl hoverrules)))
  · rcases savesAnew_or_running hstart hkept hnow hstores with hanew | ⟨tab, htab, hid, hrunning⟩
    · exact .inr (.inl (.inr (.inr ⟨hstores, hanew⟩)))
    · have hnodup := (orderly_run hstart.orderly decided).numbered.nodup
      obtain rfl := eq_of_id_eq hnodup htab hformer (hid.trans hformer_id.symm)
      exact .inr (.inr ⟨hstores, hrunning.symm⟩)

/-- An early answer ends what was kept, and does not release the tab. -/
theorem not_kept_of_comesEarly (hstart : start.Fresh) {former : Tab}
    (hformer : former ∈ (start.run decided).desk.bar.tabs)
    (hnow : now ∈ (start.run (decided ++ later)).desk.bar.tabs)
    (hearly : ComesEarly start decided later former now step) :
    ¬ KeptThroughout start decided (later ++ [step]) now.id ∧
      ¬ Releases start decided later now step := by
  obtain ⟨hstores, hsame⟩ := hearly
  have horderly := orderly_run hstart.orderly (decided ++ later)
  obtain ⟨tab', htab', hid, hexpecting⟩ :=
    exists_expecting_of_stores horderly.numbered hnow hstores
  constructor
  · intro hkept
    obtain ⟨kept, hmem, hkept_id, hkept⟩ := (keptThroughout_snoc.mp hkept).2
    have hnodup := (orderly_perform horderly step).numbered.nodup
    obtain rfl := eq_of_id_eq hnodup hmem htab' (hkept_id.trans hid.symm)
    rw [hkept.overwrites] at hexpecting
    cases hexpecting
  · rintro (hclosed | ⟨index, decision, rfl, -⟩ | ⟨-, hanew⟩)
    · exact hclosed (hid ▸ mem_ids_of_mem htab')
    · cases hstores.1
    · exact hanew.pendingSave_ne hstart hformer hsame

/-- Edits that were kept in a conflict stay unsaved, and are to overwrite what is
stored, until the tab is closed, the user decides otherwise or a later save of them
is written, unless a save was under way when they were kept: the answer that it
was written comes early. -/
theorem keepLocal_respected (start : Workspace σ) (hstart : start.Fresh)
    (history : List (Step σ)) (hfound : (start.run history).desk.tab? index = some tab)
    (hunsaved : tab.unsaved = true)
    (hok : ((start.run history).desk.resolveConflict index .keepLocal).1 = .ok ()) :
    KeepLocalRespected start (history ++ [.resolve index .keepLocal]) tab := by
  obtain ⟨former, hformer, hid, hsaving, hkept⟩ := exists_kept_of_keepLocal hfound hunsaved hok
  have hdecided : (start.run history).perform (.resolve index .keepLocal) =
      start.run (history ++ [.resolve index .keepLocal]) := by simp
  rw [hdecided] at hformer
  generalize history ++ [.resolve index .keepLocal] = decided at hformer ⊢
  have hearly : ∀ later now step, ComesEarly start decided later tab now step ↔
      ComesEarly start decided later former now step := by
    intro later now step
    rw [ComesEarly, ComesEarly, hsaving]
  constructor
  case kept_iff =>
    intro later hlasts step now hnow hnow_id
    rw [hearly, ← hnow_id]
    rw [← hnow_id] at hlasts
    constructor
    · rintro hends hcomes
      have hneither := not_kept_of_comesEarly hstart hformer hnow hcomes
      exact hends.elim hneither.1 hneither.2
    · intro hnot
      have hone := kept_or_released hstart hformer (hid.trans hnow_id.symm) hlasts hnow step
      rcases hone with hstill | hreleased | hcomes
      · exact .inl hstill
      · exact .inr hreleased
      · exact absurd hcomes hnot
  case lasts_until =>
    intro later
    by_cases hlasts : KeptThroughout start decided later tab.id
    · exact .inl hlasts
    have hkept_now : KeptThroughout start decided [] tab.id := by
      intro first rest hsplit
      obtain ⟨rfl, -⟩ := List.nil_eq_append_iff.mp hsplit
      exact ⟨former, by rwa [List.append_nil], hid, hkept⟩
    obtain ⟨first, step, rest, rfl, hfirst, hends⟩ := exists_turn
      (p := fun later => ¬ KeptThroughout start decided later tab.id) (not_not.mpr hkept_now) hlasts
    have hfirst := not_not.mp hfirst
    obtain ⟨now, hnow, hnow_id, -⟩ := hfirst first [] (by simp)
    refine .inr ⟨first, step, rest, rfl, hfirst, hends, now, hnow, hnow_id, ?_⟩
    rw [hearly]
    rw [← hnow_id] at hfirst hends
    have hone := kept_or_released hstart hformer (hid.trans hnow_id.symm) hfirst hnow step
    exact hone.resolve_left hends

/-- Edits that are kept against an upload, while no save of them is running. -/
def uploadOverDraft : List (Step MemoryFiles) :=
  [.outside fun m => (m.put "/plan" "one").2, .openPath "/plan", .edit 0 "two" 5,
   .upload [.ofText "/plan" "three"]]

theorem uploadOverDraft_keepLocal :
    openingMemory.Fresh ∧
      ∃ tab, (openingMemory.run uploadOverDraft).desk.tab? 0 = some tab ∧ tab.unsaved = true ∧
        ((openingMemory.run uploadOverDraft).desk.resolveConflict 0 .keepLocal).1 = .ok () ∧
        KeepLocalRespected openingMemory (uploadOverDraft ++ [.resolve 0 .keepLocal]) tab := by
  have hfresh : openingMemory.Fresh := fresh_opening _ _ _ _ _
  have hfound : ∃ tab ∈ (openingMemory.run uploadOverDraft).desk.tab? 0, tab.unsaved = true := by
    decide +kernel
  have hok :
      ((openingMemory.run uploadOverDraft).desk.resolveConflict 0 .keepLocal).1 = .ok () := by
    decide +kernel
  obtain ⟨tab, htab, hunsaved⟩ := hfound
  exact ⟨hfresh, tab, htab, hunsaved, hok,
    keepLocal_respected openingMemory hfresh uploadOverDraft htab hunsaved hok⟩

/-- When the upload comes while the edits are being saved, the answer of that save
ends what was kept: the tab counts as saved although the service holds the content
of the upload. -/
theorem uploadDuringSave_ends_kept :
    (∃ tab ∈ (openingMemory.run uploadDuringSave).desk.tab? 0, tab.unsaved = true) ∧
      ((openingMemory.run uploadDuringSave).desk.resolveConflict 0 .keepLocal).1 = .ok () ∧
      (∃ tab ∈ (openingMemory.run (uploadDuringSave ++ [.resolve 0 .keepLocal])).desk.bar.tabs,
        tab.unsaved = true ∧ tab.overwriteOnSave = true) ∧
      ∃ tab ∈ (openingMemory.run
          (uploadDuringSave ++ [.resolve 0 .keepLocal, .deliver])).desk.bar.tabs,
        tab.unsaved = false ∧ tab.overwriteOnSave = false ∧ tab.content = "two" ∧
          (openingMemory.run
            (uploadDuringSave ++ [.resolve 0 .keepLocal, .deliver])).desk.service.content? "/plan" =
              some "three" := by
  decide +kernel

end Workspace

end Workbench
