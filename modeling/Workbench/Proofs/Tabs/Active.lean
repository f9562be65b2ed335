import Mathlib.Data.List.InsertIdx
import Workbench.Proofs.Tabs.Structure

/-! # The active tab

As long as nothing is selected or opened, the active tab stays active wherever it is
moved. If it is closed, the first tab to its right that is left becomes active, or else
the last one. Tabs are closed one after another, and the active position is set anew each
time, so this is shown of a tab to come, the heir: closing another tab than the heir does
not change who the heir is. -/

namespace Workbench

/-- The action selects a tab, whichever was active before. -/
def TabAction.Selects : TabAction → Prop
  | .openTab .. | .activate _ => True
  | _ => False

/-- The action moves a tab to another position. -/
def TabAction.Reorders : TabAction → Prop
  | .reorder .. => True
  | _ => False

namespace TabBar

variable {bar middle after : TabBar} {action : TabAction} {outcome : TabOutcome}
  {survives : TabId → Bool} {ids : List TabId} {position index : Nat} {id : TabId}

/-- The number of the active tab. -/
def activeId? (bar : TabBar) : Option TabId := bar.activeTab?.map (·.id)

/-- The first survivor from a position on, or else the last survivor of all. -/
def heirAt (survives : TabId → Bool) (ids : List TabId) (position : Nat) : Option TabId :=
  ((ids.drop position).find? survives).or (ids.filter survives).getLast?

/-- The tab that is active once all others than the survivors are closed. -/
def heir? (bar : TabBar) (survives : TabId → Bool) : Option TabId :=
  bar.active.bind (heirAt survives bar.ids)

theorem activeId?_eq_bind (bar : TabBar) :
    bar.activeId? = bar.active.bind fun index => bar.ids[index]? := by
  simp only [activeId?, activeTab?, TabBar.ids, Option.map_bind, List.getElem?_map,
    Function.comp_def]

/-! ## Who the heir is -/

theorem heirAt_of_survives (hid : ids[position]? = some id) (hsurvives : survives id = true) :
    heirAt survives ids position = some id := by
  obtain ⟨hlt, rfl⟩ := List.getElem?_eq_some_iff.mp hid
  rw [heirAt, List.drop_eq_getElem_cons hlt, List.find?_cons_of_pos hsurvives, Option.some_or]

theorem heirAt_of_closed {left right : List TabId} (hclosed : survives id = false) :
    heirAt survives (left ++ id :: right) left.length =
      (right.find? survives).or ((left ++ id :: right).filter survives).getLast? := by
  rw [heirAt, List.drop_left, List.find?_cons_of_neg (by simp [hclosed])]

/-- The heir is a survivor, and there is one if anything survives. -/
theorem mem_of_heirAt_eq_some (h : heirAt survives ids position = some id) :
    id ∈ ids.filter survives := by
  rcases Option.or_eq_some_iff.mp h with hfirst | ⟨-, hlast⟩
  · exact List.mem_filter.mpr
      ⟨List.mem_of_mem_drop (List.mem_of_find?_eq_some hfirst), List.find?_some hfirst⟩
  · exact List.mem_of_getLast? hlast

theorem heirAt_eq_none_iff : heirAt survives ids position = none ↔ ids.filter survives = [] := by
  rw [heirAt, Option.or_eq_none_iff, List.getLast?_eq_none_iff]
  refine ⟨fun h => h.2, fun h => ⟨?_, h⟩⟩
  rw [List.find?_eq_none]
  intro id hid
  exact (List.filter_eq_nil_iff.mp h) id (List.mem_of_mem_drop hid)

/-- From the last position on, the heir is the last survivor. -/
theorem heirAt_last (ids : List TabId) :
    heirAt survives ids (ids.length - 1) = (ids.filter survives).getLast? := by
  rcases List.eq_nil_or_concat' ids with rfl | ⟨init, last, rfl⟩
  · rfl
  · have hdrop : (init ++ [last]).drop ((init ++ [last]).length - 1) = [last] := by simp
    rw [heirAt, hdrop, List.filter_append]
    cases hlast : survives last <;> simp [hlast]

/-- Closing a tab that does not survive leaves the heir the same. -/
theorem heirAt_append (left right : List TabId) (position : Nat) (hclosed : survives id = false) :
    heirAt survives (left ++ right)
        (if left.length < position then position - 1
          else if position = left.length then min left.length ((left ++ right).length - 1)
          else position) =
      heirAt survives (left ++ id :: right) position := by
  have hskip : ¬ survives id = true := by simp [hclosed]
  have hfilter : (left ++ id :: right).filter survives = (left ++ right).filter survives := by
    rw [List.filter_append, List.filter_cons_of_neg hskip, List.filter_append]
  split
  next hleft =>
    -- The closed tab was to the left of the active one.
    obtain ⟨count, rfl⟩ := Nat.exists_eq_add_of_lt hleft
    have hdrop : (left ++ id :: right).drop (left.length + count + 1) = right.drop count := by
      rw [Nat.add_assoc, List.drop_length_add_append, List.drop_succ_cons]
    rw [heirAt, heirAt, hfilter, hdrop, Nat.add_sub_cancel, List.drop_length_add_append]
  next hleft =>
    split
    next hactive =>
      subst hactive
      cases right with
      | nil =>
          have hlast : min left.length ((left ++ []).length - 1) = (left ++ []).length - 1 := by
            simp
          rw [hlast, heirAt_last, heirAt, List.drop_left, List.find?_cons_of_neg hskip,
            List.find?_nil, Option.none_or, hfilter]
      | cons next right =>
          have hstays : min left.length ((left ++ next :: right).length - 1) = left.length := by
            simp
          rw [hstays, heirAt, heirAt, hfilter, List.drop_left, List.drop_left,
            List.find?_cons_of_neg hskip]
    next hactive =>
      have hlt : position < left.length := by omega
      rw [heirAt, heirAt, hfilter, List.drop_append_of_le_length (Nat.le_of_lt hlt),
        List.drop_append_of_le_length (Nat.le_of_lt hlt), List.find?_append, List.find?_append,
        List.find?_cons_of_neg hskip]

theorem heirAt_eraseIdx (hlt : index < ids.length) (hclosed : survives ids[index] = false) :
    heirAt survives (ids.eraseIdx index)
        (if index < position then position - 1
          else if position = index then min index ((ids.eraseIdx index).length - 1)
          else position) =
      heirAt survives ids position := by
  have hleft : (ids.take index).length = index := List.length_take_of_le (Nat.le_of_lt hlt)
  have hsplit : ids.take index ++ ids[index] :: ids.drop (index + 1) = ids := by
    rw [← List.drop_eq_getElem_cons hlt, List.take_append_drop]
  have hheir := heirAt_append (ids.take index) (ids.drop (index + 1)) position hclosed
  rwa [hleft, hsplit, ← List.eraseIdx_eq_take_drop_succ] at hheir

/-! ## Closing tabs -/

/-- Some tabs were closed and others changed in place, so that the heir of any survivors is
still the same. -/
structure Narrows (bar after : TabBar) : Prop where
  ids : after.ids.Sublist bar.ids
  heir : ∀ survives, (∀ id, survives id = true → id ∈ after.ids) →
    after.heir? survives = bar.heir? survives

theorem Narrows.refl (bar : TabBar) : bar.Narrows bar := ⟨List.Sublist.refl _, fun _ _ => rfl⟩

theorem Narrows.trans (h : bar.Narrows middle) (h' : middle.Narrows after) :
    bar.Narrows after where
  ids := h'.ids.trans h.ids
  heir survives hsurvives := by
    rw [h'.heir survives hsurvives]
    exact h.heir survives fun id hid => h'.ids.subset (hsurvives id hid)

/-- Nothing was closed, and the active position is the same. -/
theorem narrows_of_same (hids : after.ids = bar.ids) (hactive : after.active = bar.active) :
    bar.Narrows after where
  ids := hids ▸ List.Sublist.refl _
  heir survives _ := by rw [heir?, heir?, hids, hactive]

theorem narrows_set {tab tab' : Tab} (htab : bar.tabs[index]? = some tab)
    (hid : tab'.id = tab.id) : bar.Narrows { bar with tabs := bar.tabs.set index tab' } :=
  narrows_of_same (map_set_of_eq (·.id) htab hid) rfl

theorem heir?_of_none (bar : TabBar) (hnone : ∀ id, survives id = false) :
    bar.heir? survives = none := by
  rw [heir?, Option.bind_eq_none_iff]
  intro position _
  rw [heirAt_eq_none_iff, List.filter_eq_nil_iff]
  exact fun id _ => Bool.eq_false_iff.mp (hnone id)

/-- All tabs were closed. -/
theorem narrows_of_nil (hids : after.ids = []) : bar.Narrows after where
  ids := hids ▸ List.nil_sublist _
  heir survives hsurvives := by
    have hnone : ∀ id, survives id = false := by
      intro id
      rw [Bool.eq_false_iff]
      exact fun hkept => List.not_mem_nil (hids ▸ hsurvives id hkept)
    rw [heir?_of_none after hnone, heir?_of_none bar hnone]

theorem ids_closeAt (bar : TabBar) (index : Nat) :
    (bar.closeAt index).ids = bar.ids.eraseIdx index :=
  (List.eraseIdx_map Tab.id bar.tabs index).symm

theorem notMem_ids_closeAt_iff (hnodup : bar.ids.Nodup) (hid : id ∈ bar.ids) :
    id ∉ (bar.closeAt index).ids ↔ bar.ids[index]? = some id := by
  rw [ids_closeAt, List.mem_eraseIdx_iff_getElem?]
  constructor
  · intro hgone
    obtain ⟨position, hposition⟩ := List.mem_iff_getElem?.mp hid
    by_cases heq : position = index
    · exact heq ▸ hposition
    · exact absurd ⟨position, heq, hposition⟩ hgone
  · rintro hindex ⟨position, hne, hposition⟩
    have hlt : index < bar.ids.length := (List.getElem?_eq_some_iff.mp hindex).1
    exact hne ((List.getElem?_inj hlt hnodup).mp (hindex.trans hposition.symm)).symm

theorem narrows_closeAt (hnodup : bar.ids.Nodup) (hlt : index < bar.tabs.length) :
    bar.Narrows (bar.closeAt index) := by
  by_cases hempty : (bar.closeAt index).ids = []
  · exact narrows_of_nil hempty
  refine ⟨(List.eraseIdx_sublist bar.tabs index).map _, ?_⟩
  intro survives hsurvives
  have hlt : index < bar.ids.length := by simpa [TabBar.ids] using hlt
  have hclosed : survives bar.ids[index] = false := by
    have hgone : bar.ids[index] ∉ (bar.closeAt index).ids :=
      (notMem_ids_closeAt_iff hnodup (List.getElem_mem hlt)).mpr (List.getElem?_eq_getElem hlt)
    exact Bool.eq_false_iff.mpr fun hkept => hgone (hsurvives _ hkept)
  cases hactive : bar.active with
  | none => simp [heir?, closeAt, activeAfterClose, hactive]
  | some position =>
      have hlength : (bar.tabs.eraseIdx index).length = (bar.ids.eraseIdx index).length := by
        rw [← ids_closeAt, TabBar.ids, List.length_map, tabs_closeAt]
      have hleft : (bar.ids.eraseIdx index).length ≠ 0 := by
        rw [← ids_closeAt]
        exact fun hzero => hempty (List.length_eq_zero_iff.mp hzero)
      have hnext : (bar.closeAt index).active = some (if index < position then position - 1
          else if position = index then min index ((bar.ids.eraseIdx index).length - 1)
          else position) := by
        simp [closeAt, activeAfterClose, hlength, hleft, hactive]
      rw [heir?, heir?, hnext, hactive, Option.bind_some, Option.bind_some, ids_closeAt]
      exact heirAt_eraseIdx hlt hclosed

theorem narrows_closeId (hnodup : bar.ids.Nodup) (id : TabId) : bar.Narrows (bar.closeId id) := by
  unfold closeId
  split
  next index hindex =>
    obtain ⟨tab, htab, -⟩ := findId?_eq_some hindex
    exact narrows_closeAt hnodup (List.getElem?_eq_some_iff.mp htab).1
  next => exact .refl bar

theorem narrows_foldl_closeId (hnodup : bar.ids.Nodup) (closing : List TabId) :
    bar.Narrows (closing.foldl closeId bar) := by
  induction closing generalizing bar with
  | nil => exact .refl bar
  | cons id rest ih =>
      have hfirst := narrows_closeId hnodup id
      exact hfirst.trans (ih (hnodup.sublist hfirst.ids))

theorem narrows_foldl_moveId (hnodup : bar.ids.Nodup) (moving : List (TabId × String)) :
    bar.Narrows (moving.foldl moveId bar) := by
  refine narrows_of_same ?_ (active_foldl_moveId bar moving)
  induction moving generalizing bar with
  | nil => rfl
  | cons move rest ih =>
      have hsame := ids_moveId hnodup move
      rw [List.foldl_cons, ih (hsame ▸ hnodup), hsame]

theorem narrows_isolate (hbar : bar.ActiveValid) {tab : Tab} (htab : bar.tabs[index]? = some tab) :
    bar.Narrows { bar with tabs := [tab], active := some 0 } where
  ids := (List.singleton_sublist.mpr (List.mem_of_getElem? htab)).map _
  heir survives hsurvives := by
    have honly : ∀ id, survives id = true → id = tab.id := fun id hid =>
      List.mem_singleton.mp (hsurvives id hid)
    cases hkept : survives tab.id with
    | true =>
        obtain ⟨position, hactive, -⟩ := hbar.exists_active
          (List.ne_nil_of_mem (List.mem_of_getElem? htab))
        have hmem : tab.id ∈ bar.ids.filter survives :=
          List.mem_filter.mpr ⟨mem_ids_of_mem (List.mem_of_getElem? htab), hkept⟩
        have hheir : heirAt survives bar.ids position ≠ none := fun hnone =>
          List.ne_nil_of_mem hmem (heirAt_eq_none_iff.mp hnone)
        obtain ⟨heir, hheir⟩ := Option.ne_none_iff_exists'.mp hheir
        -- The heir survives, and only the one tab does.
        obtain rfl := honly heir (List.mem_filter.mp (mem_of_heirAt_eq_some hheir)).2
        rw [heir?, heir?, hactive, Option.bind_some, Option.bind_some, hheir]
        exact heirAt_of_survives rfl hkept
    | false =>
        have hnone : ∀ id, survives id = false := fun id =>
          Bool.eq_false_iff.mpr fun hid => Bool.eq_false_iff.mp hkept (honly id hid ▸ hid)
        rw [heir?_of_none _ hnone, heir?_of_none bar hnone]

/-! ## Every action -/

theorem ids_moveTo (bar : TabBar) (oldPath newPath : String) :
    (match bar.find? oldPath with
      | some index => bar.modifyAt index (·.moveTo newPath)
      | none => bar).ids = bar.ids := by
  cases hfind : bar.find? oldPath with
  | none => rfl
  | some index =>
      obtain ⟨tab, htab, -⟩ := find?_eq_some hfind
      dsimp only
      rw [modifyAt_eq_set htab]
      exact map_set_of_eq (·.id) htab rfl

theorem narrows_moveTo (oldPath newPath : String) :
    bar.Narrows (match bar.find? oldPath with
      | some index => bar.modifyAt index (·.moveTo newPath)
      | none => bar) := by
  refine narrows_of_same (bar.ids_moveTo oldPath newPath) ?_
  cases bar.find? oldPath <;> rfl

theorem narrows_updatePath (hnodup : bar.ids.Nodup) (oldPath newPath : String) :
    bar.Narrows (bar.updatePath oldPath newPath).2 := by
  unfold updatePath
  split
  next => exact .refl bar
  next =>
    have hroom : bar.Narrows (match bar.find? newPath with
        | some index => bar.closeAt index
        | none => bar) := by
      cases hfind : bar.find? newPath with
      | none => exact .refl bar
      | some index =>
          obtain ⟨tab, htab, -⟩ := find?_eq_some hfind
          exact narrows_closeAt hnodup (List.getElem?_eq_some_iff.mp htab).1
    exact hroom.trans (narrows_moveTo oldPath newPath)

theorem narrows_updatePathsUnder (hnodup : bar.ids.Nodup) (oldFolder newFolder : String) :
    bar.Narrows (bar.updatePathsUnder oldFolder newFolder).2 := by
  unfold updatePathsUnder
  split
  next => exact .refl bar
  next =>
    have hroom := narrows_foldl_closeId hnodup (bar.collisions (bar.moves oldFolder newFolder))
    exact hroom.trans (narrows_foldl_moveId (hnodup.sublist hroom.ids) _)

theorem narrows_savedAs (hnodup : bar.ids.Nodup) {newPath : String} {write : WriteResult}
    (h : bar.savedAs index newPath write = .ok (outcome, after)) : bar.Narrows after := by
  unfold savedAs at h
  split at h
  · simp at h
  next tab htab =>
    split at h
    · simp at h
    next =>
      split at h
      · simp at h
      next vacated hvacate =>
        have hroom : bar.Narrows vacated := by
          rcases vacate_eq_ok hvacate with ⟨rfl, -⟩ | ⟨position, other, -, hother, -, -, -, rfl⟩
          · exact .refl vacated
          · exact narrows_closeAt hnodup (List.getElem?_eq_some_iff.mp hother).1
        split at h
        next =>
          obtain rfl := eq_snd_of_ok h
          exact hroom
        next index' hindex' =>
          obtain ⟨tab', htab', -⟩ := findId?_eq_some hindex'
          obtain rfl := eq_snd_of_ok h
          rw [modifyAt_eq_set htab']
          exact hroom.trans (narrows_set htab' rfl)

theorem narrows_act {step : Tab → Except TabError (TabOutcome × Tab)}
    (hstep : ∀ tab outcome tab', step tab = .ok (outcome, tab') → tab'.id = tab.id)
    (h : bar.act index step = .ok (outcome, after)) : bar.Narrows after := by
  obtain ⟨tab, tab', htab, hok, rfl⟩ := act_eq_ok h
  exact narrows_set htab (hstep tab outcome tab' hok)

theorem narrows_act_ok {step : Tab → TabOutcome × Tab} (hstep : ∀ tab, (step tab).2.id = tab.id)
    (h : bar.act index (fun tab => .ok (step tab)) = .ok (outcome, after)) : bar.Narrows after := by
  refine narrows_act ?_ h
  intro tab outcome tab' hok
  rw [← hstep tab, Except.ok.inj hok]

theorem narrows_atConflict {step : Tab → TabOutcome × Tab} (hstep : ∀ tab, (step tab).2.id = tab.id)
    (h : bar.atConflict index step = .ok (outcome, after)) : bar.Narrows after := by
  obtain ⟨tab, htab, -, rfl⟩ := atConflict_eq_ok h
  exact narrows_set htab (hstep tab)

theorem narrows_answer {apply : Nat → Tab → TabOutcome × Tab}
    (hanswer : ∀ index tab, (apply index tab).2.id = tab.id) (id : TabId) :
    bar.Narrows (bar.answer id apply).2 := by
  rcases bar.answer_cases id apply with ⟨-, hsame⟩ | ⟨index, tab, htab, -, hafter⟩
  · rw [hsame]
    exact .refl bar
  · rw [hafter]
    exact narrows_set htab (hanswer index tab)

theorem narrows_externalWrite (path content : String) (encoding : Encoding)
    (write : WriteResult) : bar.Narrows (bar.externalWrite path content encoding write).2 := by
  unfold externalWrite
  split
  next => exact .refl bar
  next index hindex =>
    obtain ⟨tab, htab, -⟩ := find?_eq_some hindex
    rw [htab]
    exact narrows_set htab (writtenOver_overwrittenBy content encoding write index tab).id_eq

/-- An action that neither adds, selects nor reorders tabs closes some of them at most. -/
theorem narrows_of_apply (hbar : bar.ActiveValid) (hnodup : bar.ids.Nodup)
    (hselects : ¬ action.Selects) (hreorders : ¬ action.Reorders)
    (hadds : ∀ file, action ≠ .openUnloaded file)
    (h : bar.apply action = .ok (outcome, after)) : bar.Narrows after := by
  cases action with
  | openTab file content encoding etag => exact absurd trivial hselects
  | openUnloaded file => exact absurd rfl (hadds file)
  | activate index => exact absurd trivial hselects
  | close index =>
      rw [apply] at h
      split at h
      · simp at h
      next hlt =>
        obtain rfl := eq_snd_of_ok h
        exact narrows_closeAt hnodup (Nat.lt_of_not_le hlt)
  | closeOthers index =>
      rw [apply] at h
      split at h
      · simp at h
      next tab htab =>
        obtain rfl := eq_snd_of_ok h
        exact narrows_isolate hbar htab
  | closeAll =>
      rw [apply] at h
      obtain rfl := eq_snd_of_ok h
      exact narrows_of_nil rfl
  | reorder source target => exact absurd trivial hreorders
  | edit index content time =>
      exact narrows_act (fun _ _ _ hedit => (edited_of_editTab hedit).id_eq) h
  | updatePath oldPath newPath =>
      rw [apply] at h
      obtain rfl := eq_snd_of_ok h
      exact narrows_updatePath hnodup oldPath newPath
  | updatePathsUnder oldFolder newFolder =>
      rw [apply] at h
      obtain rfl := eq_snd_of_ok h
      exact narrows_updatePathsUnder hnodup oldFolder newFolder
  | closeByPath path isFolder =>
      rw [apply] at h
      obtain rfl := eq_snd_of_ok h
      exact narrows_foldl_closeId hnodup _
  | refreshStarted index request =>
      rw [apply] at h
      exact narrows_act_ok (fun _ => rfl) h
  | refreshResolved id request result =>
      rw [apply] at h
      obtain rfl := eq_snd_of_ok h
      exact narrows_answer (fun index tab => tab.id_applyRefresh request result index) id
  | queueSave index =>
      rw [apply] at h
      exact narrows_act_ok (fun _ => rfl) h
  | cancelQueuedSave index =>
      rw [apply] at h
      exact narrows_act_ok (fun _ => rfl) h
  | saveStarted index request =>
      refine narrows_act ?_ h
      intro tab outcome tab' hstart
      obtain ⟨-, -, rfl⟩ := startSave_eq_ok hstart
      rfl
  | saveResolved id request result =>
      rw [apply] at h
      obtain rfl := eq_snd_of_ok h
      exact narrows_answer (fun index tab => tab.id_applySave request result index) id
  | acceptServer index content => exact narrows_atConflict (fun _ => rfl) h
  | keepLocal index => exact narrows_atConflict (fun _ => rfl) h
  | savedAs index newPath write => exact narrows_savedAs hnodup h
  | externalWrite path content encoding write =>
      rw [apply] at h
      obtain rfl := eq_snd_of_ok h
      exact narrows_externalWrite path content encoding write

/-! ## Who is active afterwards -/

/-- The active tab stays active while it is open. Once it is closed, the first tab that is
left to its right takes over, or else the last one that is left. -/
structure FollowsActive (bar after : TabBar) : Prop where
  stays : ∀ id, bar.activeId? = some id → id ∈ after.ids → after.activeId? = some id
  passes : ∀ left id right, bar.ids = left ++ id :: right → bar.active = some left.length →
    id ∉ after.ids → after.activeId? =
      (right.find? (· ∈ after.ids)).or (bar.ids.filter (· ∈ after.ids)).getLast?
  ends : after.tabs = [] → after.active = none

/-- With nothing closed, the active tab is its own heir. -/
theorem activeId?_eq_heir? (hbar : bar.ActiveValid) : bar.heir? (· ∈ bar.ids) = bar.activeId? := by
  rw [activeId?_eq_bind, heir?]
  cases hactive : bar.active with
  | none => rfl
  | some index =>
      have hlt : index < bar.ids.length := by
        rw [TabBar.ids, List.length_map]
        exact hbar.lt_length index hactive
      have hid : bar.ids[index]? = some bar.ids[index] := List.getElem?_eq_getElem hlt
      have hopen : decide (bar.ids[index] ∈ bar.ids) = true :=
        decide_eq_true (List.getElem_mem hlt)
      rw [Option.bind_some, Option.bind_some, hid]
      exact heirAt_of_survives hid hopen

theorem followsActive_of_heir (hafter : after.ActiveValid)
    (hheir : after.activeId? = bar.heir? (· ∈ after.ids)) : bar.FollowsActive after where
  stays id hid hopen := by
    rw [activeId?_eq_bind] at hid
    obtain ⟨index, hactive, hindex⟩ := Option.bind_eq_some_iff.mp hid
    rw [hheir, heir?, hactive, Option.bind_some]
    exact heirAt_of_survives hindex (decide_eq_true hopen)
  passes left id right hids hactive hgone := by
    rw [hheir, heir?, hactive, Option.bind_some, hids]
    exact heirAt_of_closed (decide_eq_false hgone)
  ends := hafter.none_iff.mpr

theorem Narrows.followsActive (h : bar.Narrows after) (hafter : after.ActiveValid) :
    bar.FollowsActive after :=
  followsActive_of_heir hafter <| by
    rw [← activeId?_eq_heir? hafter]
    exact h.heir _ fun id hid => of_decide_eq_true hid

/-- Nothing was closed, and the active tab is the same. -/
theorem followsActive_of_subset (hids : bar.ids ⊆ after.ids)
    (hactive : ∀ index id, bar.active = some index → bar.ids[index]? = some id →
      after.activeId? = some id)
    (hafter : after.ActiveValid) : bar.FollowsActive after where
  stays id hid _ := by
    rw [activeId?_eq_bind] at hid
    obtain ⟨index, hindex, hid⟩ := Option.bind_eq_some_iff.mp hid
    exact hactive index id hindex hid
  passes left id right hsplit _ hgone := absurd (hids (by simp [hsplit])) hgone
  ends := hafter.none_iff.mpr

theorem followsActive_openUnloaded (file : FileInfo)
    (hafter : (bar.openUnloaded file).2.ActiveValid) :
    bar.FollowsActive (bar.openUnloaded file).2 := by
  cases hfind : bar.find? file.path with
  | some index =>
      have hsame : (bar.openUnloaded file).2 = bar := by simp [openUnloaded, hfind]
      rw [hsame] at hafter ⊢
      exact (Narrows.refl bar).followsActive hafter
  | none =>
      have hids : (bar.openUnloaded file).2.ids = bar.ids ++ [bar.lastId + 1] := by
        simp [openUnloaded, hfind, TabBar.ids, push, Tab.opened]
      refine followsActive_of_subset (hids ▸ List.subset_append_left _ _) ?_ hafter
      intro index id hactive hid
      have hkept : (bar.openUnloaded file).2.active = some index := by
        simp [openUnloaded, hfind, hactive]
      rw [activeId?_eq_bind, hkept, Option.bind_some, hids,
        List.getElem?_append_left (List.getElem?_eq_some_iff.mp hid).1, hid]

/-- The moved element takes its position along, and those in between make room. -/
theorem getElem?_reordered {α : Type} {xs : List α} {source target : Nat} {x : α}
    (hx : xs[source]? = some x) (htarget : target < xs.length) (position : Nat) :
    ((xs.eraseIdx source).insertIdx target x)[positionAfterMove source target position]? =
      xs[position]? := by
  have hsource : source < xs.length := (List.getElem?_eq_some_iff.mp hx).1
  have hroom : target ≤ (xs.eraseIdx source).length := by
    rw [List.length_eraseIdx_of_lt hsource]
    omega
  unfold positionAfterMove
  split
  next hmoved => rw [hmoved, hx, List.getElem?_insertIdx_self, if_pos hroom]
  next hstays =>
    split
    next hleft =>
      have hbefore : position - 1 < target := by omega
      have hafter : ¬ position - 1 < source := by omega
      rw [List.getElem?_insertIdx_of_lt hbefore, List.getElem?_eraseIdx, if_neg hafter,
        Nat.sub_add_cancel (by omega)]
    next hleft =>
      split
      next hright =>
        have hbehind : target < position + 1 := by omega
        have hbefore : position < source := by omega
        rw [List.getElem?_insertIdx_of_gt hbehind, Nat.add_sub_cancel, List.getElem?_eraseIdx,
          if_pos hbefore]
      next hright =>
        rcases Nat.lt_or_gt_of_ne hstays with hbefore | hafter
        · -- Both ends of the move are to the right.
          have hlt : position < target := by omega
          rw [List.getElem?_insertIdx_of_lt hlt, List.getElem?_eraseIdx, if_pos hbefore]
        · have hgt : target < position := by omega
          have hbehind : ¬ position - 1 < source := by omega
          rw [List.getElem?_insertIdx_of_gt hgt, List.getElem?_eraseIdx, if_neg hbehind,
            Nat.sub_add_cancel (by omega)]

theorem next_reorder_of_lt {source target : Nat} {tab : Tab} (htab : bar.tabs[source]? = some tab)
    (htarget : target < bar.tabs.length) :
    (bar.next (.reorder source target)).tabs =
        (bar.tabs.eraseIdx source).insertIdx target tab ∧
      ∀ index, bar.active = some index →
        (bar.next (.reorder source target)).active =
          some (positionAfterMove source target index) := by
  by_cases heq : source = target
  · subst heq
    have hsame : bar.next (.reorder source source) = bar := by
      simp [next, apply, reorder, htab, Nat.not_le_of_lt htarget]
    obtain ⟨hlt, rfl⟩ := List.getElem?_eq_some_iff.mp htab
    rw [hsame, List.insertIdx_eraseIdx_getElem hlt]
    refine ⟨rfl, ?_⟩
    intro index hactive
    rw [hactive, positionAfterMove]
    split
    next hindex => rw [hindex]
    next => rw [if_neg (by omega), if_neg (by omega)]
  · have hmoved : bar.next (.reorder source target) =
        { bar with
          tabs := (bar.tabs.eraseIdx source).insertIdx target tab
          active := bar.active.map (positionAfterMove source target) } := by
      simp [next, apply, reorder, htab, Nat.not_le_of_lt htarget, heq]
    rw [hmoved]
    refine ⟨rfl, ?_⟩
    intro index hactive
    rw [hactive, Option.map_some]

theorem next_reorder_of_not_lt {source target : Nat}
    (h : ¬ (source < bar.tabs.length ∧ target < bar.tabs.length)) :
    bar.next (.reorder source target) = bar := by
  cases htab : bar.tabs[source]? with
  | none => simp [next, apply, reorder, htab]
  | some tab =>
      have hsource : source < bar.tabs.length := (List.getElem?_eq_some_iff.mp htab).1
      have htarget : bar.tabs.length ≤ target := Nat.le_of_not_lt fun hlt => h ⟨hsource, hlt⟩
      simp [next, apply, reorder, htab, htarget]

theorem followsActive_reorder {source target : Nat}
    (hafter : (bar.next (.reorder source target)).ActiveValid) :
    bar.FollowsActive (bar.next (.reorder source target)) := by
  by_cases hlt : source < bar.tabs.length ∧ target < bar.tabs.length
  · have htab : bar.tabs[source]? = some bar.tabs[source] := List.getElem?_eq_getElem hlt.1
    obtain ⟨htabs, hactive⟩ := next_reorder_of_lt htab hlt.2
    refine followsActive_of_subset ?_ ?_ hafter
    · rw [TabBar.ids, TabBar.ids, htabs]
      exact ((perm_reordered htab hlt.2).map _).symm.subset
    · intro index id hindex hid
      rw [activeId?, activeTab?, hactive index hindex, Option.bind_some, htabs,
        getElem?_reordered htab hlt.2, ← List.getElem?_map]
      exact hid
  · rw [next_reorder_of_not_lt hlt] at hafter ⊢
    exact (Narrows.refl bar).followsActive hafter

/-- Unless an action selects a tab, the active one is followed. -/
theorem followsActive_next (hbar : bar.ActiveValid) (hnodup : bar.ids.Nodup)
    (hselects : ¬ action.Selects) : bar.FollowsActive (bar.next action) := by
  have hafter := hbar.transition (transition_next hnodup action)
  by_cases hreorders : action.Reorders
  · cases action with
    | reorder source target => exact followsActive_reorder hafter
    | _ => exact hreorders.elim
  · cases happly : bar.apply action with
    | error error =>
        rw [next_of_error happly] at hafter ⊢
        exact (Narrows.refl bar).followsActive hafter
    | ok result =>
        obtain ⟨outcome, after⟩ := result
        rw [next_of_ok happly] at hafter ⊢
        by_cases hadds : ∃ file, action = .openUnloaded file
        · obtain ⟨file, rfl⟩ := hadds
          rw [apply] at happly
          obtain rfl := eq_snd_of_ok happly
          exact followsActive_openUnloaded file hafter
        · have hadds : ∀ file, action ≠ .openUnloaded file := not_exists.mp hadds
          exact (narrows_of_apply hbar hnodup hselects hreorders hadds happly).followsActive hafter

/-! ## The order of the tabs -/

/-- Without reordering, tabs are closed in place or one is added at the end. -/
theorem Transition.order (hnodup : bar.ids.Nodup) (hreorders : ¬ action.Reorders)
    (h : Transition bar action after) :
    after.ids.Sublist bar.ids ∨ after.ids = bar.ids ++ [bar.lastId + 1] := by
  cases h with
  | same => exact .inl (.refl _)
  | selected => exact .inl (.refl _)
  | changed htab hbecomes =>
      rw [TabBar.ids, map_set_of_eq (·.id) htab hbecomes.id_eq]
      exact .inl (.refl _)
  | opened => exact .inr (by simp [TabBar.ids, push, Tab.opened])
  | closed => exact .inl ((List.eraseIdx_sublist bar.tabs _).map _)
  | isolated htab =>
      exact .inl ((List.singleton_sublist.mpr (List.mem_of_getElem? htab)).map _)
  | emptied => exact .inl (List.nil_sublist _)
  | swept path isFolder => exact .inl (narrows_foldl_closeId hnodup _).ids
  | reordered => exact absurd trivial hreorders
  | relocated => exact .inl (narrows_updatePathsUnder hnodup _ _).ids
  | moved htab hbecomes =>
      rw [TabBar.ids, map_set_of_eq (·.id) htab hbecomes.id_eq]
      exact .inl (.refl _)
  | movedOver hfind hother hremoves htab hbecomes =>
      rw [TabBar.ids, map_set_of_eq (·.id) htab hbecomes.id_eq]
      exact .inl ((List.eraseIdx_sublist bar.tabs _).map _)

theorem filter_mem_of_sublist {kept : List TabId} (hnodup : ids.Nodup) (h : kept.Sublist ids) :
    ids.filter (· ∈ kept) = kept := by
  have hsub : kept.Sublist (ids.filter (· ∈ kept)) := by
    have hfilter := h.filter (· ∈ kept)
    rwa [List.filter_eq_self.mpr fun id hid => decide_eq_true hid] at hfilter
  have hperm : (ids.filter (· ∈ kept)).Perm kept := by
    rw [List.perm_ext_iff_of_nodup (hnodup.filter _) (hnodup.sublist h)]
    intro id
    rw [List.mem_filter, decide_eq_true_iff]
    exact ⟨And.right, fun hid => ⟨h.subset hid, hid⟩⟩
  exact (hsub.eq_of_length hperm.length_eq.symm).symm

/-- The tabs that are left stand in the same order as before. -/
theorem order_next (hbar : bar.Numbered) (hreorders : ¬ action.Reorders) :
    (bar.next action).ids.filter (· ∈ bar.ids) =
      bar.ids.filter (· ∈ (bar.next action).ids) := by
  rcases (transition_next hbar.nodup action).order hbar.nodup hreorders with hsub | hadded
  · rw [filter_mem_of_sublist hbar.nodup hsub, List.filter_eq_self]
    exact fun id hid => decide_eq_true (hsub.subset hid)
  · have hnew : bar.lastId + 1 ∉ bar.ids := fun hmem =>
      Nat.not_succ_le_self _ (hbar.range _ hmem).2
    have hkept : bar.ids.filter (· ∈ bar.ids) = bar.ids :=
      List.filter_eq_self.mpr fun id hid => decide_eq_true hid
    have hall : bar.ids.filter (· ∈ (bar.next action).ids) = bar.ids :=
      List.filter_eq_self.mpr fun id hid =>
        decide_eq_true (hadded ▸ List.mem_append_left _ hid)
    rw [hall, hadded, List.filter_append, hkept, List.filter_cons_of_neg (by simpa using hnew),
      List.filter_nil, List.append_nil]

/-- One tab, and no other, was moved to a position. -/
structure MovesOne (source target : Nat) (bar after : TabBar) : Prop where
  moved : source < bar.tabs.length → target < bar.tabs.length →
    after.tabs[target]? = bar.tabs[source]? ∧
      after.tabs.eraseIdx target = bar.tabs.eraseIdx source
  refused : ¬ (source < bar.tabs.length ∧ target < bar.tabs.length) → after = bar

theorem movesOne_next (bar : TabBar) (source target : Nat) :
    MovesOne source target bar (bar.next (.reorder source target)) where
  moved hsource htarget := by
    have htab : bar.tabs[source]? = some bar.tabs[source] := List.getElem?_eq_getElem hsource
    have hroom : target ≤ (bar.tabs.eraseIdx source).length := by
      rw [List.length_eraseIdx_of_lt hsource]
      omega
    rw [(next_reorder_of_lt htab htarget).1, List.eraseIdx_insertIdx_self,
      List.getElem?_insertIdx_self, if_pos hroom]
    exact ⟨htab.symm, rfl⟩
  refused := next_reorder_of_not_lt

/-- After any run from the empty bar, an action that does not select a tab leaves the active
one active, or passes its place on to a neighbour if it is closed. The tabs that are left keep
their order unless they are reordered, which moves one tab only. -/
theorem active_follows_run (history : List TabAction) (action : TabAction) :
    (¬ action.Selects → (empty.run history).FollowsActive ((empty.run history).next action)) ∧
      (¬ action.Reorders →
        ((empty.run history).next action).ids.filter (· ∈ (empty.run history).ids) =
          (empty.run history).ids.filter (· ∈ ((empty.run history).next action).ids)) ∧
      ∀ source target, action = .reorder source target →
        MovesOne source target (empty.run history) ((empty.run history).next action) := by
  have hnumbered := numbered_run history
  refine ⟨followsActive_next (activeValid_run history) hnumbered.nodup, order_next hnumbered, ?_⟩
  rintro source target rfl
  exact movesOne_next _ source target

/-- Four tabs, of which the second is active. It and the third are below one folder. -/
def crowdedFolder : List TabAction :=
  [.openTab (.ofPath "/a") "one" .utf8 none,
   .openTab (.ofPath "/src/x") "two" .utf8 none,
   .openTab (.ofPath "/src/y") "three" .utf8 none,
   .openTab (.ofPath "/b") "four" .utf8 none,
   .activate 1]

theorem active_follows_crowdedFolder :
    (empty.run crowdedFolder).activeId? = some 2 ∧
      ¬ (TabAction.closeByPath "/src" true).Selects ∧
      ((empty.run crowdedFolder).next (.closeByPath "/src" true)).activeId? = some 4 ∧
      ¬ (TabAction.closeByPath "/src" true).Reorders ∧
      (empty.run crowdedFolder).ids.filter
        (· ∈ ((empty.run crowdedFolder).next (.closeByPath "/src" true)).ids) = [1, 4] ∧
      MovesOne 3 0 (empty.run crowdedFolder) ((empty.run crowdedFolder).next (.reorder 3 0)) := by
  obtain ⟨hfollows, horder, -⟩ := active_follows_run crowdedFolder (.closeByPath "/src" true)
  have hactive := (hfollows id).passes [1] 2 [3, 4] (by decide) (by decide) (by decide)
  have hmoves := (active_follows_run crowdedFolder (.reorder 3 0)).2.2 3 0 rfl
  exact ⟨by decide, id, hactive.trans (by decide), id, (horder id).symm.trans (by decide), hmoves⟩

end TabBar

end Workbench
