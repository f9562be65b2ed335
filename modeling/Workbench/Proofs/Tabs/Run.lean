import Mathlib.Data.List.Induction
import Mathlib.Data.List.Nodup
import Workbench.Tab.Bar

/-! # Runs of the tab bar

A run performs actions one after another and skips those that are refused. The
tabs of a bar are told apart by their numbers: this module says where a number
or a path is found, and what closing or moving many tabs one by one amounts to
when the numbers are distinct. -/

namespace Workbench

/-- What holds after a run, and not before it, comes to hold with one of its steps. -/
theorem exists_turn {α : Type} {p : List α → Prop} (hstart : ¬ p []) {history : List α}
    (h : p history) : ∃ earlier step later, history = earlier ++ step :: later ∧
      ¬ p earlier ∧ p (earlier ++ [step]) := by
  induction history using List.reverseRecOn with
  | nil => exact absurd h hstart
  | append_singleton history step ih =>
      by_cases hbefore : p history
      · obtain ⟨earlier, first, later, rfl, hturn⟩ := ih hbefore
        exact ⟨earlier, first, later ++ [step], by simp, hturn⟩
      · exact ⟨history, step, [], rfl, hbefore, h⟩

namespace Tab

/-- The tab after one move, which concerns it only if it has the number. -/
def follow (tab : Tab) (move : TabId × String) : Tab :=
  if tab.id = move.1 then tab.moveTo move.2 else tab

/-- The tab after a folder was renamed. -/
def relocated (oldFolder newFolder : String) (tab : Tab) : Tab :=
  match Path.rebase? tab.path oldFolder newFolder with
  | some path => tab.moveTo path
  | none => tab

@[simp] theorem id_follow (tab : Tab) (move : TabId × String) : (tab.follow move).id = tab.id := by
  unfold follow
  split <;> rfl

@[simp] theorem id_relocated (oldFolder newFolder : String) (tab : Tab) :
    (tab.relocated oldFolder newFolder).id = tab.id := by
  unfold relocated
  split <;> rfl

theorem relocated_of_some {tab : Tab} {oldFolder newFolder path : String}
    (h : Path.rebase? tab.path oldFolder newFolder = some path) :
    tab.relocated oldFolder newFolder = tab.moveTo path := by
  simp [relocated, h]

theorem relocated_of_none {tab : Tab} {oldFolder newFolder : String}
    (h : Path.rebase? tab.path oldFolder newFolder = none) :
    tab.relocated oldFolder newFolder = tab := by
  simp [relocated, h]

theorem foldl_follow_of_notMem {tab : Tab} {moving : List (TabId × String)}
    (h : ∀ move ∈ moving, move.1 ≠ tab.id) : moving.foldl follow tab = tab := by
  induction moving with
  | nil => rfl
  | cons move rest ih =>
      have hskip : tab.follow move = tab := if_neg fun heq => h move List.mem_cons_self heq.symm
      rw [List.foldl_cons, hskip]
      exact ih fun other hother => h other (List.mem_cons_of_mem _ hother)

/-- Several moves of one tab to the same path are one move. -/
theorem foldl_follow_moveTo {tab : Tab} {path : String} {moving : List (TabId × String)}
    (h : ∀ move ∈ moving, move.1 = tab.id → move.2 = path) :
    moving.foldl follow (tab.moveTo path) = tab.moveTo path := by
  induction moving with
  | nil => rfl
  | cons move rest ih =>
      have hsame : (tab.moveTo path).follow move = tab.moveTo path := by
        unfold follow
        split
        next heq =>
          rw [h move List.mem_cons_self heq.symm]
          rfl
        next => rfl
      rw [List.foldl_cons, hsame]
      exact ih fun other hother => h other (List.mem_cons_of_mem _ hother)

theorem foldl_follow_of_mem {tab : Tab} {path : String} {moving : List (TabId × String)}
    (hmem : (tab.id, path) ∈ moving)
    (h : ∀ move ∈ moving, move.1 = tab.id → move.2 = path) :
    moving.foldl follow tab = tab.moveTo path := by
  induction moving with
  | nil => simp at hmem
  | cons move rest ih =>
      have hrest : ∀ other ∈ rest, other.1 = tab.id → other.2 = path := by
        intro other hother
        exact h other (List.mem_cons_of_mem _ hother)
      rw [List.foldl_cons]
      by_cases hid : move.1 = tab.id
      · have hmove : tab.follow move = tab.moveTo path := by
          rw [follow, if_pos hid.symm, h move List.mem_cons_self hid]
        rw [hmove]
        exact foldl_follow_moveTo hrest
      · have hskip : tab.follow move = tab := if_neg fun heq => hid heq.symm
        rw [hskip]
        refine ih ?_ hrest
        rcases List.mem_cons.mp hmem with heq | hmem
        · exact absurd (congrArg Prod.fst heq).symm hid
        · exact hmem

end Tab

namespace TabBar

variable {bar : TabBar}

/-- The bar after an action. An action that is refused changes nothing. -/
def next (bar : TabBar) (action : TabAction) : TabBar :=
  match bar.apply action with
  | .ok (_, bar) => bar
  | .error _ => bar

/-- The bar after some actions, the first of them first. -/
def run (bar : TabBar) (actions : List TabAction) : TabBar := actions.foldl next bar

/-- The numbers of the open tabs, in order. -/
def ids (bar : TabBar) : List TabId := bar.tabs.map (·.id)

@[simp] theorem run_nil (bar : TabBar) : bar.run [] = bar := rfl

@[simp] theorem run_cons (bar : TabBar) (action : TabAction) (rest : List TabAction) :
    bar.run (action :: rest) = (bar.next action).run rest := rfl

@[simp] theorem run_append (bar : TabBar) (first second : List TabAction) :
    bar.run (first ++ second) = (bar.run first).run second :=
  List.foldl_append

theorem next_of_ok {action : TabAction} {outcome : TabOutcome} {after : TabBar}
    (h : bar.apply action = .ok (outcome, after)) : bar.next action = after := by
  simp [next, h]

theorem next_of_error {action : TabAction} {error : TabError}
    (h : bar.apply action = .error error) : bar.next action = bar := by
  simp [next, h]

theorem mem_ids_of_mem {tab : Tab} (h : tab ∈ bar.tabs) : tab.id ∈ bar.ids :=
  List.mem_map_of_mem h

theorem mem_ids_iff {id : TabId} : id ∈ bar.ids ↔ ∃ tab ∈ bar.tabs, tab.id = id :=
  List.mem_map

/-- Distinct numbers tell tabs apart. -/
theorem eq_of_id_eq (hnodup : bar.ids.Nodup) {tab other : Tab} (htab : tab ∈ bar.tabs)
    (hother : other ∈ bar.tabs) (h : tab.id = other.id) : tab = other :=
  List.inj_on_of_nodup_map hnodup htab hother h

theorem index_eq_of_map_eq {β : Type} (f : Tab → β) {tabs : List Tab} (hnodup : (tabs.map f).Nodup)
    {index position : Nat} {tab other : Tab} (hindex : tabs[index]? = some tab)
    (hposition : tabs[position]? = some other) (h : f tab = f other) : index = position := by
  have hfirst : (tabs.map f)[index]? = some (f tab) := by simp [hindex]
  have hsecond : (tabs.map f)[position]? = some (f tab) := by simp [hposition, h]
  have hlt : index < (tabs.map f).length := (List.getElem?_eq_some_iff.mp hfirst).1
  exact (List.getElem?_inj hlt hnodup).mp (hfirst.trans hsecond.symm)

theorem index_eq_of_id_eq (hnodup : bar.ids.Nodup) {index position : Nat} {tab other : Tab}
    (hindex : bar.tabs[index]? = some tab) (hposition : bar.tabs[position]? = some other)
    (h : tab.id = other.id) : index = position :=
  index_eq_of_map_eq (·.id) hnodup hindex hposition h

theorem find?_eq_some {path : String} {index : Nat} (h : bar.find? path = some index) :
    ∃ tab, bar.tabs[index]? = some tab ∧ tab.path = path := by
  obtain ⟨hlt, hpath, _⟩ := List.findIdx?_eq_some_iff_getElem.mp h
  exact ⟨bar.tabs[index], List.getElem?_eq_getElem hlt, beq_iff_eq.mp hpath⟩

theorem find?_eq_none_iff {path : String} :
    bar.find? path = none ↔ ∀ tab ∈ bar.tabs, tab.path ≠ path := by
  simp [find?, List.findIdx?_eq_none_iff]

theorem findId?_eq_some {id : TabId} {index : Nat} (h : bar.findId? id = some index) :
    ∃ tab, bar.tabs[index]? = some tab ∧ tab.id = id := by
  obtain ⟨hlt, hid, _⟩ := List.findIdx?_eq_some_iff_getElem.mp h
  exact ⟨bar.tabs[index], List.getElem?_eq_getElem hlt, beq_iff_eq.mp hid⟩

theorem findId?_eq_none_iff {id : TabId} :
    bar.findId? id = none ↔ ∀ tab ∈ bar.tabs, tab.id ≠ id := by
  simp [findId?, List.findIdx?_eq_none_iff]

theorem modifyAt_eq_set {index : Nat} {tab : Tab} (h : bar.tabs[index]? = some tab)
    (f : Tab → Tab) : bar.modifyAt index f = { bar with tabs := bar.tabs.set index (f tab) } := by
  simp [modifyAt, List.modify_eq_set_getElem?, h]

/-! ## Closing tabs -/

@[simp] theorem lastId_closeAt (bar : TabBar) (index : Nat) :
    (bar.closeAt index).lastId = bar.lastId := rfl

theorem tabs_closeAt (bar : TabBar) (index : Nat) :
    (bar.closeAt index).tabs = bar.tabs.eraseIdx index := rfl

@[simp] theorem lastId_closeId (bar : TabBar) (id : TabId) :
    (bar.closeId id).lastId = bar.lastId := by
  unfold closeId
  split <;> rfl

/-- With distinct numbers, the first tab with a number is the only one. -/
theorem eraseP_id_eq_filter {tabs : List Tab} (hnodup : (tabs.map (·.id)).Nodup) (id : TabId) :
    tabs.eraseP (fun tab => tab.id == id) = tabs.filter fun tab => tab.id != id := by
  induction tabs with
  | nil => rfl
  | cons tab rest ih =>
      rw [List.map_cons, List.nodup_cons] at hnodup
      by_cases hid : tab.id = id
      · have hrest : ∀ other ∈ rest, (other.id != id) = true := by
          intro other hother
          have hne : other.id ≠ tab.id := fun heq =>
            hnodup.1 (heq ▸ List.mem_map_of_mem (f := (·.id)) hother)
          simpa [hid] using hne
        rw [List.eraseP_cons_of_pos (by simpa using hid),
          List.filter_cons_of_neg (by simpa using hid), List.filter_eq_self.mpr hrest]
      · rw [List.eraseP_cons_of_neg (by simpa using hid),
          List.filter_cons_of_pos (by simpa using hid), ih hnodup.2]

theorem tabs_closeId (hnodup : bar.ids.Nodup) (id : TabId) :
    (bar.closeId id).tabs = bar.tabs.filter fun tab => tab.id != id := by
  rw [← eraseP_id_eq_filter hnodup, List.eraseP_eq_eraseIdx]
  unfold closeId findId?
  split
  next index hindex => rw [hindex]; rfl
  next hnone => rw [hnone]

theorem nodup_ids_of_sublist {tabs : List Tab} (hnodup : bar.ids.Nodup)
    (h : tabs.Sublist bar.tabs) : (tabs.map (·.id)).Nodup :=
  hnodup.sublist (h.map _)

@[simp] theorem lastId_foldl_closeId (bar : TabBar) (closing : List TabId) :
    (closing.foldl closeId bar).lastId = bar.lastId := by
  induction closing generalizing bar with
  | nil => rfl
  | cons id rest ih => rw [List.foldl_cons, ih, lastId_closeId]

/-- Closing many tabs leaves the others, in their order. -/
theorem tabs_foldl_closeId (hnodup : bar.ids.Nodup) (closing : List TabId) :
    (closing.foldl closeId bar).tabs = bar.tabs.filter fun tab => !closing.contains tab.id := by
  induction closing generalizing bar with
  | nil => simp
  | cons id rest ih =>
      have htabs := tabs_closeId hnodup id
      -- The numbers stay distinct, which the next closing needs.
      have hids : (bar.closeId id).ids.Nodup := by
        unfold ids
        rw [htabs]
        exact nodup_ids_of_sublist hnodup List.filter_sublist
      rw [List.foldl_cons, ih hids, htabs, List.filter_filter]
      apply List.filter_congr
      intro tab _
      by_cases hid : tab.id = id <;> simp [hid]

/-! ## Moving the tabs of a folder -/

@[simp] theorem lastId_moveId (bar : TabBar) (move : TabId × String) :
    (bar.moveId move).lastId = bar.lastId := by
  unfold moveId
  split <;> rfl

@[simp] theorem active_moveId (bar : TabBar) (move : TabId × String) :
    (bar.moveId move).active = bar.active := by
  unfold moveId
  split <;> rfl

theorem tabs_moveId (hnodup : bar.ids.Nodup) (move : TabId × String) :
    (bar.moveId move).tabs = bar.tabs.map (·.follow move) := by
  unfold moveId
  split
  next index hindex =>
    obtain ⟨tab, htab, hid⟩ := findId?_eq_some hindex
    rw [modifyAt_eq_set htab]
    apply List.ext_getElem?
    intro position
    rw [List.getElem?_set, List.getElem?_map]
    by_cases hpos : index = position
    · subst hpos
      have hlt : index < bar.tabs.length := (List.getElem?_eq_some_iff.mp htab).1
      rw [if_pos rfl, if_pos hlt, htab, Option.map_some, Tab.follow, if_pos hid]
    · rw [if_neg hpos]
      cases hother : bar.tabs[position]? with
      | none => rfl
      | some other =>
          have hne : other.id ≠ move.1 := fun heq =>
            hpos (index_eq_of_id_eq hnodup htab hother (hid.trans heq.symm))
          simp [Tab.follow, hne]
  next hnone =>
    -- No tab has the number, so none follows the move.
    have hskip : ∀ tab ∈ bar.tabs, tab.follow move = tab := fun tab htab =>
      if_neg (findId?_eq_none_iff.mp hnone tab htab)
    conv => lhs; rw [← List.map_id bar.tabs]
    exact List.map_congr_left fun tab htab => (hskip tab htab).symm

theorem ids_moveId (hnodup : bar.ids.Nodup) (move : TabId × String) :
    (bar.moveId move).ids = bar.ids := by
  unfold ids
  rw [tabs_moveId hnodup, List.map_map]
  exact List.map_congr_left fun tab _ => tab.id_follow move

@[simp] theorem lastId_foldl_moveId (bar : TabBar) (moving : List (TabId × String)) :
    (moving.foldl moveId bar).lastId = bar.lastId := by
  induction moving generalizing bar with
  | nil => rfl
  | cons move rest ih => rw [List.foldl_cons, ih, lastId_moveId]

@[simp] theorem active_foldl_moveId (bar : TabBar) (moving : List (TabId × String)) :
    (moving.foldl moveId bar).active = bar.active := by
  induction moving generalizing bar with
  | nil => rfl
  | cons move rest ih => rw [List.foldl_cons, ih, active_moveId]

theorem tabs_foldl_moveId (hnodup : bar.ids.Nodup) (moving : List (TabId × String)) :
    (moving.foldl moveId bar).tabs = bar.tabs.map fun tab => moving.foldl Tab.follow tab := by
  induction moving generalizing bar with
  | nil => simp
  | cons move rest ih =>
      rw [List.foldl_cons, ih (by rw [ids_moveId hnodup]; exact hnodup), tabs_moveId hnodup,
        List.map_map]
      rfl

/-- A tab outside a folder sits where a tab of the folder goes when the folder
is renamed. -/
def blocks (bar : TabBar) (oldFolder newFolder : String) (tab : Tab) : Bool :=
  (Path.rebase? tab.path oldFolder newFolder).isNone &&
    bar.tabs.any fun other => Path.rebase? other.path oldFolder newFolder == some tab.path

theorem mem_moves_iff {oldFolder newFolder : String} {move : TabId × String} :
    move ∈ bar.moves oldFolder newFolder ↔
      ∃ tab ∈ bar.tabs, tab.id = move.1 ∧
        Path.rebase? tab.path oldFolder newFolder = some move.2 := by
  obtain ⟨id, path⟩ := move
  simp [moves, List.mem_filterMap, and_comm]

theorem contains_collisions (hnodup : bar.ids.Nodup) {oldFolder newFolder : String} {tab : Tab}
    (htab : tab ∈ bar.tabs) :
    (bar.collisions (bar.moves oldFolder newFolder)).contains tab.id =
      bar.blocks oldFolder newFolder tab := by
  have hmoving : (bar.moves oldFolder newFolder).any (fun m => m.1 == tab.id) =
      (Path.rebase? tab.path oldFolder newFolder).isSome := by
    rw [Bool.eq_iff_iff, List.any_eq_true, Option.isSome_iff_exists]
    constructor
    · rintro ⟨move, hmove, hid⟩
      obtain ⟨other, hother, hother_id, hpath⟩ := mem_moves_iff.mp hmove
      have heq := eq_of_id_eq hnodup hother htab (hother_id.trans (beq_iff_eq.mp hid))
      exact ⟨move.2, heq ▸ hpath⟩
    · rintro ⟨path, hpath⟩
      exact ⟨(tab.id, path), mem_moves_iff.mpr ⟨tab, htab, rfl, hpath⟩, by simp⟩
  have htarget : (bar.moves oldFolder newFolder).any (fun m => m.2 == tab.path) =
      bar.tabs.any fun other => Path.rebase? other.path oldFolder newFolder == some tab.path := by
    rw [Bool.eq_iff_iff, List.any_eq_true, List.any_eq_true]
    constructor
    · rintro ⟨move, hmove, hpath⟩
      obtain ⟨other, hother, _, hother_path⟩ := mem_moves_iff.mp hmove
      exact ⟨other, hother, by rw [hother_path, beq_iff_eq.mp hpath, beq_self_eq_true]⟩
    · rintro ⟨other, hother, hpath⟩
      exact ⟨(other.id, tab.path),
        mem_moves_iff.mpr ⟨other, hother, rfl, beq_iff_eq.mp hpath⟩, by simp⟩
  rw [Bool.eq_iff_iff, List.contains_iff_mem, collisions, List.mem_map]
  constructor
  · rintro ⟨other, hother, hid⟩
    obtain ⟨hmem, hcollides⟩ := List.mem_filter.mp hother
    obtain rfl := eq_of_id_eq hnodup hmem htab hid
    rw [hmoving, htarget] at hcollides
    simpa [blocks] using hcollides
  · intro hblocks
    refine ⟨tab, List.mem_filter.mpr ⟨htab, ?_⟩, rfl⟩
    rw [hmoving, htarget]
    simpa [blocks] using hblocks

/-- Renaming a folder closes the tabs that are in the way and relocates all
others at once. -/
theorem tabs_updatePathsUnder (hnodup : bar.ids.Nodup) {oldFolder newFolder : String}
    (hne : oldFolder ≠ newFolder) :
    (bar.updatePathsUnder oldFolder newFolder).2.tabs =
      (bar.tabs.filter fun tab => !bar.blocks oldFolder newFolder tab).map
        (Tab.relocated oldFolder newFolder) := by
  let moving := bar.moves oldFolder newFolder
  let closed := (bar.collisions moving).foldl closeId bar
  have hclosed : closed.tabs =
      bar.tabs.filter fun tab => !bar.blocks oldFolder newFolder tab := by
    rw [tabs_foldl_closeId hnodup]
    apply List.filter_congr
    intro tab htab
    rw [contains_collisions hnodup htab]
  have hids : closed.ids.Nodup := by
    unfold ids
    rw [hclosed]
    exact nodup_ids_of_sublist hnodup List.filter_sublist
  have hupdate : (bar.updatePathsUnder oldFolder newFolder).2 = moving.foldl moveId closed := by
    simp [updatePathsUnder, hne, moving, closed]
  rw [hupdate, tabs_foldl_moveId hids, hclosed]
  apply List.map_congr_left
  intro tab hmem
  have htab : tab ∈ bar.tabs := List.mem_of_mem_filter hmem
  -- Every move with the number of the tab comes from the tab itself.
  have hown : ∀ move ∈ moving, move.1 = tab.id →
      Path.rebase? tab.path oldFolder newFolder = some move.2 := by
    intro move hmove hid
    obtain ⟨other, hother, hother_id, hpath⟩ := mem_moves_iff.mp hmove
    rwa [eq_of_id_eq hnodup hother htab (hother_id.trans hid)] at hpath
  cases hpath : Path.rebase? tab.path oldFolder newFolder with
  | none =>
      rw [Tab.relocated_of_none hpath]
      apply Tab.foldl_follow_of_notMem
      intro move hmove hid
      simp [hown move hmove hid] at hpath
  | some path =>
      rw [Tab.relocated_of_some hpath]
      apply Tab.foldl_follow_of_mem (mem_moves_iff.mpr ⟨tab, htab, rfl, hpath⟩)
      intro move hmove hid
      exact (Option.some.inj ((hown move hmove hid).symm.trans hpath))

end TabBar

end Workbench
