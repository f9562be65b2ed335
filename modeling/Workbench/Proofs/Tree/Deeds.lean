import Workbench.Proofs.Tree.Changes

/-! # What is done to the tree

The tree takes listings, and changes of it begin, are confirmed and are rolled back. What
one deed can do is said once (`Transition`). After any deeds the open changes have
different numbers, none of them new, and each has touched the keys of its provisional
entries. -/

namespace Workbench.FileTree

/-- What can be done to a tree. -/
inductive Deed
  | load (listing : List DirEntry)
  | create (path : String) (kind : EntryKind)
  | rename (source target : String)
  | delete (path : String)
  | upload (path : String) (size : Nat)
  | confirm (id : MutationId) (reported : List DirEntry)
  | rollback (id : MutationId)

/-- The tree after a deed. A deed that is refused changes nothing. -/
def perform (tree : FileTree) : Deed → FileTree
  | .load listing => tree.load listing
  | .create path kind => ((tree.beginCreate path kind).toOption.map (·.2)).getD tree
  | .rename source target => ((tree.beginRename source target).toOption.map (·.2)).getD tree
  | .delete path => ((tree.beginDelete path).toOption.map (·.2)).getD tree
  | .upload path size => (tree.beginUpload path size).2
  | .confirm id reported => (tree.confirm id reported).toOption.getD tree
  | .rollback id => ((tree.rollback id).toOption.map (·.2)).getD tree

/-- The tree after some deeds, the first of them first. -/
def after (tree : FileTree) (history : List Deed) : FileTree := history.foldl perform tree

@[simp] theorem after_nil (tree : FileTree) : tree.after [] = tree := rfl

@[simp] theorem after_cons (tree : FileTree) (deed : Deed) (rest : List Deed) :
    tree.after (deed :: rest) = (tree.perform deed).after rest := rfl

@[simp] theorem after_append (tree : FileTree) (first second : List Deed) :
    tree.after (first ++ second) = (tree.after first).after second :=
  List.foldl_append

variable {tree next : FileTree} {id : MutationId} {change : PendingMutation}

/-- The tree once an open change is settled, and the entries that this leaves. -/
def settled (tree : FileTree) (id : MutationId) (entries : Keyed TreeEntry) : FileTree :=
  { entries
    pending := tree.pending.filter fun p => p.1 != id
    lastMutation := tree.lastMutation }

/-- The number of the change that the deed settles, if it is one of that kind. -/
def Deed.settles? : Deed → Option MutationId
  | .confirm id _ | .rollback id => some id
  | .load _ | .create .. | .rename .. | .delete _ | .upload .. => none

/-- What a deed leads to. -/
inductive Transition (tree : FileTree) : Deed → FileTree → Prop
  /-- The deed is refused. A change to be settled is not open then. -/
  | refused {deed : Deed}
      (hnone : ∀ id change, deed.settles? = some id → (id, change) ∉ tree.pending) :
      Transition tree deed tree
  | loaded (listing : List DirEntry) : Transition tree (.load listing) (tree.load listing)
  | begun {deed : Deed} {id : MutationId} {change : PendingMutation} {next : FileTree}
      (hdeed : deed.settles? = none) (h : Begins tree id change next) : Transition tree deed next
  | confirmed {id : MutationId} {change : PendingMutation} (reported : List DirEntry)
      (hopen : (id, change) ∈ tree.pending) :
      Transition tree (.confirm id reported)
        (tree.settled id (change.provisionalPaths.foldl (confirmEntry reported) tree.entries))
  | rolledBack {id : MutationId} {change : PendingMutation}
      (hopen : (id, change) ∈ tree.pending) :
      Transition tree (.rollback id)
        (tree.settled id (change.snapshot.foldr restoreEntry tree.entries))

theorem settle_eq_ok (h : tree.settle id = .ok (change, next)) :
    (id, change) ∈ tree.pending ∧ next = tree.settled id tree.entries := by
  unfold settle at h
  split at h
  next => cases h
  next found change' hfind =>
    obtain ⟨rfl, rfl⟩ := Prod.mk.inj (Except.ok.inj h)
    have hid : found = id := by simpa using List.find?_some hfind
    exact ⟨hid ▸ List.mem_of_find?_eq_some hfind, rfl⟩

theorem not_open_of_settle {error : TreeError} (h : tree.settle id = .error error) :
    (id, change) ∉ tree.pending := by
  unfold settle at h
  split at h
  next hfind => exact fun hopen => List.find?_eq_none.mp hfind _ hopen (beq_self_eq_true id)
  next => cases h

/-- Every deed is refused or does what its kind says. -/
theorem transition_perform (tree : FileTree) (deed : Deed) :
    Transition tree deed (tree.perform deed) := by
  have hbegun : ∀ deed : Deed, deed.settles? = none →
      ∀ answer : Except TreeError (MutationId × FileTree),
        (∀ id next, answer = .ok (id, next) → ∃ change, Begins tree id change next) →
          Transition tree deed ((answer.toOption.map (·.2)).getD tree) := by
    rintro deed hdeed (error | ⟨id, next⟩) hbegins
    · refine .refused fun id _ hsettles => ?_
      rw [hdeed] at hsettles
      cases hsettles
    · obtain ⟨change, hchange⟩ := hbegins id next rfl
      exact .begun hdeed hchange
  cases deed with
  | load listing => exact .loaded listing
  | create path kind => exact hbegun (.create path kind) rfl _ fun _ _ => begins_of_beginCreate
  | rename source target =>
      exact hbegun (.rename source target) rfl _ fun _ _ => begins_of_beginRename
  | delete path => exact hbegun (.delete path) rfl _ fun _ _ => begins_of_beginDelete
  | upload path size =>
      have hdeed : (Deed.upload path size).settles? = none := rfl
      exact .begun hdeed (begins_beginUpload tree path size)
  | confirm id reported =>
      rw [perform, confirm]
      cases hsettle : tree.settle id with
      | error error =>
          refine .refused fun other _ hsettles => ?_
          obtain rfl := Option.some.inj hsettles
          exact not_open_of_settle hsettle
      | ok settled =>
          obtain ⟨hopen, hnext⟩ := settle_eq_ok (show tree.settle id = .ok (_, _) from hsettle)
          simp only [Except.toOption, Option.getD_some, hnext]
          exact .confirmed reported hopen
  | rollback id =>
      rw [perform, rollback]
      cases hsettle : tree.settle id with
      | error error =>
          refine .refused fun other _ hsettles => ?_
          obtain rfl := Option.some.inj hsettles
          exact not_open_of_settle hsettle
      | ok settled =>
          obtain ⟨hopen, hnext⟩ := settle_eq_ok (show tree.settle id = .ok (_, _) from hsettle)
          simp only [Except.toOption, Option.map_some, Option.getD_some, hnext]
          exact .rolledBack hopen

/-! ## Listings -/

@[simp] theorem pending_load (tree : FileTree) (listing : List DirEntry) :
    (tree.load listing).pending = tree.pending := by
  unfold load
  induction listing generalizing tree with
  | nil => rfl
  | cons line rest ih =>
      rw [List.foldl_cons, ih, loadEntry]
      split <;> rfl

@[simp] theorem lastMutation_load (tree : FileTree) (listing : List DirEntry) :
    (tree.load listing).lastMutation = tree.lastMutation := by
  unfold load
  induction listing generalizing tree with
  | nil => rfl
  | cons line rest ih =>
      rw [List.foldl_cons, ih, loadEntry]
      split <;> rfl

/-! ## What holds of the open changes -/

/-- The open changes have numbers that were given out, each its own, and each has touched
the keys of its provisional entries. -/
structure Sound (tree : FileTree) : Prop where
  numbered : ∀ p ∈ tree.pending, p.1 ≤ tree.lastMutation
  distinct : (tree.pending.map (·.1)).Nodup
  held : ∀ p ∈ tree.pending, ∀ key ∈ p.2.provisionalPaths, p.2.Touches key

theorem sound_of_settled (h : tree.pending = []) : tree.Sound := by
  constructor <;> simp [h]

theorem Begins.sound (h : Begins tree id change next) (hsound : tree.Sound) : next.Sound := by
  obtain ⟨hid, hlast, hpending, htracks⟩ := h
  have hnew := hlast.trans hid
  constructor
  case numbered =>
    intro p hp
    rw [hnew]
    rcases List.mem_append.mp (hpending ▸ hp) with hbefore | hlatest
    · exact Nat.le_succ_of_le (hsound.numbered p hbefore)
    · rw [List.mem_singleton.mp hlatest]
      exact Nat.le_of_eq hid
  case distinct =>
    rw [hpending, List.map_append, List.map_singleton]
    refine List.nodup_append.mpr ⟨hsound.distinct, List.nodup_singleton _, ?_⟩
    rintro other hother same hsame rfl
    obtain ⟨p, hp, rfl⟩ := List.mem_map.mp hother
    have hle := hsound.numbered p hp
    rw [List.mem_singleton.mp hsame, hid] at hle
    exact Nat.not_succ_le_self _ hle
  case held =>
    intro p hp
    rcases List.mem_append.mp (hpending ▸ hp) with hbefore | hlatest
    · exact hsound.held p hbefore
    · rw [List.mem_singleton.mp hlatest]
      exact htracks.held

theorem mem_settled {entries : Keyed TreeEntry} {p : MutationId × PendingMutation} :
    p ∈ (tree.settled id entries).pending ↔ p ∈ tree.pending ∧ p.1 ≠ id := by
  simp [settled]

theorem Sound.settled (h : tree.Sound) (id : MutationId) (entries : Keyed TreeEntry) :
    (tree.settled id entries).Sound where
  numbered p hp := h.numbered p (mem_settled.mp hp).1
  distinct := h.distinct.sublist (List.filter_sublist.map _)
  held p hp := h.held p (mem_settled.mp hp).1

theorem Sound.transition {deed : Deed} (h : tree.Sound) (hstep : Transition tree deed next) :
    next.Sound := by
  cases hstep with
  | refused => exact h
  | loaded listing =>
      constructor
      · simpa using h.numbered
      · simpa using h.distinct
      · simpa using h.held
  | begun _ hbegins => exact hbegins.sound h
  | confirmed reported _ => exact h.settled _ _
  | rolledBack _ => exact h.settled _ _

theorem Sound.after (h : tree.Sound) (history : List Deed) : (tree.after history).Sound := by
  induction history generalizing tree with
  | nil => exact h
  | cons deed rest ih => exact ih (h.transition (transition_perform tree deed))

theorem sound_after (history : List Deed) : (empty.after history).Sound :=
  (sound_of_settled rfl).after history

/-- An open change is told by its number. -/
theorem Sound.eq_of_id_eq (h : tree.Sound) {other : PendingMutation}
    (hopen : (id, change) ∈ tree.pending) (hother : (id, other) ∈ tree.pending) :
    change = other :=
  congrArg Prod.snd (List.inj_on_of_nodup_map h.distinct hopen hother rfl)

/-! ## A change that is settled at once -/

theorem Sound.settle (h : tree.Sound) (hopen : (id, change) ∈ tree.pending) :
    tree.settle id = .ok (change, tree.settled id tree.entries) := by
  unfold FileTree.settle
  have hfound : ∃ p, tree.pending.find? (fun p => p.1 == id) = some p :=
    Option.isSome_iff_exists.mp (List.find?_isSome.mpr ⟨_, hopen, by simp⟩)
  obtain ⟨⟨found, other⟩, hfind⟩ := hfound
  obtain rfl : found = id := by simpa using List.find?_some hfind
  obtain rfl := h.eq_of_id_eq hopen (List.mem_of_find?_eq_some hfind)
  rw [hfind]
  rfl

theorem Sound.confirm_eq (h : tree.Sound) (hopen : (id, change) ∈ tree.pending)
    (reported : List DirEntry) :
    tree.confirm id reported =
      .ok (tree.settled id
        (change.provisionalPaths.foldl (confirmEntry reported) tree.entries)) := by
  rw [confirm, h.settle hopen]
  rfl

theorem Sound.rollback_eq (h : tree.Sound) (hopen : (id, change) ∈ tree.pending) :
    tree.rollback id =
      .ok (change.kind,
        tree.settled id (change.snapshot.foldr restoreEntry tree.entries)) := by
  rw [rollback, h.settle hopen]
  rfl

/-- To settle a change leaves the other open ones, in their order. -/
theorem Sound.pending_settled (h : tree.Sound)
    {earlier later : List (MutationId × PendingMutation)}
    (hpending : tree.pending = earlier ++ (id, change) :: later) (entries : Keyed TreeEntry) :
    (tree.settled id entries).pending = earlier ++ later := by
  have hdistinct := h.distinct
  rw [hpending, List.map_append, List.map_cons] at hdistinct
  have hnew := (List.nodup_middle.mp hdistinct).notMem
  rw [← List.map_append, List.mem_map] at hnew
  have hkept : ∀ p ∈ earlier ++ later, (p.1 != id) = true := fun p hp =>
    bne_iff_ne.mpr fun hid => hnew ⟨p, hp, hid⟩
  rw [FileTree.settled, hpending, List.filter_append, List.filter_cons_of_neg (by simp),
    ← List.filter_append, List.filter_eq_self.mpr hkept]

theorem Begins.mem_pending (h : Begins tree id change next) : (id, change) ∈ next.pending := by
  simp [h.pending_eq]

theorem Begins.pending_settled (h : Begins tree id change next) (hsound : tree.Sound)
    (entries : Keyed TreeEntry) : (next.settled id entries).pending = tree.pending := by
  rw [(h.sound hsound).pending_settled h.pending_eq, List.append_nil]

/-- A change that is rolled back at once leaves the entries and the open changes from
before it began. -/
theorem Begins.rollback (h : Begins tree id change next) (hsound : tree.Sound) :
    next.rollback id = .ok (change.kind, { tree with lastMutation := id }) := by
  have hpending := h.pending_settled hsound tree.entries
  rw [(h.sound hsound).rollback_eq h.mem_pending, h.tracks.restored, ← hpending,
    ← h.lastMutation_eq]
  rfl

end Workbench.FileTree
