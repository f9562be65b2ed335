import Workbench.Proofs.Tree.InPlace

/-! # Changes that are rolled back

A change is proposed to the tree, and refused or opened. The one opened last can be rolled
back, and then the entries and the open changes are those from before it began, whatever
they were and whichever keys it has touched. So a stack of changes is undone from its top
down to the tree that it was put on. -/

namespace Workbench.FileTree

open Workbench.InPlace

variable {tree middle next : FileTree} {id : MutationId} {ids : List MutationId}
  {change : PendingMutation} {entries : Keyed TreeEntry}

theorem begins_of_propose {proposal : Proposal} (h : tree.propose proposal = .ok (id, next)) :
    ∃ change, Begins tree id change next := by
  cases proposal with
  | create path kind => exact begins_of_beginCreate h
  | rename source target => exact begins_of_beginRename h
  | delete path => exact begins_of_beginDelete h
  | upload path size =>
      obtain ⟨rfl, rfl⟩ := Prod.mk.inj (Except.ok.inj h)
      exact ⟨_, begins_beginUpload tree path size⟩

/-! ## The kind of an open change -/

@[simp] theorem kind_touch (entries : Keyed TreeEntry) (key : String) (change : PendingMutation) :
    (touch entries key change).kind = change.kind := by
  unfold touch
  split <;> rfl

theorem kind_foldl_moveEntry (source target : String) (keys : List String)
    (step : Keyed TreeEntry × PendingMutation) :
    (keys.foldl (moveEntry source target) step).2.kind = step.2.kind := by
  induction keys generalizing step with
  | nil => rfl
  | cons key rest ih =>
      rw [List.foldl_cons, ih, moveEntry]
      split
      next => rfl
      next =>
        dsimp only
        split <;> simp [holds]

theorem kind_foldl_dropEntry (keys : List String) (step : Keyed TreeEntry × PendingMutation) :
    (keys.foldl dropEntry step).2.kind = step.2.kind := by
  induction keys generalizing step with
  | nil => rfl
  | cons key rest ih => rw [List.foldl_cons, ih, dropEntry, kind_touch]

/-- The change that began is the one that was opened. -/
theorem Begins.change_eq {opened : PendingMutation}
    (h : Begins tree id change (tree.begin entries opened).2) : change = opened :=
  (congrArg Prod.snd (List.singleton_inj.mp (List.append_cancel_left h.pending_eq))).symm

theorem kind_of_propose {proposal : Proposal} (h : tree.propose proposal = .ok (id, next))
    (hbegins : Begins tree id change next) : change.kind = proposal.kind := by
  cases proposal with
  | create path kind =>
      rw [propose, beginCreate] at h
      split at h
      next => cases h
      next =>
        obtain ⟨-, rfl⟩ := Prod.mk.inj (Except.ok.inj h)
        rw [hbegins.change_eq]
        exact kind_touch _ _ _
  | rename source target =>
      rw [propose, beginRename] at h
      split at h
      next => cases h
      next =>
        split at h
        next => cases h
        next =>
          obtain ⟨-, rfl⟩ := Prod.mk.inj (Except.ok.inj h)
          rw [hbegins.change_eq]
          exact kind_foldl_moveEntry _ _ _ _
  | delete path =>
      rw [propose, beginDelete] at h
      split at h
      next => cases h
      next =>
        obtain ⟨-, rfl⟩ := Prod.mk.inj (Except.ok.inj h)
        rw [hbegins.change_eq]
        exact kind_foldl_dropEntry _ _
  | upload path size =>
      obtain ⟨-, rfl⟩ := Prod.mk.inj (Except.ok.inj h)
      rw [hbegins.change_eq]
      exact kind_touch _ _ _

/-! ## Stacks of changes -/

/-- Changes were opened one on top of another. Their numbers are listed from the top. -/
inductive Stacked (tree : FileTree) : List MutationId → FileTree → Prop
  | bottom : Stacked tree [] tree
  | push {ids : List MutationId} {middle next : FileTree} {proposal : Proposal}
      {id : MutationId} (below : Stacked tree ids middle)
      (hopened : middle.propose proposal = .ok (id, next)) : Stacked tree (id :: ids) next

theorem Stacked.sound (h : Stacked tree ids next) (hsound : tree.Sound) : next.Sound := by
  induction h with
  | bottom => exact hsound
  | push _ hopened ih =>
      obtain ⟨change, hbegins⟩ := begins_of_propose hopened
      exact hbegins.sound ih

/-- Rolls changes back one after another. -/
def rollbackAll (tree : FileTree) : List MutationId → Except TreeError FileTree
  | [] => .ok tree
  | id :: rest =>
      match tree.rollback id with
      | .error error => .error error
      | .ok (_, tree) => tree.rollbackAll rest

/-- To roll back takes no notice of the number given out last. -/
theorem rollback_withLast (tree : FileTree) (last : MutationId) (id : MutationId) :
    rollback { tree with lastMutation := last } id =
      (tree.rollback id).map fun undone => (undone.1, { undone.2 with lastMutation := last }) := by
  unfold rollback settle
  dsimp only
  cases tree.pending.find? fun p => p.1 == id <;> rfl

theorem rollbackAll_withLast (tree : FileTree) (last : MutationId) (ids : List MutationId) :
    rollbackAll { tree with lastMutation := last } ids =
      (tree.rollbackAll ids).map fun undone => { undone with lastMutation := last } := by
  induction ids generalizing tree with
  | nil => rfl
  | cons id rest ih =>
      rw [rollbackAll, rollbackAll, rollback_withLast]
      cases tree.rollback id with
      | error error => rfl
      | ok undone => exact ih undone.2

/-- A stack of changes is undone from its top. -/
theorem Stacked.rollbackAll (h : Stacked tree ids next) (hsound : tree.Sound) :
    next.rollbackAll ids = .ok { tree with lastMutation := next.lastMutation } := by
  induction h with
  | bottom => rfl
  | @push ids middle next proposal id below hopened ih =>
      obtain ⟨change, hbegins⟩ := begins_of_propose hopened
      rw [FileTree.rollbackAll, hbegins.rollback (below.sound hsound)]
      dsimp only
      rw [rollbackAll_withLast, ih, hbegins.lastMutation_eq]
      rfl

/-- Whatever was done to the tree before: a change that is begun in place is one that is
proposed as a whole. Once it is open it can be rolled back, which tells its kind and gives the
entries and the open changes from before it. So can a stack of changes, from its top down. And
a change that is refused leaves the tree as it is, although whatever it had done by then would
stay done. -/
theorem rollback_restores (history : List Deed) :
    (∀ proposal id next,
        on (InPlace.begin proposal) (empty.after history) = (.ok id, next) →
        (empty.after history).propose proposal = .ok (id, next) ∧
          next.rollback id =
            .ok (proposal.kind, { empty.after history with lastMutation := id })) ∧
      (∀ ids next, Stacked (empty.after history) ids next →
        next.rollbackAll ids =
          .ok { empty.after history with lastMutation := next.lastMutation }) ∧
      ∀ proposal error next,
        on (InPlace.begin proposal) (empty.after history) = (.error error, next) →
        next = empty.after history ∧
          (empty.after history).propose proposal = .error error ∧
            (empty.after history).perform proposal.deed = empty.after history := by
  have hsound : (empty.after history).Sound := sound_after history
  refine ⟨?_, ?_, ?_⟩
  · intro proposal id next hbegun
    rw [InPlace.on_begin, answered_eq_ok] at hbegun
    obtain ⟨change, hbegins⟩ := begins_of_propose hbegun
    refine ⟨hbegun, ?_⟩
    rw [hbegins.rollback hsound, kind_of_propose hbegun hbegins]
  · exact fun ids next hstacked => hstacked.rollbackAll hsound
  · intro proposal error next hbegun
    rw [InPlace.on_begin, answered_eq_error] at hbegun
    obtain ⟨hrefused, hsame⟩ := hbegun
    refine ⟨hsame, hrefused, ?_⟩
    rw [perform_deed, hrefused]
    rfl

/-- Two folders are listed with a file of one name in each, and the file in the first is
being uploaded anew. -/
def uploadUnderWay : List Deed :=
  [.load [⟨"/a", .folder, 0, none⟩, ⟨"/a/c", .file, 3, none⟩, ⟨"/b/c", .file, 5, some 1⟩],
   .upload "/a/c" 7]

/-- The first folder goes to the unlisted place of the second, over the file there, and
from there below itself. -/
theorem rollback_restores_overwritten :
    let tree := empty.after uploadUnderWay
    let renamed := tree.perform (.rename "/a" "/b")
    let nested := renamed.perform (.rename "/b" "/b/d")
    on (InPlace.begin (.rename "/a" "/b")) tree = (.ok 2, renamed) ∧
      tree.propose (.rename "/a" "/b") = .ok (2, renamed) ∧
      renamed.rollback 2 = .ok (.rename "/a" "/b", { tree with lastMutation := 2 }) ∧
      Stacked tree [3, 2] nested ∧
      nested.rollbackAll [3, 2] = .ok { tree with lastMutation := nested.lastMutation } ∧
      on (InPlace.begin (.create "/a" .file)) tree = (.error (.alreadyExists "/a"), tree) ∧
      tree.propose (.create "/a" .file) = .error (.alreadyExists "/a") ∧
      tree.perform (.create "/a" .file) = tree := by
  intro tree renamed nested
  obtain ⟨hsingle, hstack, hrefusal⟩ := rollback_restores uploadUnderWay
  have hrenamed : on (InPlace.begin (.rename "/a" "/b")) tree = (.ok 2, renamed) := by
    decide +kernel
  have hnested : renamed.propose (.rename "/b" "/b/d") = .ok (3, nested) := by decide +kernel
  have hrefused : on (InPlace.begin (.create "/a" .file)) tree =
      (.error (.alreadyExists "/a"), tree) := by decide +kernel
  obtain ⟨hproposed, hundone⟩ := hsingle _ _ _ hrenamed
  have hstacked : Stacked tree [3, 2] nested := (Stacked.bottom.push hproposed).push hnested
  exact ⟨hrenamed, hproposed, hundone, hstacked, hstack _ _ hstacked, hrefused,
    (hrefusal _ _ _ hrefused).2⟩

end Workbench.FileTree
