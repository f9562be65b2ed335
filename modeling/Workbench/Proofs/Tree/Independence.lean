import Mathlib.Data.List.Pairwise
import Workbench.Proofs.Tree.Rollback

/-! # Independent changes

Open changes that touch different keys take no notice of each other: to confirm or to roll
back one of them concerns the keys that it has touched and no others. So they may be
settled in any order, and what is rolled back is again as it was before all of them. -/

namespace Workbench

namespace PendingMutation

variable {first second : PendingMutation}

theorem touches_iff_mem {change : PendingMutation} {key : String} :
    change.Touches key ↔ key ∈ change.snapshot.map (·.1) := by
  rw [← FileTree.any_snapshot_iff]
  simp

/-- No key is touched by both changes. -/
def Apart (first second : PendingMutation) : Prop :=
  ∀ key, first.Touches key → ¬ second.Touches key

theorem Apart.symm (h : first.Apart second) : second.Apart first :=
  fun key hsecond hfirst => h key hfirst hsecond

theorem apart_iff : first.Apart second ↔
    ∀ key ∈ first.snapshot.map (·.1), ¬ second.Touches key :=
  forall_congr' fun _ => imp_congr touches_iff_mem Iff.rfl

instance (first second : PendingMutation) : Decidable (first.Apart second) :=
  decidable_of_iff' _ apart_iff

end PendingMutation

namespace FileTree

variable {tree next : FileTree} {id : MutationId} {ids order : List MutationId}
  {change other : PendingMutation} {key : String} {entries : Keyed TreeEntry}

/-! ## What settling a change does to the entries -/

/-- How an open change is settled. -/
inductive Verdict
  /-- It is confirmed with what the service reports. -/
  | confirm (reported : List DirEntry)
  | rollback

/-- The entries after a change was settled. -/
def concluded (verdict : Verdict) (change : PendingMutation) (entries : Keyed TreeEntry) :
    Keyed TreeEntry :=
  match verdict with
  | .confirm reported => change.provisionalPaths.foldl (confirmEntry reported) entries
  | .rollback => change.snapshot.foldr restoreEntry entries

/-- What settling a change makes of the value of a key. -/
def conclusion (verdict : Verdict) (change : PendingMutation) (key : String)
    (value : Option TreeEntry) : Option TreeEntry :=
  match verdict with
  | .confirm reported =>
      if key ∈ change.provisionalPaths then value.map (settledEntry reported key) else value
  | .rollback => (change.noted? key).getD value

/-- Each key is settled by itself. -/
theorem get?_concluded (verdict : Verdict) (change : PendingMutation)
    (entries : Keyed TreeEntry) (key : String) :
    (concluded verdict change entries).get? key =
      conclusion verdict change key (entries.get? key) := by
  cases verdict with
  | confirm reported => exact get?_confirmed reported _ entries key
  | rollback => exact get?_restored change entries key

/-- The change has touched the keys of its provisional entries. -/
def HeldTouched (change : PendingMutation) : Prop :=
  ∀ key ∈ change.provisionalPaths, change.Touches key

theorem conclusion_of_not_touches (hheld : HeldTouched change) (h : ¬ change.Touches key)
    (verdict : Verdict) (value : Option TreeEntry) :
    conclusion verdict change key value = value := by
  cases verdict with
  | confirm reported => exact if_neg (mt (hheld key) h)
  | rollback =>
      rw [conclusion, PendingMutation.not_touches_iff.mp h]
      rfl

/-- Two changes that touch different keys may be settled in either order. -/
theorem concluded_comm (hapart : change.Apart other) (hchange : HeldTouched change)
    (hother : HeldTouched other) (verdict verdict' : Verdict) (entries : Keyed TreeEntry) :
    concluded verdict' other (concluded verdict change entries) =
      concluded verdict change (concluded verdict' other entries) := by
  apply Keyed.ext_get?
  intro key
  rw [get?_concluded, get?_concluded, get?_concluded, get?_concluded]
  by_cases htouches : change.Touches key
  · rw [conclusion_of_not_touches hother (hapart key htouches),
      conclusion_of_not_touches hother (hapart key htouches)]
  · rw [conclusion_of_not_touches hchange htouches, conclusion_of_not_touches hchange htouches]

/-! ## Settling all open changes -/

/-- Settles an open change. -/
def settleAs (tree : FileTree) (id : MutationId) : Verdict → Except TreeError FileTree
  | .confirm reported => tree.confirm id reported
  | .rollback => (tree.rollback id).map (·.2)

/-- Settles open changes one after another, each by its verdict. -/
def settleAll (verdict : MutationId → Verdict) (tree : FileTree) :
    List MutationId → Except TreeError FileTree
  | [] => .ok tree
  | id :: rest =>
      match tree.settleAs id (verdict id) with
      | .error error => .error error
      | .ok tree => settleAll verdict tree rest

/-- The entries after some changes were settled one after another. -/
def concludedAll (verdict : MutationId → Verdict) (changes : List (MutationId × PendingMutation))
    (entries : Keyed TreeEntry) : Keyed TreeEntry :=
  changes.foldl (fun entries p => concluded (verdict p.1) p.2 entries) entries

theorem Sound.settleAs (h : tree.Sound) (hopen : (id, change) ∈ tree.pending)
    (verdict : Verdict) :
    tree.settleAs id verdict = .ok (tree.settled id (concluded verdict change tree.entries)) := by
  cases verdict with
  | confirm reported => exact h.confirm_eq hopen reported
  | rollback =>
      rw [FileTree.settleAs, h.rollback_eq hopen]
      rfl

/-- All open changes can be settled, in any order. -/
theorem Sound.settleAll (h : tree.Sound) (verdict : MutationId → Verdict)
    (horder : order.Perm (tree.pending.map (·.1))) :
    ∃ changes, changes.Perm tree.pending ∧
      tree.settleAll verdict order =
        .ok { entries := concludedAll verdict changes tree.entries
              pending := []
              lastMutation := tree.lastMutation } := by
  induction order generalizing tree with
  | nil =>
      have hnone : tree.pending = [] := List.map_eq_nil_iff.mp horder.nil_eq.symm
      refine ⟨[], by rw [hnone], ?_⟩
      rw [FileTree.settleAll, concludedAll, List.foldl_nil, ← hnone]
  | cons id rest ih =>
      obtain ⟨⟨found, change⟩, hopen, rfl⟩ := List.mem_map.mp (horder.subset List.mem_cons_self)
      obtain ⟨earlier, later, hpending⟩ := List.append_of_mem hopen
      let after := tree.settled found (concluded (verdict found) change tree.entries)
      have hafter : after.pending = earlier ++ later := h.pending_settled hpending _
      have hrest : rest.Perm (after.pending.map (·.1)) := by
        rw [hpending, List.map_append, List.map_cons] at horder
        rw [hafter, List.map_append]
        exact (horder.trans List.perm_middle).cons_inv
      obtain ⟨changes, hchanges, hsettled⟩ := ih (h.settled _ _) hrest
      refine ⟨(found, change) :: changes, ?_, ?_⟩
      · rw [hpending]
        exact ((hafter ▸ hchanges).cons _).trans List.perm_middle.symm
      · rw [FileTree.settleAll, h.settleAs hopen]
        exact hsettled

/-! ## Independent changes -/

/-- No two of the changes touch a key in common. -/
def Independent (changes : List (MutationId × PendingMutation)) : Prop :=
  changes.Pairwise fun p q => p.2.Apart q.2

instance (changes : List (MutationId × PendingMutation)) : Decidable (Independent changes) :=
  inferInstanceAs (Decidable (List.Pairwise _ _))

instance : Std.Symm fun p q : MutationId × PendingMutation => p.2.Apart q.2 where
  symm _ _ h := h.symm

variable {changes changes' : List (MutationId × PendingMutation)}
  {verdict : MutationId → Verdict}

theorem concludedAll_perm (hapart : Independent changes)
    (hheld : ∀ p ∈ changes, HeldTouched p.2) (hperm : changes.Perm changes')
    (entries : Keyed TreeEntry) :
    concludedAll verdict changes entries = concludedAll verdict changes' entries := by
  refine hperm.foldl_eq' ?_ entries
  intro p hp q hq entries
  by_cases heq : p = q
  · rw [heq]
  · exact concluded_comm (hapart.forall hp hq heq) (hheld p hp) (hheld q hq) _ _ entries

theorem get?_concludedAll_of_none (hheld : ∀ p ∈ changes, HeldTouched p.2)
    (hnone : ∀ p ∈ changes, ¬ p.2.Touches key) (entries : Keyed TreeEntry) :
    (concludedAll verdict changes entries).get? key = entries.get? key := by
  unfold concludedAll
  induction changes generalizing entries with
  | nil => rfl
  | cons p rest ih =>
      obtain ⟨hp, hrest⟩ := List.forall_mem_cons.mp hheld
      obtain ⟨hfirst, hothers⟩ := List.forall_mem_cons.mp hnone
      rw [List.foldl_cons, ih hrest hothers, get?_concluded, conclusion_of_not_touches hp hfirst]

/-- What becomes of a key is up to the one change that has touched it. -/
theorem get?_concludedAll (hapart : Independent changes)
    (hheld : ∀ p ∈ changes, HeldTouched p.2) {p : MutationId × PendingMutation}
    (hp : p ∈ changes) (htouches : p.2.Touches key) (entries : Keyed TreeEntry) :
    (concludedAll verdict changes entries).get? key =
      conclusion (verdict p.1) p.2 key (entries.get? key) := by
  obtain ⟨earlier, later, rfl⟩ := List.append_of_mem hp
  -- Settled first, the change finds the key as it was, and no other one changes it again.
  have hfirst : Independent (p :: (earlier ++ later)) :=
    (List.perm_middle.pairwise_iff PendingMutation.Apart.symm).mp hapart
  have hnone : ∀ q ∈ earlier ++ later, ¬ q.2.Touches key := fun q hq =>
    (List.pairwise_cons.mp hfirst).1 q hq key htouches
  have hrest : ∀ q ∈ earlier ++ later, HeldTouched q.2 := fun q hq =>
    hheld q (List.perm_middle.mem_iff.mpr (List.mem_cons_of_mem _ hq))
  rw [concludedAll_perm hapart hheld List.perm_middle, concludedAll, List.foldl_cons]
  exact (get?_concludedAll_of_none hrest hnone _).trans (get?_concluded _ _ _ _)

/-! ## Stacks of independent changes -/

theorem Stacked.map_pending (h : Stacked tree ids next) :
    next.pending.map (·.1) = tree.pending.map (·.1) ++ ids.reverse := by
  induction h with
  | bottom => simp
  | push _ hopened ih =>
      obtain ⟨change, hbegins⟩ := begins_of_propose hopened
      rw [hbegins.pending_eq, List.map_append, ih, List.reverse_cons, List.append_assoc]
      rfl

/-- Independent changes have noted the values from before all of them, and no other keys
have changed. -/
structure NotesFormer (tree next : FileTree) : Prop where
  noted : ∀ p ∈ next.pending, ∀ key value, p.2.noted? key = some value →
    value = tree.entries.get? key
  kept : ∀ key, (∀ p ∈ next.pending, ¬ p.2.Touches key) →
    next.entries.get? key = tree.entries.get? key

theorem Stacked.notesFormer (h : Stacked tree ids next) (hsettled : tree.pending = [])
    (hapart : Independent next.pending) : NotesFormer tree next := by
  induction h with
  | bottom =>
      constructor
      · simp [hsettled]
      · exact fun _ _ => rfl
  | @push ids middle next proposal id below hopened ih =>
      obtain ⟨change, hbegins⟩ := begins_of_propose hopened
      have hpending := hbegins.pending_eq
      rw [hpending] at hapart
      obtain ⟨hbelow, -, htop⟩ := List.pairwise_append.mp hapart
      have hformer := ih hbelow
      constructor
      case noted =>
        intro p hp key value hvalue
        rcases List.mem_append.mp (hpending ▸ hp) with hbefore | hlatest
        · exact hformer.noted p hbefore key value hvalue
        · -- No earlier change has touched the key, so it was still as at the beginning.
          obtain rfl := List.mem_singleton.mp hlatest
          rw [hbegins.tracks.noted key value hvalue]
          refine hformer.kept key fun q hq htouches => ?_
          exact htop q hq _ hlatest key htouches (PendingMutation.touches_iff.mpr ⟨value, hvalue⟩)
      case kept =>
        intro key huntouched
        rw [hpending] at huntouched
        obtain ⟨hothers, hlatest⟩ := List.forall_mem_append.mp huntouched
        rw [hbegins.tracks.kept key (hlatest _ (List.mem_singleton_self _))]
        exact hformer.kept key hothers

/-- Changes of a tree without open ones, no two of which touch a key in common, can be
settled in any order, and the entries are then the same. Whatever a change has touched
that was rolled back is as it was before all of them; so if all are rolled back, the tree
shows what it has shown before. -/
theorem settleAll_independent (hsettled : tree.pending = []) (hstacked : Stacked tree ids next)
    (hapart : Independent next.pending) (verdict : MutationId → Verdict) :
    ∃ entries,
      (∀ order, order.Perm ids →
        next.settleAll verdict order =
          .ok { entries, pending := [], lastMutation := next.lastMutation }) ∧
      (∀ p ∈ next.pending, verdict p.1 = .rollback →
        ∀ key, p.2.Touches key → entries.get? key = tree.entries.get? key) ∧
      ((∀ id ∈ ids, verdict id = .rollback) → entries = tree.entries) := by
  have hsound : next.Sound := hstacked.sound (sound_of_settled hsettled)
  have hids : next.pending.map (·.1) = ids.reverse := by
    rw [hstacked.map_pending, hsettled]
    rfl
  have hformer := hstacked.notesFormer hsettled hapart
  have hback : ∀ p ∈ next.pending, verdict p.1 = .rollback → ∀ key, p.2.Touches key →
      (concludedAll verdict next.pending next.entries).get? key = tree.entries.get? key := by
    intro p hp hverdict key htouches
    obtain ⟨value, hvalue⟩ := PendingMutation.touches_iff.mp htouches
    rw [get?_concludedAll hapart hsound.held hp htouches, hverdict, conclusion, hvalue,
      Option.getD_some]
    exact hformer.noted p hp key value hvalue
  refine ⟨concludedAll verdict next.pending next.entries, ?_, hback, ?_⟩
  · intro order horder
    have hall : order.Perm (next.pending.map (·.1)) := by
      rw [hids]
      exact horder.trans (List.reverse_perm ids).symm
    obtain ⟨changes, hchanges, hanswer⟩ := hsound.settleAll verdict hall
    rw [hanswer, concludedAll_perm hapart hsound.held hchanges.symm]
  · intro hall
    apply Keyed.ext_get?
    intro key
    by_cases htouched : ∃ p ∈ next.pending, p.2.Touches key
    · obtain ⟨p, hp, htouches⟩ := htouched
      have hid : p.1 ∈ ids := List.mem_reverse.mp (hids ▸ List.mem_map_of_mem hp)
      exact hback p hp (hall p.1 hid) key htouches
    · push Not at htouched
      rw [get?_concludedAll_of_none hsound.held htouched, hformer.kept key htouched]

/-- A folder with a file in it, and two more files. -/
def quietTree : FileTree :=
  ofListing [⟨"/a", .folder, 0, none⟩, ⟨"/a/c", .file, 3, some 1⟩, ⟨"/d", .file, 5, some 2⟩,
    ⟨"/plan", .file, 7, some 3⟩]

/-- The rename and the removal are rolled back, and what else was begun is confirmed. -/
def mixedVerdicts (id : MutationId) : Verdict :=
  if id = 2 ∨ id = 3 then .rollback else .confirm [⟨"/n", .file, 12, some 4⟩]

theorem settleAll_mixedVerdicts :
    let created := quietTree.perform (.create "/n" .file)
    let renamed := created.perform (.rename "/a" "/b")
    let deleted := renamed.perform (.delete "/d")
    let uploaded := deleted.perform (.upload "/plan" 9)
    quietTree.pending = [] ∧ Stacked quietTree [4, 3, 2, 1] uploaded ∧
      Independent uploaded.pending ∧
      ∃ entries,
        uploaded.settleAll mixedVerdicts [2, 4, 1, 3] =
          .ok { entries, pending := [], lastMutation := uploaded.lastMutation } ∧
        uploaded.settleAll mixedVerdicts [1, 3, 4, 2] =
          .ok { entries, pending := [], lastMutation := uploaded.lastMutation } ∧
        entries.get? "/a/c" = quietTree.entries.get? "/a/c" := by
  intro created renamed deleted uploaded
  have hcreated : quietTree.propose (.create "/n" .file) = .ok (1, created) := by decide +kernel
  have hrenamed : created.propose (.rename "/a" "/b") = .ok (2, renamed) := by decide +kernel
  have hdeleted : renamed.propose (.delete "/d") = .ok (3, deleted) := by decide +kernel
  have huploaded : deleted.propose (.upload "/plan" 9) = .ok (4, uploaded) := by decide +kernel
  have hstacked : Stacked quietTree [4, 3, 2, 1] uploaded :=
    (((Stacked.bottom.push hcreated).push hrenamed).push hdeleted).push huploaded
  have hsettled : quietTree.pending = [] := by decide +kernel
  have hapart : Independent uploaded.pending := by decide +kernel
  obtain ⟨entries, hanswer, hback, -⟩ :=
    settleAll_independent hsettled hstacked hapart mixedVerdicts
  have hmoved : ∃ p ∈ uploaded.pending, p.1 = 2 ∧ p.2.Touches "/a/c" := by decide +kernel
  obtain ⟨p, hp, hid, htouches⟩ := hmoved
  refine ⟨hsettled, hstacked, hapart, entries, hanswer _ (by decide), hanswer _ (by decide), ?_⟩
  exact hback p hp (by rw [hid]; rfl) _ htouches

end FileTree

end Workbench
