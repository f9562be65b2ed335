import Mathlib.Data.List.Basic
import Mathlib.Data.List.Nodup
import Workbench.Tree.Basic

/-! # Open changes of the tree

A change notes the value of a key before it changes it for the first time, and the keys
at which it leaves provisional entries. So what it notes are the values from before it
began, it has left alone every key it has not noted, and to roll it back at once gives
the entries and open changes from before. -/

namespace Workbench

namespace PendingMutation

/-- The former value that a change has noted for a key. -/
def noted? (change : PendingMutation) (key : String) : Option (Option TreeEntry) :=
  (change.snapshot.find? fun noted => noted.1 == key).map (·.2)

/-- The change has noted a former value of the key. -/
def Touches (change : PendingMutation) (key : String) : Prop := (change.noted? key).isSome = true

instance (change : PendingMutation) (key : String) : Decidable (change.Touches key) :=
  inferInstanceAs (Decidable (_ = true))

theorem touches_iff {change : PendingMutation} {key : String} :
    change.Touches key ↔ ∃ value, change.noted? key = some value :=
  Option.isSome_iff_exists

theorem not_touches_iff {change : PendingMutation} {key : String} :
    ¬ change.Touches key ↔ change.noted? key = none := by
  rw [Touches, Bool.not_eq_true, Option.isSome_eq_false_iff, Option.isNone_iff_eq_none]

end PendingMutation

namespace FileTree

variable {entries former : Keyed TreeEntry} {change : PendingMutation} {key other : String}

/-! ## What a change notes -/

theorem any_snapshot_iff {change : PendingMutation} {key : String} :
    (change.snapshot.any fun noted => noted.1 == key) = true ↔ change.Touches key := by
  rw [PendingMutation.Touches, PendingMutation.noted?, Option.isSome_map, List.find?_isSome,
    List.any_eq_true]

theorem touch_congr (change : PendingMutation) (h : entries.get? key = former.get? key) :
    touch entries key change = touch former key change := by
  rw [touch, touch, h]

/-- A key is noted only once. -/
theorem touch_of_touches (entries : Keyed TreeEntry) (h : change.Touches key) :
    touch entries key change = change := by
  rw [touch, if_pos (any_snapshot_iff.mpr h)]

theorem noted?_touch (entries : Keyed TreeEntry) (key other : String) (change : PendingMutation) :
    (touch entries key change).noted? other =
      (change.noted? other).or (if key = other then some (entries.get? key) else none) := by
  by_cases htouched : change.Touches key
  · -- The key is noted already, so nothing is added for it.
    rw [touch_of_touches entries htouched]
    by_cases heq : key = other
    · obtain ⟨value, hvalue⟩ := PendingMutation.touches_iff.mp htouched
      rw [← heq, hvalue, Option.some_or]
    · rw [if_neg heq, Option.or_none]
  · rw [touch, if_neg (mt any_snapshot_iff.mp htouched), PendingMutation.noted?,
      List.find?_append, Option.map_or, ← PendingMutation.noted?]
    by_cases heq : key = other
    · simp [heq]
    · simp [heq, beq_false_of_ne heq]

@[simp] theorem noted?_holds (key other : String) (change : PendingMutation) :
    (holds key change).noted? other = change.noted? other := rfl

@[simp] theorem provisionalPaths_touch (entries : Keyed TreeEntry) (key : String)
    (change : PendingMutation) :
    (touch entries key change).provisionalPaths = change.provisionalPaths := by
  unfold touch
  split <;> rfl

theorem touches_touch :
    (touch entries key change).Touches other ↔ change.Touches other ∨ key = other := by
  rw [PendingMutation.Touches, noted?_touch, PendingMutation.Touches]
  by_cases heq : key = other <;> simp [heq]

/-! ## What a change does to the entries -/

/-- A change that led from the former entries to those now: what it notes is from before
it began, and provisional entries at keys it has touched are its own. -/
structure Tracks (former entries : Keyed TreeEntry) (change : PendingMutation) : Prop where
  noted : ∀ key value, change.noted? key = some value → value = former.get? key
  kept : ∀ key, ¬ change.Touches key → entries.get? key = former.get? key
  held : ∀ key ∈ change.provisionalPaths, change.Touches key
  shown : ∀ key, change.Touches key → ∀ entry, entries.get? key = some entry →
    key ∈ change.provisionalPaths

theorem tracks_untouched (entries : Keyed TreeEntry) (kind : MutationKind) :
    Tracks entries entries (untouched kind) where
  noted _ _ h := by cases h
  kept _ _ := rfl
  held _ h := absurd h List.not_mem_nil
  shown _ h := by cases h

namespace Tracks

/-- To note a key once more changes nothing, and a key not yet noted still has its
former value. -/
theorem noted_touch (h : Tracks former entries change) (key : String) :
    ∀ other value, (touch entries key change).noted? other = some value →
      value = former.get? other := by
  intro other value hvalue
  rw [noted?_touch] at hvalue
  rcases Option.or_eq_some_iff.mp hvalue with hbefore | ⟨hnone, hnow⟩
  · exact h.noted other value hbefore
  · split at hnow
    next heq =>
      subst heq
      rw [← Option.some.inj hnow]
      exact h.kept key (PendingMutation.not_touches_iff.mpr hnone)
    next => cases hnow

theorem drop (h : Tracks former entries change) (key : String) :
    Tracks former (entries.erase key) (touch entries key change) where
  noted := h.noted_touch key
  kept other hother := by
    obtain ⟨huntouched, hne⟩ := not_or.mp (mt touches_touch.mpr hother)
    rw [Keyed.get?_erase_ne _ hne, h.kept other huntouched]
  held other hother := by
    rw [provisionalPaths_touch] at hother
    exact touches_touch.mpr (.inl (h.held other hother))
  shown other hother entry hentry := by
    rw [provisionalPaths_touch]
    by_cases heq : key = other
    · rw [heq, Keyed.get?_erase_self] at hentry
      cases hentry
    · rw [Keyed.get?_erase_ne _ heq] at hentry
      exact h.shown other ((touches_touch.mp hother).resolve_right heq) entry hentry

theorem place (h : Tracks former entries change) (key : String) (entry : TreeEntry) :
    Tracks former (entries.insert key entry) (holds key (touch entries key change)) where
  noted := h.noted_touch key
  kept other hother := by
    obtain ⟨huntouched, hne⟩ := not_or.mp (mt touches_touch.mpr hother)
    rw [Keyed.get?_insert_ne _ hne, h.kept other huntouched]
  held other hother := by
    simp only [holds, provisionalPaths_touch, List.mem_append, List.mem_singleton] at hother
    exact touches_touch.mpr (hother.imp (h.held other) Eq.symm)
  shown other hother found hfound := by
    simp only [holds, provisionalPaths_touch, List.mem_append, List.mem_singleton]
    by_cases heq : key = other
    · exact .inr heq.symm
    · rw [Keyed.get?_insert_ne _ heq] at hfound
      exact .inl (h.shown other ((touches_touch.mp hother).resolve_right heq) found hfound)

end Tracks

/-- To move an entry is to drop it and to place it again. -/
theorem moveEntry_eq {source target key newKey : String} {entry : TreeEntry}
    (hplace : Path.rebase? key source target = some newKey)
    (hentry : entries.get? key = some entry) :
    moveEntry source target (entries, change) key =
      ((entries.erase key).insert newKey { entry with path := newKey, provisional := true },
        holds newKey (touch (entries.erase key) newKey (touch entries key change))) := by
  -- The new key is noted before the entry is dropped, which makes no difference.
  have hnotes : touch entries newKey (touch entries key change) =
      touch (entries.erase key) newKey (touch entries key change) := by
    by_cases heq : key = newKey
    · have htouched : (touch entries key change).Touches newKey := touches_touch.mpr (.inr heq)
      rw [touch_of_touches _ htouched, touch_of_touches _ htouched]
    · exact touch_congr _ (Keyed.get?_erase_ne _ heq).symm
  rw [← hnotes, moveEntry, hplace]
  simp only [hentry]

/-- While entries are moved one by one, those that are still to be moved are there. -/
theorem tracks_foldl_moveEntry (source target : String) {keys : List String}
    (h : Tracks former entries change) (hnodup : keys.Nodup)
    (hthere : ∀ key ∈ keys, entries.contains key = true) :
    Tracks former (keys.foldl (moveEntry source target) (entries, change)).1
      (keys.foldl (moveEntry source target) (entries, change)).2 := by
  induction keys generalizing entries change with
  | nil => exact h
  | cons key rest ih =>
      obtain ⟨hkey, hrest⟩ := List.nodup_cons.mp hnodup
      obtain ⟨hthere_key, hthere_rest⟩ := List.forall_mem_cons.mp hthere
      rw [List.foldl_cons]
      cases hplace : Path.rebase? key source target with
      | none =>
          have hskip : moveEntry source target (entries, change) key = (entries, change) := by
            rw [moveEntry, hplace]
          rw [hskip]
          exact ih h hrest hthere_rest
      | some newKey =>
          obtain ⟨entry, hentry⟩ := entries.contains_iff.mp hthere_key
          rw [moveEntry_eq hplace hentry]
          refine ih ((h.drop key).place newKey _) hrest ?_
          intro other hother
          have hne : other ≠ key := fun heq => hkey (heq ▸ hother)
          exact (Keyed.contains_insert _ _).mpr
            (.inr (entries.contains_erase.mpr ⟨hthere_rest other hother, hne⟩))

theorem tracks_foldl_dropEntry {keys : List String} (h : Tracks former entries change) :
    Tracks former (keys.foldl dropEntry (entries, change)).1
      (keys.foldl dropEntry (entries, change)).2 := by
  induction keys generalizing entries change with
  | nil => exact h
  | cons key rest ih => exact ih (h.drop key)

/-! ## Changes that begin -/

variable {tree after : FileTree} {id : MutationId}

/-- A change with the next number began: it was opened behind those that were open, and
tracks what it did to the entries. -/
structure Begins (tree : FileTree) (id : MutationId) (change : PendingMutation)
    (after : FileTree) : Prop where
  id_eq : id = tree.lastMutation + 1
  lastMutation_eq : after.lastMutation = id
  pending_eq : after.pending = tree.pending ++ [(id, change)]
  tracks : Tracks tree.entries after.entries change

theorem begins_begin (h : Tracks tree.entries entries change) :
    Begins tree (tree.begin entries change).1 change (tree.begin entries change).2 :=
  ⟨rfl, rfl, rfl, h⟩

theorem begins_place (tree : FileTree) (kind : MutationKind) (entry : TreeEntry) :
    Begins tree (tree.place kind entry).1
      (holds entry.path (touch tree.entries entry.path (untouched kind)))
      (tree.place kind entry).2 :=
  begins_begin ((tracks_untouched tree.entries kind).place entry.path entry)

theorem begins_of_beginCreate {path : String} {kind : EntryKind}
    (h : tree.beginCreate path kind = .ok (id, after)) : ∃ change, Begins tree id change after := by
  unfold beginCreate at h
  split at h
  next => cases h
  next =>
    obtain ⟨rfl, rfl⟩ := Prod.mk.inj (Except.ok.inj h)
    exact ⟨_, begins_place tree _ _⟩

theorem begins_beginUpload (tree : FileTree) (path : String) (size : Nat) :
    Begins tree (tree.beginUpload path size).1
      (holds path (touch tree.entries path (untouched (.upload path))))
      (tree.beginUpload path size).2 :=
  begins_place tree _ _

theorem contains_of_mem_keysUnder {root : String} (h : key ∈ keysUnder entries root) :
    entries.contains key = true :=
  entries.mem_keys_iff.mp (List.mem_filter.mp h).1

theorem begins_of_beginRename {source target : String}
    (h : tree.beginRename source target = .ok (id, after)) :
    ∃ change, Begins tree id change after := by
  unfold beginRename at h
  split at h
  next => cases h
  next =>
    split at h
    next => cases h
    next =>
      obtain ⟨rfl, rfl⟩ := Prod.mk.inj (Except.ok.inj h)
      refine ⟨_, begins_begin (tracks_foldl_moveEntry source target (tracks_untouched _ _) ?_ ?_)⟩
      · exact tree.entries.nodup_keys.filter _
      · exact fun key hkey => contains_of_mem_keysUnder hkey

theorem begins_of_beginDelete {path : String} (h : tree.beginDelete path = .ok (id, after)) :
    ∃ change, Begins tree id change after := by
  unfold beginDelete at h
  split at h
  next => cases h
  next =>
    obtain ⟨rfl, rfl⟩ := Prod.mk.inj (Except.ok.inj h)
    exact ⟨_, begins_begin (tracks_foldl_dropEntry (tracks_untouched _ _))⟩

/-! ## Changes that are settled -/

theorem get?_restoreEntry (noted : String × Option TreeEntry) (entries : Keyed TreeEntry)
    (key : String) :
    (restoreEntry noted entries).get? key =
      if noted.1 = key then noted.2 else entries.get? key := by
  unfold restoreEntry
  split
  next heq => rw [Keyed.get?_insert, heq]
  next heq =>
    split
    next hkey => rw [← hkey, Keyed.get?_erase_self, heq]
    next hne => exact Keyed.get?_erase_ne _ hne

/-- After a roll-back every key has the value noted for it, or else the one it had. -/
theorem get?_restored (change : PendingMutation) (entries : Keyed TreeEntry) (key : String) :
    (change.snapshot.foldr restoreEntry entries).get? key =
      (change.noted? key).getD (entries.get? key) := by
  unfold PendingMutation.noted?
  induction change.snapshot with
  | nil => rfl
  | cons noted rest ih =>
      rw [List.foldr_cons, get?_restoreEntry, List.find?_cons, ih]
      by_cases heq : noted.1 = key
      · simp [heq]
      · simp [heq, beq_false_of_ne heq]

/-- The notes of a change give back the entries from before it began. -/
theorem Tracks.restored (h : Tracks former entries change) :
    change.snapshot.foldr restoreEntry entries = former := by
  apply Keyed.ext_get?
  intro key
  rw [get?_restored]
  cases hnoted : change.noted? key with
  | some value => exact h.noted key value hnoted
  | none => exact h.kept key (PendingMutation.not_touches_iff.mpr hnoted)

/-- A provisional entry as it is once its change is confirmed. -/
def settledEntry (reported : List DirEntry) (key : String) (entry : TreeEntry) : TreeEntry :=
  match reported.find? fun line => line.path == key with
  | some line =>
      { entry with
        provisional := false, kind := line.kind, size := line.size, modified := line.modified }
  | none => { entry with provisional := false }

theorem provisional_settledEntry (reported : List DirEntry) (key : String) (entry : TreeEntry) :
    (settledEntry reported key entry).provisional = false := by
  unfold settledEntry
  split <;> rfl

theorem get?_confirmEntry (reported : List DirEntry) (entries : Keyed TreeEntry)
    (key other : String) :
    (confirmEntry reported entries key).get? other =
      if key = other then (entries.get? key).map (settledEntry reported key)
      else entries.get? other := by
  change (entries.modify key (settledEntry reported key)).get? other = _
  unfold Keyed.modify
  cases hentry : entries.get? key with
  | some entry => exact Keyed.get?_insert _ _ _ _
  | none =>
      dsimp only
      by_cases heq : key = other
      · rw [if_pos heq, ← heq, hentry, Option.map_none]
      · rw [if_neg heq]

/-- To confirm an entry twice is to confirm it once. -/
theorem settledEntry_settledEntry (reported : List DirEntry) (key : String) (entry : TreeEntry) :
    settledEntry reported key (settledEntry reported key entry) =
      settledEntry reported key entry := by
  unfold settledEntry
  cases reported.find? fun line => line.path == key <;> rfl

/-- After a confirmation the entries at the given keys are settled, and all others are as
they were. -/
theorem get?_confirmed (reported : List DirEntry) (keys : List String)
    (entries : Keyed TreeEntry) (key : String) :
    (keys.foldl (confirmEntry reported) entries).get? key =
      if key ∈ keys then (entries.get? key).map (settledEntry reported key)
      else entries.get? key := by
  induction keys generalizing entries with
  | nil => rfl
  | cons first rest ih =>
      rw [List.foldl_cons, ih, get?_confirmEntry]
      by_cases heq : first = key
      · subst heq
        have htwice : settledEntry reported first ∘ settledEntry reported first =
            settledEntry reported first :=
          funext (settledEntry_settledEntry reported first)
        simp [htwice]
      · simp [heq, Ne.symm heq]

end FileTree

end Workbench
