import Mathlib.Data.List.Induction
import Workbench.Proofs.Tree.Deeds

/-! # Provisional entries

An entry is provisional because an open change holds it there. The exception is an entry
that a rollback brings back: a change that began on a provisional entry has noted it, and
gives it back even if the change that had made it provisional was settled meanwhile. Such
an entry stays, since no open change will settle it, until another change touches it. So
it is known exactly which provisional entries outlive their changes. -/

namespace Workbench

/-- The change has noted a provisional entry at the key. -/
def PendingMutation.NotesProvisional (change : PendingMutation) (key : String) : Prop :=
  ∃ entry, change.noted? key = some (some entry) ∧ entry.provisional = true

namespace FileTree

variable {tree next : FileTree} {id : MutationId} {change : PendingMutation} {key : String}
  {deed : Deed}

/-- The tree shows a provisional entry at the key. -/
def ShowsProvisional (tree : FileTree) (key : String) : Prop :=
  (tree.entries.get? key).any (·.provisional) = true

instance (tree : FileTree) (key : String) : Decidable (tree.ShowsProvisional key) :=
  inferInstanceAs (Decidable (_ = true))

theorem showsProvisional_iff :
    tree.ShowsProvisional key ↔
      ∃ entry, tree.entries.get? key = some entry ∧ entry.provisional = true :=
  Option.any_eq_true _ _

/-- An open change holds its provisional entry at the key. -/
def Holds (tree : FileTree) (key : String) : Prop :=
  ∃ p ∈ tree.pending, key ∈ p.2.provisionalPaths

/-- The entry at the key is provisional, but no open change holds it. -/
def Stray (tree : FileTree) (key : String) : Prop :=
  tree.ShowsProvisional key ∧ ¬ tree.Holds key

/-- The deed rolls back a change that has noted a provisional entry at the key, while no
other open change holds one there. -/
def Revives (tree : FileTree) (deed : Deed) (key : String) : Prop :=
  ∃ id change, deed = .rollback id ∧ (id, change) ∈ tree.pending ∧ change.NotesProvisional key ∧
    ∀ p ∈ tree.pending, p.1 ≠ id → key ∉ p.2.provisionalPaths

/-- The deed begins a change that touches the key, or rolls one back. -/
def Changes (tree : FileTree) (deed : Deed) (key : String) : Prop :=
  ∃ id change, change.Touches key ∧
    (Begins tree id change (tree.perform deed) ∨ deed = .rollback id ∧ (id, change) ∈ tree.pending)

/-! ## What a deed does to the provisional entries -/

theorem showsProvisional_load (tree : FileTree) (listing : List DirEntry) :
    (tree.load listing).ShowsProvisional key ↔ tree.ShowsProvisional key := by
  unfold load
  induction listing generalizing tree with
  | nil => exact Iff.rfl
  | cons line rest ih =>
      rw [List.foldl_cons, ih, loadEntry]
      split
      next => exact Iff.rfl
      next hfree =>
        unfold ShowsProvisional
        rw [Keyed.get?_insert]
        split
        next heq => simp [← heq, hfree, TreeEntry.ofListing]
        next => exact Iff.rfl

theorem showsProvisional_confirmed (reported : List DirEntry) (keys : List String)
    (entries : Keyed TreeEntry) (key : String) :
    ((keys.foldl (confirmEntry reported) entries).get? key).any (·.provisional) = true ↔
      (entries.get? key).any (·.provisional) = true ∧ key ∉ keys := by
  rw [get?_confirmed]
  by_cases hkey : key ∈ keys
  · simp [hkey, Option.any_map, provisional_settledEntry]
  · simp [hkey]

theorem showsProvisional_restored (tree : FileTree) (id : MutationId) (change : PendingMutation)
    (key : String) :
    (tree.settled id (change.snapshot.foldr restoreEntry tree.entries)).ShowsProvisional key ↔
      change.NotesProvisional key ∨ (¬ change.Touches key ∧ tree.ShowsProvisional key) := by
  unfold ShowsProvisional PendingMutation.NotesProvisional PendingMutation.Touches settled
  rw [get?_restored]
  cases change.noted? key with
  | none => simp
  | some value => cases value <;> simp

theorem holds_settled {entries : Keyed TreeEntry} : (tree.settled id entries).Holds key ↔
    ∃ p ∈ tree.pending, p.1 ≠ id ∧ key ∈ p.2.provisionalPaths := by
  simp only [Holds, mem_settled, and_assoc]

/-- A key is held by the change with a number or by one with another. -/
theorem Sound.holds_iff (h : tree.Sound) (hopen : (id, change) ∈ tree.pending)
    (entries : Keyed TreeEntry) :
    tree.Holds key ↔ key ∈ change.provisionalPaths ∨ (tree.settled id entries).Holds key := by
  rw [holds_settled]
  constructor
  · rintro ⟨⟨found, other⟩, hp, hkey⟩
    by_cases hid : found = id
    · subst hid
      exact .inl (h.eq_of_id_eq hopen hp ▸ hkey)
    · exact .inr ⟨_, hp, hid, hkey⟩
  · rintro (hkey | ⟨p, hp, -, hkey⟩)
    · exact ⟨_, hopen, hkey⟩
    · exact ⟨p, hp, hkey⟩

/-- A change that begins leaves exactly the stray entries that it does not touch. -/
theorem Begins.stray_iff (h : Begins tree id change next) :
    next.Stray key ↔ tree.Stray key ∧ ¬ change.Touches key := by
  have hholds : next.Holds key ↔ tree.Holds key ∨ key ∈ change.provisionalPaths := by
    simp [Holds, h.pending_eq, or_and_right, exists_or]
  rw [Stray, hholds, not_or]
  constructor
  · rintro ⟨hshown, hfree, hnew⟩
    have huntouched : ¬ change.Touches key := by
      intro htouched
      obtain ⟨entry, hentry, -⟩ := showsProvisional_iff.mp hshown
      exact hnew (h.tracks.shown key htouched entry hentry)
    rw [ShowsProvisional, h.tracks.kept key huntouched] at hshown
    exact ⟨⟨hshown, hfree⟩, huntouched⟩
  · rintro ⟨⟨hshown, hfree⟩, huntouched⟩
    refine ⟨?_, hfree, fun hkey => huntouched (h.tracks.held key hkey)⟩
    rwa [ShowsProvisional, h.tracks.kept key huntouched]

/-! ## Which entries are stray after a deed -/

theorem Begins.unique {id' : MutationId} {change' : PendingMutation}
    (h : Begins tree id change next) (h' : Begins tree id' change' next) : change' = change := by
  have hsame := List.append_cancel_left (h'.pending_eq.symm.trans h.pending_eq)
  exact congrArg Prod.snd (List.singleton_inj.mp hsame)

theorem not_begins (hle : next.pending.length ≤ tree.pending.length) :
    ¬ Begins tree id change next := by
  intro h
  rw [h.pending_eq, List.length_append, List.length_singleton] at hle
  exact Nat.not_succ_le_self _ hle

/-- A deed that neither begins nor rolls back a change leaves the stray entries as they
are, if it leaves provisional entries without a holder. -/
theorem stray_iff_of_passive
    (hdeed : ∀ id change, deed = .rollback id → (id, change) ∉ tree.pending)
    (hle : (tree.perform deed).pending.length ≤ tree.pending.length)
    (hstray : (tree.perform deed).Stray key ↔ tree.Stray key) :
    (tree.perform deed).Stray key ↔
      tree.Revives deed key ∨ (tree.Stray key ∧ ¬ tree.Changes deed key) := by
  have hrevives : ¬ tree.Revives deed key := by
    rintro ⟨id, change, rfl, hopen, -⟩
    exact hdeed id change rfl hopen
  have hchanges : ¬ tree.Changes deed key := by
    rintro ⟨id, change, -, hbegins | ⟨rfl, hopen⟩⟩
    · exact not_begins hle hbegins
    · exact hdeed id change rfl hopen
  rw [hstray, or_iff_right hrevives, and_iff_left hchanges]

theorem Sound.stray_confirmed (h : tree.Sound) (hopen : (id, change) ∈ tree.pending)
    (reported : List DirEntry) :
    (tree.settled id
        (change.provisionalPaths.foldl (confirmEntry reported) tree.entries)).Stray key ↔
      tree.Stray key := by
  have hshown := showsProvisional_confirmed reported change.provisionalPaths tree.entries key
  rw [Stray, Stray, h.holds_iff hopen, not_or]
  exact (and_congr_left' hshown).trans and_assoc

theorem Sound.stray_rolledBack (h : tree.Sound) (hopen : (id, change) ∈ tree.pending) :
    (tree.settled id (change.snapshot.foldr restoreEntry tree.entries)).Stray key ↔
      (change.NotesProvisional key ∧ ∀ p ∈ tree.pending, p.1 ≠ id → key ∉ p.2.provisionalPaths) ∨
        (tree.Stray key ∧ ¬ change.Touches key) := by
  have hshown := showsProvisional_restored tree id change key
  have hheld : ¬ change.Touches key → key ∉ change.provisionalPaths :=
    mt (h.held _ hopen key)
  have hfree : ∀ entries, ¬ (tree.settled id entries).Holds key ↔
      ∀ p ∈ tree.pending, p.1 ≠ id → key ∉ p.2.provisionalPaths := by
    intro entries
    rw [holds_settled]
    push Not
    exact Iff.rfl
  rw [Stray, Stray, h.holds_iff hopen tree.entries, not_or, hshown, hfree, hfree, or_and_right]
  refine or_congr Iff.rfl ?_
  constructor
  · rintro ⟨⟨huntouched, hprovisional⟩, hnone⟩
    exact ⟨⟨hprovisional, hheld huntouched, hnone⟩, huntouched⟩
  · rintro ⟨⟨hprovisional, -, hnone⟩, huntouched⟩
    exact ⟨⟨huntouched, hprovisional⟩, hnone⟩

theorem Sound.revives_iff (h : tree.Sound) (hopen : (id, change) ∈ tree.pending) :
    tree.Revives (.rollback id) key ↔ change.NotesProvisional key ∧
      ∀ p ∈ tree.pending, p.1 ≠ id → key ∉ p.2.provisionalPaths := by
  constructor
  · rintro ⟨id', change', hid, hopen', hnotes, hnone⟩
    obtain rfl := Deed.rollback.inj hid
    obtain rfl := h.eq_of_id_eq hopen hopen'
    exact ⟨hnotes, hnone⟩
  · rintro ⟨hnotes, hnone⟩
    exact ⟨id, change, rfl, hopen, hnotes, hnone⟩

/-- An entry is stray after a deed if the deed revives it, or if it was stray and the deed
does not change it. -/
theorem Sound.stray_perform_iff (h : tree.Sound) (deed : Deed) (key : String) :
    (tree.perform deed).Stray key ↔
      tree.Revives deed key ∨ (tree.Stray key ∧ ¬ tree.Changes deed key) := by
  have hstep := transition_perform tree deed
  generalize hnext : tree.perform deed = next at hstep
  cases hstep with
  | refused hnone =>
      have hdeed : ∀ id change, deed = .rollback id → (id, change) ∉ tree.pending := by
        rintro id change rfl
        exact hnone id change rfl
      rw [← stray_iff_of_passive hdeed (Nat.le_of_eq (by rw [hnext])) (by rw [hnext]), hnext]
  | loaded listing =>
      have hstray : (tree.load listing).Stray key ↔ tree.Stray key := by
        rw [Stray, Stray, showsProvisional_load, Holds, Holds, pending_load]
      rw [← stray_iff_of_passive (by rintro _ _ h; cases h)
          (Nat.le_of_eq (by rw [hnext, pending_load]))
        (by rw [hnext, hstray]), hnext]
  | @begun _ id change _ hdeed hbegun =>
      have hrevives : ¬ tree.Revives deed key := by
        rintro ⟨_, _, rfl, -⟩
        cases hdeed
      have hchanges : tree.Changes deed key ↔ change.Touches key := by
        constructor
        · rintro ⟨_, _, htouches, hbegins | ⟨rfl, -⟩⟩
          · rw [hnext] at hbegins
            exact hbegun.unique hbegins ▸ htouches
          · cases hdeed
        · exact fun htouches => ⟨id, change, htouches, .inl (hnext ▸ hbegun)⟩
      rw [hbegun.stray_iff, hchanges, or_iff_right hrevives]
  | @confirmed id change reported hopen =>
      have hle : (tree.perform (.confirm id reported)).pending.length ≤ tree.pending.length := by
        rw [hnext]
        exact List.length_filter_le _ _
      rw [← stray_iff_of_passive (by rintro _ _ h; cases h) hle
        (by rw [hnext, h.stray_confirmed hopen reported]), hnext]
  | @rolledBack id change hopen =>
      have hchanges : tree.Changes (.rollback id) key ↔ change.Touches key := by
        constructor
        · rintro ⟨id', change', htouches, hbegins | ⟨hid, hopen'⟩⟩
          · rw [hnext] at hbegins
            exact absurd hbegins (not_begins (List.length_filter_le _ _))
          · obtain rfl := Deed.rollback.inj hid
            exact h.eq_of_id_eq hopen hopen' ▸ htouches
        · exact fun htouches => ⟨id, change, htouches, .inr ⟨rfl, hopen⟩⟩
      rw [h.stray_rolledBack hopen, h.revives_iff hopen, hchanges]

/-! ## Which entries outlive their changes -/

/-- No deed changes the key when its turn comes. -/
def LeavesAlone (tree : FileTree) (history : List Deed) (key : String) : Prop :=
  ∀ first deed rest, history = first ++ deed :: rest → ¬ (tree.after first).Changes deed key

/-- A deed revives an entry at the key, and no later one changes it. -/
def RevivedIn (tree : FileTree) (history : List Deed) (key : String) : Prop :=
  ∃ first deed rest, history = first ++ deed :: rest ∧ (tree.after first).Revives deed key ∧
    (tree.after (first ++ [deed])).LeavesAlone rest key

theorem leavesAlone_cons {rest : List Deed} : tree.LeavesAlone (deed :: rest) key ↔
    ¬ tree.Changes deed key ∧ (tree.perform deed).LeavesAlone rest key := by
  constructor
  · intro h
    exact ⟨h [] deed rest rfl,
      fun first next later heq => h (deed :: first) next later (by simp [heq])⟩
  · rintro ⟨hfirst, hrest⟩ (_ | ⟨first, earlier⟩) next later heq
    · obtain ⟨rfl, -⟩ := List.cons.inj heq
      exact hfirst
    · obtain ⟨rfl, hsplit⟩ := List.cons.inj heq
      exact hrest earlier next later hsplit

theorem revivedIn_cons {rest : List Deed} : tree.RevivedIn (deed :: rest) key ↔
    (tree.Revives deed key ∧ (tree.perform deed).LeavesAlone rest key) ∨
      (tree.perform deed).RevivedIn rest key := by
  constructor
  · rintro ⟨_ | ⟨first, earlier⟩, next, later, heq, hrevives, halone⟩
    · obtain ⟨rfl, rfl⟩ := List.cons.inj heq
      exact .inl ⟨hrevives, halone⟩
    · obtain ⟨rfl, hsplit⟩ := List.cons.inj heq
      exact .inr ⟨earlier, next, later, hsplit, hrevives, halone⟩
  · rintro (⟨hrevives, halone⟩ | ⟨first, next, later, heq, hrevives, halone⟩)
    · exact ⟨[], deed, rest, rfl, hrevives, halone⟩
    · exact ⟨deed :: first, next, later, by simp [heq], hrevives, halone⟩

/-- An entry is stray after some deeds if it was before and they leave it alone, or if
they revive it. -/
theorem Sound.stray_after_iff (h : tree.Sound) (history : List Deed) (key : String) :
    (tree.after history).Stray key ↔
      (tree.Stray key ∧ tree.LeavesAlone history key) ∨ tree.RevivedIn history key := by
  induction history generalizing tree with
  | nil => simp [LeavesAlone, RevivedIn]
  | cons deed rest ih =>
      rw [after_cons, ih (h.transition (transition_perform tree deed)), h.stray_perform_iff,
        leavesAlone_cons, revivedIn_cons]
      tauto

/-- A provisional entry that no open change holds was revived. -/
theorem stray_iff_revivedIn (history : List Deed) (key : String) :
    (empty.after history).Stray key ↔ empty.RevivedIn history key := by
  have hnone : ¬ empty.Stray key := fun hstray => Bool.false_ne_true hstray.1
  rw [(sound_of_settled rfl).stray_after_iff, or_iff_right fun hempty => hnone hempty.1]

theorem stray_of_settled (h : tree.pending = []) : tree.Stray key ↔ tree.ShowsProvisional key := by
  simp [Stray, Holds, h]

end FileTree

end Workbench
