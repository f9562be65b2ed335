import Mathlib.Data.List.Nodup
import Mathlib.Data.List.Perm.Basic
import Workbench.Proofs.Path.Ancestors
import Workbench.Proofs.Tree.Deeds

/-! # Renames in the tree

A rename takes everything at or below a path along, entry by entry, while the others are
in place. If nothing is shown at or below the new path, every entry goes to a free key and
no two go to the same. So nothing is lost or merged on the way, even if the new path lies
below the old one. -/

namespace Workbench.FileTree

variable {tree next : FileTree} {entries : Keyed TreeEntry} {change : PendingMutation}
  {id : MutationId} {source target key newKey other former : String} {keys : List String}
  {entry : TreeEntry} {provisional : Bool}

/-- Every entry is kept under its own path. -/
def OwnPaths (tree : FileTree) : Prop := ∀ key entry, tree.get? key = some entry → entry.path = key

/-- Nothing is shown at or below a path that no slash ends. -/
structure Vacant (tree : FileTree) (target : String) : Prop where
  unslashed : target.toList.getLast? ≠ some '/'
  nothing : ∀ key, tree.contains key = true → Path.isUnder key target = false

theorem ownPaths_iff : tree.OwnPaths ↔ ∀ e ∈ tree.entries.entries, e.2.path = e.1 := by
  constructor
  · rintro h ⟨key, entry⟩ he
    exact h key entry (tree.entries.get?_eq_some_iff.mpr he)
  · exact fun h key entry hentry => h (key, entry) (tree.entries.get?_eq_some_iff.mp hentry)

instance (tree : FileTree) : Decidable tree.OwnPaths := decidable_of_iff' _ ownPaths_iff

theorem vacant_iff : tree.Vacant target ↔
    target.toList.getLast? ≠ some '/' ∧
      ∀ key ∈ tree.entries.keys, Path.isUnder key target = false := by
  constructor
  · rintro ⟨hunslashed, hnothing⟩
    exact ⟨hunslashed, fun key hkey => hnothing key (tree.entries.mem_keys_iff.mp hkey)⟩
  · rintro ⟨hunslashed, hnothing⟩
    exact ⟨hunslashed, fun key hkey => hnothing key (tree.entries.mem_keys_iff.mpr hkey)⟩

instance (tree : FileTree) (target : String) : Decidable (tree.Vacant target) :=
  decidable_of_iff' _ vacant_iff

/-- What is shown once everything at or below a path has moved: what moved is found at its
new place under the path it has there, provisional or not, all else is as it was, and
there is nothing besides. -/
structure Relocates (source target : String) (provisional : Bool) (tree next : FileTree) :
    Prop where
  kept : ∀ key entry, tree.get? key = some entry → ¬ Path.isUnder key source = true →
    next.get? key = some entry
  moved : ∀ former old, tree.get? former = some old → Path.isUnder former source = true →
    ∃ key, Path.rebase? former source target = some key ∧
      next.get? key = some { old with path := key, provisional }
  origin : ∀ key entry, next.get? key = some entry →
    (tree.get? key = some entry ∧ ¬ Path.isUnder key source = true) ∨
      ∃ former old, tree.get? former = some old ∧
        Path.rebase? former source target = some key ∧
          entry = { old with path := key, provisional }

/-! ## New places -/

theorem isUnder_of_rebase? (h : Path.rebase? former source target = some key) :
    Path.isUnder former source = true := by
  rw [← Path.isSome_rebase? former source target, h]
  rfl

theorem mem_keysUnder : key ∈ keysUnder entries source ↔
    entries.contains key = true ∧ Path.isUnder key source = true := by
  rw [keysUnder, List.mem_filter, Keyed.mem_keys_iff]
  rfl

/-- The places in a folder that moves to a vacant path are free. -/
theorem Vacant.free (h : tree.Vacant target)
    (hplace : Path.rebase? former source target = some key) : tree.contains key = false := by
  rw [Bool.eq_false_iff]
  intro hthere
  have hunder : Path.isUnder key target = true :=
    (Path.isUnder_iff h.unslashed).mpr (Path.eq_or_above_of_rebase? h.unslashed hplace)
  rw [h.nothing key hthere] at hunder
  cases hunder

theorem Vacant.ne (h : tree.Vacant target)
    (hplace : Path.rebase? former source target = some newKey)
    (hthere : tree.contains key = true) : key ≠ newKey := by
  rintro rfl
  rw [h.free hplace] at hthere
  cases hthere

/-! ## Moving entries one by one -/

/-- To move one entry concerns its key and its new place only. -/
theorem get?_moveEntry_of_ne (step : Keyed TreeEntry × PendingMutation) (hkey : key ≠ other)
    (hplace : Path.rebase? key source target ≠ some other) :
    (moveEntry source target step key).1.get? other = step.1.get? other := by
  unfold moveEntry
  split
  next => rfl
  next newKey hnew =>
    have hne : newKey ≠ other := fun heq => hplace (heq ▸ hnew)
    dsimp only
    split
    next => rfl
    next => rw [Keyed.get?_insert_ne _ hne, Keyed.get?_erase_ne _ hkey]

theorem get?_foldl_moveEntry_of_ne (step : Keyed TreeEntry × PendingMutation)
    (h : ∀ key ∈ keys, key ≠ other ∧ Path.rebase? key source target ≠ some other) :
    (keys.foldl (moveEntry source target) step).1.get? other = step.1.get? other := by
  induction keys generalizing step with
  | nil => rfl
  | cons key rest ih =>
      obtain ⟨⟨hkey, hplace⟩, hrest⟩ := List.forall_mem_cons.mp h
      rw [List.foldl_cons, ih _ hrest, get?_moveEntry_of_ne step hkey hplace]

/-- What moves is found at its new place, and nothing is left where it was. -/
theorem Vacant.get?_foldl_moveEntry (h : tree.Vacant target) (hnodup : keys.Nodup)
    (hthere : ∀ key ∈ keys, tree.contains key = true) (hkey : key ∈ keys)
    (hentry : tree.get? key = some entry)
    (hplace : Path.rebase? key source target = some newKey) (change : PendingMutation) :
    let moved := (keys.foldl (moveEntry source target) (tree.entries, change)).1
    moved.get? newKey = some { entry with path := newKey, provisional := true } ∧
      moved.get? key = none := by
  obtain ⟨earlier, later, rfl⟩ := List.append_of_mem hkey
  have hothers : key ∉ earlier ++ later := (List.nodup_middle.mp hnodup).notMem
  rw [List.mem_append, not_or] at hothers
  have hkey_ne : key ≠ newKey := h.ne hplace (hthere key hkey)
  -- Neither its key nor its new place is concerned by the others that move.
  have hkey_apart : ∀ rest : List String, key ∉ rest →
      ∀ k ∈ rest, k ≠ key ∧ Path.rebase? k source target ≠ some key := by
    intro rest hnot k hk
    refine ⟨fun heq => hnot (heq ▸ hk), fun hsame => ?_⟩
    exact h.ne hsame (hthere key hkey) rfl
  have hplace_apart : ∀ k ∈ later, k ≠ newKey ∧ Path.rebase? k source target ≠ some newKey := by
    intro k hk
    refine ⟨h.ne hplace (hthere k (by simp [hk])), fun hsame => hothers.2 ?_⟩
    exact Path.rebase?_injective h.unslashed hplace hsame ▸ hk
  intro moved
  let before := earlier.foldl (moveEntry source target) (tree.entries, change)
  have hbefore : before.1.get? key = some entry :=
    (get?_foldl_moveEntry_of_ne _ (hkey_apart earlier hothers.1)).trans hentry
  have hmoved : moved = (later.foldl (moveEntry source target)
      ((before.1.erase key).insert newKey { entry with path := newKey, provisional := true },
        holds newKey (touch (before.1.erase key) newKey (touch before.1 key before.2)))).1 := by
    rw [← moveEntry_eq hplace hbefore, ← List.foldl_cons, ← List.foldl_append]
  constructor
  · rw [hmoved, get?_foldl_moveEntry_of_ne _ hplace_apart, Keyed.get?_insert_self]
  · rw [hmoved, get?_foldl_moveEntry_of_ne _ (hkey_apart later hothers.2),
      Keyed.get?_insert_ne _ hkey_ne.symm, Keyed.get?_erase_self]

/-- The provisional entries are where something has moved. -/
theorem mem_provisionalPaths_foldl_moveEntry {step : Keyed TreeEntry × PendingMutation}
    (h : other ∈ (keys.foldl (moveEntry source target) step).2.provisionalPaths) :
    other ∈ step.2.provisionalPaths ∨
      ∃ key ∈ keys, Path.rebase? key source target = some other := by
  induction keys generalizing step with
  | nil => exact .inl h
  | cons key rest ih =>
      rcases ih h with hstep | ⟨later, hlater, hplace⟩
      · unfold moveEntry at hstep
        split at hstep
        next => exact .inl hstep
        next newKey hnew =>
          dsimp only at hstep
          split at hstep
          next => exact .inl (by simpa using hstep)
          next =>
            simp only [holds, provisionalPaths_touch, List.mem_append, List.mem_singleton] at hstep
            rcases hstep with hbefore | rfl
            · exact .inl hbefore
            · exact .inr ⟨key, List.mem_cons_self, hnew⟩
      · exact .inr ⟨later, List.mem_cons_of_mem _ hlater, hplace⟩

/-! ## The renamed tree -/

/-- Nothing refuses a rename of what is there to a vacant path. -/
theorem Vacant.beginRename_eq (h : tree.Vacant target) (hsource : tree.contains source = true) :
    tree.beginRename source target = .ok
      (tree.begin
        ((keysUnder tree.entries source).foldl (moveEntry source target)
          (tree.entries, untouched (.rename source target))).1
        ((keysUnder tree.entries source).foldl (moveEntry source target)
          (tree.entries, untouched (.rename source target))).2) := by
  have hfree : tree.contains target = false := h.free (Path.rebase?_self source target)
  rw [beginRename, hsource, hfree]
  rfl

/-- What a rename begins: everything at or below the path has moved, and the change holds
its provisional entries where something has moved. -/
theorem Vacant.begins_beginRename (h : tree.Vacant target)
    (hsource : tree.contains source = true) :
    ∃ id change next, tree.beginRename source target = .ok (id, next) ∧
      Begins tree id change next ∧ Relocates source target true tree next ∧
      ∀ key, key ∈ change.provisionalPaths →
        ∃ former, Path.rebase? former source target = some key := by
  have hnodup : (keysUnder tree.entries source).Nodup := tree.entries.nodup_keys.filter _
  have hthere : ∀ key ∈ keysUnder tree.entries source, tree.contains key = true :=
    fun key hkey => (mem_keysUnder.mp hkey).1
  refine ⟨_, _, _, h.beginRename_eq hsource,
    begins_begin (tracks_foldl_moveEntry source target (tracks_untouched _ _) hnodup hthere),
    ?_, ?_⟩
  · constructor
    case kept =>
      intro key entry hentry hout
      refine (get?_foldl_moveEntry_of_ne _ ?_).trans hentry
      intro k hk
      obtain ⟨-, hunder⟩ := mem_keysUnder.mp hk
      refine ⟨fun heq => hout (heq ▸ hunder), fun hplace => ?_⟩
      exact h.ne hplace (Keyed.contains_of_get? hentry) rfl
    case moved =>
      intro former old hold hunder
      have hplace := Path.rebase?_eq_some_placeIn target hunder
      have hmem := mem_keysUnder.mpr ⟨Keyed.contains_of_get? hold, hunder⟩
      exact ⟨_, hplace, (h.get?_foldl_moveEntry hnodup hthere hmem hold hplace _).1⟩
    case origin =>
      intro key entry hentry
      by_cases hplaced : ∃ former ∈ keysUnder tree.entries source,
          Path.rebase? former source target = some key
      · obtain ⟨former, hformer, hplace⟩ := hplaced
        obtain ⟨old, hold⟩ := tree.entries.contains_iff.mp (hthere former hformer)
        have hmoved := (h.get?_foldl_moveEntry hnodup hthere hformer hold hplace
          (untouched (.rename source target))).1
        exact .inr ⟨former, old, hold, hplace,
          Option.some.inj (hentry.symm.trans hmoved)⟩
      · left
        push Not at hplaced
        by_cases hunder : key ∈ keysUnder tree.entries source
        · -- The key has moved itself, so nothing is left there.
          obtain ⟨old, hold⟩ := tree.entries.contains_iff.mp (hthere key hunder)
          have hplace := Path.rebase?_eq_some_placeIn target (mem_keysUnder.mp hunder).2
          have hgone := (h.get?_foldl_moveEntry hnodup hthere hunder hold hplace
            (untouched (.rename source target))).2
          cases hentry.symm.trans hgone
        · have hapart : ∀ k ∈ keysUnder tree.entries source,
              k ≠ key ∧ Path.rebase? k source target ≠ some key :=
            fun k hk => ⟨fun heq => hunder (heq ▸ hk), hplaced k hk⟩
          have hsame : tree.get? key = some entry :=
            (get?_foldl_moveEntry_of_ne _ hapart).symm.trans hentry
          refine ⟨hsame, fun hbelow => hunder ?_⟩
          exact mem_keysUnder.mpr ⟨Keyed.contains_of_get? hsame, hbelow⟩
  · intro key hkey
    rcases mem_provisionalPaths_foldl_moveEntry hkey with hnone | ⟨former, -, hplace⟩
    · cases hnone
    · exact ⟨former, hplace⟩

theorem Relocates.get?_of_rebase? (h : Relocates source target provisional tree next)
    {old : TreeEntry} (hold : tree.get? former = some old)
    (hplace : Path.rebase? former source target = some key) :
    next.get? key = some { old with path := key, provisional } := by
  obtain ⟨found, hfound, hmoved⟩ := h.moved former old hold (isUnder_of_rebase? hplace)
  obtain rfl := Option.some.inj (hplace.symm.trans hfound)
  exact hmoved

theorem Relocates.ownPaths (h : Relocates source target provisional tree next)
    (hown : tree.OwnPaths) : next.OwnPaths := by
  intro key entry hentry
  rcases h.origin key entry hentry with ⟨hsame, -⟩ | ⟨former, old, -, -, rfl⟩
  · exact hown key entry hsame
  · rfl

/-- The keys are the new places of the keys from before, each of which has one of its
own. -/
theorem Relocates.keys_perm (h : Relocates source target provisional tree next)
    (hvacant : tree.Vacant target) :
    next.entries.keys.Perm (tree.entries.keys.map (Path.placeIn source target)) := by
  have hthere : ∀ key ∈ tree.entries.keys, tree.contains key = true :=
    fun key hkey => tree.entries.mem_keys_iff.mp hkey
  have hdistinct : (tree.entries.keys.map (Path.placeIn source target)).Nodup := by
    refine List.Nodup.map_on ?_ tree.entries.nodup_keys
    intro key hkey other hother heq
    by_cases hunder : Path.isUnder key source = true
    · have hplace := Path.rebase?_eq_some_placeIn target hunder
      by_cases hunder' : Path.isUnder other source = true
      · have hplace' := Path.rebase?_eq_some_placeIn target hunder'
        rw [← heq] at hplace'
        exact Path.rebase?_injective hvacant.unslashed hplace hplace'
      · rw [Path.placeIn_of_not_isUnder hunder'] at heq
        exact absurd heq.symm (hvacant.ne hplace (hthere other hother))
    · rw [Path.placeIn_of_not_isUnder hunder] at heq
      by_cases hunder' : Path.isUnder other source = true
      · have hplace' := Path.rebase?_eq_some_placeIn target hunder'
        exact absurd heq (hvacant.ne hplace' (hthere key hkey))
      · rwa [Path.placeIn_of_not_isUnder hunder'] at heq
  refine (List.perm_ext_iff_of_nodup next.entries.nodup_keys hdistinct).mpr fun key => ?_
  rw [List.mem_map, Keyed.mem_keys_iff, Option.isSome_iff_exists]
  constructor
  · rintro ⟨entry, hentry⟩
    rcases h.origin key entry hentry with ⟨hsame, hout⟩ | ⟨former, old, hold, hplace, -⟩
    · refine ⟨key, tree.entries.mem_keys_iff.mpr (Keyed.contains_of_get? hsame), ?_⟩
      exact Path.placeIn_of_not_isUnder hout
    · refine ⟨former, tree.entries.mem_keys_iff.mpr (Keyed.contains_of_get? hold), ?_⟩
      rw [Path.placeIn, hplace, Option.getD_some]
  · rintro ⟨former, hformer, rfl⟩
    obtain ⟨old, hold⟩ := tree.entries.contains_iff.mp (hthere former hformer)
    by_cases hunder : Path.isUnder former source = true
    · exact ⟨_, h.get?_of_rebase? hold (Path.rebase?_eq_some_placeIn target hunder)⟩
    · rw [Path.placeIn_of_not_isUnder hunder]
      exact ⟨old, h.kept former old hold hunder⟩

/-- To confirm a rename with no report leaves everything where it is, and nothing that has
moved is provisional any more. -/
theorem Relocates.confirmed (h : Relocates source target true tree next)
    (hvacant : tree.Vacant target)
    (hheld : ∀ former old key, tree.get? former = some old →
      Path.rebase? former source target = some key → key ∈ change.provisionalPaths)
    (hplaced : ∀ key, key ∈ change.provisionalPaths →
      ∃ former, Path.rebase? former source target = some key) :
    Relocates source target false tree
      (next.settled id (change.provisionalPaths.foldl (confirmEntry []) next.entries)) := by
  have hlook : ∀ key,
      (next.settled id (change.provisionalPaths.foldl (confirmEntry []) next.entries)).get? key =
        if key ∈ change.provisionalPaths then (next.get? key).map (settledEntry [] key)
        else next.get? key :=
    get?_confirmed [] change.provisionalPaths next.entries
  have hout : ∀ key entry, tree.get? key = some entry → key ∉ change.provisionalPaths := by
    intro key entry hentry hkey
    obtain ⟨former, hplace⟩ := hplaced key hkey
    exact hvacant.ne hplace (Keyed.contains_of_get? hentry) rfl
  constructor
  case kept =>
    intro key entry hentry hnot
    rw [hlook, if_neg (hout key entry hentry), h.kept key entry hentry hnot]
  case moved =>
    intro former old hold hunder
    obtain ⟨key, hplace, hmoved⟩ := h.moved former old hold hunder
    refine ⟨key, hplace, ?_⟩
    rw [hlook, if_pos (hheld former old key hold hplace), hmoved]
    rfl
  case origin =>
    intro key entry hentry
    rw [hlook] at hentry
    split at hentry
    next hkey =>
      obtain ⟨found, hfound, rfl⟩ := Option.map_eq_some_iff.mp hentry
      rcases h.origin key found hfound with ⟨hsame, -⟩ | ⟨former, old, hold, hplace, rfl⟩
      · exact absurd hkey (hout key found hsame)
      · exact .inr ⟨former, old, hold, hplace, rfl⟩
    next hkey =>
      rcases h.origin key entry hentry with hsame | ⟨former, old, hold, hplace, -⟩
      · exact .inl hsame
      · exact absurd (hheld former old key hold hplace) hkey

/-- In a tree that keeps every entry under its own path, a rename of what is there to a
path at or below which nothing is shown begins. Everything at or below the old path is
then found at its place in the renamed folder, provisional and otherwise unchanged, and
all else is as it was; there are as many entries as before, each under its own path. If
the tree is sound, as it is after any deeds (`sound_after`), the change can be confirmed;
if the service reports nothing with the confirmation, the entries that moved cease to be
provisional, and that is all. -/
theorem beginRename_relocates (hown : tree.OwnPaths) (hsource : tree.contains source = true)
    (hvacant : tree.Vacant target) :
    ∃ id next, tree.beginRename source target = .ok (id, next) ∧
      Relocates source target true tree next ∧ next.entries.size = tree.entries.size ∧
      next.OwnPaths ∧
      (tree.Sound → ∃ settled, next.confirm id [] = .ok settled ∧
        Relocates source target false tree settled ∧ settled.pending = tree.pending) := by
  obtain ⟨id, change, next, hbegun, hbegins, hrelocates, hplaced⟩ :=
    hvacant.begins_beginRename hsource
  refine ⟨id, next, hbegun, hrelocates, ?_, hrelocates.ownPaths hown, fun hsound => ?_⟩
  · have hkeys := (hrelocates.keys_perm hvacant).length_eq
    simpa [Keyed.keys, Keyed.size] using hkeys
  · have hheld : ∀ former old key, tree.get? former = some old →
        Path.rebase? former source target = some key → key ∈ change.provisionalPaths := by
      intro former old key hold hplace
      -- Nothing was at the place before, so the change has touched it.
      have hmoved := hrelocates.get?_of_rebase? hold hplace
      refine hbegins.tracks.shown key ?_ _ hmoved
      by_contra huntouched
      have hsame := (hbegins.tracks.kept key huntouched).symm.trans hmoved
      exact hvacant.ne hplace (Keyed.contains_of_get? hsame) rfl
    exact ⟨_, (hbegins.sound hsound).confirm_eq hbegins.mem_pending [],
      hrelocates.confirmed hvacant hheld hplaced, hbegins.pending_settled hsound _⟩

/-- A folder with a folder and a file in it, and a file whose name begins like the folder's. -/
def nestedTree : FileTree :=
  empty.after [.load [⟨"/a", .folder, 0, none⟩, ⟨"/a/b", .folder, 0, none⟩,
    ⟨"/a/b/c", .file, 3, some 1⟩, ⟨"/ab", .file, 5, some 2⟩]]

/-- The folder goes below itself. -/
theorem beginRename_relocates_nested :
    nestedTree.OwnPaths ∧ nestedTree.contains "/a" = true ∧ nestedTree.Vacant "/a/b/d" ∧
      nestedTree.Sound ∧
      ∃ id next, nestedTree.beginRename "/a" "/a/b/d" = .ok (id, next) ∧
        next.get? "/a/b/d/b/c" = some ⟨"/a/b/d/b/c", .file, 3, some 1, true⟩ ∧
        next.get? "/ab" = some ⟨"/ab", .file, 5, some 2, false⟩ ∧ next.entries.size = 4 ∧
        next.OwnPaths ∧
        ∃ settled, next.confirm id [] = .ok settled ∧
          settled.get? "/a/b/d/b/c" = some ⟨"/a/b/d/b/c", .file, 3, some 1, false⟩ := by
  have hown : nestedTree.OwnPaths := by decide +kernel
  have hsource : nestedTree.contains "/a" = true := by decide +kernel
  have hvacant : nestedTree.Vacant "/a/b/d" := by decide +kernel
  have hsound : nestedTree.Sound := sound_after _
  have hfile : nestedTree.get? "/a/b/c" = some ⟨"/a/b/c", .file, 3, some 1, false⟩ := by
    decide +kernel
  have hplace : Path.rebase? "/a/b/c" "/a" "/a/b/d" = some "/a/b/d/b/c" := by decide +kernel
  have hother : nestedTree.get? "/ab" = some ⟨"/ab", .file, 5, some 2, false⟩ := by decide +kernel
  have hout : ¬ Path.isUnder "/ab" "/a" = true := by decide +kernel
  obtain ⟨id, next, hbegun, hrelocates, hsize, hown', hconfirms⟩ :=
    beginRename_relocates hown hsource hvacant
  obtain ⟨settled, hconfirmed, hsettled, -⟩ := hconfirms hsound
  have hcount : nestedTree.entries.size = 4 := by decide +kernel
  exact ⟨hown, hsource, hvacant, hsound, id, next, hbegun, hrelocates.get?_of_rebase? hfile hplace,
    hrelocates.kept _ _ hother hout, hsize.trans hcount, hown', settled, hconfirmed,
    hsettled.get?_of_rebase? hfile hplace⟩

end Workbench.FileTree
