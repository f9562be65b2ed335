import Workbench.Proofs.Tree.Rename

/-! # Listings in the tree

A listing enters every path that it reports, but leaves provisional entries as they are. So
after it the tree has what it had and what was reported, and each entry is kept under its own
path if it was before. What is shown of a folder are then the paths of its entries. -/

namespace Workbench.FileTree

variable {tree : FileTree} {listing : List DirEntry} {path folder : String}

theorem OwnPaths.loadEntry (h : tree.OwnPaths) (line : DirEntry) :
    (tree.loadEntry line).OwnPaths := by
  unfold FileTree.loadEntry
  dsimp only
  split
  next => exact h
  next =>
    intro key entry hentry
    rw [FileTree.get?, Keyed.get?_insert] at hentry
    split at hentry
    next heq => rw [← Option.some.inj hentry, ← heq, TreeEntry.ofListing]
    next => exact h key entry hentry

theorem OwnPaths.load (h : tree.OwnPaths) (listing : List DirEntry) :
    (tree.load listing).OwnPaths := by
  unfold FileTree.load
  induction listing generalizing tree with
  | nil => exact h
  | cons line rest ih => exact ih (h.loadEntry line)

theorem contains_loadEntry_iff (line : DirEntry) :
    (tree.loadEntry line).contains path = true ↔
      line.path = path ∨ tree.contains path = true := by
  unfold loadEntry
  dsimp only
  split
  next hheld =>
    -- A provisional entry is at the path already.
    obtain ⟨entry, hentry, -⟩ := (Option.any_eq_true _ _).mp hheld
    refine ⟨.inr, ?_⟩
    rintro (rfl | hpath)
    · exact Keyed.contains_of_get? hentry
    · exact hpath
  next => exact Keyed.contains_insert _ _

/-- A listing adds what it lists, and nothing is lost by it. -/
theorem contains_load_iff :
    (tree.load listing).contains path = true ↔
      path ∈ listing.map (·.path) ∨ tree.contains path = true := by
  unfold load
  induction listing generalizing tree with
  | nil => simp
  | cons line rest ih =>
      rw [List.foldl_cons, ih, contains_loadEntry_iff, List.map_cons, List.mem_cons, or_left_comm,
        eq_comm, or_assoc]

/-- Of a folder are shown the paths in the tree that have it for their parent. -/
theorem mem_children_iff (h : tree.OwnPaths) :
    path ∈ (tree.children folder).map (·.path) ↔
      tree.contains path = true ∧ Path.parent? path = some folder := by
  simp only [children, List.mem_map, List.mem_filter, beq_iff_eq, Keyed.values]
  constructor
  · rintro ⟨entry, ⟨⟨⟨key, _⟩, hmem, rfl⟩, hparent⟩, rfl⟩
    have hentry := tree.entries.get?_eq_some_iff.mpr hmem
    obtain rfl := h key _ hentry
    exact ⟨Keyed.contains_of_get? hentry, hparent⟩
  · rintro ⟨hpath, hparent⟩
    obtain ⟨entry, hentry⟩ := (Keyed.contains_iff _).mp hpath
    obtain rfl := h path entry hentry
    exact ⟨entry, ⟨⟨(entry.path, entry), tree.entries.get?_eq_some_iff.mp hentry, rfl⟩, hparent⟩,
      rfl⟩

end Workbench.FileTree
