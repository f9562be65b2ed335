import Workbench.Proofs.InPlace
import Workbench.Proofs.Tree.Deeds

/-! # Changes begun in place

To begin a change gives the next tree, unless it is refused. Here the same changes are begun
on the tree where it stands: a number is given out, keys are noted, and entries go and come
one by one. Both ways come to the same, as every change makes its checks before it is given a
number. -/

namespace Workbench.FileTree

open Workbench.InPlace

/-- A change that is proposed to the tree. -/
inductive Proposal
  | create (path : String) (kind : EntryKind)
  | rename (source target : String)
  | delete (path : String)
  | upload (path : String) (size : Nat)

namespace Proposal

/-- What the change is known as once it is open. -/
def kind : Proposal → MutationKind
  | .create path _ => .create path
  | .rename source target => .rename source target
  | .delete path => .delete path
  | .upload path _ => .upload path

/-- The deed of proposing the change. -/
def deed : Proposal → Deed
  | .create path kind => .create path kind
  | .rename source target => .rename source target
  | .delete path => .delete path
  | .upload path size => .upload path size

end Proposal

/-- Opens a change, unless it is refused. -/
def propose (tree : FileTree) : Proposal → Except TreeError (MutationId × FileTree)
  | .create path kind => tree.beginCreate path kind
  | .rename source target => tree.beginRename source target
  | .delete path => tree.beginDelete path
  | .upload path size => .ok (tree.beginUpload path size)

/-- The tree after a deed of proposing is the one with the change open, or the same one if
the change is refused. -/
theorem perform_deed (tree : FileTree) (proposal : Proposal) :
    tree.perform proposal.deed = ((tree.propose proposal).toOption.map (·.2)).getD tree := by
  cases proposal <;> rfl

/-- Work on a tree. -/
abbrev InPlace (α : Type) := Workbench.InPlace TreeError FileTree α

namespace InPlace

/-- Refuses to go on if the tree fails a check. -/
def refuseIf (fails : FileTree → Bool) (error : TreeError) : InPlace Unit := do
  let tree ← get
  if fails tree then throw error

/-- Checks that there is an entry at a path. -/
def known (path : String) : InPlace Unit := refuseIf (!·.contains path) (.unknownEntry path)

/-- Checks that there is no entry at a path. -/
def free (path : String) : InPlace Unit := refuseIf (·.contains path) (.alreadyExists path)

/-- Gives out the next number, for a change that has touched nothing yet. -/
def allocate (kind : MutationKind) : InPlace (MutationId × PendingMutation) := do
  modify fun tree => { tree with lastMutation := tree.lastMutation + 1 }
  let tree ← get
  return (tree.lastMutation, untouched kind)

/-- Notes the value that a key has now. -/
def note (key : String) (change : PendingMutation) : InPlace PendingMutation := do
  let tree ← get
  return touch tree.entries key change

def insert (entry : TreeEntry) : InPlace Unit :=
  modify fun tree => { tree with entries := tree.entries.insert entry.path entry }

def erase (key : String) : InPlace Unit :=
  modify fun tree => { tree with entries := tree.entries.erase key }

/-- Opens a change under its number. -/
def enter (id : MutationId) (change : PendingMutation) : InPlace MutationId := do
  modify fun tree => { tree with pending := tree.pending ++ [(id, change)] }
  return id

/-- Puts a provisional entry at its path. -/
def place (kind : MutationKind) (entry : TreeEntry) : InPlace MutationId := do
  let (id, change) ← allocate kind
  let change ← note entry.path change
  insert entry
  enter id (holds entry.path change)

/-- Moves one entry to its place in the renamed folder. -/
def moveEntry (source target : String) (change : PendingMutation) (key : String) :
    InPlace PendingMutation := do
  match Path.rebase? key source target with
  | none => return change
  | some newKey =>
      let change ← note key change
      let change ← note newKey change
      let tree ← get
      match tree.get? key with
      | none => return change
      | some entry =>
          erase key
          insert { entry with path := newKey, provisional := true }
          return holds newKey change

def dropEntry (change : PendingMutation) (key : String) : InPlace PendingMutation := do
  let change ← note key change
  erase key
  return change

/-- Opens a change that does its work on every key at or below a path, one after the other. -/
def sweep (kind : MutationKind) (path : String)
    (work : PendingMutation → String → InPlace PendingMutation) : InPlace MutationId := do
  let (id, change) ← allocate kind
  let tree ← get
  let change ← (keysUnder tree.entries path).foldlM work change
  enter id change

/-- Begins a change. -/
def begin : Proposal → InPlace MutationId
  | .create path kind => do
      free path
      place (.create path) (.tentative path kind 0)
  | .rename source target => do
      known source
      free target
      sweep (.rename source target) source (moveEntry source target)
  | .delete path => do
      known path
      sweep (.delete path) path dropEntry
  | .upload path size => place (.upload path) (.tentative path .file size)

/-! ## Both ways come to the same -/

theorem on_refuseIf {α : Type} (fails : FileTree → Bool) (error : TreeError)
    (next : Unit → InPlace α) (tree : FileTree) :
    on (refuseIf fails error >>= next) tree =
      if fails tree then (.error error, tree) else on (next ()) tree := by
  simp only [refuseIf, on_bind, on_get]
  cases fails tree <;> rfl

theorem on_place (kind : MutationKind) (entry : TreeEntry) (tree : FileTree) :
    on (place kind entry) tree = answered tree (.ok (tree.place kind entry)) := rfl

/-- To move one entry is to make a step with the entries that are there. -/
theorem on_moveEntry (source target key : String) (tree : FileTree)
    (step : Keyed TreeEntry × PendingMutation) :
    on (moveEntry source target step.2 key) { tree with entries := step.1 } =
      (.ok (FileTree.moveEntry source target step key).2,
        { tree with entries := (FileTree.moveEntry source target step key).1 }) := by
  obtain ⟨entries, change⟩ := step
  unfold moveEntry FileTree.moveEntry
  cases Path.rebase? key source target with
  | none => rfl
  | some newKey =>
      simp only [note, on_bind, on_get, on_pure, FileTree.get?]
      cases entries.get? key <;> rfl

theorem on_dropEntry (key : String) (tree : FileTree)
    (step : Keyed TreeEntry × PendingMutation) :
    on (dropEntry step.2 key) { tree with entries := step.1 } =
      (.ok (FileTree.dropEntry step key).2,
        { tree with entries := (FileTree.dropEntry step key).1 }) := rfl

/-- A number is given out first, and then the keys are gone through with the entries that are
there. -/
theorem on_sweep {work : PendingMutation → String → InPlace PendingMutation}
    {step : Keyed TreeEntry × PendingMutation → String → Keyed TreeEntry × PendingMutation}
    (h : ∀ (key : String) (tree : FileTree) (c : Keyed TreeEntry × PendingMutation),
      on (work c.2 key) { tree with entries := c.1 } =
        (.ok (step c key).2, { tree with entries := (step c key).1 }))
    (kind : MutationKind) (path : String) (tree : FileTree) :
    on (sweep kind path work) tree =
      let swept := (keysUnder tree.entries path).foldl step (tree.entries, untouched kind)
      answered tree (.ok (tree.begin swept.1 swept.2)) := by
  let numbered : FileTree := { tree with lastMutation := tree.lastMutation + 1 }
  have hswept := on_foldlM Prod.snd (fun c => { numbered with entries := c.1 })
    (fun c key => h key numbered c) (keysUnder tree.entries path) (tree.entries, untouched kind)
  simp only [sweep, allocate, on_bind, on_modify, on_get, on_pure]
  rw [hswept]
  rfl

/-- A change that is begun in place answers and leaves what it does when it is proposed as a
whole. -/
theorem on_begin (proposal : Proposal) (tree : FileTree) :
    on (begin proposal) tree = answered tree (tree.propose proposal) := by
  cases proposal with
  | create path kind =>
      rw [begin, free, on_refuseIf, propose, beginCreate]
      cases tree.contains path with
      | true => rfl
      | false => exact on_place _ _ tree
  | rename source target =>
      rw [begin, known, free, on_refuseIf, on_refuseIf, propose, beginRename]
      cases tree.contains source with
      | false => rfl
      | true =>
          cases tree.contains target with
          | true => rfl
          | false => exact on_sweep (on_moveEntry source target) _ source tree
  | delete path =>
      rw [begin, known, on_refuseIf, propose, beginDelete]
      cases tree.contains path with
      | false => rfl
      | true => exact on_sweep on_dropEntry _ path tree
  | upload path size => exact on_place _ _ tree

end InPlace

end Workbench.FileTree
