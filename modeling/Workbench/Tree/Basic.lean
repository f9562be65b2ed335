import Workbench.File.Basic
import Workbench.File.Error
import Workbench.Keyed

/-! # The file tree

A copy of the stored hierarchy on the user's side. A change is shown as soon as
it begins: what it adds is marked provisional, and what it touches is noted with
its former value. Later the change is confirmed with what the service reports,
or rolled back to the noted values. Several changes may be open at once. -/

namespace Workbench

/-- Why a change of the tree failed. -/
inductive TreeError
  /-- The tree knows nothing at the path. -/
  | unknownEntry (path : String)
  /-- The tree has an entry at the path already. -/
  | alreadyExists (path : String)
  /-- No open change has the number. -/
  | unknownMutation (id : Nat)
  /-- The file service refused. -/
  | file (error : FileError)
  deriving DecidableEq, Inhabited

namespace TreeError

def message : TreeError → String
  | .unknownEntry path => s!"no tree entry at `{path}`"
  | .alreadyExists path => s!"tree entry `{path}` already exists"
  | .unknownMutation id => s!"unknown tree mutation {id}"
  | .file error => error.message

end TreeError

/-- A file or folder in the tree. -/
structure TreeEntry where
  path : String
  kind : EntryKind
  size : Nat
  modified : Option Int
  /-- An open change has put the entry here. -/
  provisional : Bool
  deriving DecidableEq, Inhabited

namespace TreeEntry

/-- An entry that an open change puts into the tree. -/
def tentative (path : String) (kind : EntryKind) (size : Nat) : TreeEntry :=
  { path, kind, size, modified := none, provisional := true }

/-- An entry as a listing reports it. -/
def ofListing (entry : DirEntry) : TreeEntry :=
  { path := entry.path, kind := entry.kind, size := entry.size, modified := entry.modified,
    provisional := false }

def isFolder (entry : TreeEntry) : Bool := entry.kind == .folder

end TreeEntry

abbrev MutationId := Nat

inductive MutationKind
  | create (path : String)
  | rename (source : String) (target : String)
  | delete (path : String)
  | upload (path : String)
  deriving DecidableEq, Inhabited

/-- An open change: the former value of every key it touched, in the order of
touching, and the keys of its provisional entries. -/
structure PendingMutation where
  kind : MutationKind
  snapshot : List (String × Option TreeEntry)
  provisionalPaths : List String
  deriving DecidableEq, Inhabited

/-- The entries by path, the open changes by number, oldest first, and the
number given to the latest change. -/
structure FileTree where
  entries : Keyed TreeEntry
  pending : List (MutationId × PendingMutation)
  lastMutation : MutationId
  deriving DecidableEq

namespace FileTree

def empty : FileTree := { entries := .empty, pending := [], lastMutation := 0 }

instance : Inhabited FileTree := ⟨empty⟩

/-- Takes one line of a listing; a provisional entry is left alone. -/
def loadEntry (tree : FileTree) (entry : DirEntry) : FileTree :=
  let held := (tree.entries.get? entry.path).any (·.provisional)
  if held then tree
  else { tree with entries := tree.entries.insert entry.path (.ofListing entry) }

/-- Takes a listing. -/
def load (tree : FileTree) (listing : List DirEntry) : FileTree :=
  listing.foldl loadEntry tree

/-- The tree of a listing alone. -/
def ofListing (listing : List DirEntry) : FileTree := empty.load listing

def get? (tree : FileTree) (path : String) : Option TreeEntry := tree.entries.get? path

def contains (tree : FileTree) (path : String) : Bool := tree.entries.contains path

/-- The entries directly in a folder, in the order of their paths. -/
def children (tree : FileTree) (folder : String) : List TreeEntry :=
  tree.entries.values.filter fun entry => Path.parent? entry.path == some folder

/-- The keys at or below a path, in order. -/
def keysUnder (entries : Keyed TreeEntry) (root : String) : List String :=
  entries.keys.filter fun key => Path.isUnder key root

/-- Notes the value of a key, unless the change has touched it before. -/
def touch (entries : Keyed TreeEntry) (key : String) (change : PendingMutation) :
    PendingMutation :=
  if change.snapshot.any fun noted => noted.1 == key then change
  else { change with snapshot := change.snapshot ++ [(key, entries.get? key)] }

/-- Notes that a change has a provisional entry at a key. -/
def holds (key : String) (change : PendingMutation) : PendingMutation :=
  { change with provisionalPaths := change.provisionalPaths ++ [key] }

/-- A change that has touched nothing yet. -/
def untouched (kind : MutationKind) : PendingMutation :=
  { kind, snapshot := [], provisionalPaths := [] }

/-- Opens a change: its entries take effect and it gets the next number. -/
def begin (tree : FileTree) (entries : Keyed TreeEntry) (change : PendingMutation) :
    MutationId × FileTree :=
  let id := tree.lastMutation + 1
  (id, { entries, pending := tree.pending ++ [(id, change)], lastMutation := id })

/-- Puts a provisional entry at a path. -/
def place (tree : FileTree) (kind : MutationKind) (entry : TreeEntry) : MutationId × FileTree :=
  tree.begin (tree.entries.insert entry.path entry)
    (holds entry.path (touch tree.entries entry.path (untouched kind)))

/-- Begins to create a file or folder where there is none. -/
def beginCreate (tree : FileTree) (path : String) (kind : EntryKind) :
    Except TreeError (MutationId × FileTree) :=
  if tree.contains path then .error (.alreadyExists path)
  else .ok (tree.place (.create path) (.tentative path kind 0))

/-- Begins to store a file, over an entry that is there already. -/
def beginUpload (tree : FileTree) (path : String) (size : Nat) : MutationId × FileTree :=
  tree.place (.upload path) (.tentative path .file size)

/-- Moves one entry to its place in the renamed folder. -/
def moveEntry (source target : String) (step : Keyed TreeEntry × PendingMutation) (key : String) :
    Keyed TreeEntry × PendingMutation :=
  match Path.rebase? key source target with
  | none => step
  | some newKey =>
      let (entries, change) := step
      let change := touch entries newKey (touch entries key change)
      match entries.get? key with
      | none => (entries, change)
      | some entry =>
          ((entries.erase key).insert newKey { entry with path := newKey, provisional := true },
            holds newKey change)

/-- Begins to move an entry with everything below it to a free path. -/
def beginRename (tree : FileTree) (source target : String) :
    Except TreeError (MutationId × FileTree) :=
  if !tree.contains source then .error (.unknownEntry source)
  else if tree.contains target then .error (.alreadyExists target)
  else
    let (entries, change) := (keysUnder tree.entries source).foldl (moveEntry source target)
      (tree.entries, untouched (.rename source target))
    .ok (tree.begin entries change)

def dropEntry (step : Keyed TreeEntry × PendingMutation) (key : String) :
    Keyed TreeEntry × PendingMutation :=
  (step.1.erase key, touch step.1 key step.2)

def beginDelete (tree : FileTree) (path : String) : Except TreeError (MutationId × FileTree) :=
  if !tree.contains path then .error (.unknownEntry path)
  else
    let (entries, change) := (keysUnder tree.entries path).foldl dropEntry
      (tree.entries, untouched (.delete path))
    .ok (tree.begin entries change)

def settle (tree : FileTree) (id : MutationId) : Except TreeError (PendingMutation × FileTree) :=
  match tree.pending.find? fun p => p.1 == id with
  | none => .error (.unknownMutation id)
  | some (_, change) =>
      .ok (change, { tree with pending := tree.pending.filter fun p => p.1 != id })

/-- Makes a provisional entry a regular one. What the service reports about it
is taken over. -/
def confirmEntry (reported : List DirEntry) (entries : Keyed TreeEntry) (key : String) :
    Keyed TreeEntry :=
  entries.modify key fun entry =>
    match reported.find? fun line => line.path == key with
    | some line =>
        { entry with
          provisional := false, kind := line.kind, size := line.size, modified := line.modified }
    | none => { entry with provisional := false }

/-- Confirms an open change with what the service reports. -/
def confirm (tree : FileTree) (id : MutationId) (reported : List DirEntry) :
    Except TreeError FileTree :=
  match tree.settle id with
  | .error error => .error error
  | .ok (change, tree) =>
      .ok { tree with
            entries := change.provisionalPaths.foldl (confirmEntry reported) tree.entries }

/-- Gives a key its noted value back. -/
def restoreEntry (noted : String × Option TreeEntry) (entries : Keyed TreeEntry) :
    Keyed TreeEntry :=
  match noted.2 with
  | some entry => entries.insert noted.1 entry
  | none => entries.erase noted.1

/-- Undoes an open change: every key it touched gets its former value back,
the one touched last first. -/
def rollback (tree : FileTree) (id : MutationId) : Except TreeError (MutationKind × FileTree) :=
  match tree.settle id with
  | .error error => .error error
  | .ok (change, tree) =>
      .ok (change.kind,
        { tree with entries := change.snapshot.foldr restoreEntry tree.entries })

end FileTree

end Workbench
