import Workbench.Text.Blank

/-! # Workspace paths

A workspace path is a text whose parts are separated by slashes. Folders are
not spelled with a slash at the end, the root apart. The hierarchy is read off
the spelling alone: nothing here knows which paths are stored. -/

namespace Workbench.Path

open Text

/-- The spelling under which a typed path is looked up: blanks around it and
slashes at its end are dropped, and slashes alone name the root. -/
def normalize (path : String) : String :=
  let trimmed := trimChars path.toList
  let stripped := dropEndWhile (· == '/') trimmed
  if stripped.isEmpty && !trimmed.isEmpty then "/" else String.ofList stripped

/-- The part after the last slash. -/
def fileName (path : String) : String :=
  match cutAtLast '/' path.toList with
  | some (_, name) => String.ofList name
  | none => path

/-- The part of the file name after its last dot, in lower case. A name that
begins or ends with that dot has no extension. -/
def extension? (path : String) : Option String :=
  match cutAtLast '.' (fileName path).toList with
  | some (stem, ext) =>
      if stem.isEmpty || ext.isEmpty then none
      else some (String.ofList (ext.map Char.toLower))
  | none => none

/-- The folder that holds a path; the root and texts without a slash have
none. -/
def parent? (path : String) : Option String :=
  match cutAtLast '/' path.toList with
  | some (parent, name) =>
      if parent.isEmpty then (if name.isEmpty then none else some "/")
      else some (String.ofList parent)
  | none => none

/-- What follows a folder in the spelling of a path strictly below it. -/
def below? (path folder : String) : Option (List Char) :=
  match (dropEndWhile (· == '/') folder.toList).isPrefixOf? path.toList with
  | some rest => if rest.head? = some '/' then some rest else none
  | none => none

/-- The path is the folder itself or lies anywhere below it. -/
def isUnder (path folder : String) : Bool :=
  path == folder || (below? path folder).isSome

/-- Where a path at or below one folder lies once that folder has moved. -/
def rebase? (path oldFolder newFolder : String) : Option String :=
  if path = oldFolder then some newFolder
  else (below? path oldFolder).map fun rest =>
    String.ofList (dropEndWhile (· == '/') newFolder.toList ++ rest)

/-- The folders above a path, nearest first, at most as many as allowed. -/
def ancestorsUpTo : Nat → String → List String
  | 0, _ => []
  | limit + 1, path =>
      match parent? path with
      | some parent => if parent = "/" then [] else parent :: ancestorsUpTo limit parent
      | none => []

/-- The folders above a path and below the root, nearest first. Each is
shorter than the one before it, so the length of the path bounds their
number. -/
def ancestors (path : String) : List String := ancestorsUpTo path.length path

theorem isUnder_self (path : String) : isUnder path path = true := by
  simp [isUnder]

theorem rebase?_self (folder newFolder : String) :
    rebase? folder folder newFolder = some newFolder := by
  simp [rebase?]

/-- A path has a place in the moved folder exactly if it was at or below the
old one. -/
theorem isSome_rebase? (path oldFolder newFolder : String) :
    (rebase? path oldFolder newFolder).isSome = isUnder path oldFolder := by
  by_cases h : path = oldFolder <;> simp [rebase?, isUnder, h]

end Workbench.Path
