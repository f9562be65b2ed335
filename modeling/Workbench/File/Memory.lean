import Workbench.Digest.Sha256
import Workbench.File.Service
import Workbench.Keyed

/-! # Files in memory

A file service that keeps everything in one value. The version of a file is a
digest of its encoding and content, so storing the same content again gives the
same version. Folders exist because files were once stored below them. Calls
are recorded, and failures can be planned ahead, each for one call. -/

namespace Workbench

/-- The calls that are recorded and for which failures can be planned. -/
inductive FileCall
  | read
  | write
  | rename
  | delete
  deriving DecidableEq, Inhabited

structure StoredFile where
  content : String
  encoding : Encoding
  etag : String
  modified : Int
  deriving DecidableEq, Inhabited

/-- A failure that waits for the next call of its kind on its path. -/
structure PlannedFailure where
  call : FileCall
  path : String
  error : FileError
  deriving DecidableEq, Inhabited

/-- All files and folders, a clock that counts the stores, the planned failures
and the calls so far, oldest first. -/
structure MemoryFiles where
  files : Keyed StoredFile
  folders : Keyed Unit
  clock : Int
  failures : List PlannedFailure
  calls : List (FileCall × String)
  deriving DecidableEq

namespace MemoryFiles

def empty : MemoryFiles :=
  { files := .empty, folders := .empty, clock := 0, failures := [], calls := [] }

instance : Inhabited MemoryFiles := ⟨empty⟩

def versionOf (encoding : Encoding) (content : String) : String :=
  etagOf (encoding.name ++ ":" ++ content)

/-- Adds the folders above a path, up to the first that exists already. -/
def addFoldersAbove (path : String) (folders : Keyed Unit) : Keyed Unit :=
  ((Path.ancestors path).takeWhile fun folder => !folders.contains folder).foldl
    (fun found folder => found.insert folder ()) folders

/-- Stores a file without any check. -/
def store (path content : String) (encoding : Encoding) (m : MemoryFiles) :
    WriteResult × MemoryFiles :=
  let modified := m.clock + 1
  let etag := versionOf encoding content
  ({ path, size := byteSize content, modified := some modified, etag },
    { m with
      files := m.files.insert path { content, encoding, etag, modified }
      folders := addFoldersAbove path m.folders
      clock := modified })

/-- Stores a text as another client would, and tells its version. -/
def put (path content : String) (m : MemoryFiles) : String × MemoryFiles :=
  let (write, m) := m.store path content .utf8
  (write.etag, m)

/-- Drops a file as another client would. -/
def remove (path : String) (m : MemoryFiles) : Bool × MemoryFiles :=
  (m.files.contains path, { m with files := m.files.erase path })

def content? (m : MemoryFiles) (path : String) : Option String :=
  (m.files.get? path).map (·.content)

def etag? (m : MemoryFiles) (path : String) : Option String :=
  (m.files.get? path).map (·.etag)

/-- Plans a failure for the next call of a kind on a path. -/
def plan (failure : PlannedFailure) (m : MemoryFiles) : MemoryFiles :=
  { m with failures := m.failures ++ [failure] }

def callCount (m : MemoryFiles) (call : FileCall) : Nat :=
  m.calls.countP fun c => c.1 == call

/-- Takes the first failure planned for a call out of a list. -/
def takeFailure (call : FileCall) (path : String) :
    List PlannedFailure → Option (FileError × List PlannedFailure)
  | [] => none
  | failure :: rest =>
      if failure.call = call ∧ failure.path = path then some (failure.error, rest)
      else (takeFailure call path rest).map fun (error, rest) => (error, failure :: rest)

/-- Records a call and answers it with a planned failure if there is one, and
otherwise as given. -/
def calling {α : Type} (call : FileCall) (path : String)
    (answer : MemoryFiles → Except FileError α × MemoryFiles) (m : MemoryFiles) :
    Except FileError α × MemoryFiles :=
  let m := { m with calls := m.calls ++ [(call, path)] }
  match takeFailure call path m.failures with
  | some (error, failures) => (.error error, { m with failures })
  | none => answer m

def read (path : String) (m : MemoryFiles) : Except FileError FileContent :=
  match m.files.get? path with
  | some file =>
      .ok { path, content := file.content, encoding := file.encoding, etag := file.etag,
            size := byteSize file.content, modified := some file.modified }
  | none => .error (.notFound path)

/-- The answer to a write. A file that is not there matches any expectation. -/
def write (path content : String) (encoding : Encoding) (expected : Option String)
    (m : MemoryFiles) : Except FileError WriteResult × MemoryFiles :=
  let stale := match expected, m.files.get? path with
    | some etag, some current => current.etag != etag
    | _, _ => false
  if stale then (.error (.versionMismatch path), m)
  else
    let (written, m) := m.store path content encoding
    (.ok written, m)

/-- Moves one file to its place in a moved folder. -/
def moveFile (oldFolder newFolder : String) (files : Keyed StoredFile) (path : String) :
    Keyed StoredFile :=
  match files.get? path, Path.rebase? path oldFolder newFolder with
  | some file, some target => (files.erase path).insert target file
  | _, _ => files.erase path

/-- Moves one folder to its place in a moved folder. -/
def moveFolder (oldFolder newFolder : String) (folders : Keyed Unit) (path : String) :
    Keyed Unit :=
  match Path.rebase? path oldFolder newFolder with
  | some target => (folders.erase path).insert target ()
  | none => folders.erase path

/-- The answer to a rename: a file is moved alone, a folder with everything at
or below it, and nothing is moved onto something stored. -/
def rename (oldPath newPath : String) (m : MemoryFiles) : Except FileError Unit × MemoryFiles :=
  if m.files.contains newPath || m.folders.contains newPath then
    (.error (.alreadyExists newPath), m)
  else
    match m.files.get? oldPath with
    | some file =>
        (.ok (),
          { m with
            files := (m.files.erase oldPath).insert newPath file
            folders := addFoldersAbove newPath m.folders })
    | none =>
        if !m.folders.contains oldPath then (.error (.notFound oldPath), m)
        else
          let under := fun path => Path.isUnder path oldPath
          let folders := (m.folders.keys.filter under).foldl (moveFolder oldPath newPath) m.folders
          (.ok (),
            { m with
              files := (m.files.keys.filter under).foldl (moveFile oldPath newPath) m.files
              folders := addFoldersAbove newPath folders })

/-- The answer to a removal: a file goes alone, a folder with everything at or
below it. -/
def delete (path : String) (m : MemoryFiles) : Except FileError Unit × MemoryFiles :=
  if m.files.contains path then (.ok (), { m with files := m.files.erase path })
  else if !m.folders.contains path then (.error (.notFound path), m)
  else
    (.ok (),
      { m with
        files := m.files.filter fun key _ => !Path.isUnder key path
        folders := m.folders.filter fun key _ => !Path.isUnder key path })

/-- The entries directly in a folder: first the folders, then the files. -/
def list (path : String) (m : MemoryFiles) : List DirEntry :=
  let inside := fun (key : String) => Path.parent? key == some path
  let folders := m.folders.keys.filter inside
  let files := m.files.entries.filter fun e => inside e.1
  folders.map (fun folder => { path := folder, kind := .folder, size := 0, modified := none }) ++
    files.map fun (key, file) =>
      { path := key, kind := .file, size := byteSize file.content,
        modified := some file.modified }

instance : FileService MemoryFiles where
  fetchFile path := calling .read path fun m => (m.read path, m)
  storeFile path content encoding expected :=
    calling .write path (write path content encoding expected)
  movePath oldPath newPath := calling .rename oldPath (rename oldPath newPath)
  removePath path := calling .delete path (delete path)
  listFolder path m := (.ok (m.list path), m)

end MemoryFiles

end Workbench
