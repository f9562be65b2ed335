import Workbench.Keyed
import Workbench.Path
import Workbench.Text.Percent

/-! # Disks

A disk holds folders and files with their bytes under absolute paths. Settings,
snapshots and journals are kept on it. Files are replaced as a whole: a new
content is written beside the old one and then takes its name, so a reader never
sees half of it, and a refused replacement leaves the old content. -/

namespace Workbench

/-- Why a disk refused an operation. -/
inductive DiskError
  | notFound
  | isFolder
  | notFolder
  | taken
  | notText
  | noParent
  | nameTooLong
  deriving DecidableEq, Inhabited

namespace DiskError

def message : DiskError → String
  | .notFound => "No such file or directory (os error 2)"
  | .isFolder => "Is a directory (os error 21)"
  | .notFolder => "Not a directory (os error 20)"
  | .taken => "File exists (os error 17)"
  | .notText => "stream did not contain valid UTF-8"
  | .noParent => "path has no parent"
  | .nameTooLong => "File name too long (os error 36)"

end DiskError

/-- What a disk holds at a path. -/
inductive DiskNode
  | folder
  | file (bytes : List UInt8)
  deriving DecidableEq, Inhabited

/-- The files and folders below the root, which is always there. -/
structure Disk where
  nodes : Keyed DiskNode
  deriving DecidableEq

namespace Disk

open Text

def empty : Disk := { nodes := .empty }

instance : Inhabited Disk := ⟨empty⟩

/-- The parts of a path between slashes. -/
def parts (path : String) : List String :=
  (path.toList.splitOnP (· == '/')).map String.ofList

/-- The names on the way to a path. Empty parts and single dots go nowhere. -/
def steps (path : String) : List String :=
  (parts path).filter fun part => part != "" && part != "."

/-- The path starts at the root. -/
def isAbsolute (path : String) : Bool := path.toList.head? == some '/'

/-- A path inside a folder; an absolute path stays as it is. -/
def join (folder path : String) : String :=
  if isAbsolute path || folder.isEmpty then path
  else if folder.toList.getLast? == some '/' then folder ++ path
  else folder ++ "/" ++ path

/-- The path of the names on the way. -/
def ofSteps (names : List String) : String :=
  if names.isEmpty then "/" else String.join (names.map ("/" ++ ·))

/-- Takes one step. Two dots lead back. -/
def step (names : List String) (name : String) : List String :=
  if name == ".." then names.dropLast else names ++ [name]

/-- A name has at most 255 bytes. -/
def isLongName (name : String) : Bool := name.utf8ByteSize > 255

/-- The name under which a new content is written before it takes its own name has
some 30 bytes more. -/
def isLongDraft (path : String) : Bool :=
  (steps path).getLast?.any fun name => name.utf8ByteSize + 30 > 255

/-- The names on the direct way to a path. -/
def route (path : String) : List String := (steps path).foldl step []

/-- The path of the folder that holds a path. -/
def folderOf (path : String) : String :=
  let folder := "/".intercalate (steps path).dropLast
  if isAbsolute path then "/" ++ folder else folder

/-- A path that ends in a slash or in a single dot can name only a folder. -/
def namesFolder (path : String) : Bool :=
  match (parts path).getLast? with
  | some last => last == "" || last == "."
  | none => false

/-- What the disk holds at the end of a way. Every name but the last must be a
folder's. Two dots lead back from a folder. -/
def follow (disk : Disk) (reached : List String) : List String → Except DiskError DiskNode
  | [] =>
      if reached.isEmpty then .ok .folder
      else match disk.nodes.get? (ofSteps reached) with
        | some node => .ok node
        | none => .error .notFound
  | name :: rest =>
      let here := step reached name
      if isLongName name then .error .nameTooLong
      else
        match if here.isEmpty then some .folder else disk.nodes.get? (ofSteps here), rest with
        | none, _ => .error .notFound
        | some node, [] => .ok node
        | some .folder, rest => disk.follow here rest
        | some (.file _), _ => .error .notFolder

def node (disk : Disk) (path : String) : Except DiskError DiskNode :=
  match disk.follow [] (steps path) with
  | .ok (.file bytes) => if namesFolder path then .error .notFolder else .ok (.file bytes)
  | found => found

def holds (disk : Disk) (path : String) : Bool := (disk.node path).toBool

def read (disk : Disk) (path : String) : Except DiskError (List UInt8) :=
  match disk.node path with
  | .ok (.file bytes) => .ok bytes
  | .ok .folder => .error .isFolder
  | .error error => .error error

def readText (disk : Disk) (path : String) : Except DiskError String :=
  match disk.read path with
  | .error error => .error error
  | .ok bytes =>
      match String.fromUTF8? (ByteArray.mk bytes.toArray) with
      | some text => .ok text
      | none => .error .notText

/-- Makes the folders on a way that are not there. A file at its end takes the
place of the folder. -/
def makeFolders (disk : Disk) (reached : List String) : List String → Except DiskError Unit × Disk
  | [] => (.ok (), disk)
  | name :: rest =>
      let here := step reached name
      if isLongName name then (.error .nameTooLong, disk)
      else
        match if here.isEmpty then some .folder else disk.nodes.get? (ofSteps here) with
        | some .folder => disk.makeFolders here rest
        | some (.file _) => (.error (if rest.isEmpty then .taken else .notFolder), disk)
        | none =>
            { disk with nodes := disk.nodes.insert (ofSteps here) .folder }.makeFolders here rest

/-- Makes a folder with all folders above it. -/
def makeFolder (disk : Disk) (path : String) : Except DiskError Unit × Disk :=
  disk.makeFolders [] (steps path)

/-- Makes the folder that is to hold a path. -/
def makeParent (disk : Disk) (path : String) : Except DiskError Unit × Disk :=
  disk.makeFolders [] (steps path).dropLast

/-- Stores a file whose folder is there. A folder is not replaced. -/
def store (disk : Disk) (path : String) (bytes : List UInt8) : Except DiskError Unit × Disk :=
  match disk.node path with
  | .ok .folder => (.error .isFolder, disk)
  | .error .notFolder => (.error .notFolder, disk)
  | .error .nameTooLong => (.error .nameTooLong, disk)
  | _ =>
      if namesFolder path then (.error .notFolder, disk)
      else (.ok (), { disk with nodes := disk.nodes.insert (ofSteps (route path)) (.file bytes) })

/-- Replaces a file as a whole, making its folder first. -/
def replace (disk : Disk) (path : String) (bytes : List UInt8) : Except DiskError Unit × Disk :=
  if (steps path).isEmpty then (.error .noParent, disk)
  else
    match disk.makeParent path with
    | (.error error, disk) => (.error error, disk)
    | (.ok _, disk) =>
        if isLongDraft path then (.error .nameTooLong, disk) else disk.store path bytes

/-- Adds bytes to the end of a file, making the file and its folder first. What
is refused is dropped. -/
def append (disk : Disk) (path : String) (bytes : List UInt8) : Disk :=
  match disk.makeParent path with
  | (.error _, disk) => disk
  | (.ok _, disk) =>
      let before := (disk.read path).toOption.getD []
      (disk.store path (before ++ bytes)).2

/-- The names in a folder, in order. -/
def names (disk : Disk) (folder : String) : List String :=
  let key := ofSteps (route folder)
  (disk.nodes.keys.filter fun k => Path.parent? k == some key).map Path.fileName

end Disk

end Workbench
