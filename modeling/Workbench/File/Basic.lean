import Workbench.Path
import Workbench.Text.Percent

/-! # Stored files

What a file service tells about the files it keeps: bodies, versions and folder
listings. Sizes count bytes of UTF-8, times are whatever number the service
reports, and a version is an opaque name called an etag. -/

namespace Workbench

/-- How the content of a file is to be read. Content is never transcoded. -/
inductive Encoding
  | utf8
  | base64
  deriving DecidableEq, Inhabited

namespace Encoding

def name : Encoding → String
  | .utf8 => "utf-8"
  | .base64 => "base64"

def named (s : String) : Option Encoding :=
  if s = "utf-8" then some .utf8 else if s = "base64" then some .base64 else none

theorem named_name (e : Encoding) : named e.name = some e := by
  cases e <;> decide

end Encoding

/-- Files have content, folders hold files. -/
inductive EntryKind
  | file
  | folder
  deriving DecidableEq, Inhabited

namespace EntryKind

def name : EntryKind → String
  | .file => "file"
  | .folder => "folder"

def named (s : String) : Option EntryKind :=
  if s = "file" then some .file else if s = "folder" then some .folder else none

theorem named_name (k : EntryKind) : named k.name = some k := by
  cases k <;> decide

end EntryKind

def byteSize (s : String) : Nat := s.utf8ByteSize

/-- Body and version of a file, as a read answers them. -/
structure FileContent where
  path : String
  content : String
  encoding : Encoding
  etag : String
  size : Nat
  modified : Option Int
  deriving DecidableEq, Inhabited

/-- What a write has stored. -/
structure WriteResult where
  path : String
  size : Nat
  modified : Option Int
  etag : String
  deriving DecidableEq, Inhabited

/-- One line of a folder listing. -/
structure DirEntry where
  path : String
  kind : EntryKind
  size : Nat
  modified : Option Int
  deriving DecidableEq, Inhabited

namespace WriteResult

/-- The listing line of the file just written. -/
def toEntry (w : WriteResult) : DirEntry :=
  { path := w.path, kind := .file, size := w.size, modified := w.modified }

end WriteResult

/-- What a tab shows about its file apart from the content. -/
structure FileInfo where
  path : String
  name : String
  size : Nat
  extension : Option String
  modified : Option Int
  readOnly : Bool
  deriving DecidableEq, Inhabited

namespace FileInfo

/-- What the path alone tells about a file. -/
def ofPath (path : String) : FileInfo :=
  { path
    name := Path.fileName path
    size := 0
    extension := Path.extension? path
    modified := none
    readOnly := false }

/-- Takes size and time from a read; path and flags stay. -/
def withMeta (info : FileInfo) (content : FileContent) : FileInfo :=
  { info with size := content.size, modified := content.modified }

/-- What a read tells about its file. -/
def ofContent (content : FileContent) : FileInfo :=
  (ofPath content.path).withMeta content

/-- Takes size and time from a write; path and flags stay. -/
def withWrite (info : FileInfo) (write : WriteResult) : FileInfo :=
  { info with size := write.size, modified := write.modified }

/-- The same file under another path. -/
def moveTo (info : FileInfo) (path : String) : FileInfo :=
  { info with path, name := Path.fileName path, extension := Path.extension? path }

@[simp] theorem path_ofPath (path : String) : (ofPath path).path = path := rfl

@[simp] theorem path_withMeta (info : FileInfo) (content : FileContent) :
    (info.withMeta content).path = info.path := rfl

@[simp] theorem path_ofContent (content : FileContent) :
    (ofContent content).path = content.path := rfl

@[simp] theorem path_withWrite (info : FileInfo) (write : WriteResult) :
    (info.withWrite write).path = info.path := rfl

@[simp] theorem path_moveTo (info : FileInfo) (path : String) :
    (info.moveTo path).path = path := rfl

@[simp] theorem readOnly_withMeta (info : FileInfo) (content : FileContent) :
    (info.withMeta content).readOnly = info.readOnly := rfl

@[simp] theorem readOnly_withWrite (info : FileInfo) (write : WriteResult) :
    (info.withWrite write).readOnly = info.readOnly := rfl

@[simp] theorem readOnly_moveTo (info : FileInfo) (path : String) :
    (info.moveTo path).readOnly = info.readOnly := rfl

end FileInfo

end Workbench
