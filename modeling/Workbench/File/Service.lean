import Workbench.File.Basic
import Workbench.File.Error

/-! # File services

A file service is any state that answers five calls. The answer and the next
state are all that a caller sees of it; whether the files are kept in memory or
by a peer far away is up to the instance. Nothing is assumed about the
answers. -/

namespace Workbench

/-- The calls by which files are read and changed. -/
class FileService (σ : Type) where
  /-- The body and version of a file. -/
  fetchFile (path : String) : σ → Except FileError FileContent × σ
  /-- Stores a file. With an expected version, a file of another version is to
  be left alone. -/
  storeFile (path content : String) (encoding : Encoding) (expected : Option String) :
    σ → Except FileError WriteResult × σ
  /-- Moves a file or folder. -/
  movePath (oldPath newPath : String) : σ → Except FileError Unit × σ
  /-- Removes a file or folder. -/
  removePath (path : String) : σ → Except FileError Unit × σ
  /-- The entries directly in a folder. -/
  listFolder (path : String) : σ → Except FileError (List DirEntry) × σ

end Workbench
