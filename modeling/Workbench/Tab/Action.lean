import Workbench.Tab.Basic

/-! # Actions on the open tabs

What can be asked of the collection of open tabs, and what is told about it
afterwards. Answers of a file service take part as actions of their own. -/

namespace Workbench

/-- How a refresh was answered. -/
inductive RefreshResult
  | fetched (content : FileContent)
  | notFound
  | failed (message : String)
  deriving DecidableEq, Inhabited

/-- How a save was answered. -/
inductive SaveResult
  | written (write : WriteResult)
  | versionMismatch
  | failed (message : String)
  deriving DecidableEq, Inhabited

/-- One step of the open tabs. -/
inductive TabAction
  | openTab (file : FileInfo) (content : String) (encoding : Encoding) (etag : Option String)
  /-- Adds a tab whose content is to be read later. -/
  | openUnloaded (file : FileInfo)
  | activate (index : Nat)
  | close (index : Nat)
  | closeOthers (index : Nat)
  | closeAll
  | reorder (source : Nat) (target : Nat)
  | edit (index : Nat) (content : String) (time : Nat)
  | updatePath (oldPath : String) (newPath : String)
  | updatePathsUnder (oldFolder : String) (newFolder : String)
  | closeByPath (path : String) (isFolder : Bool)
  | refreshStarted (index : Nat) (request : RequestId)
  | refreshResolved (tab : TabId) (request : RequestId) (result : RefreshResult)
  | queueSave (index : Nat)
  | cancelQueuedSave (index : Nat)
  | saveStarted (index : Nat) (request : RequestId)
  | saveResolved (tab : TabId) (request : RequestId) (result : SaveResult)
  | acceptServer (index : Nat) (content : FileContent)
  | keepLocal (index : Nat)
  | savedAs (index : Nat) (newPath : String) (write : WriteResult)
  /-- Another writer, such as an upload, replaced the file at a path. -/
  | externalWrite (path : String) (content : String) (encoding : Encoding) (write : WriteResult)
  deriving DecidableEq, Inhabited

inductive DropReason
  | tabClosed
  | superseded
  | localEdits
  deriving DecidableEq, Inhabited

namespace DropReason

def name : DropReason → String
  | .tabClosed => "tab_closed"
  | .superseded => "superseded"
  | .localEdits => "local_edits"

end DropReason

/-- What a step has done. -/
inductive TabOutcome
  | unchanged
  | updated
  | opened (index : Nat) (reused : Bool)
  | closed (count : Nat)
  | pathsUpdated (count : Nat)
  | adopted (index : Nat)
  | conflict (index : Nat) (reason : ConflictReason)
  | refreshFailed (index : Nat) (message : String)
  | saved (index : Nat) (stillDirty : Bool)
  | saveFailed (index : Nat) (message : String)
  | dropped (reason : DropReason)
  deriving DecidableEq, Inhabited

end Workbench
