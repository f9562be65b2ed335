import Workbench.File.Error
import Workbench.Tab.Basic

/-! # Failures of tab operations

Every reason for which an operation on tabs may be refused, with its wording. -/

namespace Workbench

/-- Why an operation on tabs failed. -/
inductive TabError
  /-- No tab has the position. -/
  | indexOutOfRange (index : Nat) (count : Nat)
  /-- The tab is not in conflict, so there is nothing to resolve. -/
  | notInConflict (path : String)
  /-- The tab cannot be saved before its conflict is resolved. -/
  | saveBlockedByConflict (path : String) (reason : ConflictReason)
  /-- Another tab at the target holds edits that would be lost. -/
  | targetHasUnsavedChanges (path : String)
  /-- The file must not be changed. -/
  | readOnly (path : String)
  /-- The file service refused. -/
  | file (error : FileError)
  deriving DecidableEq, Inhabited

namespace TabError

def message : TabError → String
  | .indexOutOfRange index count => s!"tab index {index} is out of range for {count} open tabs"
  | .notInConflict path => s!"tab `{path}` is not in conflict"
  | .saveBlockedByConflict path reason =>
      s!"tab `{path}` cannot be saved until its conflict ({reason.name}) is resolved"
  | .targetHasUnsavedChanges path => s!"tab `{path}` has unsaved changes"
  | .readOnly path => s!"file `{path}` is read-only"
  | .file error => error.message

end TabError

end Workbench
