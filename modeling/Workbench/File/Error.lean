/-! # Failures of a file service

Every reason for which a file service may refuse a call, with its wording. -/

namespace Workbench

/-- Why a call of a file service failed. -/
inductive FileError
  /-- Nothing is stored at the path. -/
  | notFound (path : String)
  /-- The stored version is not the expected one. -/
  | versionMismatch (path : String)
  /-- Something is stored at the path already. -/
  | alreadyExists (path : String)
  /-- The service answered with a failure of its own. -/
  | status (code : Nat) (body : String)
  /-- No answer came. -/
  | transport (reason : String)
  /-- The answer could not be read. -/
  | decode (reason : String)
  deriving DecidableEq, Inhabited

namespace FileError

def message : FileError → String
  | .notFound path => s!"file `{path}` was not found"
  | .versionMismatch path => s!"file `{path}` changed on the server since it was last read"
  | .alreadyExists path => s!"path `{path}` already exists"
  | .status code body => s!"file service responded with status {code}: {body}"
  | .transport reason => s!"file service request failed: {reason}"
  | .decode reason => s!"failed to decode file service response: {reason}"

/-- The failure says that nothing is stored at the path. -/
def isNotFound : FileError → Bool
  | .notFound _ => true
  | _ => false

end FileError

end Workbench
