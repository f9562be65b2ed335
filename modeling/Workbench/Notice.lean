/-! # Notices

Short messages for the user. A notice has a level, a message, and at most one
line of details. -/

namespace Workbench

/-- What a notice is about. -/
inductive NoticeLevel
  | success
  | error
  | info
  deriving DecidableEq, Inhabited

namespace NoticeLevel

def name : NoticeLevel → String
  | .success => "success"
  | .error => "error"
  | .info => "info"

end NoticeLevel

/-- A message for the user. -/
structure Notice where
  level : NoticeLevel
  message : String
  details : Option String
  deriving DecidableEq, Inhabited

namespace Notice

def line (notice : Notice) : String :=
  match notice.details with
  | some details => s!"[{notice.level.name}] {notice.message}: {details}"
  | none => s!"[{notice.level.name}] {notice.message}"

end Notice

end Workbench
