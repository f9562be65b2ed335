import Workbench.Text.Blank

/-! # Environments

The variables that a process was started with. -/

namespace Workbench

open Text

/-- Variables with their values. The first of two with one name counts. -/
structure Environment where
  bindings : List (String × String)
  deriving DecidableEq, Inhabited

namespace Environment

def get? (env : Environment) (name : String) : Option String :=
  (env.bindings.find? fun v => v.1 == name).map (·.2)

/-- The value of a variable, unless it is blank. -/
def given? (env : Environment) (name : String) : Option String :=
  (env.get? name).filter fun value => !(trim value).isEmpty

end Environment

end Workbench
