/-! # JSON values

The values of the JSON grammar, told apart as far as a reader of records needs
it. Integer literals keep their value; every other number keeps its spelling.
A string literal may escape half of a surrogate pair, and then it is well
formed but names no text. -/

namespace Workbench

/-- A JSON value. `broken` is a string literal that names no text, and a member
without a name has such a literal in place of its name. -/
inductive Json
  | null
  | bool (b : Bool)
  | integer (n : Int)
  | decimal (literal : String)
  | text (s : String)
  | broken
  | list (items : List Json)
  | record (members : List (Option String × Json))
  deriving Inhabited

namespace Json

/-- A record with named members. -/
def ofMembers (members : List (String × Json)) : Json :=
  .record (members.map fun (name, value) => (some name, value))

/-- A text, or null in its absence. -/
def ofText? : Option String → Json
  | some s => .text s
  | none => .null

/-- An integer, or null in its absence. -/
def ofInt? : Option Int → Json
  | some n => .integer n
  | none => .null

end Json

end Workbench
