import Workbench.Json.Value
import Workbench.Word

/-! # Records in JSON

How a record with declared fields is read from a value. A record value names
its fields: unknown names are passed over, and no declared name may occur
twice. A list gives the fields in the order of their declaration, and fields at
the end may be absent. What an absent field means is decided field by field. -/

namespace Workbench.Json

/-- The value under a name among members. -/
def member? (name : String) (members : List (Option String × Json)) : Option Json :=
  (members.find? fun m => m.1 == some name).map (·.2)

def memberCount (name : String) (members : List (Option String × Json)) : Nat :=
  members.countP fun m => m.1 == some name

/-- The values of the declared fields, in declaration order. -/
def fields? (names : List String) : Json → Option (List (Option Json))
  | .record members =>
      if members.any (·.1.isNone) || names.any (fun name => memberCount name members > 1) then none
      else some (names.map fun name => member? name members)
  | .list items =>
      if items.length ≤ names.length then
        some (items.map some ++ List.replicate (names.length - items.length) none)
      else none
  | _ => none

def required {α : Type} (read : Json → Option α) (field : Option Json) : Option α :=
  field.bind read

/-- A field that has a value when it is absent. -/
def defaulted {α : Type} (value : α) (read : Json → Option α) : Option Json → Option α
  | none => some value
  | some j => read j

/-- A value that may be null. -/
def nullable {α : Type} (read : Json → Option α) : Json → Option (Option α)
  | .null => some none
  | j => (read j).map some

def text? : Json → Option String
  | .text s => some s
  | _ => none

def bool? : Json → Option Bool
  | .bool b => some b
  | _ => none

def natural? : Json → Option Nat
  | .integer n => if 0 ≤ n && Word.fits n.toNat then some n.toNat else none
  | _ => none

/-- A signed number of at most 64 bits. -/
def signed? : Json → Option Int
  | .integer n => if Word.fitsSigned n then some n else none
  | _ => none

/-- A list whose items are all of one form. -/
def listOf? {α : Type} (read : Json → Option α) : Json → Option (List α)
  | .list items => items.mapM read
  | _ => none

/-- One of a few names, given as a text or as the only member of a record
whose value is null. -/
def oneOf? {α : Type} (named : String → Option α) : Json → Option α
  | .text s => named s
  | .record [(some s, .null)] => named s
  | _ => none

end Workbench.Json
