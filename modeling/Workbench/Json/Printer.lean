import Workbench.Json.Value
import Workbench.Text.Hex

/-! # Writing JSON

Two spellings of a value: without any spaces, and over several lines with two
spaces per level. Strings are written raw but for the quote, the backslash and
the control characters below the space. -/

namespace Workbench.Json

open Text

/-- A character as it stands inside a string literal. -/
def escapeChar (c : Char) : List Char :=
  if c = '"' then ['\\', '"']
  else if c = '\\' then ['\\', '\\']
  else if c = '\x08' then ['\\', 'b']
  else if c = '\x0c' then ['\\', 'f']
  else if c = '\n' then ['\\', 'n']
  else if c = '\r' then ['\\', 'r']
  else if c = '\t' then ['\\', 't']
  else if c.toNat < 0x20 then '\\' :: 'u' :: hexDigits 4 c.toNat
  else [c]

def quote (s : String) : List Char :=
  '"' :: s.toList.flatMap escapeChar ++ ['"']

/-- A string literal that names no text: half a surrogate pair. -/
def brokenLiteral : List Char := "\"\\ud800\"".toList

def memberName : Option String → List Char
  | some name => quote name
  | none => brokenLiteral

mutual

/-- A value without spaces. -/
def compact : Json → List Char
  | .null => "null".toList
  | .bool true => "true".toList
  | .bool false => "false".toList
  | .integer n => (toString n).toList
  | .decimal literal => literal.toList
  | .text s => quote s
  | .broken => brokenLiteral
  | .list items => '[' :: compactItems items ++ [']']
  | .record members => '{' :: compactMembers members ++ ['}']

def compactItems : List Json → List Char
  | [] => []
  | [item] => compact item
  | item :: rest => compact item ++ ',' :: compactItems rest

/-- Record members with commas between them. -/
def compactMembers : List (Option String × Json) → List Char
  | [] => []
  | [(name, value)] => memberName name ++ ':' :: compact value
  | (name, value) :: rest =>
      memberName name ++ ':' :: compact value ++ ',' :: compactMembers rest

end

def newline (level : Nat) : List Char := '\n' :: List.replicate (2 * level) ' '

mutual

/-- A value over several lines, begun at the given level. -/
def indented (level : Nat) : Json → List Char
  | .list [] => "[]".toList
  | .list (item :: rest) =>
      '[' :: indentedItems (level + 1) (item :: rest) ++ newline level ++ [']']
  | .record [] => "{}".toList
  | .record (member :: rest) =>
      '{' :: indentedMembers (level + 1) (member :: rest) ++ newline level ++ ['}']
  | .null => "null".toList
  | .bool true => "true".toList
  | .bool false => "false".toList
  | .integer n => (toString n).toList
  | .decimal literal => literal.toList
  | .text s => quote s
  | .broken => brokenLiteral

def indentedItems (level : Nat) : List Json → List Char
  | [] => []
  | [item] => newline level ++ indented level item
  | item :: rest => newline level ++ indented level item ++ ',' :: indentedItems level rest

def indentedMembers (level : Nat) : List (Option String × Json) → List Char
  | [] => []
  | [(name, value)] => newline level ++ memberName name ++ ':' :: ' ' :: indented level value
  | (name, value) :: rest =>
      newline level ++ memberName name ++ ':' :: ' ' :: indented level value ++
        ',' :: indentedMembers level rest

end

def render (value : Json) : String := String.ofList (compact value)

/-- The text of a value over several lines. -/
def renderPretty (value : Json) : String := String.ofList (indented 0 value)

end Workbench.Json
