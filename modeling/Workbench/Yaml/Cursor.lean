/-! # Positions in a YAML text

What is left of a text, with the line and the column of its first character.
The structure of a YAML text hangs on columns, and an unquoted key must stand on
one line, so both are kept. -/

namespace Workbench.Yaml

def isBreak (c : Char) : Bool :=
  c == '\n' || c == '\r' || c == '\x85' || c == '\u2028' || c == '\u2029'

def isGap (c : Char) : Bool := c == ' ' || c == '\t'

/-- The next character ends a word: a space, a tab, a line break or the end. -/
def endsWord : List Char → Bool
  | [] => true
  | c :: _ => isGap c || isBreak c

/-- The next character ends a line: a line break or the end. -/
def endsLine : List Char → Bool
  | [] => true
  | c :: _ => isBreak c

/-- Characters that may stand in a YAML text. -/
def isAllowed (c : Char) : Bool :=
  let n := c.toNat
  n == 0x09 || n == 0x0a || n == 0x0d || (0x20 ≤ n && n ≤ 0x7e) || n == 0x85 ||
    (0xa0 ≤ n && n ≤ 0xfffd) || 0x10000 ≤ n

def breakText (c : Char) : Char :=
  if c = '\u2028' ∨ c = '\u2029' then c else '\n'

/-- The first line break of a text and what follows it. A carriage return with a
line feed is one break. -/
def splitBreak? : List Char → Option (Char × List Char)
  | '\r' :: '\n' :: rest => some ('\n', rest)
  | c :: rest => if isBreak c then some (breakText c, rest) else none
  | [] => none

/-- A position in a text. -/
structure Cursor where
  rest : List Char
  line : Nat
  column : Nat
  deriving DecidableEq, Inhabited

namespace Cursor

/-- The beginning of a text. A byte order mark is passed over. -/
def ofText (text : List Char) : Cursor :=
  { rest := if text.head? = some '\ufeff' then text.drop 1 else text, line := 0, column := 0 }

/-- A later position on the same line, told by what is left there. -/
def moveTo (c : Cursor) (rest : List Char) : Cursor :=
  { c with rest, column := c.column + (c.rest.length - rest.length) }

/-- A number of characters later on the same line. -/
def skip (c : Cursor) (n : Nat) : Cursor := c.moveTo (c.rest.drop n)

/-- After the characters of a kind that come next on the line. -/
def skipWhile (c : Cursor) (p : Char → Bool) : Cursor := c.moveTo (c.rest.dropWhile p)

/-- The beginning of the next line, told by what is left there. -/
def nextLine (c : Cursor) (rest : List Char) : Cursor :=
  { rest, line := c.line + 1, column := 0 }

/-- A line begins here with three hyphens or three points, as between
documents. -/
def atMarker (c : Cursor) : Bool :=
  c.column == 0 && (["---".toList, "...".toList].contains (c.rest.take 3)) &&
    endsWord (c.rest.drop 3)

end Cursor

end Workbench.Yaml
