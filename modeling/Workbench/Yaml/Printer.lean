import Workbench.Json.Value
import Workbench.Text.Hex
import Workbench.Yaml.Scalar

/-! # Writing YAML

Records are written as blocks, one field a line and two spaces per level. A text
stands without quotes where it is read back as the same text; else it is put in
single quotes, as a block of lines if it has line ends, or in double quotes if it
has characters that must be escaped. -/

namespace Workbench.Yaml

open Text

inductive Doc
  | flag (b : Bool)
  | number (n : Nat)
  | text (s : String)
  | record (fields : List (String × Doc))
  deriving Inhabited

/-- A character that need not be escaped. -/
def isPrintable (c : Char) : Bool :=
  let n := c.toNat
  n == 0x0a || (0x20 ≤ n && n ≤ 0x7e) || (0xa0 ≤ n && n ≤ 0xfffd && n != 0xfeff) || 0x10000 ≤ n

/-- Two neighbours somewhere in a list satisfy a test. -/
def anyPair (p : Char → Char → Bool) (cs : List Char) : Bool :=
  (cs.zip (cs.drop 1)).any fun (c, d) => p c d

/-- A text begins like something else than a text. -/
def beginsSpecially (cs : List Char) : Bool :=
  ["---".toList, "...".toList].contains (cs.take 3) ||
    match cs with
    | [] => false
    | c :: rest =>
        "#,[]\x7b\x7d&*!|>'\"%@\x60".toList.contains c ||
          ("?:-".toList.contains c && endsWord rest)

/-- After its first character, a text has a colon at the end of a word or a hash
sign at the beginning of one. -/
def hasMarks (cs : List Char) : Bool :=
  (List.range cs.length).any fun i =>
    i > 0 &&
      ((cs[i]? == some ':' && endsWord (cs.drop (i + 1))) ||
        (cs[i]? == some '#' && endsWord (cs.drop (i - 1))))

def isEdge (c : Char) : Bool := c == ' ' || isBreak c

/-- How a text is written. -/
inductive Style
  | plain
  | single
  | double
  | literal
  deriving DecidableEq, Inhabited

/-- A text may stand in double quotes only. -/
def needsEscapes (cs : List Char) : Bool :=
  cs.any (!isPrintable ·) || anyPair (fun c d => c == ' ' && isBreak d) cs

/-- A text may stand in single quotes. -/
def allowsSingle (cs : List Char) : Bool :=
  !needsEscapes cs && !anyPair (fun c d => isBreak c && d == ' ') cs

/-- A text may stand without quotes. -/
def allowsPlain (cs : List Char) : Bool :=
  allowsSingle cs && !cs.any isBreak && !cs.head?.any isEdge && !cs.getLast?.any isEdge &&
    !beginsSpecially cs && !hasMarks cs

def styleOf (s : String) : Style :=
  let cs := s.toList
  if cs.contains '\n' then
    if needsEscapes cs || cs.getLast? == some ' ' then .double else .literal
  else if !isReserved s && allowsPlain cs then .plain
  else if allowsSingle cs then .single
  else .double

def spaces (indent : Nat) : List Char := List.replicate indent ' '

/-- A text whose lines are indented. The second argument tells that a line begins
here. -/
def indentLines (indent : Nat) : Bool → List Char → List Char
  | _, [] => []
  | atStart, c :: rest =>
      if isBreak c then c :: indentLines indent true rest
      else (if atStart then spaces indent else []) ++ c :: indentLines indent false rest

def singleQuoted (indent : Nat) (cs : List Char) : List Char :=
  '\'' :: indentLines indent false (cs.flatMap fun c => if c = '\'' then ['\'', '\''] else [c]) ++
    (if cs.getLast?.any isBreak then spaces indent else []) ++ ['\'']

/-- The letter for a character after a backslash, if there is one. -/
def escapeLetter (c : Char) : Option Char :=
  ([('\x00', '0'), ('\x07', 'a'), ('\x08', 'b'), ('\t', 't'), ('\n', 'n'), ('\x0b', 'v'),
    ('\x0c', 'f'), ('\r', 'r'), ('\x1b', 'e'), ('"', '"'), ('\\', '\\'), ('\x85', 'N'),
    ('\u2028', 'L'), ('\u2029', 'P')].find? (·.1 == c)).map (·.2)

/-- The given number of upper-case digits of a number. -/
def upperHexDigits : Nat → Nat → List Char
  | 0, _ => []
  | width + 1, n => upperHexDigits width (n / 16) ++ [upperHexDigit (n % 16)]

/-- A character in double quotes. -/
def escaped (c : Char) : List Char :=
  match escapeLetter c with
  | some letter => ['\\', letter]
  | none =>
      if isPrintable c then [c]
      else if c.toNat ≤ 0xff then '\\' :: 'x' :: upperHexDigits 2 c.toNat
      else if c.toNat ≤ 0xffff then '\\' :: 'u' :: upperHexDigits 4 c.toNat
      else '\\' :: 'U' :: upperHexDigits 8 c.toNat

def doubleQuoted (cs : List Char) : List Char := '"' :: cs.flatMap escaped ++ ['"']

/-- The marks of a block of lines: its indentation if the text begins with a space
or a line break, and what becomes of the line breaks at its end. -/
def blockMarks (cs : List Char) : List Char :=
  (if cs.head?.any isEdge then ['2'] else []) ++
    match cs.reverse with
    | last :: before =>
        if !isBreak last then ['-']
        else if before.head?.all isBreak then ['+']
        else []
    | [] => ['-']

/-- A text as a block of lines, without the line break at its end. -/
def literalBlock (indent : Nat) (cs : List Char) : List Char :=
  let lines := indentLines indent true cs
  '|' :: blockMarks cs ++ '\n' :: (if cs.getLast?.any isBreak then lines.dropLast else lines)

/-- A text on the line of its field. Further lines are indented. -/
def textLines (indent : Nat) (s : String) : List Char :=
  match styleOf s with
  | .plain => s.toList
  | .single => singleQuoted indent s.toList
  | .double => doubleQuoted s.toList
  | .literal => literalBlock indent s.toList

mutual

/-- The value of a field at a level, from after the colon. -/
def Doc.value (level : Nat) : Doc → List Char
  | .flag b => ' ' :: (toString b).toList ++ ['\n']
  | .number n => ' ' :: (toString n).toList ++ ['\n']
  | .text s => ' ' :: textLines (2 * (level + 1)) s ++ ['\n']
  | .record [] => " \x7b\x7d\n".toList
  | .record (field :: rest) => '\n' :: Doc.lines (level + 1) (field :: rest)

/-- The fields of a record at a level. -/
def Doc.lines (level : Nat) : List (String × Doc) → List Char
  | [] => []
  | (name, doc) :: rest =>
      spaces (2 * level) ++ name.toList ++ ':' :: Doc.value level doc ++ Doc.lines level rest

end

mutual

/-- The same value in JSON. -/
def Doc.toJson : Doc → Json
  | .flag b => .bool b
  | .number n => .integer n
  | .text s => .text s
  | .record fields => .record (Doc.members fields)

/-- The same fields in JSON. -/
def Doc.members : List (String × Doc) → List (Option String × Json)
  | [] => []
  | (name, doc) :: rest => (some name, doc.toJson) :: Doc.members rest

end

def renderRecord (fields : List (String × Doc)) : String := String.ofList (Doc.lines 0 fields)

end Workbench.Yaml
