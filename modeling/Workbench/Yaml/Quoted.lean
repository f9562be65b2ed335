import Workbench.Text.Hex
import Workbench.Yaml.Gap

/-! # Text values in a YAML text

A text value is written without quotes, in single or double quotes, or as a
block of lines. In single quotes a quote is written twice; in double quotes a
backslash begins an escape. -/

namespace Workbench.Yaml

open Text

/-- Where a run of characters without gaps ended: the run and what is left. -/
abbrev Run := List Char × List Char

/-- Puts characters before a run. -/
def before (cs : List Char) (r : Run) : Run := (cs ++ r.1, r.2)

/-- The run of an unquoted text. A colon before the end of a word ends it, and
inside brackets so does any bracket or comma. -/
def plainRun (inFlow : Bool) : List Char → Option Run
  | [] => some ([], [])
  | c :: rest =>
      if isGap c || isBreak c then some ([], c :: rest)
      else if inFlow && c == ':' && (rest.head?.any ",?[]\x7b\x7d".toList.contains) then none
      else if (c == ':' && endsWord rest) || (inFlow && ",[]\x7b\x7d".toList.contains c) then
        some ([], c :: rest)
      else (plainRun inFlow rest).map (before [c])

def singleRun : List Char → Run
  | '\'' :: '\'' :: rest => before ['\''] (singleRun rest)
  | '\'' :: rest => ([], '\'' :: rest)
  | c :: rest => if isGap c || isBreak c then ([], c :: rest) else before [c] (singleRun rest)
  | [] => ([], [])

/-- The character that a letter after a backslash stands for. -/
def escapeLetter? (c : Char) : Option Char :=
  ([('0', '\x00'), ('a', '\x07'), ('b', '\x08'), ('t', '\t'), ('\t', '\t'), ('n', '\n'),
    ('v', '\x0b'), ('f', '\x0c'), ('r', '\r'), ('e', '\x1b'), (' ', ' '), ('"', '"'),
    ('/', '/'), ('\\', '\\'), ('N', '\x85'), ('_', '\xa0'), ('L', '\u2028'),
    ('P', '\u2029')].find? (·.1 == c)).map (·.2)

/-- The character that hexadecimal digits number. -/
def numbered? (digits : List Char) : Option Char := do
  let n ← hexNumber? digits
  if n < 0xd800 ∨ (0xdfff < n ∧ n ≤ 0x10ffff) then some (Char.ofNat n) else none

/-- The run of a text in double quotes. It ends before a line break that is
escaped. -/
def doubleRun : List Char → Option Run
  | '\\' :: 'x' :: a :: b :: rest => do
      let c ← numbered? [a, b]
      (doubleRun rest).map (before [c])
  | '\\' :: 'u' :: a :: b :: c :: d :: rest => do
      let c ← numbered? [a, b, c, d]
      (doubleRun rest).map (before [c])
  | '\\' :: 'U' :: a :: b :: c :: d :: e :: f :: g :: h :: rest => do
      let c ← numbered? [a, b, c, d, e, f, g, h]
      (doubleRun rest).map (before [c])
  | '\\' :: c :: rest =>
      if isBreak c then some ([], '\\' :: c :: rest)
      else do
        let c ← escapeLetter? c
        (doubleRun rest).map (before [c])
  | ['\\'] => none
  | '"' :: rest => some ([], '"' :: rest)
  | c :: rest =>
      if isGap c || isBreak c then some ([], c :: rest) else (doubleRun rest).map (before [c])
  | [] => some ([], [])

/-- A text value that was read, whether a line break followed it, and where it
ended. -/
structure TextRead where
  text : List Char
  broken : Bool
  cursor : Cursor
  deriving DecidableEq, Inhabited

/-- The rest of an unquoted text after some of it and a gap. The first argument
bounds the number of runs. -/
def plainFrom (inFlow : Bool) (margin : Nat) :
    Nat → List Char → Gap → Cursor → Option TextRead
  | 0, _, _, _ => none
  | fuel + 1, text, gap, c =>
      if c.atMarker || c.rest.head? == some '#' then
        some { text, broken := gap.broken, cursor := c }
      else do
        let (run, rest) ← plainRun inFlow c.rest
        let text := if run.isEmpty then text else text ++ gap.text ++ run
        let gap := if run.isEmpty then gap else .none
        let c := c.moveTo rest
        if rest.head?.any fun d => isGap d || isBreak d then
          let (gap, c) ← gap.read margin c.line c.column c.rest
          if !inFlow && c.column < margin then pure { text, broken := gap.broken, cursor := c }
          else plainFrom inFlow margin fuel text gap c
        else pure { text, broken := gap.broken, cursor := c }

/-- An unquoted text. Outside of brackets its lines may not begin left of the
margin. -/
def plain (inFlow : Bool) (margin : Nat) (c : Cursor) : Option TextRead :=
  plainFrom inFlow margin (c.rest.length + 1) [] .none c

/-- The rest of a quoted text after some of it. -/
def quotedFrom (double : Bool) : Nat → List Char → Cursor → Option TextRead
  | 0, _, _ => none
  | fuel + 1, text, c =>
      if c.atMarker then none
      else do
        let (run, rest) ← if double then doubleRun c.rest else some (singleRun c.rest)
        let text := text ++ run
        let c := c.moveTo rest
        match rest with
        | [] => none
        | '\\' :: more =>
            let (_, rest) ← splitBreak? more
            let (gap, c) ← Gap.escaped.read 0 (c.line + 1) 0 rest
            quotedFrom double fuel (text ++ gap.text) c
        | d :: _ =>
            if isGap d || isBreak d then
              let (gap, c) ← Gap.none.read 0 c.line c.column c.rest
              quotedFrom double fuel (text ++ gap.text) c
            else pure { text, broken := false, cursor := c.skip 1 }

def quoted (double : Bool) (c : Cursor) : Option TextRead :=
  quotedFrom double (c.rest.length + 1) [] (c.skip 1)

/-- What becomes of the line breaks at the end of a block. -/
inductive Chomping
  | strip
  | clip
  | keep
  deriving DecidableEq, Inhabited

/-- How a block is to be read: whether its lines are kept apart, its end, and how
far it is indented, if that is said. -/
structure BlockHeader where
  literal : Bool
  chomping : Chomping
  indent : Option Nat
  deriving DecidableEq, Inhabited

/-- The mark for the end of a block. -/
def chomping? : Char → Option Chomping
  | '+' => some .keep
  | '-' => some .strip
  | _ => none

/-- The mark for the indentation of a block. A zero is none. -/
def indentMark? (c : Char) : Option Nat :=
  if '1' ≤ c ∧ c ≤ '9' then some (c.toNat - '0'.toNat) else none

/-- The marks after the sign of a block, in either order. -/
def blockHeader (literal : Bool) (cs : List Char) : BlockHeader × List Char :=
  match cs with
  | [] => ({ literal, chomping := .clip, indent := none }, [])
  | c :: rest =>
      match chomping? c, indentMark? c with
      | some chomping, _ =>
          match rest.head?.bind indentMark? with
          | some n => ({ literal, chomping, indent := some n }, rest.drop 1)
          | none => ({ literal, chomping, indent := none }, rest)
      | none, some n =>
          match rest.head?.bind chomping? with
          | some chomping => ({ literal, chomping, indent := some n }, rest.drop 1)
          | none => ({ literal, chomping := .clip, indent := some n }, rest)
      | none, none => ({ literal, chomping := .clip, indent := none }, c :: rest)

/-- The empty lines before a line of a block: their breaks, the deepest column
reached, and where the line begins. No tab may stand in the indentation. -/
def blankLines (indent : Option Nat) (line column deepest : Nat) (breaks : List Char) :
    List Char → Option (List Char × Nat × Cursor)
  | [] => some (breaks, max deepest column, { rest := [], line, column })
  | '\r' :: '\n' :: rest =>
      blankLines indent (line + 1) 0 (max deepest column) (breaks ++ ['\n']) rest
  | c :: rest =>
      let inside := indent.all fun n => column < n
      if c == ' ' && inside then blankLines indent line (column + 1) deepest breaks rest
      else if c == '\t' && inside then none
      else if isBreak c then
        blankLines indent (line + 1) 0 (max deepest column) (breaks ++ [breakText c]) rest
      else some (breaks, max deepest column, { rest := c :: rest, line, column })

/-- What is known of a block while it is read: its text, the break after its last
line, the empty lines since, and whether that line began with a blank. -/
structure BlockState where
  text : List Char
  lastBreak : List Char
  breaks : List Char
  indented : Bool
  deriving DecidableEq, Inhabited

/-- What stands between the lines so far and the next one. In a folded block a
single break between two lines that do not begin with a blank is a space. -/
def BlockState.join (s : BlockState) (literal indented : Bool) : List Char :=
  if !literal && s.lastBreak.head? == some '\n' && !s.indented && !indented then
    if s.breaks.isEmpty then [' '] else s.breaks
  else s.lastBreak ++ s.breaks

/-- The lines of a block that are indented so far. -/
def blockLines (literal : Bool) (indent : Nat) :
    Nat → BlockState → Cursor → Option (BlockState × Cursor)
  | 0, _, _ => none
  | fuel + 1, s, c =>
      if c.column != indent || c.rest.isEmpty then some (s, c)
      else do
        let indented := c.rest.head?.any isGap
        let line := c.rest.takeWhile (!isBreak ·)
        let after := c.rest.dropWhile (!isBreak ·)
        let text := s.text ++ s.join literal indented ++ line
        match splitBreak? after with
        | none => pure ({ text, lastBreak := [], breaks := [], indented }, c.moveTo after)
        | some (mark, rest) =>
            let (breaks, _, c) ← blankLines (some indent) (c.line + 1) 0 0 [] rest
            blockLines literal indent fuel { text, lastBreak := [mark], breaks, indented } c

/-- A block of lines from its sign. The margin is one more than the column of the
block around it. -/
def block (literal : Bool) (margin : Nat) (c : Cursor) : Option TextRead := do
  let (header, rest) := blockHeader literal (c.rest.drop 1)
  let c := (c.moveTo rest).skipWhile isGap
  let c := if c.rest.head? == some '#' then c.skipWhile (!isBreak ·) else c
  if !endsLine c.rest then none
  else
    let c := match splitBreak? c.rest with
      | some (_, rest) => c.nextLine rest
      | none => c
    let given := header.indent.map (margin - 1 + ·)
    let (breaks, deepest, c) ← blankLines given c.line c.column 0 [] c.rest
    let indent := given.getD (max (max deepest margin) 1)
    let (s, c) ← blockLines literal indent (c.rest.length + 1)
      { text := [], lastBreak := [], breaks, indented := false } c
    let ending := match header.chomping with
      | .strip => []
      | .clip => s.lastBreak
      | .keep => s.lastBreak ++ s.breaks
    pure { text := s.text ++ ending, broken := true, cursor := c }

end Workbench.Yaml
