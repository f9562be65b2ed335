import Workbench.Yaml.Cursor

/-! # Gaps inside a text value

A text value may go on over several lines. The spaces and line breaks between two
of its words are a gap. A gap within a line stands for itself; a gap with one
line break stands for a space, and each further break for a line end. -/

namespace Workbench.Yaml

/-- A gap. A break that was escaped counts for nothing itself. -/
structure Gap where
  blanks : List Char
  broken : Bool
  first : Option Char
  more : List Char
  deriving DecidableEq, Inhabited

namespace Gap

def none : Gap := { blanks := [], broken := false, first := .none, more := [] }

/-- The gap after an escaped line break. -/
def escaped : Gap := { none with broken := true }

/-- Adds a space or a tab. After a line break they do not count. -/
def addBlank (g : Gap) (c : Char) : Gap :=
  if g.broken then g else { g with blanks := g.blanks ++ [c] }

/-- Adds a line break. Blanks before it do not count. -/
def addBreak (g : Gap) (c : Char) : Gap :=
  if g.broken then { g with more := g.more ++ [c] }
  else { blanks := [], broken := true, first := some c, more := [] }

/-- What a gap stands for. -/
def text (g : Gap) : List Char :=
  if g.broken then
    match g.first with
    | some '\n' => if g.more.isEmpty then [' '] else g.more
    | some c => c :: g.more
    | .none => g.more
  else g.blanks

/-- Reads a gap to its end. After a line break no tab may stand left of the
margin. -/
def read (margin line column : Nat) (g : Gap) : List Char → Option (Gap × Cursor)
  | [] => some (g, { rest := [], line, column })
  | '\r' :: '\n' :: rest => read margin (line + 1) 0 (g.addBreak '\n') rest
  | c :: rest =>
      if isBreak c then read margin (line + 1) 0 (g.addBreak (breakText c)) rest
      else if isGap c then
        if g.broken && c == '\t' && column < margin then .none
        else read margin line (column + 1) (g.addBlank c) rest
      else some (g, { rest := c :: rest, line, column })

end Gap

end Workbench.Yaml
