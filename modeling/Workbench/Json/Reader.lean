import Workbench.Json.Value
import Workbench.Text.Hex

/-! # Reading JSON

A reader for the JSON grammar over lists of characters. Each part of it takes
the characters that are left and gives back a value with the characters after
it. The whole text must be one value; only blanks of the grammar may surround
it. -/

namespace Workbench.Json

open Text

def isSpace (c : Char) : Bool :=
  c == ' ' || c == '\t' || c == '\n' || c == '\r'

/-- What is left after blanks. -/
def skipSpace (cs : List Char) : List Char := cs.dropWhile isSpace

/-- What a string literal is made of: characters, and code units that were
escaped by their number. -/
inductive Piece
  | char (c : Char)
  | unit (n : Nat)
  deriving DecidableEq

/-- The character that a letter after a backslash stands for. -/
def escapeLetter? (c : Char) : Option Char :=
  if c = '"' then some '"'
  else if c = '\\' then some '\\'
  else if c = '/' then some '/'
  else if c = 'b' then some '\x08'
  else if c = 'f' then some '\x0c'
  else if c = 'n' then some '\n'
  else if c = 'r' then some '\r'
  else if c = 't' then some '\t'
  else none

/-- The pieces of a string literal up to its closing quote. A control
character is not allowed to stand for itself. -/
def pieces : List Char → Option (List Piece × List Char)
  | '"' :: rest => some ([], rest)
  | '\\' :: 'u' :: a :: b :: c :: d :: rest => do
      let n ← hexNumber? [a, b, c, d]
      let (tail, rest) ← pieces rest
      pure (.unit n :: tail, rest)
  | '\\' :: c :: rest => do
      let e ← escapeLetter? c
      let (tail, rest) ← pieces rest
      pure (.char e :: tail, rest)
  | c :: rest =>
      if c.toNat < 0x20 ∨ c = '\\' then none
      else do
        let (tail, rest) ← pieces rest
        pure (.char c :: tail, rest)
  | [] => none

def isHighSurrogate (n : Nat) : Bool := 0xd800 ≤ n && n < 0xdc00

/-- The second half of a surrogate pair. -/
def isLowSurrogate (n : Nat) : Bool := 0xdc00 ≤ n && n < 0xe000

/-- The characters that pieces name: two halves of a pair make one character,
and a half without its partner names nothing. -/
def joinPieces : List Piece → Option (List Char)
  | [] => some []
  | .char c :: rest => (joinPieces rest).map (c :: ·)
  | .unit n :: rest =>
      if isHighSurrogate n then
        match rest with
        | .unit m :: rest =>
            if isLowSurrogate m then
              (joinPieces rest).map
                (Char.ofNat (0x10000 + 0x400 * (n - 0xd800) + (m - 0xdc00)) :: ·)
            else none
        | _ => none
      else if isLowSurrogate n then none
      else (joinPieces rest).map (Char.ofNat n :: ·)

/-- The text of a string literal after its opening quote, if it names one. -/
def readString (cs : List Char) : Option (Option String × List Char) := do
  let (found, rest) ← pieces cs
  pure ((joinPieces found).map String.ofList, rest)

/-- The number that decimal digits stand for. -/
def digitsValue (digits : List Char) : Nat :=
  digits.foldl (fun value c => 10 * value + (c.toNat - 0x30)) 0

/-- The digits after a point. At least one must follow it. -/
def readFraction : List Char → Option (List Char × List Char)
  | '.' :: rest =>
      let digits := rest.takeWhile Char.isDigit
      if digits.isEmpty then none else some ('.' :: digits, rest.dropWhile Char.isDigit)
  | cs => some ([], cs)

/-- An exponent with its mark and sign. At least one digit must follow. -/
def readExponent : List Char → Option (List Char × List Char)
  | [] => some ([], [])
  | mark :: rest =>
      if mark = 'e' ∨ mark = 'E' then
        let (sign, rest) := match rest with
          | '+' :: rest => (['+'], rest)
          | '-' :: rest => (['-'], rest)
          | rest => ([], rest)
        let digits := rest.takeWhile Char.isDigit
        if digits.isEmpty then none
        else some (mark :: sign ++ digits, rest.dropWhile Char.isDigit)
      else some ([], mark :: rest)

/-- The digits before a point: a zero stands alone. -/
def readWhole : List Char → Option (List Char × List Char)
  | '0' :: rest => some (['0'], rest)
  | cs =>
      let digits := cs.takeWhile Char.isDigit
      if digits.isEmpty then none else some (digits, cs.dropWhile Char.isDigit)

/-- A number after its sign. A fraction, an exponent or a negative zero makes it a
decimal. -/
def readUnsigned (negative : Bool) (cs : List Char) : Option (Json × List Char) := do
  let (whole, rest) ← readWhole cs
  let (fraction, rest) ← readFraction rest
  let (exponent, rest) ← readExponent rest
  let sign := if negative then ['-'] else []
  -- There is no negative zero among the integers, so it stays a decimal.
  let n := digitsValue whole
  if fraction.isEmpty && exponent.isEmpty && !(negative && n == 0) then
    pure (.integer (if negative then -(n : Int) else (n : Int)), rest)
  else
    pure (.decimal (String.ofList (sign ++ whole ++ fraction ++ exponent)), rest)

def readNumber : List Char → Option (Json × List Char)
  | '-' :: rest => readUnsigned true rest
  | cs => readUnsigned false cs

/-- A value that is neither a list nor a record. -/
def readAtom (cs : List Char) : Option (Json × List Char) :=
  match cs with
  | 'n' :: 'u' :: 'l' :: 'l' :: rest => some (.null, rest)
  | 't' :: 'r' :: 'u' :: 'e' :: rest => some (.bool true, rest)
  | 'f' :: 'a' :: 'l' :: 's' :: 'e' :: rest => some (.bool false, rest)
  | '"' :: rest => do
      let (found, rest) ← readString rest
      match found with
      | some s => pure (.text s, rest)
      | none => pure (.broken, rest)
  | cs => readNumber cs

mutual

/-- A value after blanks. The first argument bounds the depth of the calls. -/
def readValue : Nat → List Char → Option (Json × List Char)
  | 0, _ => none
  | fuel + 1, cs =>
      match skipSpace cs with
      | '[' :: rest =>
          match skipSpace rest with
          | ']' :: rest => some (.list [], rest)
          | rest => (readItems fuel rest).map fun (items, rest) => (.list items, rest)
      | '{' :: rest =>
          match skipSpace rest with
          | '}' :: rest => some (.record [], rest)
          | rest => (readMembers fuel rest).map fun (members, rest) => (.record members, rest)
      | rest => readAtom rest

def readItems : Nat → List Char → Option (List Json × List Char)
  | 0, _ => none
  | fuel + 1, cs =>
      (readValue fuel cs).bind fun (item, rest) =>
        match skipSpace rest with
        | ',' :: rest => (readItems fuel rest).map fun (items, rest) => (item :: items, rest)
        | ']' :: rest => some ([item], rest)
        | _ => none

/-- The members of a record up to its closing brace. -/
def readMembers : Nat → List Char → Option (List (Option String × Json) × List Char)
  | 0, _ => none
  | fuel + 1, cs =>
      match skipSpace cs with
      | '"' :: rest =>
          (readString rest).bind fun (name, rest) =>
            match skipSpace rest with
            | ':' :: rest =>
                (readValue fuel rest).bind fun (value, rest) =>
                  match skipSpace rest with
                  | ',' :: rest =>
                      (readMembers fuel rest).map fun (members, rest) =>
                        ((name, value) :: members, rest)
                  | '}' :: rest => some ([(name, value)], rest)
                  | _ => none
            | _ => none
      | _ => none

end

/-- The value that a text spells. Every call of the reader but the first
follows a character that was read, so twice the length bounds the depth. -/
def parse (s : String) : Option Json := do
  let cs := s.toList
  let (value, rest) ← readValue (2 * cs.length + 2) cs
  if (skipSpace rest).isEmpty then pure value else none

end Workbench.Json
