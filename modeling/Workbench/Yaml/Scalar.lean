import Workbench.Text.Hex
import Workbench.Word
import Workbench.Yaml.Node

/-! # What unquoted texts mean

A text without quotes can be nothing, a truth value or a number; every other one
is just a text. The same rules tell which texts have to be quoted when they are
written. -/

namespace Workbench.Yaml

open Text

/-- The words for nothing. -/
def isNullWord (s : String) : Bool := ["null", "Null", "NULL", "~"].contains s

/-- The truth value that a word names. -/
def flagWord? (s : String) : Option Bool :=
  if ["true", "True", "TRUE"].contains s then some true
  else if ["false", "False", "FALSE"].contains s then some false
  else none

/-- The number of a list of digits in a base up to sixteen. -/
def inBase? (base : Nat) (digits : List Char) : Option Nat :=
  if digits.isEmpty then none
  else digits.foldl (fun value c => do
    let d ← hexValue? c
    if d < base then pure (base * (← value) + d) else none) (some 0)

/-- The number after a mark for its base. -/
def marked? (cs : List Char) : Option Nat :=
  match cs with
  | '0' :: 'x' :: digits => inBase? 16 digits
  | '0' :: 'o' :: digits => inBase? 8 digits
  | '0' :: 'b' :: digits => inBase? 2 digits
  | _ => none

/-- A text without the given character at its beginning. -/
def dropSign (sign : Char) (cs : List Char) : List Char :=
  if cs.head? = some sign then cs.drop 1 else cs

/-- Several digits that begin with a zero are no number. -/
def isPaddedDigits (cs : List Char) : Bool :=
  let digits := if cs.head? = some '-' then cs.drop 1 else dropSign '+' cs
  digits.length > 1 && digits.head? == some '0' && digits.all Char.isDigit

/-- The number that a word names: decimal digits, or digits after a mark for their
base, and a plus sign before them if one likes. It has at most 64 bits. -/
def naturalWord? (s : String) : Option Nat :=
  let cs := dropSign '+' s.toList
  let decimal := if isPaddedDigits s.toList then none else inBase? 10 cs
  (marked? cs <|> decimal).filter Word.fits

/-- A number with a mark for its base, of at most 128 bits with its sign. -/
def isMarkedNumber (cs : List Char) : Bool :=
  match cs with
  | '-' :: rest => (marked? rest).any fun n => n ≤ Word.capacity 127
  | cs => (marked? (dropSign '+' cs)).any fun n => n < Word.capacity 128

/-- The digits of a decimal number without its point, and its power of ten. -/
def decimalParts? (cs : List Char) : Option (Nat × Int) := do
  let whole := cs.takeWhile Char.isDigit
  let rest := cs.dropWhile Char.isDigit
  let (fraction, rest) := match rest with
    | '.' :: rest => (rest.takeWhile Char.isDigit, rest.dropWhile Char.isDigit)
    | rest => ([], rest)
  let n ← inBase? 10 (whole ++ fraction)
  match rest with
  | [] => pure (n, -fraction.length)
  | mark :: rest =>
      if mark = 'e' ∨ mark = 'E' then
        let digits := if rest.head? = some '-' then rest.drop 1 else dropSign '+' rest
        let e ← inBase? 10 digits
        pure (n, (if rest.head? = some '-' then -(e : Int) else e) - fraction.length)
      else none

/-- A decimal number is small enough for a floating-point number of 64 bits: it
does not round to infinity. -/
def isFinite (n : Nat) (power : Int) : Bool :=
  let digits := (toString n).length
  if n = 0 || power + digits < 300 then true
  else if power + digits > 320 then false
  else
    let limit := Word.capacity 1024 - Word.capacity 970
    if 0 ≤ power then n * Nat.pow 10 power.toNat < limit
    else n < limit * Nat.pow 10 (-power).toNat

/-- A floating-point number. -/
def isFloatWord (cs : List Char) : Bool :=
  let unsigned := dropSign '+' cs
  if [".inf", ".Inf", ".INF"].contains (String.ofList unsigned) then true
  else if ["-.inf", "-.Inf", "-.INF", ".nan", ".NaN", ".NAN"].contains (String.ofList cs) then true
  else
    let magnitude := if cs.head? = some '-' then cs.drop 1 else unsigned
    (decimalParts? magnitude).any fun (n, power) => isFinite n power

/-- A text that would be read as something else if it stood without quotes, now or
by older rules. -/
def isReserved (s : String) : Bool :=
  s.isEmpty || isNullWord s || (flagWord? s).isSome || isPaddedDigits s.toList ||
    isMarkedNumber s.toList || isFloatWord s.toList ||
    ["y", "Y", "yes", "Yes", "YES", "n", "N", "no", "No", "NO", "on", "On", "ON", "off", "Off",
      "OFF"].contains s

namespace Node

def text? : Node → Option String
  | .scalar _ s => some s
  | _ => none

def bool? : Node → Option Bool
  | .scalar true s => flagWord? s
  | _ => none

def natural? : Node → Option Nat
  | .scalar true s => naturalWord? s
  | _ => none

/-- Nothing: one of its words, or a part that was left out. -/
def isNull : Node → Bool
  | .scalar true s => s.isEmpty || isNullWord s
  | _ => false

/-- The members of a mapping whose keys are texts. A part that was left out has
none. -/
def members? : Node → Option (List (String × Node))
  | .mapping members => members.mapM fun (key, value) => (key.text?).map fun name => (name, value)
  | .scalar true "" => some []
  | _ => none

/-- The values of declared fields, in declaration order. Unknown names are passed
over, and no declared name may occur twice. -/
def fields? (names : List String) (node : Node) : Option (List (Option Node)) := do
  let members ← node.members?
  if names.any fun name => members.countP (fun m => m.1 == name) > 1 then none
  else pure (names.map fun name => (members.find? fun m => m.1 == name).map (·.2))

end Node

end Workbench.Yaml
