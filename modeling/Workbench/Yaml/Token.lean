import Workbench.Yaml.Quoted

/-! # Tokens of a YAML text

A text is cut into tokens. Indentation becomes tokens of its own: a column to the
right of the last one opens a block, and a return to the left closes it. That a
text is a key is known only at the colon after it, so the place before each text
is kept, and the key's token is put there later. -/

namespace Workbench.Yaml

/-- A token. A directive and a tag are kept as far as they can be wrong. -/
inductive Token
  | version (major minor : Nat)
  | tagHandle (handle : List Char)
  | documentStart
  | documentEnd
  | openItems
  | openMembers
  | close
  | openFlowItems
  | closeFlowItems
  | openFlowMembers
  | closeFlowMembers
  | item
  | comma
  | key
  | value
  | alias (name : List Char)
  | anchor (name : List Char)
  | tag (handle : List Char)
  | scalar (isPlain : Bool) (text : List Char)
  deriving DecidableEq, Inhabited

/-- A place where a key may have begun: the number of tokens before it, its
position, and what was left of the text. A required key must turn out to be one. -/
structure KeyPlace where
  required : Bool
  index : Nat
  line : Nat
  column : Nat
  left : Nat
  deriving DecidableEq, Inhabited

/-- A reader of tokens. Its margin is one more than the column of the innermost
block, or zero, and the margins around it are below. There is one possible key
for every open bracket, and one for the text outside of brackets. -/
structure Scanner where
  cursor : Cursor
  tokens : List Token
  margin : Nat
  margins : List Nat
  keyAllowed : Bool
  keys : List (Option KeyPlace)
  deriving DecidableEq, Inhabited

namespace Scanner

/-- Before the first token. -/
def ofText (text : List Char) : Scanner :=
  { cursor := .ofText text, tokens := [], margin := 0, margins := [], keyAllowed := true,
    keys := [none] }

/-- Some bracket is open. -/
def inFlow (s : Scanner) : Bool := s.keys.length > 1

/-- The innermost possible key. -/
def keyPlace? (s : Scanner) : Option KeyPlace := s.keys.head?.join

def emit (s : Scanner) (t : Token) : Scanner := { s with tokens := s.tokens ++ [t] }

def emitAt (s : Scanner) (index : Nat) (t : Token) : Scanner :=
  { s with tokens := s.tokens.take index ++ t :: s.tokens.drop index }

/-- Replaces the innermost possible key. -/
def setKey (s : Scanner) (place : Option KeyPlace) : Scanner :=
  { s with keys := place :: s.keys.drop 1 }

/-- Gives up the innermost possible key, unless it is required. -/
def dropKey (s : Scanner) : Option Scanner :=
  if s.keyPlace?.any (·.required) then none else some (s.setKey none)

/-- Keeps this place for a key, if one is allowed here. -/
def keepKey (s : Scanner) : Option Scanner :=
  if s.keyAllowed then do
    let s ← s.dropKey
    pure (s.setKey (some
      { required := !s.inFlow && s.margin == s.cursor.column + 1
        index := s.tokens.length
        line := s.cursor.line
        column := s.cursor.column
        left := s.cursor.rest.length }))
  else some s

/-- A key stands on one line and within 1024 characters. -/
def isStale (c : Cursor) (place : KeyPlace) : Bool :=
  place.line < c.line || c.rest.length + 1024 < place.left

/-- Gives up the possible keys that are out of reach. None may be required. -/
def dropStale (s : Scanner) : Option Scanner :=
  if s.keys.any fun place => place.any fun p => isStale s.cursor p && p.required then none
  else some { s with keys := s.keys.map fun place => place.filter fun p => !isStale s.cursor p }

/-- Opens a block at a column, unless it is open. The token is put at a place. -/
def openBlock (s : Scanner) (column index : Nat) (t : Token) : Scanner :=
  if !s.inFlow && s.margin ≤ column then
    { s with margin := column + 1, margins := s.margin :: s.margins }.emitAt index t
  else s

/-- Closes the blocks with a margin above the given one. -/
def closeBlocks (target margin : Nat) : List Nat → Nat × List Nat × List Token
  | [] => (margin, [], [])
  | outer :: margins =>
      if margin > target then
        let (margin, margins, tokens) := closeBlocks target outer margins
        (margin, margins, .close :: tokens)
      else (margin, outer :: margins, [])

/-- Closes the blocks to the right of a margin. -/
def closeTo (s : Scanner) (target : Nat) : Scanner :=
  if s.inFlow then s
  else
    let (margin, margins, tokens) := closeBlocks target s.margin s.margins
    { s with margin, margins, tokens := s.tokens ++ tokens }

/-- Goes on to the next token: over blanks, comments and line breaks. A tab may
not stand where a key could begin. -/
def skipBlanks : Nat → Scanner → Scanner
  | 0, s => s
  | fuel + 1, s =>
      -- A byte order mark may begin any line.
      let c := if s.cursor.column == 0 && s.cursor.rest.head? == some '\ufeff' then s.cursor.skip 1
        else s.cursor
      let c := c.skipWhile fun d => d == ' ' || ((s.inFlow || !s.keyAllowed) && d == '\t')
      let c := if c.rest.head? == some '#' then c.skipWhile (!isBreak ·) else c
      match splitBreak? c.rest with
      | some (_, rest) =>
          skipBlanks fuel
            { s with cursor := c.nextLine rest, keyAllowed := s.keyAllowed || !s.inFlow }
      | none => { s with cursor := c }

/-- Moves on over a mark. -/
def skip (s : Scanner) (n : Nat) : Scanner := { s with cursor := s.cursor.skip n }

/-- A mark that begins or ends a document. -/
def marker (s : Scanner) (t : Token) : Option Scanner := do
  let s ← (s.closeTo 0).dropKey
  pure ({ s with keyAllowed := false }.skip 3 |>.emit t)

def openBracket (s : Scanner) (t : Token) : Option Scanner := do
  let s ← s.keepKey
  pure ({ s with keys := none :: s.keys, keyAllowed := true }.skip 1 |>.emit t)

def closeBracket (s : Scanner) (t : Token) : Option Scanner := do
  let s ← s.dropKey
  let keys := if s.inFlow then s.keys.drop 1 else s.keys
  pure ({ s with keys, keyAllowed := false }.skip 1 |>.emit t)

def comma (s : Scanner) : Option Scanner := do
  let s ← s.dropKey
  pure ({ s with keyAllowed := true }.skip 1 |>.emit .comma)

/-- A hyphen before a list item, or the mark before a key. -/
def blockMark (s : Scanner) (opening t : Token) (keyAllowed : Bool) : Option Scanner :=
  if !s.inFlow && !s.keyAllowed then none
  else do
    let s ← (s.openBlock s.cursor.column s.tokens.length opening).dropKey
    pure ({ s with keyAllowed }.skip 1 |>.emit t)

/-- The colon before a value. What was read since the place of a possible key is
the key. -/
def value (s : Scanner) : Option Scanner :=
  match s.keyPlace? with
  | some place =>
      -- The marks of the key go before what was read since its place.
      let s := (s.emitAt place.index .key).openBlock place.column place.index .openMembers
      some ({ s.setKey none with keyAllowed := false }.skip 1 |>.emit .value)
  | none =>
      if !s.inFlow && !s.keyAllowed then none
      else
        let s := s.openBlock s.cursor.column s.tokens.length .openMembers
        some ({ s with keyAllowed := !s.inFlow }.skip 1 |>.emit .value)

def isNameChar (c : Char) : Bool := c.isAlphanum || c == '_' || c == '-'

/-- The name of an anchor or an alias after its mark. -/
def name (s : Scanner) (t : List Char → Token) : Option Scanner := do
  let s ← s.keepKey
  let cs := s.cursor.rest.drop 1
  let found := cs.takeWhile isNameChar
  let rest := cs.dropWhile isNameChar
  if found.isEmpty || !(endsWord rest || rest.head?.any "?:,]\x7d%@\x60".toList.contains) then none
  else pure { s.emit (t found) with cursor := s.cursor.moveTo rest, keyAllowed := false }

def isTagChar (c : Char) : Bool :=
  isNameChar c || ";/?:@&=+$.%!~*'()".toList.contains c

/-- A tag from its exclamation mark: its handle, and what is left. -/
def tagAt? (cs : List Char) : Option (List Char × List Char) :=
  match cs with
  | '!' :: '<' :: rest =>
      match rest.dropWhile fun c => isTagChar c || c == ',' || c == '[' || c == ']' with
      | '>' :: after => if rest.head? == some '>' then none else some ([], after)
      | _ => none
  | '!' :: rest =>
      match rest.dropWhile isNameChar with
      | '!' :: after =>
          if after.head?.any isTagChar then
            some ('!' :: rest.takeWhile isNameChar ++ ['!'], after.dropWhile isTagChar)
          else none
      | _ => some (['!'], rest.dropWhile isTagChar)
  | _ => none

def tag (s : Scanner) : Option Scanner := do
  let s ← s.keepKey
  let (handle, rest) ← tagAt? s.cursor.rest
  if endsWord rest || (s.inFlow && rest.head? == some ',') then
    pure { s.emit (.tag handle) with cursor := s.cursor.moveTo rest, keyAllowed := false }
  else none

/-- The number of a few decimal digits. -/
def decimal? (digits : List Char) : Option Nat :=
  if digits.isEmpty || digits.length > 9 then none
  else some (digits.foldl (fun n c => 10 * n + (c.toNat - '0'.toNat)) 0)

/-- What a directive says, without its percent sign, and what is left. -/
def directiveAt? (cs : List Char) : Option (Token × List Char) :=
  match cs with
  | 'Y' :: 'A' :: 'M' :: 'L' :: rest =>
      if !rest.head?.any isGap then none
      else
        let rest := rest.dropWhile isGap
        match rest.dropWhile Char.isDigit with
        | '.' :: after => do
            let major ← decimal? (rest.takeWhile Char.isDigit)
            let minor ← decimal? (after.takeWhile Char.isDigit)
            pure (.version major minor, after.dropWhile Char.isDigit)
        | _ => none
  | 'T' :: 'A' :: 'G' :: rest =>
      if !rest.head?.any isGap then none
      else
        match rest.dropWhile isGap with
        | '!' :: rest =>
            let name := rest.takeWhile isNameChar
            let rest := rest.dropWhile isNameChar
            let (handle, rest) := match rest with
              | '!' :: rest => ('!' :: name ++ ['!'], rest)
              | rest => ('!' :: name, rest)
            let target := (rest.dropWhile isGap).dropWhile fun c =>
              isTagChar c || c == ',' || c == '[' || c == ']'
            if (handle.length == 1 || handle.getLast? == some '!') && rest.head?.any isGap &&
                !endsWord (rest.dropWhile isGap) && endsWord target then
              some (.tagHandle handle, target)
            else none
        | _ => none
  | _ => none

def directive (s : Scanner) : Option Scanner := do
  let s ← (s.closeTo 0).dropKey
  let (t, rest) ← directiveAt? (s.cursor.rest.drop 1)
  let c := (s.cursor.moveTo rest).skipWhile isGap
  let c := if c.rest.head? == some '#' then c.skipWhile (!isBreak ·) else c
  if endsLine c.rest then
    let c := match splitBreak? c.rest with
      | some (_, rest) => c.nextLine rest
      | none => c
    pure { s.emit t with cursor := c, keyAllowed := false }
  else none

def blockText (s : Scanner) (literal : Bool) : Option Scanner := do
  let s ← s.dropKey
  let read ← block literal s.margin s.cursor
  pure { s.emit (.scalar false read.text) with cursor := read.cursor, keyAllowed := true }

def quotedText (s : Scanner) (double : Bool) : Option Scanner := do
  let s ← s.keepKey
  let read ← quoted double s.cursor
  pure { s.emit (.scalar false read.text) with cursor := read.cursor, keyAllowed := false }

def plainText (s : Scanner) : Option Scanner := do
  let s ← s.keepKey
  let read ← plain s.inFlow s.margin s.cursor
  pure { s.emit (.scalar true read.text) with cursor := read.cursor, keyAllowed := read.broken }

/-- The characters that cannot begin a text without quotes. -/
def isIndicator (c : Char) : Bool := "-?:,[]\x7b\x7d#&*!|>'\"%@\x60".toList.contains c

/-- A text without quotes can begin here. -/
def beginsPlain (inFlow : Bool) (c : Char) (rest : List Char) : Bool :=
  (!isIndicator c && !isGap c) || (c == '-' && !rest.head?.any isGap) ||
    (!inFlow && (c == '?' || c == ':') && !endsWord rest)

/-- Reads the token that begins here. -/
def next (s : Scanner) (c : Char) (rest : List Char) : Option Scanner :=
  if s.cursor.column == 0 && c == '%' then s.directive
  else if s.cursor.atMarker then s.marker (if c == '-' then .documentStart else .documentEnd)
  else if c == '[' then s.openBracket .openFlowItems
  else if c == '\x7b' then s.openBracket .openFlowMembers
  else if c == ']' then s.closeBracket .closeFlowItems
  else if c == '\x7d' then s.closeBracket .closeFlowMembers
  else if c == ',' then s.comma
  else if c == '-' && endsWord rest then s.blockMark .openItems .item true
  else if c == '?' && (s.inFlow || endsWord rest) then s.blockMark .openMembers .key !s.inFlow
  else if c == ':' && (s.inFlow || endsWord rest) then s.value
  else if c == '*' then s.name .alias
  else if c == '&' then s.name .anchor
  else if c == '!' then s.tag
  else if c == '|' && !s.inFlow then s.blockText true
  else if c == '>' && !s.inFlow then s.blockText false
  else if c == '\'' then s.quotedText false
  else if c == '"' then s.quotedText true
  else if beginsPlain s.inFlow c rest then s.plainText
  else none

/-- Reads every token. Each token but the closing ones takes a character, so the
length of the text bounds the number of steps. -/
def run : Nat → Scanner → Option Scanner
  | 0, _ => none
  | fuel + 1, s => do
      let s ← (s.skipBlanks (s.cursor.rest.length + 1)).dropStale
      let s := s.closeTo (s.cursor.column + 1)
      match s.cursor.rest with
      | [] => (s.closeTo 0).dropKey
      | c :: rest => run fuel (← s.next c rest)

end Scanner

def Token.scan (text : String) : Option (List Token) :=
  let cs := text.toList
  if cs.all isAllowed then
    (Scanner.run (cs.length + 1) (.ofText cs)).map (·.tokens)
  else none

end Workbench.Yaml
