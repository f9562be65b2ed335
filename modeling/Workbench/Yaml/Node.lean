import Workbench.Yaml.Token

/-! # YAML documents

A document is a tree of texts, lists and mappings. A text remembers whether it
stood without quotes, for only such a text can be a number or a truth value. A
part of a document may have a name, and an alias of that name stands for the
same part again. -/

namespace Workbench.Yaml

/-- A part of a document. A part that an alias inside of it stands for is
`circular`. -/
inductive Node
  | scalar (isPlain : Bool) (text : String)
  | list (items : List Node)
  | mapping (members : List (Node × Node))
  | circular
  deriving Inhabited

namespace Node

def empty : Node := .scalar true ""

/-- A part that is still being read, or was read, under a name. -/
abbrev Named := List (List Char × Node)

/-- What is left of the tokens, and the names so far, the latest first. -/
structure Reading where
  tokens : List Token
  named : Named
  deriving Inhabited

namespace Reading

def peek (r : Reading) : Option Token := r.tokens.head?

/-- Passes over the next token. -/
def skip (r : Reading) : Reading := { r with tokens := r.tokens.drop 1 }

/-- Gives a name to a part whose reading begins. -/
def begin (r : Reading) (name : Option (List Char)) : Reading :=
  match name with
  | some name => { r with named := (name, .circular) :: r.named }
  | none => r

/-- Binds the latest use of a name that still stands for a part under way. -/
def bind (name : List Char) (node : Node) : Named → Named
  | [] => []
  | (other, .circular) :: rest =>
      if other = name then (name, node) :: rest else (other, .circular) :: bind name node rest
  | entry :: rest => entry :: bind name node rest

/-- Binds the name of a part whose reading is done. -/
def done (r : Reading) (name : Option (List Char)) (node : Node) : Reading :=
  match name with
  | some name => { r with named := bind name node r.named }
  | none => r

end Reading

/-- A name and a tag before a part, in either order. A tag must have a handle
that is known. -/
def properties (handles : List (List Char)) (r : Reading) :
    Option (Option (List Char) × Bool × Reading) :=
  let known := fun handle => handle.isEmpty || handles.contains handle
  match r.tokens with
  | .anchor name :: .tag handle :: rest =>
      if known handle then some (some name, true, { r with tokens := rest }) else none
  | .tag handle :: .anchor name :: rest =>
      if known handle then some (some name, true, { r with tokens := rest }) else none
  | .anchor name :: rest => some (some name, true, { r with tokens := rest })
  | .tag handle :: rest =>
      if known handle then some (none, true, { r with tokens := rest }) else none
  | _ => some (none, false, r)

/-- Whether a token, or the end, is among some. -/
def isOneOf (ts : List Token) (t : Option Token) : Bool := t.all ts.contains

mutual

/-- A part. Blocks may be read or not, and a list may be indented no further
than the mapping around it or not. The first argument bounds the depth of the
calls. -/
def read (handles : List (List Char)) (inBlock sameIndent : Bool) :
    Nat → Reading → Option (Node × Reading)
  | 0, _ => none
  | fuel + 1, r =>
      match r.peek with
      | some (.alias name) => do
          let (_, node) ← r.named.find? (·.1 = name)
          pure (node, r.skip)
      | _ => do
          let (name, hasProperties, r) ← properties handles r
          let inner := r.begin name
          let (node, r) ← readContent handles inBlock sameIndent hasProperties fuel inner
          pure (node, r.done name node)

/-- A part after its name and tag. -/
def readContent (handles : List (List Char)) (inBlock sameIndent hasProperties : Bool) :
    Nat → Reading → Option (Node × Reading)
  | 0, _ => none
  | fuel + 1, r =>
      match r.peek, inBlock, sameIndent with
      | some .item, _, true =>
          (readAligned handles fuel r).map fun (items, r) => (.list items, r)
      | some (.scalar isPlain text), _, _ => some (.scalar isPlain (String.ofList text), r.skip)
      | some .openFlowItems, _, _ =>
          (readFlowItems handles true fuel r.skip).map fun (items, r) => (.list items, r)
      | some .openFlowMembers, _, _ =>
          (readFlowMembers handles true fuel r.skip).map fun (members, r) => (.mapping members, r)
      | some .openItems, true, _ =>
          (readItems handles fuel r.skip).map fun (items, r) => (.list items, r)
      | some .openMembers, true, _ =>
          (readMembers handles fuel r.skip).map fun (members, r) => (.mapping members, r)
      | _, _, _ => if hasProperties then some (.empty, r) else none

/-- A part, unless one of some tokens comes next. -/
def readUnless (handles : List (List Char)) (ends : List Token) (inBlock sameIndent : Bool) :
    Nat → Reading → Option (Node × Reading)
  | 0, _ => none
  | fuel + 1, r =>
      if isOneOf ends r.peek then some (.empty, r)
      else read handles inBlock sameIndent fuel r

def readItems (handles : List (List Char)) : Nat → Reading → Option (List Node × Reading)
  | 0, _ => none
  | fuel + 1, r =>
      match r.peek with
      | some .item => do
          let (item, r) ← readUnless handles [.item, .close] true false fuel r.skip
          let (items, r) ← readItems handles fuel r
          pure (item :: items, r)
      | some .close => some ([], r.skip)
      | _ => none

/-- The items of a list that is indented no further than the mapping around
it. -/
def readAligned (handles : List (List Char)) : Nat → Reading → Option (List Node × Reading)
  | 0, _ => none
  | fuel + 1, r =>
      match r.peek with
      | some .item => do
          let (item, r) ← readUnless handles [.item, .key, .value, .close] true false fuel r.skip
          let (items, r) ← readAligned handles fuel r
          pure (item :: items, r)
      | _ => some ([], r)

def readMembers (handles : List (List Char)) :
    Nat → Reading → Option (List (Node × Node) × Reading)
  | 0, _ => none
  | fuel + 1, r =>
      let ends := [Token.key, .value, .close]
      match r.peek with
      | some .close => some ([], r.skip)
      | some .key => do
          let (key, r) ← readUnless handles ends true true fuel r.skip
          let (value, r) ← readValue handles ends true fuel r
          let (members, r) ← readMembers handles fuel r
          pure ((key, value) :: members, r)
      | _ => none

/-- A value after its colon, if there is one. -/
def readValue (handles : List (List Char)) (ends : List Token) (inBlock : Bool) :
    Nat → Reading → Option (Node × Reading)
  | 0, _ => none
  | fuel + 1, r =>
      match r.peek with
      | some .value => readUnless handles ends inBlock inBlock fuel r.skip
      | _ => some (.empty, r)

/-- The items of a list in brackets. An item may be a single member. -/
def readFlowItems (handles : List (List Char)) (isFirst : Bool) :
    Nat → Reading → Option (List Node × Reading)
  | 0, _ => none
  | fuel + 1, r =>
      if r.peek = some .closeFlowItems then some ([], r.skip)
      else
        match isFirst, r.peek with
        | false, some .comma => readFlowItem handles fuel r.skip
        | false, _ => none
        | true, _ => readFlowItem handles fuel r

/-- An item of a list in brackets and the items after it, unless the list ends
here. -/
def readFlowItem (handles : List (List Char)) : Nat → Reading → Option (List Node × Reading)
  | 0, _ => none
  | fuel + 1, r =>
      match r.peek with
      | some .closeFlowItems => some ([], r.skip)
      | some .key => do
          let ends := [Token.comma, .closeFlowItems]
          let (key, r) ← readUnless handles (.value :: ends) false false fuel r.skip
          let (value, r) ← readValue handles ends false fuel r
          let (items, r) ← readFlowItems handles false fuel r
          pure (.mapping [(key, value)] :: items, r)
      | _ => do
          let (item, r) ← read handles false false fuel r
          let (items, r) ← readFlowItems handles false fuel r
          pure (item :: items, r)

def readFlowMembers (handles : List (List Char)) (isFirst : Bool) :
    Nat → Reading → Option (List (Node × Node) × Reading)
  | 0, _ => none
  | fuel + 1, r =>
      if r.peek = some .closeFlowMembers then some ([], r.skip)
      else
        match isFirst, r.peek with
        | false, some .comma => readFlowMember handles fuel r.skip
        | false, _ => none
        | true, _ => readFlowMember handles fuel r

/-- A member of a mapping in braces and the members after it, unless the mapping
ends here. A part without a colon is a key without a value. -/
def readFlowMember (handles : List (List Char)) :
    Nat → Reading → Option (List (Node × Node) × Reading)
  | 0, _ => none
  | fuel + 1, r =>
      let ends := [Token.comma, .closeFlowMembers]
      match r.peek with
      | some .closeFlowMembers => some ([], r.skip)
      | some .key => do
          let (key, r) ← readUnless handles (.value :: ends) false false fuel r.skip
          let (value, r) ← readValue handles ends false fuel r
          let (members, r) ← readFlowMembers handles false fuel r
          pure ((key, value) :: members, r)
      | _ => do
          let (key, r) ← read handles false false fuel r
          let (members, r) ← readFlowMembers handles false fuel r
          pure ((key, .empty) :: members, r)

end

/-- The handles that directives declare, and what follows. At most one version
may be named, and it must be a known one; no handle may be declared twice. -/
def directives (versionSeen : Bool) (handles : List (List Char)) :
    List Token → Option (List (List Char) × List Token)
  | .version major minor :: rest =>
      if versionSeen || major != 1 || (minor != 1 && minor != 2) then none
      else directives true handles rest
  | .tagHandle handle :: rest =>
      if handles.contains handle then none else directives versionSeen (handle :: handles) rest
  | rest => some (handles, rest)

/-- The handles that need no directive. -/
def knownHandles : List (List Char) := [['!'], ['!', '!']]

/-- The only document among some tokens. No document at all is an empty one. -/
def ofTokens (tokens : List Token) : Option Node := do
  let (declared, rest) ← directives false [] tokens
  let explicit := rest.head? == some .documentStart
  if rest.length < tokens.length && !explicit then none
  else
    let rest := if explicit then rest.drop 1 else rest
    let (node, r) ←
      if rest.head?.all fun t => (explicit && [.documentStart, .documentEnd].contains t) then
        some (Node.empty, { tokens := rest, named := [] })
      else
        read (declared ++ knownHandles) true false (4 * rest.length + 4)
          { tokens := rest, named := [] }
    if (r.tokens.dropWhile (· == .documentEnd)).isEmpty then some node else none

/-- The document in a text. -/
def parse (text : String) : Option Node := (Token.scan text).bind ofTokens

end Node

end Workbench.Yaml
