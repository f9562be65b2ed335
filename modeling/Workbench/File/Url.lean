import Workbench.Text.Blank
import Workbench.Text.Percent

/-! # Addresses

How the text of a web address becomes a host and a request target. Blanks at the
ends are dropped, characters that may not stand in an address are percent
encoded, steps of one or two dots are taken, and what follows a hash sign is not
sent. -/

namespace Workbench

open Text

/-- A web address: the host with its port, and the path with its query. -/
structure Url where
  authority : String
  target : String
  deriving DecidableEq, Inhabited

namespace Url

/-- A control character or a space. -/
def isControlOrSpace (c : Char) : Bool := c.toNat ≤ 0x20

def isEncodedInQuery (c : Char) : Bool :=
  c.toNat ≤ 0x20 || 0x7f ≤ c.toNat || ['"', '#', '<', '>', '\''].contains c

/-- Characters that are encoded in a path. -/
def isEncodedInPath (c : Char) : Bool :=
  c.toNat ≤ 0x20 || 0x7f ≤ c.toNat || ['"', '#', '<', '>', '?', '\x60', '\x7b', '\x7d'].contains c

/-- Encodes the characters for which a test holds, byte by byte. -/
def encodeWhere (test : Char → Bool) (cs : List Char) : List Char :=
  cs.flatMap fun c =>
    if test c then
      (String.utf8EncodeChar c).flatMap fun b =>
        ['%', upperHexDigit (b.toNat / 16), upperHexDigit (b.toNat % 16)]
    else [c]

/-- A step that stays where it is. -/
def isDot (segment : String) : Bool :=
  segment == "." || segment == "%2e" || segment == "%2E"

/-- A step that leads back. -/
def isDoubleDot (segment : String) : Bool :=
  ["..", ".%2e", ".%2E", "%2e.", "%2E.", "%2e%2e", "%2e%2E", "%2E%2e", "%2E%2E"].contains segment

/-- Takes the steps of a path. A dotted step at the end leaves an empty one. -/
def takeSteps (taken : List String) : List String → List String
  | [] => taken
  | segment :: rest =>
      let taken := if isDoubleDot segment then taken.dropLast else taken
      if isDot segment || isDoubleDot segment then
        takeSteps (if rest.isEmpty then taken ++ [""] else taken) rest
      else takeSteps (taken ++ [segment]) rest

/-- The steps of a path, which begins with a slash. A backslash counts as one. -/
def segments (path : List Char) : List (List Char) :=
  let path := path.map fun c => if c = '\\' then '/' else c
  let path := match path with
    | '/' :: rest => rest
    | path => path
  path.splitOnP (· == '/')

/-- The path of an address with its steps taken. -/
def normalizePath (path : List Char) : String :=
  let steps := (segments path).map fun s => String.ofList (encodeWhere isEncodedInPath s)
  "/" ++ "/".intercalate (takeSteps [] steps)

/-- Drops a word at the beginning, in either case. -/
def dropScheme? (scheme : String) (cs : List Char) : Option (List Char) :=
  let length := scheme.length
  if (cs.take length).map Char.toLower = scheme.toList then some (cs.drop length) else none

/-- The characters that end the host. -/
def endsAuthority (c : Char) : Bool := c == '/' || c == '\\' || c == '?' || c == '#'

/-- The port after the last colon of a host is a number of at most 16 bits, or
empty. -/
def hasValidPort (authority : List Char) : Bool :=
  match cutAtLast ':' authority with
  | none => true
  | some (_, port) =>
      port.all Char.isDigit && port.foldl (fun n c => 10 * n + (c.toNat - 0x30)) 0 < 65536

/-- A text without blanks at its ends, and without tabs and line ends. -/
def clean (text : List Char) : List Char :=
  (dropEndWhile isControlOrSpace (text.dropWhile isControlOrSpace)).filter fun c =>
    c != '\t' && c != '\n' && c != '\r'

/-- What follows the scheme and the slashes after it. -/
def afterScheme? (cs : List Char) : Option (List Char) :=
  (dropScheme? "http://" cs <|> dropScheme? "https://" cs).map
    (·.dropWhile fun c => c == '/' || c == '\\')

/-- The query with its question mark, or nothing. -/
def encodeQuery : List Char → String
  | [] => ""
  | _ :: query => "?" ++ String.ofList (encodeWhere isEncodedInQuery query)

/-- Host, path and query. There must be a host. -/
def ofHierarchy? (rest : List Char) : Option Url :=
  let authority := rest.takeWhile (!endsAuthority ·)
  let rest := (rest.dropWhile (!endsAuthority ·)).takeWhile (· != '#')
  let path := rest.takeWhile (· != '?')
  let query := rest.dropWhile (· != '?')
  if authority.isEmpty || authority.any isControlOrSpace || !hasValidPort authority then none
  else
    some
      { authority := String.ofList authority, target := normalizePath path ++ encodeQuery query }

/-- The address that a text spells. -/
def parse (text : String) : Option Url := (afterScheme? (clean text.toList)).bind ofHierarchy?

end Url

end Workbench
