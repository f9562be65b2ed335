import Workbench.File.Service
import Workbench.File.Url
import Workbench.File.Wire
import Workbench.Json.Printer
import Workbench.Json.Reader

/-! # Files behind a web interface

A file service that keeps nothing itself: every call becomes one request to a
peer, and the peer's answer is read back. The peer is a state of its own that
answers requests in any way it likes, or not at all. -/

namespace Workbench.Rest

open Text

/-- The name of the environment variable that gives the address of the
service. -/
def baseVariable : String := "TABSYNC_FILE_API_BASE"

/-- The address that is used when nothing else is said. -/
def defaultBase : String := "http://127.0.0.1:8080/api"

structure Request where
  verb : String
  authority : String
  target : String
  accept : String
  authorization : Option String
  contentType : Option String
  body : Option Json
  deriving Inhabited

structure Response where
  status : Nat
  body : String
  deriving DecidableEq, Inhabited

/-- Where the service is, and the token that is shown to it. -/
structure Client where
  base : String
  token : Option String
  deriving DecidableEq, Inhabited

namespace Client

/-- A client for an address. Slashes at its end do not count, and neither does a
blank token. -/
def ofBase (base : String) (token : Option String) : Client :=
  { base := dropEnd '/' base, token := token.filter fun t => !(trim t).isEmpty }

/-- A client for the address in the environment, or else the given or the
default one. -/
def ofEnvironment (fromVariable : Option String) (fallback token : Option String) : Client :=
  let chosen := fromVariable.filter fun base => !(trim base).isEmpty
  ofBase ((chosen <|> fallback).getD defaultBase) token

end Client

/-- What a call asks for: the last part of the address, and what is sent along. -/
inductive Payload
  /-- A path in the query. -/
  | query (path : String)
  /-- A record in the body. -/
  | json (body : Json)

/-- A header may hold visible ASCII characters, spaces and tabs. -/
def isHeaderChar (c : Char) : Bool := c == '\t' || (0x20 ≤ c.toNat && c.toNat < 0x7f)

/-- The request for a call, unless the address or the token cannot be sent.
Blanks at the end of a header are lost on the way. -/
def request? (client : Client) (verb endpoint : String) (payload : Payload) : Option Request := do
  let address := client.base ++ "/" ++ endpoint
  let address := match payload with
    | .query path => address ++ "?path=" ++ percentEncode path
    | .json _ => address
  let url ← Url.parse address
  let authorization := client.token.map fun token => "Bearer " ++ token
  if (authorization.getD "").toList.all isHeaderChar then
    pure
      { verb
        authority := url.authority
        target := url.target
        accept := "application/json"
        authorization := authorization.map fun value =>
          String.ofList (dropEndWhile (fun c => c == ' ' || c == '\t') value.toList)
        contentType := match payload with
          | .query _ => none
          | .json _ => some "application/json"
        body := match payload with
          | .query _ => none
          | .json body => some body }
  else none

/-- Somebody who answers requests, or leaves them unanswered. -/
class Peer (π : Type) where
  answer (request : Request) : π → Option Response × π

/-- The body of an answer; answers with some statuses have none. -/
def Response.content (r : Response) : String :=
  if r.status < 200 || r.status == 204 || r.status == 304 then "" else r.body

/-- How statuses of refusal are read, call by call. -/
structure Refusals where
  /-- What 409 and 412 mean, where they mean anything. -/
  named : Nat → Option FileError

/-- The failure that an answer of refusal stands for. -/
def refusal (path : String) (refusals : Refusals) (r : Response) : FileError :=
  if r.status == 404 then .notFound path
  else (refusals.named r.status).getD (.status r.status r.content)

/-- No status has a meaning of its own. -/
def Refusals.none : Refusals := ⟨fun _ => .none⟩

/-- An unexpected version was found. -/
def Refusals.ofWrite (path : String) : Refusals :=
  ⟨fun status => if status == 412 || status == 409 then some (.versionMismatch path) else .none⟩

/-- The target of a rename is taken. -/
def Refusals.ofRename (newPath : String) : Refusals :=
  ⟨fun status => if status == 409 then some (.alreadyExists newPath) else .none⟩

/-- A service behind a web interface. -/
structure Files (π : Type) where
  client : Client
  peer : π

variable {π : Type} [Peer π]

/-- Sends the request of a call and tells the answer, or why there is none. -/
def Files.send (files : Files π) (verb endpoint : String) (payload : Payload) (path : String)
    (refusals : Refusals) : Except FileError Response × Files π :=
  match request? files.client verb endpoint payload with
  | none => (.error (.transport "request could not be sent"), files)
  | some request =>
      let (answer, peer) := Peer.answer request files.peer
      let files := { files with peer }
      match answer with
      | none => (.error (.transport "no answer"), files)
      | some response =>
          if response.status < 400 then (.ok response, files)
          else (.error (refusal path refusals response), files)

/-- The value in the body of an answer. -/
def readBody {α : Type} (read : Json → Option α) (r : Response) : Except FileError α :=
  match (Json.parse r.content).bind read with
  | some a => .ok a
  | none => .error (.decode "unexpected body")

/-- A folder listing as answered. -/
def listing? (j : Json) : Option (List DirEntry) := do
  match ← Json.fields? ["entries"] j with
  | [entries] => Json.defaulted [] (Json.listOf? DirEntry.ofJson?) entries
  | _ => none

/-- The body of a write. Without an expected version none is sent. -/
def writeBody (path content : String) (encoding : Encoding) (expected : Option String) : Json :=
  .ofMembers
    ([("path", .text path), ("content", .text content), ("encoding", encoding.toJson)] ++
      match expected with
      | some etag => [("expected_etag", .text etag)]
      | none => [])

def renameBody (oldPath newPath : String) : Json :=
  .ofMembers [("old_path", .text oldPath), ("new_path", .text newPath)]

/-- Reads the answer of a call. -/
def andThen {α : Type} (read : Response → Except FileError α)
    (sent : Except FileError Response × Files π) : Except FileError α × Files π :=
  (sent.1.bind read, sent.2)

instance : FileService (Files π) where
  fetchFile path files :=
    andThen (readBody FileContent.ofJson?)
      (files.send "GET" "files/content" (.query path) path .none)
  storeFile path content encoding expected files :=
    andThen (readBody WriteResult.ofJson?)
      (files.send "PUT" "files/content" (.json (writeBody path content encoding expected)) path
        (.ofWrite path))
  movePath oldPath newPath files :=
    andThen (fun _ => .ok ())
      (files.send "POST" "files/rename" (.json (renameBody oldPath newPath)) oldPath
        (.ofRename newPath))
  removePath path files :=
    andThen (fun _ => .ok ()) (files.send "DELETE" "files" (.query path) path .none)
  listFolder path files :=
    andThen (readBody listing?) (files.send "GET" "files/list" (.query path) path .none)

end Workbench.Rest
