import Workbench.File.Memory
import Workbench.File.Rest
import Workbench.Proofs.File.Recorded
import Workbench.Proofs.File.Url
import Workbench.Proofs.File.Wire

/-! # Files in memory behind a web interface

A peer that keeps its files in memory reads every request back as the call it was made
for, and answers as the interface has it. Whoever makes the calls through the interface
then gets the answers that the files in memory give. -/

namespace Workbench

/-- A call of a file service. -/
inductive Call
  | fetch (path : String)
  | store (path content : String) (encoding : Encoding) (expected : Option String)
  | move (oldPath newPath : String)
  | remove (path : String)
  | list (path : String)

/-- Makes a call and tells its answer. -/
def Call.make {σ : Type} [FileService σ] (call : Call) (service : σ) : Exchange × σ :=
  match call with
  | .fetch path => (FileService.fetchFile path service).map (.fetch path) id
  | .store path content encoding expected =>
      (FileService.storeFile path content encoding expected service).map
        (.store path content encoding expected) id
  | .move oldPath newPath =>
      (FileService.movePath oldPath newPath service).map (.move oldPath newPath) id
  | .remove path => (FileService.removePath path service).map (.remove path) id
  | .list path => (FileService.listFolder path service).map (.list path) id

/-- Files in memory behind a web interface: the target of the address where the peer is
reached, and the status by which it tells that an unexpected version was found. -/
structure MemoryPeer where
  root : String
  mismatch : Nat
  files : MemoryFiles

namespace MemoryPeer

open Json Rest Text

/-! ## Requests are read as calls -/

/-- The path in a query. -/
def queried? (query : List Char) : Option String :=
  ("?path=".toList.isPrefixOf? query).bind fun written => percentDecode (String.ofList written)

/-- The write that a body asks for. Without an expected version any is expected. -/
def storing? (body : Json) : Option Call := do
  match ← fields? ["path", "content", "encoding", "expected_etag"] body with
  | [path, content, encoding, expected] =>
      pure (.store (← required text? path) (← required text? content)
        (← required Encoding.ofJson? encoding) (← defaulted none (nullable text?) expected))
  | _ => none

/-- The rename that a body asks for. -/
def moving? (body : Json) : Option Call := do
  match ← fields? ["old_path", "new_path"] body with
  | [oldPath, newPath] => pure (.move (← required text? oldPath) (← required text? newPath))
  | _ => none

/-- The call that a verb asks for at an endpoint. The query or the body has its
arguments. -/
def asked? (verb endpoint : String) (query : List Char) (body : Option Json) : Option Call :=
  match verb, endpoint, body with
  | "GET", "files/content", none => (queried? query).map .fetch
  | "PUT", "files/content", some body => storing? body
  | "POST", "files/rename", some body => moving? body
  | "DELETE", "files", none => (queried? query).map .remove
  | "GET", "files/list", none => (queried? query).map .list
  | _, _, _ => none

/-- The call that a request was made for. The endpoint and the query are what the target
has below the root. -/
def call? (root : String) (request : Rest.Request) : Option Call :=
  (root.toList.isPrefixOf? request.target.toList).bind fun below =>
    asked? request.verb (String.ofList (below.takeWhile (· != '?'))) (below.dropWhile (· != '?'))
      request.body

/-! ## Answers are told by statuses -/

/-- The status of a refusal. -/
def status (mismatch : Nat) : FileError → Nat
  | .notFound _ => 404
  | .versionMismatch _ => mismatch
  | .alreadyExists _ => 409
  | .status .. | .transport _ | .decode _ => 500

/-- An answer as the interface has it. -/
def response {α : Type} (mismatch : Nat) (write : α → Json) : Except FileError α → Response
  | .ok a => { status := 200, body := (write a).render }
  | .error error => { status := status mismatch error, body := error.message }

/-- A folder listing as it is answered. -/
def listing (entries : List DirEntry) : Json :=
  .ofMembers [("entries", .list (entries.map DirEntry.toJson))]

/-- What is answered to a call. -/
def reply (mismatch : Nat) : Exchange → Response
  | .fetch _ answer => response mismatch FileContent.toJson answer
  | .store _ _ _ _ answer => response mismatch WriteResult.toJson answer
  | .move _ _ answer | .remove _ answer => response mismatch (fun _ => .null) answer
  | .list _ answer => response mismatch listing answer

instance : Peer MemoryPeer where
  answer request peer :=
    match call? peer.root request with
    | none => (some { status := 400, body := "" }, peer)
    | some call =>
        let (exchange, files) := call.make peer.files
        (some (reply peer.mismatch exchange), { peer with files })

end MemoryPeer

end Workbench
