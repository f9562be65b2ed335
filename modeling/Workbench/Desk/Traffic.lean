import Workbench.File.Service
import Workbench.Tab.Action

/-! # Background requests

A request carries everything it needs from the moment it is started. It waits
until the file service performs it; from then on its result waits until it is
applied. A request is under way from its start until its result is applied. -/

namespace Workbench

/-- What a background request asks of the file service. -/
inductive Errand
  | read (path : String)
  | write (path : String) (content : String) (encoding : Encoding) (expected : Option String)
  deriving DecidableEq, Inhabited

namespace Errand

/-- The path a request is about. -/
def path : Errand → String
  | .read path => path
  | .write path _ _ _ => path

/-- The request stores a file. -/
def isWrite : Errand → Bool
  | .read _ => false
  | .write _ _ _ _ => true

end Errand

structure Request where
  tab : TabId
  id : RequestId
  errand : Errand
  deriving DecidableEq, Inhabited

/-- What became of a request. -/
inductive RequestResult
  | refresh (result : RefreshResult)
  | save (result : SaveResult)
  deriving DecidableEq, Inhabited

/-- A result that waits to be applied. -/
structure Reply where
  tab : TabId
  id : RequestId
  result : RequestResult
  deriving DecidableEq, Inhabited

namespace Reply

/-- The action by which a result is applied. -/
def action (reply : Reply) : TabAction :=
  match reply.result with
  | .refresh result => .refreshResolved reply.tab reply.id result
  | .save result => .saveResolved reply.tab reply.id result

end Reply

/-- The requests that wait for the service and the results that wait to be
applied, both oldest first. When somebody has to wait, `order` says which of
the waiting requests is performed next, by position; once it is used up it is
always the oldest. -/
structure Traffic where
  waiting : List Request
  mailbox : List Reply
  order : List Nat
  deriving DecidableEq, Inhabited

namespace Traffic

/-- Nothing under way. -/
def idle : Traffic := { waiting := [], mailbox := [], order := [] }

/-- The number of requests that were started and whose results were not yet
applied: those that wait for the service, and those whose results wait. -/
def inFlight (traffic : Traffic) : Nat := traffic.waiting.length + traffic.mailbox.length

/-- Adds a request that was just started. -/
def start (traffic : Traffic) (request : Request) : Traffic :=
  { traffic with waiting := traffic.waiting ++ [request] }

/-- Puts the result of the waiting request at a position into the mailbox. A request waits until
its result is there, also if its call has been performed already (`Desk.release`). -/
def answered (traffic : Traffic) (position : Nat) (reply : Reply) : Traffic :=
  { traffic with
    waiting := traffic.waiting.eraseIdx position
    mailbox := traffic.mailbox ++ [reply] }

end Traffic

namespace Errand

variable {σ : Type} [FileService σ]

/-- Lets the file service do what is asked. A missing file and an unexpected
version are results of their own; every other failure is known by its
wording. -/
def perform (errand : Errand) (service : σ) : RequestResult × σ :=
  match errand with
  | .read path =>
      match FileService.fetchFile path service with
      | (.ok content, service) => (.refresh (.fetched content), service)
      | (.error error, service) =>
          (.refresh (if error.isNotFound then .notFound else .failed error.message), service)
  | .write path content encoding expected =>
      match FileService.storeFile path content encoding expected service with
      | (.ok stored, service) => (.save (.written stored), service)
      | (.error (.versionMismatch _), service) => (.save .versionMismatch, service)
      | (.error error, service) => (.save (.failed error.message), service)

end Errand

end Workbench
