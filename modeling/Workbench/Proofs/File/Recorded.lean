import Mathlib.Data.List.Basic
import Workbench.File.Service

/-! # Recorded file services

A file service that keeps a record of its calls and of what it answered. It answers as
the service below it does, so what a recorded run shows holds of every service. -/

namespace Workbench

/-- One call of a file service and its answer. -/
inductive Exchange
  | fetch (path : String) (answer : Except FileError FileContent)
  | store (path content : String) (encoding : Encoding) (expected : Option String)
      (answer : Except FileError WriteResult)
  | move (oldPath newPath : String) (answer : Except FileError Unit)
  | remove (path : String) (answer : Except FileError Unit)
  | list (path : String) (answer : Except FileError (List DirEntry))
  deriving DecidableEq

/-- A file service and the record of its calls, the oldest first. -/
structure Recorded (σ : Type) where
  service : σ
  exchanges : List Exchange

namespace Recorded

variable {σ : Type} [FileService σ]

/-- Makes a call and adds it to the record. -/
def calling {α : Type} (call : σ → α × σ) (exchange : α → Exchange) (r : Recorded σ) :
    α × Recorded σ :=
  let (answer, service) := call r.service
  (answer, { service, exchanges := r.exchanges ++ [exchange answer] })

instance : FileService (Recorded σ) where
  fetchFile path := calling (FileService.fetchFile path) (.fetch path)
  storeFile path content encoding expected :=
    calling (FileService.storeFile path content encoding expected)
      (.store path content encoding expected)
  movePath oldPath newPath := calling (FileService.movePath oldPath newPath) (.move oldPath newPath)
  removePath path := calling (FileService.removePath path) (.remove path)
  listFolder path := calling (FileService.listFolder path) (.list path)

/-- The service as it is, with an empty record. -/
def starting (service : σ) : Recorded σ := { service, exchanges := [] }

variable (r : Recorded σ)

theorem exchanges_fetchFile (path : String) :
    (FileService.fetchFile path r).2.exchanges =
      r.exchanges ++ [.fetch path (FileService.fetchFile path r).1] := rfl

theorem exchanges_storeFile (path content : String) (encoding : Encoding)
    (expected : Option String) :
    (FileService.storeFile path content encoding expected r).2.exchanges =
      r.exchanges ++ [.store path content encoding expected
        (FileService.storeFile path content encoding expected r).1] := rfl

theorem exchanges_listFolder (path : String) :
    (FileService.listFolder path r).2.exchanges =
      r.exchanges ++ [.list path (FileService.listFolder path r).1] := rfl

end Recorded

end Workbench
