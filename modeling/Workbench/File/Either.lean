import Workbench.File.Service

/-! # One of two file services

A program may decide only when it is started where its files are. A state of one
of two services is a service again: every call goes to the one that is there. -/

namespace Workbench

variable {σ τ : Type}

/-- Makes a call on whichever state is there. -/
def callEither {α : Type} (left : σ → Except FileError α × σ) (right : τ → Except FileError α × τ) :
    σ ⊕ τ → Except FileError α × (σ ⊕ τ)
  | .inl s => let (answer, s) := left s; (answer, .inl s)
  | .inr t => let (answer, t) := right t; (answer, .inr t)

instance [FileService σ] [FileService τ] : FileService (σ ⊕ τ) where
  fetchFile path := callEither (FileService.fetchFile path) (FileService.fetchFile path)
  storeFile path content encoding expected :=
    callEither (FileService.storeFile path content encoding expected)
      (FileService.storeFile path content encoding expected)
  movePath oldPath newPath :=
    callEither (FileService.movePath oldPath newPath) (FileService.movePath oldPath newPath)
  removePath path := callEither (FileService.removePath path) (FileService.removePath path)
  listFolder path := callEither (FileService.listFolder path) (FileService.listFolder path)

end Workbench
