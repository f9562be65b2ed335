import Workbench.Desk.Traffic

/-! # Calls of a file service

A file service changes by its calls. What every call keeps lasts through any number
of them. -/

namespace Workbench

/-- A file service after some calls. -/
inductive FileService.Called {σ : Type} [FileService σ] (before : σ) : σ → Prop
  | refl : Called before before
  | fetched {now : σ} (h : Called before now) (path : String) :
      Called before (fetchFile path now).2
  | stored {now : σ} (h : Called before now) (path content : String) (encoding : Encoding)
      (expected : Option String) : Called before (storeFile path content encoding expected now).2
  | moved {now : σ} (h : Called before now) (oldPath newPath : String) :
      Called before (movePath oldPath newPath now).2
  | removed {now : σ} (h : Called before now) (path : String) :
      Called before (removePath path now).2
  | listed {now : σ} (h : Called before now) (path : String) :
      Called before (listFolder path now).2

namespace FileService

variable {σ : Type} [FileService σ] {before middle after : σ}

theorem Called.trans (h : Called before middle) (h' : Called middle after) :
    Called before after := by
  induction h' with
  | refl => exact h
  | fetched _ path ih => exact ih.fetched path
  | stored _ path content encoding expected ih => exact ih.stored path content encoding expected
  | moved _ oldPath newPath ih => exact ih.moved oldPath newPath
  | removed _ path ih => exact ih.removed path
  | listed _ path ih => exact ih.listed path

theorem Called.of_eq (h : after = before) : Called before after := h ▸ .refl

/-- A property of services that no call ends. -/
structure Keeps (p : σ → Prop) : Prop where
  fetch : ∀ path service, p service → p (fetchFile path service).2
  store : ∀ path content encoding expected service, p service →
    p (storeFile path content encoding expected service).2
  move : ∀ oldPath newPath service, p service → p (movePath oldPath newPath service).2
  remove : ∀ path service, p service → p (removePath path service).2
  list : ∀ path service, p service → p (listFolder path service).2

theorem Keeps.called {p : σ → Prop} (hkeeps : Keeps p) (h : Called before after)
    (hbefore : p before) : p after := by
  induction h with
  | refl => exact hbefore
  | fetched _ path ih => exact hkeeps.fetch path _ ih
  | stored _ path content encoding expected ih =>
      exact hkeeps.store path content encoding expected _ ih
  | moved _ oldPath newPath ih => exact hkeeps.move oldPath newPath _ ih
  | removed _ path ih => exact hkeeps.remove path _ ih
  | listed _ path ih => exact hkeeps.list path _ ih

end FileService

namespace Errand

open FileService

variable {σ : Type} [FileService σ]

/-- The service performs a request by one call. -/
theorem called_perform (errand : Errand) (service : σ) :
    Called service (errand.perform service).2 := by
  cases errand with
  | read path =>
      have hcalled : Called service (fetchFile path service).2 := .fetched .refl path
      unfold perform
      dsimp only
      split
      next h => rwa [h] at hcalled
      next h => rwa [h] at hcalled
  | write path content encoding expected =>
      have hcalled : Called service (storeFile path content encoding expected service).2 :=
        .stored .refl path content encoding expected
      unfold perform
      dsimp only
      split
      next h => rwa [h] at hcalled
      next h => rwa [h] at hcalled
      next h => rwa [h] at hcalled

/-- Only a read that has found something answers with content. -/
theorem fetchFile_of_fetched {errand : Errand} {service after : σ} {content : FileContent}
    (h : errand.perform service = (.refresh (.fetched content), after)) :
    ∃ path, (FileService.fetchFile path service).1 = .ok content := by
  cases errand with
  | read path =>
      refine ⟨path, ?_⟩
      unfold perform at h
      dsimp only at h
      split at h
      next hread =>
        obtain ⟨hresult, -⟩ := Prod.mk.inj h
        rw [hread]
        simpa using hresult
      next error _ _ => cases hnone : error.isNotFound <;> simp [hnone] at h
  | write path content encoding expected =>
      unfold perform at h
      dsimp only at h
      split at h <;> simp at h

/-- Only a write that the service accepted answers that it has stored something. -/
theorem storeFile_of_written {path content : String} {encoding : Encoding}
    {expected : Option String} {service after : σ} {write : WriteResult}
    (h : (Errand.write path content encoding expected).perform service =
      (.save (.written write), after)) :
    FileService.storeFile path content encoding expected service = (.ok write, after) := by
  unfold perform at h
  dsimp only at h
  split at h
  next stored service' hstore =>
    obtain ⟨hwritten, rfl⟩ := Prod.mk.inj h
    obtain rfl : stored = write := by simpa using hwritten
    exact hstore
  next => simp at h
  next => simp at h

end Errand

end Workbench
