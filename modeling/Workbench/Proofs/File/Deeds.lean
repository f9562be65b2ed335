import Workbench.Proofs.File.Renames

/-! # What is done to the files in memory

The files in memory are changed by the calls of the service and by other clients, and
failures are planned for them. Whatever was done, as long as nothing was renamed from or
to a spelling that a slash ends: the folders are whole, a call that fails changes
nothing, and a rename that succeeds loses nothing. -/

namespace Workbench.MemoryFiles

/-- What can be done to the files. -/
inductive Deed
  | put (path content : String)
  | remove (path : String)
  | plan (failure : PlannedFailure)
  | read (path : String)
  | write (path content : String) (encoding : Encoding) (expected : Option String)
  | rename (oldPath newPath : String)
  | delete (path : String)
  | list (path : String)

/-- The failure that a call is answered with, if any, and the files after it. -/
def outcome {α : Type} (answered : Except FileError α × MemoryFiles) :
    Option FileError × MemoryFiles :=
  match answered.1 with
  | .ok _ => (none, answered.2)
  | .error error => (some error, answered.2)

namespace Deed

/-- The failure that a deed is answered with, if any, and the files after it. -/
def perform (m : MemoryFiles) : Deed → Option FileError × MemoryFiles
  | .put path content => (none, (m.put path content).2)
  | .remove path => (none, (m.remove path).2)
  | .plan failure => (none, m.plan failure)
  | .read path => outcome (FileService.fetchFile path m)
  | .write path content encoding expected =>
      outcome (FileService.storeFile path content encoding expected m)
  | .rename oldPath newPath => outcome (FileService.movePath oldPath newPath m)
  | .delete path => outcome (FileService.removePath path m)
  | .list path => outcome (FileService.listFolder path m)

/-- The paths of a rename are those of files and folders. -/
def Spelled : Deed → Prop
  | .rename oldPath newPath => Path.Spelled oldPath ∧ Path.Spelled newPath
  | _ => True

end Deed

/-- The files after some deeds, the first of them first. -/
def after (m : MemoryFiles) (history : List Deed) : MemoryFiles :=
  history.foldl (fun m deed => (deed.perform m).2) m

variable {m : MemoryFiles}

theorem snd_outcome {α : Type} (answered : Except FileError α × MemoryFiles) :
    (outcome answered).2 = answered.2 := by
  unfold outcome
  split <;> rfl

theorem outcome_eq_some {α : Type} {answered : Except FileError α × MemoryFiles}
    {error : FileError} (h : (outcome answered).1 = some error) : answered.1 = .error error := by
  unfold outcome at h
  split at h
  next => cases h
  next failed hfailed =>
    obtain rfl := Option.some.inj h
    exact hfailed

/-! ## One deed -/

theorem rooted_calling {α : Type} {call : FileCall} {path : String}
    {answer : MemoryFiles → Except FileError α × MemoryFiles}
    (hanswer : ∀ m, Rooted m → Rooted (answer m).2) (h : m.Rooted) :
    (calling call path answer m).2.Rooted := by
  rcases calling_cases call path answer m with ⟨_, _, -, hfailed⟩ | ⟨-, hanswered⟩
  · rw [hfailed]
    exact h
  · rw [hanswered]
    exact hanswer _ h

theorem Rooted.rename (h : m.Rooted) {oldPath newPath : String} (hold : Path.Spelled oldPath)
    (hnew : Path.Spelled newPath) : (m.rename oldPath newPath).2.Rooted := by
  cases hanswer : (m.rename oldPath newPath).1 with
  | ok =>
      have hrenames := renames_rename oldPath newPath m
      rw [show m.rename oldPath newPath = (.ok (), (m.rename oldPath newPath).2) from
        Prod.ext hanswer rfl] at hrenames
      exact (h.renames hold hnew hrenames).2
  | error error =>
      rw [rename_error hanswer]
      exact h

/-- The folders stay whole. -/
theorem Rooted.perform (h : m.Rooted) {deed : Deed} (hspelled : deed.Spelled) :
    (deed.perform m).2.Rooted := by
  cases deed with
  | put path content => exact h.store path content .utf8
  | remove path => exact h.remove path
  | plan failure => exact h
  | read path =>
      rw [Deed.perform, snd_outcome]
      exact rooted_calling (fun _ hm => hm) h
  | write path content encoding expected =>
      rw [Deed.perform, snd_outcome]
      exact rooted_calling (fun _ hm => hm.write path content encoding expected) h
  | rename oldPath newPath =>
      rw [Deed.perform, snd_outcome]
      exact rooted_calling (fun _ hm => hm.rename hspelled.1 hspelled.2) h
  | delete path =>
      rw [Deed.perform, snd_outcome]
      exact rooted_calling (fun _ hm => hm.delete path) h
  | list path => exact h

/-- A deed that fails leaves files and folders alone. -/
theorem sameStore_perform {deed : Deed} {error : FileError}
    (h : (deed.perform m).1 = some error) : SameStore m (deed.perform m).2 := by
  cases deed with
  | put | remove | plan | list => cases h
  | read path =>
      rw [Deed.perform, snd_outcome]
      exact sameStore_fetchFile path m
  | write path content encoding expected =>
      rw [Deed.perform, snd_outcome]
      exact sameStore_storeFile (outcome_eq_some h)
  | rename oldPath newPath =>
      rw [Deed.perform, snd_outcome]
      exact sameStore_movePath (outcome_eq_some h)
  | delete path =>
      rw [Deed.perform, snd_outcome]
      exact sameStore_removePath (outcome_eq_some h)

/-! ## Any number of deeds -/

theorem Rooted.after (h : m.Rooted) {history : List Deed}
    (hspelled : ∀ deed ∈ history, deed.Spelled) : (m.after history).Rooted := by
  induction history generalizing m with
  | nil => exact h
  | cons deed rest ih =>
      obtain ⟨hfirst, hrest⟩ := List.forall_mem_cons.mp hspelled
      exact ih (h.perform hfirst) hrest

/-- The folders are whole, what fails changes nothing, and what is renamed is all
there. -/
structure LosesNothing (m : MemoryFiles) : Prop where
  rooted : m.Rooted
  failing : ∀ (deed : Deed) error, (deed.perform m).1 = some error →
    SameStore m (deed.perform m).2
  renames_iff : ∀ oldPath newPath, (Deed.perform m (.rename oldPath newPath)).1 = none ↔
    takeFailure .rename oldPath m.failures = none ∧ ¬ m.Stored newPath ∧ m.Stored oldPath
  relocates : ∀ oldPath newPath, Path.Spelled oldPath → Path.Spelled newPath →
    (Deed.perform m (.rename oldPath newPath)).1 = none →
      Relocates oldPath newPath m (Deed.perform m (.rename oldPath newPath)).2

/-- Whatever is done to files in memory, of which there were none, they are kept. -/
theorem losesNothing_after (history : List Deed) (hspelled : ∀ deed ∈ history, deed.Spelled) :
    (empty.after history).LosesNothing := by
  have hrooted : (empty.after history).Rooted := rooted_empty.after hspelled
  generalize empty.after history = m at hrooted
  have hsucceeds : ∀ oldPath newPath, (Deed.perform m (.rename oldPath newPath)).1 = none ↔
      (FileService.movePath oldPath newPath m).1 = .ok () := by
    intro oldPath newPath
    rw [Deed.perform, outcome]
    split
    next answer hanswer => simp [hanswer]
    next error hanswer => simp [hanswer]
  constructor
  case rooted => exact hrooted
  case failing => exact fun _ _ => sameStore_perform
  case renames_iff => exact fun _ _ => (hsucceeds _ _).trans movePath_eq_ok_iff
  case relocates =>
    intro oldPath newPath hold hnew hnone
    rw [Deed.perform, snd_outcome]
    have hok := (hsucceeds oldPath newPath).mp hnone
    exact relocates_of_movePath hrooted hold hnew (Prod.ext hok rfl)

/-- A folder is renamed to a path below itself, after another rename was refused. -/
def renamedIntoItself : List Deed :=
  [.put "/drafts/plan" "one", .put "/drafts/old/notes" "two", .rename "/drafts" "/drafts/old",
   .rename "/drafts" "/drafts/new"]

theorem renamedIntoItself_losesNothing :
    (∀ deed ∈ renamedIntoItself, deed.Spelled) ∧
      (empty.after renamedIntoItself).content? "/drafts/new/old/notes" = some "two" ∧
      (empty.after renamedIntoItself).content? "/drafts/old/notes" = none ∧
      (empty.after renamedIntoItself).LosesNothing := by
  have hspelled : ∀ deed ∈ renamedIntoItself, deed.Spelled := by
    simp only [renamedIntoItself, List.forall_mem_cons, List.not_mem_nil, false_implies,
      implies_true, and_true, Deed.Spelled, true_and]
    exact ⟨⟨⟨by decide, by decide⟩, ⟨by decide, by decide⟩⟩, ⟨by decide, by decide⟩,
      ⟨by decide, by decide⟩⟩
  exact ⟨hspelled, by decide +kernel, by decide +kernel, losesNothing_after _ hspelled⟩

end Workbench.MemoryFiles
