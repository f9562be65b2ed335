import Workbench.Disk
import Workbench.Proofs.Text.Percent

/-! # A replaced file is read back

Once a file was replaced, its path is read as what was written. The folders on the way were
made before, and the file has not taken the place of one of them. -/

namespace Workbench.Disk

open Text

variable {disk other : Disk} {path name : String} {reached names : List String}

/-- What the disk holds under some names. The root is always there. -/
def held? (disk : Disk) (names : List String) : Option DiskNode :=
  if names.isEmpty then some .folder else disk.nodes.get? (ofSteps names)

/-- A way leads through folders, and none of its names is too long. -/
inductive Leads (disk : Disk) : List String → List String → Prop
  | done (reached : List String) : Leads disk reached []
  | through {reached rest : List String} {name : String} (hname : isLongName name = false)
      (hfolder : disk.held? (step reached name) = some .folder)
      (h : Leads disk (step reached name) rest) : Leads disk reached (name :: rest)

/-- Every folder of one disk is a folder of the other. -/
def KeepsFolders (disk other : Disk) : Prop :=
  ∀ names, disk.held? names = some .folder → other.held? names = some .folder

theorem Leads.of_keeps (h : disk.Leads reached names) (hkeeps : disk.KeepsFolders other) :
    other.Leads reached names := by
  induction h with
  | done reached => exact .done reached
  | through hname hfolder _ ih => exact .through hname (hkeeps _ hfolder) ih

/-! ## Making folders -/

theorem keepsFolders_insert (disk : Disk) (key : String) :
    disk.KeepsFolders { disk with nodes := disk.nodes.insert key .folder } := by
  intro names h
  unfold held? at h ⊢
  split at h
  next hroot => rw [if_pos hroot]
  next hroot =>
    rw [if_neg hroot, Keyed.get?_insert]
    split
    · rfl
    · exact h

theorem keepsFolders_makeFolders (disk : Disk) (reached names : List String) :
    disk.KeepsFolders (disk.makeFolders reached names).2 := by
  induction names generalizing disk reached with
  | nil => exact fun _ h => h
  | cons name rest ih =>
      unfold makeFolders
      dsimp only
      split
      · exact fun _ h => h
      · split
        · exact ih disk _
        · exact fun _ h => h
        · exact fun folder h => ih _ _ folder (disk.keepsFolders_insert _ folder h)

theorem leads_makeFolders (h : (disk.makeFolders reached names).1 = .ok ()) :
    (disk.makeFolders reached names).2.Leads reached names := by
  induction names generalizing disk reached with
  | nil => exact .done reached
  | cons name rest ih =>
      unfold makeFolders at h ⊢
      dsimp only at h ⊢
      split at h
      · cases h
      next hname =>
        rw [if_neg hname]
        have hshort : isLongName name = false := by simpa using hname
        split at h
        next hfolder =>
          exact .through hshort (disk.keepsFolders_makeFolders _ rest _ hfolder) (ih h)
        next => cases h
        next =>
          refine .through hshort (keepsFolders_makeFolders _ _ rest _ ?_) (ih h)
          unfold held?
          rw [Keyed.get?_insert_self, ite_self]

/-! ## Following a way -/

theorem follow_cons (hname : isLongName name = false)
    (hfolder : disk.held? (step reached name) = some .folder) (hne : names ≠ []) :
    disk.follow reached (name :: names) = disk.follow (step reached name) names := by
  obtain ⟨next, rest, rfl⟩ := List.exists_cons_of_ne_nil hne
  unfold held? at hfolder
  rw [follow.eq_def]
  dsimp only
  rw [hname, if_neg Bool.false_ne_true, hfolder]

theorem follow_last (hname : isLongName name = false) :
    disk.follow reached [name] =
      match disk.held? (step reached name) with
      | some node => .ok node
      | none => .error .notFound := by
  rw [follow.eq_def]
  dsimp only
  rw [hname, if_neg Bool.false_ne_true]
  unfold held?
  generalize (if (step reached name).isEmpty then some DiskNode.folder
    else disk.nodes.get? (ofSteps (step reached name))) = found
  cases found with
  | none => rfl
  | some node => rfl

theorem Leads.follow (h : disk.Leads reached names) (last : String) :
    disk.follow reached (names ++ [last]) = disk.follow (names.foldl step reached) [last] := by
  induction h with
  | done => rfl
  | through hname hfolder _ ih =>
      rw [List.cons_append, follow_cons hname hfolder (by simp), ih, List.foldl_cons]

/-- Behind a way through folders stands what is held under the names of the route. -/
theorem Leads.follow_steps (h : disk.Leads [] names) (hsteps : steps path = names ++ [name])
    (hname : isLongName name = false) :
    disk.follow [] (steps path) =
      match disk.held? (route path) with
      | some node => .ok node
      | none => .error .notFound := by
  have hroute : route path = step (names.foldl step []) name := by
    rw [route, hsteps, List.foldl_append]
    rfl
  rw [hsteps, h.follow, follow_last hname, hroute]

/-! ## Storing -/

/-- A file is stored only if its path can be followed and no folder is found there. -/
theorem of_store {bytes : List UInt8} (h : (disk.store path bytes).1 = .ok ()) :
    disk.node path ≠ .ok .folder ∧ namesFolder path = false ∧
      (disk.store path bytes).2 =
        { disk with nodes := disk.nodes.insert (ofSteps (route path)) (.file bytes) } := by
  unfold store at h ⊢
  split at h
  next => cases h
  next => cases h
  next => cases h
  next hfolder _ _ =>
    split at h
    next => cases h
    next hplain => exact ⟨hfolder, by simpa using hplain, by rw [if_neg hplain]⟩

/-- What was stored is read, if the way to it leads through folders. -/
theorem read_store {bytes : List UInt8} (hway : disk.Leads [] names)
    (hsteps : steps path = names ++ [name]) (hname : isLongName name = false)
    (h : (disk.store path bytes).1 = .ok ()) :
    (disk.store path bytes).2.read path = .ok bytes := by
  obtain ⟨hnode, hplain, hstored⟩ := of_store h
  have hfree : disk.held? (route path) ≠ some .folder := by
    intro hfolder
    refine hnode ?_
    rw [node, hway.follow_steps hsteps hname, hfolder]
  have hroute : (route path).isEmpty = false := by
    by_contra hroot
    exact hfree (if_pos (by simpa using hroot))
  -- The file is no folder on the way, so the way is still there.
  have hkeeps : disk.KeepsFolders (disk.store path bytes).2 := by
    rw [hstored]
    intro folder hfolder
    unfold held? at hfolder hfree ⊢
    split at hfolder
    next hroot => rw [if_pos hroot]
    next hroot =>
      rw [if_neg hroot, Keyed.get?_insert]
      split
      next hsame =>
        rw [hroute, if_neg Bool.false_ne_true, hsame] at hfree
        exact (hfree hfolder).elim
      next => exact hfolder
  have hheld : (disk.store path bytes).2.held? (route path) = some (.file bytes) := by
    rw [held?, hroute, if_neg Bool.false_ne_true, hstored, Keyed.get?_insert_self]
  rw [read, node, (hway.of_keeps hkeeps).follow_steps hsteps hname, hheld, hplain]
  rfl

/-- **Read back.** A file that was replaced is read as it was written. -/
theorem read_replace {bytes : List UInt8} (h : (disk.replace path bytes).1 = .ok ()) :
    (disk.replace path bytes).2.read path = .ok bytes := by
  unfold replace at h ⊢
  split at h
  · cases h
  next hsteps =>
    rw [if_neg hsteps]
    have hne : steps path ≠ [] := fun hnone => hsteps (by rw [hnone]; rfl)
    have hway := @leads_makeFolders disk [] (steps path).dropLast
    unfold makeParent at h ⊢
    generalize disk.makeFolders [] (steps path).dropLast = made at h hway ⊢
    obtain ⟨answer, prepared⟩ := made
    cases answer with
    | error error => cases h
    | ok _ =>
        dsimp only at h hway ⊢
        split at h
        · cases h
        next hdraft =>
          rw [if_neg hdraft]
          have hname : isLongName ((steps path).getLast hne) = false := by
            rw [isLongDraft, List.getLast?_eq_some_getLast hne] at hdraft
            simp only [Option.any_some, decide_eq_true_eq] at hdraft
            simp only [isLongName, decide_eq_false_iff_not]
            omega
          exact read_store (hway rfl) (List.dropLast_append_getLast hne).symm hname h

/-- Text is read as the text it was written from. -/
theorem readText_replace {text : String} (h : (disk.replace path (utf8Bytes text)).1 = .ok ()) :
    (disk.replace path (utf8Bytes text)).2.readText path = .ok text := by
  rw [readText, read_replace h]
  simp only [fromUTF8?_utf8Bytes]

end Workbench.Disk
