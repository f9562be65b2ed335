import Workbench.Proofs.Workspace.Moves

/-! # Saves that come late

A rename or a delete has to wait for the saves that are to store files at or
below its path. Whether it waits is decided from the open tabs there, but a save
outlives its tab: when the tab was closed or stands elsewhere by now, the save
can store its file after the path was renamed or deleted. The wait itself always completes
here (`Desk.settle`). -/

namespace Workbench

namespace Desk

variable {σ : Type} {desk : Desk σ}

/-- A save that the service has not performed yet is for a path at or below the
given one. -/
def SaveImpends (desk : Desk σ) (path : String) : Prop :=
  ∃ request ∈ desk.traffic.waiting, request.errand.isWrite = true ∧
    Path.isUnder request.errand.path path = true

instance (desk : Desk σ) (path : String) : Decidable (desk.SaveImpends path) :=
  inferInstanceAs (Decidable (∃ request ∈ desk.traffic.waiting, _))

/-- The tab that an impending save was started for is being saved if it is still
open. -/
theorem Orderly.saving_of_waiting (h : desk.Orderly) {request : Request} {tab : Tab}
    (hrequest : request ∈ desk.traffic.waiting) (hwrite : request.errand.isWrite = true)
    (htab : tab ∈ desk.bar.tabs) (hid : tab.id = request.tab) : tab.pendingSave.isSome = true := by
  have hpending := (h.attended tab htab).save request.ticket
    (Traffic.mem_tickets_of_waiting hrequest) hid.symm (Errand.phase_of_isWrite hwrite)
  rw [← Option.isSome_map, hpending]
  rfl

variable [FileService σ]

/-- The wait for the saves below a path leaves no request at all if a tab there is
being saved, and all of them otherwise. -/
theorem mem_waiting_settleSavesUnder (h : desk.Orderly) (path : String) (request : Request) :
    request ∈ (desk.settleSavesUnder path).2.traffic.waiting ↔
      request ∈ desk.traffic.waiting ∧ ¬ desk.SavingUnder (Path.normalize path) := by
  rcases settleSavesUnder_cases h path with ⟨hsaving, -, hidle⟩ | ⟨hnone, hsame⟩
  · have hwaiting : (desk.settleSavesUnder path).2.traffic.waiting = [] := by
      unfold inFlight Traffic.inFlight at hidle
      exact List.length_eq_zero_iff.mp (Nat.eq_zero_of_add_eq_zero_right hidle)
    rw [hwaiting]
    exact ⟨fun hmem => absurd hmem List.not_mem_nil, fun hkept => absurd hsaving hkept.2⟩
  · rw [hsame]
    exact ⟨fun hmem => ⟨hmem, hnone⟩, And.left⟩

end Desk

namespace Workspace

variable {σ : Type} [FileService σ] {w after : Workspace σ}

/-- What a call that was to wait for the saves at or below a path leaves of
them. -/
structure LeavesSaves (before after : Workspace σ) (path : String) : Prop where
  /-- A save there is left exactly if one was impending while no tab there was
  being saved. -/
  impends_iff : after.desk.SaveImpends path ↔
    before.desk.SaveImpends path ∧ ¬ before.desk.SavingUnder (Path.normalize path)
  /-- The tab of a save that is left is closed or stands elsewhere. -/
  astray : ∀ request ∈ after.desk.traffic.waiting, request.errand.isWrite = true →
    Path.isUnder request.errand.path path = true →
      request ∈ before.desk.traffic.waiting ∧
        ∀ tab ∈ before.desk.bar.tabs, tab.id = request.tab →
          Path.isUnder tab.path (Path.normalize path) = false

theorem leavesSaves_of_settled (h : w.desk.Orderly) (path : String)
    (hafter : after.desk.traffic = (w.settleSavesUnder path).desk.traffic) :
    LeavesSaves w after (Path.normalize path) := by
  have hleft : ∀ request, request ∈ after.desk.traffic.waiting ↔
      request ∈ w.desk.traffic.waiting ∧
        ¬ w.desk.SavingUnder (Path.normalize (Path.normalize path)) := by
    intro request
    rw [hafter]
    exact Desk.mem_waiting_settleSavesUnder h (Path.normalize path) request
  constructor
  case impends_iff =>
    constructor
    · rintro ⟨request, hrequest, hsave⟩
      obtain ⟨hwaited, hnone⟩ := (hleft request).mp hrequest
      exact ⟨⟨request, hwaited, hsave⟩, hnone⟩
    · rintro ⟨⟨request, hwaited, hsave⟩, hnone⟩
      exact ⟨request, (hleft request).mpr ⟨hwaited, hnone⟩, hsave⟩
  case astray =>
    intro request hrequest hwrite _
    obtain ⟨hwaited, hnone⟩ := (hleft request).mp hrequest
    refine ⟨hwaited, ?_⟩
    intro tab htab hid
    by_contra hunder
    have hsaving := h.saving_of_waiting hwaited hwrite htab hid
    exact hnone ⟨tab, htab, hsaving, Bool.not_eq_false _ ▸ hunder⟩

/-- After any run, a delete or a rename leaves only saves whose tabs do not stand
below the path any more, and leaves those. -/
theorem leavesSaves_run (start : Workspace σ) (hstart : start.Fresh) (history : List (Step σ))
    (path newPath : String) :
    LeavesSaves (start.run history) ((start.run history).delete path).2 (Path.normalize path) ∧
      LeavesSaves (start.run history) ((start.run history).rename path newPath).2
        (Path.normalize path) := by
  have horderly := orderly_run hstart.orderly history
  constructor
  · apply leavesSaves_of_settled horderly
    exact (((start.run history).settleSavesUnder path).performs_deleteSettled path).traffic
  · apply leavesSaves_of_settled horderly
    exact (((start.run history).settleSavesUnder path).performs_renameSettled path newPath).traffic

/-- A tab that is open while it is being saved. -/
def openWhileSaving : List (Step MemoryFiles) :=
  [.outside fun m => (m.put "/plan" "one").2, .openPath "/plan", .edit 0 "two" 5, .save 0]

theorem openWhileSaving_leavesSaves :
    openingMemory.Fresh ∧ (openingMemory.run openWhileSaving).desk.SaveImpends "/plan" ∧
      ¬ ((openingMemory.run openWhileSaving).delete "/plan").2.desk.SaveImpends "/plan" ∧
      LeavesSaves (openingMemory.run openWhileSaving)
        ((openingMemory.run openWhileSaving).delete "/plan").2 (Path.normalize "/plan") := by
  have hfresh : openingMemory.Fresh := fresh_opening _ _ _ _ _
  exact ⟨hfresh, by decide +kernel, by decide +kernel,
    (leavesSaves_run openingMemory hfresh openWhileSaving "/plan" "/notes").1⟩

/-- A tab that is closed while it is being saved. -/
def closedWhileSaving : List (Step MemoryFiles) := openWhileSaving ++ [.close 0]

/-- The file comes back after it was deleted, and so it does at its former path
after it was renamed. -/
theorem closedWhileSaving_comes_late :
    ((openingMemory.run closedWhileSaving).delete "/plan").1.toOption = some 0 ∧
      ((openingMemory.run closedWhileSaving).delete "/plan").2.desk.SaveImpends "/plan" ∧
      (((openingMemory.run closedWhileSaving).delete "/plan").2.perform
        (.release 0)).desk.service.content? "/plan" = some "two" ∧
      ((openingMemory.run closedWhileSaving).rename "/plan" "/notes").1.toOption = some 0 ∧
      ((openingMemory.run closedWhileSaving).rename "/plan" "/notes").2.desk.SaveImpends "/plan" ∧
      (((openingMemory.run closedWhileSaving).rename "/plan" "/notes").2.perform
        (.release 0)).desk.service.content? "/plan" = some "two" := by
  decide +kernel

end Workspace

end Workbench
