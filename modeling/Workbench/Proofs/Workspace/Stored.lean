import Workbench.Proofs.File.Calls
import Workbench.Proofs.File.Memory
import Workbench.Proofs.Workspace.Answers

/-! # What is saved is stored

When the result of a save leaves its tab saved, the service has stored just what
the tab holds now, and where the tab is now. This takes that no tab is moved
while it is being saved, and for that renames wait until the save has come to its end
(`Desk.settle`, where no wait is given up). -/

namespace Workbench

namespace Tab

variable {tab tab' : Tab} {reply : Reply}

/-- If the result of the save that a tab waits for leaves the tab saved, then the
tab was not edited since the save started, and it keeps the version that was
written. -/
theorem AnsweredBy.of_saved (h : tab.AnsweredBy reply tab')
    (hsave : Desk.phaseOf reply.result = .save)
    (hwaits : tab.pendingSave.map (·.request) = some reply.id) (hsaved : tab'.state = .saved) :
    ∃ write, reply.result = .save (.written write) ∧
      tab.pendingSave = some { request := reply.id, generation := tab.generation } ∧
      tab'.path = tab.path ∧ tab'.content = tab.content ∧ tab'.encoding = tab.encoding ∧
      tab'.etag = some write.etag := by
  unfold AnsweredBy at h
  split at h
  next result hresult =>
    rw [hresult] at hsave
    cases hsave
  next result hresult =>
    cases h with
    | dropped _ hother => exact absurd hwaits hother
    | stored write hpending => exact ⟨write, hresult, hpending, rfl, rfl, rfl, rfl⟩
    | storedOlder _ _ _ => cases hsaved
    | refused _ => cases hsaved
    | failed _ _ => cases hsaved

end Tab

namespace Desk

open TabBar

variable {σ : Type} {before after desk : Desk σ} {actions : List TabAction} {tab : Tab}

/-- A tab that is saved after the turn of a queued save held the same before. -/
theorem Turn.exists_saved {id : TabId} (h : before.Turn id after actions)
    (hnodup : before.bar.ids.Nodup) (htab : tab ∈ after.bar.tabs) (hsaved : tab.state = .saved) :
    ∃ former ∈ before.bar.tabs, former.id = tab.id ∧ former.state = .saved ∧
      former.Agrees tab := by
  cases h with
  | passed h =>
      rw [h.bar] at htab
      exact ⟨tab, htab, rfl, hsaved, rfl, rfl, rfl, rfl⟩
  | dropped hfound _ _ h =>
      have hbar : after.bar = _ := h.bar.trans (next_cancelQueuedSave hfound)
      rw [hbar] at htab
      rcases mem_set_cases hnodup hfound htab with rfl | ⟨hmem, -⟩
      · exact ⟨_, List.mem_of_getElem? hfound, rfl, hsaved, rfl, rfl, rfl, rfl⟩
      · exact ⟨tab, hmem, rfl, hsaved, rfl, rfl, rfl, rfl⟩
  | started _ _ h =>
      rw [h.tabs] at htab
      rcases mem_set_cases hnodup h.found htab with rfl | ⟨hmem, -⟩
      · cases hsaved
      · exact ⟨tab, hmem, rfl, hsaved, rfl, rfl, rfl, rfl⟩

/-- If the application of the result of a save leaves its tab saved, then the tab
has waited for it since its last edit. -/
theorem Coherent.exists_waited_of_saved (h : desk.Coherent) {reply : Reply} {rest : List Reply}
    (hmailbox : desk.traffic.mailbox = reply :: rest) (hsave : phaseOf reply.result = .save)
    (htab : tab ∈ desk.deliver.bar.tabs) (hid : tab.id = reply.tab) (hsaved : tab.state = .saved) :
    ∃ former ∈ desk.bar.tabs, former.id = reply.tab ∧
      former.pendingSave = some { request := reply.id, generation := former.generation } ∧
      ∃ write, reply.result = .save (.written write) ∧ tab.path = former.path ∧
        tab.content = former.content ∧ tab.encoding = former.encoding ∧
        tab.etag = some write.etag := by
  obtain ⟨actions, -, hturn⟩ := turn_deliver h.numbered h.writable hmailbox
  have hnext : (desk.bar.next reply.action).ids.Nodup := (h.numbered.next reply.action).nodup
  obtain ⟨applied, happlied, happlied_id, happlied_saved, hagrees⟩ :=
    hturn.exists_saved hnext htab hsaved
  change applied ∈ (desk.bar.next reply.action).tabs at happlied
  rw [hid] at happlied_id
  rcases desk.bar.next_reply_cases reply with
    ⟨hgone, hsame⟩ | ⟨index, former, changed, hfound, hformer, hanswered, hafter⟩
  · rw [hsame] at happlied
    exact absurd (happlied_id ▸ List.mem_map_of_mem happlied) hgone
  · have hmem := List.mem_of_getElem? hfound
    rw [hafter] at happlied
    obtain rfl : applied = changed := by
      rcases mem_set_cases h.numbered.nodup hfound happlied with heq | ⟨-, hother⟩
      · exact heq
      · exact absurd (happlied_id.trans hformer.symm) hother
    -- No other save of the tab can be under way.
    have hreply : reply ∈ desk.traffic.mailbox := hmailbox ▸ List.mem_cons_self
    have hwaits := (h.attended former hmem).save reply.ticket
      (Traffic.mem_tickets_of_mailbox hreply) hformer.symm hsave
    obtain ⟨write, hwritten, hpending, hpath, hcontent, hencoding, hetag⟩ :=
      hanswered.of_saved hsave hwaits happlied_saved
    exact ⟨former, hmem, hformer, hpending, write, hwritten, hagrees.path.trans hpath,
      hagrees.content.trans hcontent, hagrees.encoding.trans hencoding, hagrees.etag.trans hetag⟩

end Desk

namespace Workspace

variable {σ : Type} [FileService σ] {w start : Workspace σ} {history : List (Step σ)} {tab : Tab}
  {reply : Reply} {rest : List Reply}

/-- A step of a run has let the service store what the tab holds, and the answer of
the service is the result of the save and the version of the tab. -/
structure StoredBy (start : Workspace σ) (earlier : List (Step σ)) (performing : Step σ)
    (request : Request) (reply : Reply) (write : WriteResult) (tab : Tab) : Prop where
  answers : (start.run earlier).desk.Answers (start.run (earlier ++ [performing])).desk request reply
  asked : ∃ expected, request.errand = .write tab.path tab.content tab.encoding expected ∧
    FileService.storeFile tab.path tab.content tab.encoding expected
      (start.run earlier).desk.service =
        (.ok write, (start.run (earlier ++ [performing])).desk.service)
  result : reply.result = .save (.written write)
  etag : tab.etag = some write.etag

theorem exists_storedBy (hstart : start.Fresh) (hwaited : Waited start history)
    (hmailbox : (start.run history).desk.traffic.mailbox = reply :: rest)
    (hsave : Desk.phaseOf reply.result = .save)
    (htab : tab ∈ ((start.run history).perform .deliver).desk.bar.tabs) (hid : tab.id = reply.tab)
    (hsaved : tab.state = .saved) :
    ∃ earlier performing later request write, history = earlier ++ performing :: later ∧
      StoredBy start earlier performing request reply write tab := by
  have horderly := orderly_run hstart.orderly history
  obtain ⟨former, hformer, hformer_id, hpending, write, hwritten, hpath, hcontent, hencoding,
    hetag⟩ := horderly.toCoherent.exists_waited_of_saved hmailbox hsave htab hid hsaved
  have hreply : reply ∈ (start.run history).desk.traffic.mailbox :=
    hmailbox ▸ List.mem_cons_self
  have hwaits : former.pending (Desk.phaseOf reply.result) =
      some { request := reply.id, generation := former.generation } := by
    rw [hsave]
    exact hpending
  obtain ⟨first, step, between, performing, later, asked, request, rfl, hstarts, hanswers,
    herrand, hagrees⟩ := exists_asked hstart hformer hreply hformer_id hwaits
  have hagreed := hagrees (.inr hwaited)
  have hwrite : request.errand =
      .write tab.path tab.content tab.encoding (Desk.expectedEtag asked) := by
    rw [herrand, hsave, hpath, hcontent, hencoding, hagreed.path, hagreed.content,
      hagreed.encoding]
    rfl
  have hperformed := hanswers.performed
  rw [hwrite, hwritten] at hperformed
  refine ⟨first ++ step :: between, performing, later, request, write, by simp, ?_,
    ⟨Desk.expectedEtag asked, hwrite, ?_⟩, hwritten, hetag⟩
  · simpa using hanswers
  · simpa using Errand.storeFile_of_written hperformed

/-! ## Operations -/

/-- The operation points no tab at another path, other than by a rename that waits
for the saves below the path. -/
def Operation.Managed : Operation σ → Prop
  | .step (.updatePath _ _) | .step (.updatePathsUnder _ _) | .step (.rename _ _) => False
  | _ => True

theorem waited_of_forall {steps : List (Step σ)} (h : ∀ step ∈ steps, ∀ w, step.Waits w) :
    Waited w steps := by
  induction steps generalizing w with
  | nil => exact trivial
  | cons step rest ih =>
      obtain ⟨hfirst, hrest⟩ := List.forall_mem_cons.mp h
      exact ⟨hfirst w, ih hrest⟩

omit [FileService σ] in
theorem waits_of_mem_awaitSteps {desk : Desk σ} {step : Step σ} (hstep : step ∈ awaitSteps desk)
    (w : Workspace σ) : step.Waits w := by
  unfold awaitSteps at hstep
  split at hstep
  · rcases List.mem_pair.mp hstep with rfl | rfl
    · exact trivial
    · exact trivial
  · rw [List.mem_singleton.mp hstep]
    exact trivial

theorem waits_of_mem_settleSteps {limit : Nat} {desk : Desk σ} {step : Step σ}
    (hstep : step ∈ settleSteps limit desk) (w : Workspace σ) : step.Waits w := by
  induction limit generalizing desk with
  | zero => exact absurd hstep List.not_mem_nil
  | succ limit ih =>
      unfold settleSteps at hstep
      split at hstep
      · exact absurd hstep List.not_mem_nil
      · rcases List.mem_append.mp hstep with hfirst | hrest
        · exact waits_of_mem_awaitSteps hfirst w
        · exact ih hrest

theorem waits_of_mem_settleUnderSteps {desk : Desk σ} {path : String} {step : Step σ}
    (hstep : step ∈ settleUnderSteps desk path) (w : Workspace σ) : step.Waits w := by
  unfold settleUnderSteps at hstep
  dsimp only at hstep
  split at hstep
  · rcases List.mem_cons.mp hstep with rfl | hsettle
    · exact trivial
    · exact waits_of_mem_settleSteps hsettle w
  · exact absurd hstep List.not_mem_nil

theorem waited_steps (h : w.desk.Orderly) {operation : Operation σ} (hmanaged : operation.Managed) :
    Waited w (operation.steps w) := by
  cases operation with
  | step single =>
      refine ⟨?_, trivial⟩
      cases single with
      | updatePath | updatePathsUnder | rename => exact hmanaged.elim
      | _ => exact trivial
  | pump =>
      apply waited_of_forall
      intro step hstep w
      rw [List.eq_of_mem_replicate hstep]
      exact trivial
  | releaseAll =>
      apply waited_of_forall
      intro step hstep w
      rw [List.eq_of_mem_replicate hstep]
      exact trivial
  | settle => exact waited_of_forall fun step hstep w => waits_of_mem_settleSteps hstep w
  | settleSavesUnder path =>
      exact waited_of_forall fun step hstep w => waits_of_mem_settleUnderSteps hstep w
  | rename oldPath newPath =>
      refine Waited.append (waited_of_forall fun step hstep w =>
        waits_of_mem_settleUnderSteps hstep w) ⟨?_, trivial⟩
      rw [run_settleUnderSteps]
      exact Desk.not_savingUnder_settleSavesUnder h (Path.normalize oldPath)
  | delete path =>
      exact Waited.append (waited_of_forall fun step hstep w =>
        waits_of_mem_settleUnderSteps hstep w) ⟨trivial, trivial⟩

theorem waited_stepsOf (h : w.desk.Orderly) {operations : List (Operation σ)}
    (hmanaged : ∀ operation ∈ operations, operation.Managed) : Waited w (w.stepsOf operations) := by
  induction operations generalizing w with
  | nil => exact trivial
  | cons operation rest ih =>
      obtain ⟨hfirst, hrest⟩ := List.forall_mem_cons.mp hmanaged
      have hafter : (w.operate operation).desk.Orderly := by
        rw [operate_eq_run]
        exact orderly_run h _
      refine (waited_steps h hfirst).append ?_
      rw [← operate_eq_run]
      exact ih hafter hrest

/-- Whenever the application of the result of a save has left its tab saved, the
service had stored for that save just what the tab holds. -/
def SavedIsStored (start : Workspace σ) (operations : List (Operation σ)) : Prop :=
  ∀ history later reply rest tab, start.stepsOf operations = history ++ .deliver :: later →
    (start.run history).desk.traffic.mailbox = reply :: rest →
    Desk.phaseOf reply.result = .save →
    tab ∈ ((start.run history).perform .deliver).desk.bar.tabs → tab.id = reply.tab →
    tab.state = .saved →
      ∃ earlier performing between request write, history = earlier ++ performing :: between ∧
        StoredBy start earlier performing request reply write tab

/-- As long as tabs are moved by renames only, what is saved is stored. -/
theorem savedIsStored_of_managed (start : Workspace σ) (hstart : start.Fresh)
    (operations : List (Operation σ)) (hmanaged : ∀ operation ∈ operations, operation.Managed) :
    SavedIsStored start operations := by
  intro history later reply rest tab hsteps hmailbox hsave htab hid hsaved
  have hwaited := waited_stepsOf hstart.orderly hmanaged
  rw [hsteps] at hwaited
  exact exists_storedBy hstart hwaited.of_append.1 hmailbox hsave htab hid hsaved

/-- A file that is renamed while its tab is being saved. -/
def renamedWhileSaving : List (Operation MemoryFiles) :=
  [.step (.outside fun m => (m.put "/plan" "one").2), .step (.openPath "/plan"),
   .step (.edit 0 "two" 5), .step (.save 0), .rename "/plan" "/notes"]

theorem renamedWhileSaving_stored :
    openingMemory.Fresh ∧ (∀ operation ∈ renamedWhileSaving, operation.Managed) ∧
      (∃ tab ∈ (renamedWhileSaving.foldl operate openingMemory).desk.bar.tabs,
        tab.path = "/notes" ∧ tab.state = .saved) ∧
      SavedIsStored openingMemory renamedWhileSaving := by
  have hfresh : openingMemory.Fresh := fresh_opening _ _ _ _ _
  have hmanaged : ∀ operation ∈ renamedWhileSaving, operation.Managed := by
    simp [renamedWhileSaving, Operation.Managed]
  exact ⟨hfresh, hmanaged, by decide +kernel,
    savedIsStored_of_managed openingMemory hfresh renamedWhileSaving hmanaged⟩

end Workspace

end Workbench
