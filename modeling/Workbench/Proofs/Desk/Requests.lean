import Workbench.Proofs.Desk.Saving

/-! # Which requests the desk starts

Most operations leave the requests under way alone. Selecting a tab may start a
read; saving, automatically or not, and the application of an answer may start
writes. Whatever write is started, it carries what its tab holds at that
moment. -/

namespace Workbench.Desk

open TabBar

variable {σ : Type} {before middle after desk : Desk σ} {p q : Request → Prop}

/-- What is asked of the file service to save a tab. -/
def saveErrand (tab : Tab) : Errand :=
  .write tab.path tab.content tab.encoding (expectedEtag tab)

/-- The request saves an open tab as the tab is now. -/
def Saves (desk : Desk σ) (request : Request) : Prop :=
  ∃ tab ∈ desk.bar.tabs, tab.id = request.tab ∧ request.errand = saveErrand tab

/-- The request reads the file of an open tab. -/
def Fetches (desk : Desk σ) (request : Request) : Prop :=
  ∃ tab ∈ desk.bar.tabs, tab.id = request.tab ∧ request.errand = .read tab.path

/-- Some requests of a kind were started, and the other requests were left
alone. -/
def Adds (before after : Desk σ) (p : Request → Prop) : Prop :=
  ∃ started, after.traffic =
      { before.traffic with waiting := before.traffic.waiting ++ started } ∧
    ∀ request ∈ started, p request

namespace Adds

theorem of_traffic_eq (h : after.traffic = before.traffic) : Adds before after p := by
  refine ⟨[], ?_, List.forall_mem_nil _⟩
  rw [h, List.append_nil]

theorem of_start (request : Request) (h : after.traffic = before.traffic.start request)
    (hp : p request) : Adds before after p :=
  ⟨[request], h, List.forall_mem_singleton.mpr hp⟩

theorem mono (h : Adds before after p) (hpq : ∀ request, p request → q request) :
    Adds before after q := by
  obtain ⟨started, htraffic, hstarted⟩ := h
  exact ⟨started, htraffic, fun request hrequest => hpq request (hstarted request hrequest)⟩

theorem trans (h : Adds before middle p) (h' : Adds middle after p) : Adds before after p := by
  obtain ⟨first, hfirst, hp⟩ := h
  obtain ⟨second, hsecond, hp'⟩ := h'
  refine ⟨first ++ second, ?_, List.forall_mem_append.mpr ⟨hp, hp'⟩⟩
  rw [hsecond, hfirst, List.append_assoc]

theorem mailbox_eq (h : Adds before after p) : after.traffic.mailbox = before.traffic.mailbox := by
  obtain ⟨started, htraffic, -⟩ := h
  rw [htraffic]

theorem mem_waiting (h : Adds before after p) {request : Request}
    (hrequest : request ∈ after.traffic.waiting) :
    request ∈ before.traffic.waiting ∨ p request := by
  obtain ⟨started, htraffic, hp⟩ := h
  rw [htraffic] at hrequest
  rcases List.mem_append.mp hrequest with hold | hnew
  · exact .inl hold
  · exact .inr (hp request hnew)

end Adds

@[simp] theorem traffic_perform (desk : Desk σ) (action : TabAction) :
    (desk.perform action).traffic = desk.traffic := by
  rw [perform, dispatch_snd]

/-! ## Starting requests -/

/-- A refresh asks for the file of its tab. -/
theorem adds_startRefresh (desk : Desk σ) (index : Nat) :
    Adds desk (desk.startRefresh index) (desk.startRefresh index).Fetches := by
  unfold startRefresh
  dsimp only
  split
  next h =>
    apply Adds.of_traffic_eq
    rw [bar_dispatch h]
  next started h =>
    split
    next =>
      apply Adds.of_traffic_eq
      rw [bar_dispatch h]
    next tab htab =>
      apply Adds.of_start ⟨tab.id, desk.lastRequest + 1, .read tab.path⟩
      · rw [bar_dispatch h]
      · exact ⟨tab, List.mem_of_getElem? htab, rfl, rfl⟩

/-- A started save carries what the tab holds. -/
theorem adds_startSave (desk : Desk σ) (index : Nat) :
    Adds desk (desk.startSave index).2 (desk.startSave index).2.Saves := by
  unfold startSave
  dsimp only
  split
  next h =>
    apply Adds.of_traffic_eq
    rw [bar_dispatch h]
  next started h =>
    split
    next =>
      apply Adds.of_traffic_eq
      rw [bar_dispatch h]
    next tab htab =>
      apply Adds.of_start ⟨tab.id, desk.lastRequest + 1, saveErrand tab⟩
      · rw [traffic_logInfo, bar_dispatch h]
        rfl
      · exact ⟨tab, List.mem_of_getElem? htab, rfl, rfl⟩

theorem adds_saveTab (desk : Desk σ) (index : Nat) :
    Adds desk (desk.saveTab index).2 (desk.saveTab index).2.Saves := by
  rcases desk.saveTab_cases index with ⟨h, -⟩ | ⟨tab, -, ⟨h, -⟩ | ⟨h, -⟩⟩
  · exact .of_traffic_eq h.traffic
  · exact .of_traffic_eq h.traffic
  · rw [h]
    exact adds_startSave desk index

theorem adds_autosaved (desk : Desk σ) (index : Nat) :
    Adds desk (desk.autosaved index) (desk.autosaved index).Saves := by
  have hsave := adds_saveTab desk index
  unfold autosaved autosaveTab
  dsimp only
  split
  next h => rwa [h] at hsave
  next h => rwa [h] at hsave
  next h =>
    rw [h] at hsave
    exact hsave

/-- A tab is saved as it is now also after further saves were started. -/
theorem Saves.run (hbar : desk.bar.Numbered) {actions : List TabAction}
    (hsaving : ∀ action ∈ actions, action.Saving) (hafter : after.bar = desk.bar.run actions)
    {request : Request} (h : desk.Saves request) : after.Saves request := by
  obtain ⟨tab, htab, hid, herrand⟩ := h
  obtain ⟨tab', htab', hsame⟩ := exists_sameFile_run hbar hsaving htab
  refine ⟨tab', hafter ▸ htab', hsame.id.trans hid, ?_⟩
  rw [herrand]
  unfold saveErrand expectedEtag Tab.path
  rw [hsame.file, hsame.content, hsame.encoding, hsame.etag, hsame.overwriteOnSave]

theorem adds_foldl_autosaved (indices : List Nat) (desk : Desk σ) (hbar : desk.bar.Numbered) :
    Adds desk (indices.foldl autosaved desk) (indices.foldl autosaved desk).Saves := by
  induction indices generalizing desk with
  | nil => exact .of_traffic_eq rfl
  | cons index rest ih =>
      have hnext : (desk.autosaved index).bar.Numbered := by
        rw [bar_autosaved]
        exact hbar.run _
      -- The saves that follow leave the tab as it was sent.
      have hfirst := (adds_autosaved desk index).mono fun request hrequest =>
        hrequest.run hnext (saving_autosaveActions rest _)
          (bar_foldl_autosaved rest (desk.autosaved index))
      exact hfirst.trans (ih (desk.autosaved index) hnext)

theorem adds_runAutosave (desk : Desk σ) (hbar : desk.bar.Numbered) (now : Nat) :
    Adds desk (desk.runAutosave now).2 (desk.runAutosave now).2.Saves := by
  rw [runAutosave, snd_foldl_autosaveTab]
  exact adds_foldl_autosaved _ desk hbar

theorem adds_startQueuedSave (desk : Desk σ) (id : TabId) :
    Adds desk (desk.startQueuedSave id) (desk.startQueuedSave id).Saves := by
  unfold startQueuedSave
  cases desk.bar.findId? id with
  | none => exact .of_traffic_eq rfl
  | some index =>
      dsimp only
      cases desk.tab? index with
      | none => exact .of_traffic_eq rfl
      | some tab =>
          dsimp only
          split
          · exact .of_traffic_eq rfl
          · split
            · apply Adds.of_traffic_eq
              rw [traffic_perform, traffic_logInfo]
            · have hsave := adds_startSave desk index
              split
              next h => rwa [h] at hsave
              next h =>
                rw [h] at hsave
                exact hsave

/-- Applying an answer may start the save that waited for it. -/
theorem adds_deliver (desk : Desk σ) :
    ∀ request ∈ desk.deliver.traffic.waiting,
      request ∈ desk.traffic.waiting ∨ desk.deliver.Saves request := by
  intro request hrequest
  unfold deliver at hrequest ⊢
  cases hmailbox : desk.traffic.mailbox with
  | nil =>
      rw [hmailbox] at hrequest
      exact .inl hrequest
  | cons reply rest =>
      rw [hmailbox] at hrequest
      dsimp only [applyReply] at hrequest ⊢
      rcases (adds_startQueuedSave _ reply.tab).mem_waiting hrequest with hold | hsaves
      · rw [traffic_report, dispatch_snd] at hold
        exact .inl hold
      · exact .inr hsaves

theorem mailbox_deliver (desk : Desk σ) :
    ∀ reply ∈ desk.deliver.traffic.mailbox, reply ∈ desk.traffic.mailbox := by
  intro reply hreply
  unfold deliver at hreply
  cases hmailbox : desk.traffic.mailbox with
  | nil =>
      rw [hmailbox] at hreply
      exact hmailbox ▸ hreply
  | cons first rest =>
      rw [hmailbox] at hreply
      dsimp only [applyReply] at hreply
      rw [(adds_startQueuedSave _ first.tab).mailbox_eq, traffic_report, dispatch_snd] at hreply
      exact List.mem_cons_of_mem _ hreply

section Service

variable [FileService σ]

/-- Selecting a tab changes no tab. -/
theorem tabs_activate (bar : TabBar) (index : Nat) : (bar.next (.activate index)).tabs = bar.tabs := by
  simp only [next, apply]
  split
  next h =>
    split at h
    · cases h
    · split at h <;>
        · obtain ⟨-, rfl⟩ := Prod.mk.inj (Except.ok.inj h)
          rfl
  next => rfl

theorem adds_activateAndLoad (desk : Desk σ) (index : Nat) :
    Adds desk (desk.activateAndLoad index) (desk.activateAndLoad index).Fetches := by
  unfold activateAndLoad
  cases desk.tab? index with
  | none => exact .of_traffic_eq rfl
  | some tab =>
      dsimp only
      split
      · split
        · exact .of_traffic_eq (traffic_perform _ _)
        · have hfetches := (adds_startRefresh desk index).trans
            (.of_traffic_eq (traffic_perform _ (.activate index)))
          refine hfetches.mono fun request hrequest => ?_
          rw [Fetches, bar_perform, tabs_activate]
          exact hrequest
      · exact .of_traffic_eq ((traffic_perform _ _).trans (desk.performs_loadNow index).traffic)

theorem adds_clickTab (desk : Desk σ) (index : Nat) :
    Adds desk (desk.clickTab index) (desk.clickTab index).Fetches := by
  unfold clickTab
  split
  · exact .of_traffic_eq rfl
  · exact adds_activateAndLoad desk index

theorem adds_restore (desk : Desk σ) (snapshot : Snapshot) :
    Adds desk (desk.restore snapshot).2 (desk.restore snapshot).2.Fetches := by
  unfold restore
  dsimp only
  rw [foldl_restoreTab_snd]
  split
  next index _ => exact adds_activateAndLoad { desk with bar := _ } index
  next => exact .of_traffic_eq rfl

/-- The service has performed a request: the files and the result are those of
its errand. -/
structure Answers (before after : Desk σ) (request : Request) (reply : Reply) : Prop where
  waits : request ∈ before.traffic.waiting
  tab_eq : reply.tab = request.tab
  id_eq : reply.id = request.id
  performed : request.errand.perform before.service = (reply.result, after.service)

/-- The service takes requests up but adds none. -/
theorem waiting_release (desk : Desk σ) (position : Nat) :
    ∀ request ∈ (desk.release position).2.traffic.waiting, request ∈ desk.traffic.waiting := by
  intro request hrequest
  unfold release at hrequest
  split at hrequest
  · exact hrequest
  · exact List.mem_of_mem_eraseIdx hrequest

theorem waiting_releaseNext (desk : Desk σ) :
    ∀ request ∈ desk.releaseNext.traffic.waiting, request ∈ desk.traffic.waiting := by
  intro request hrequest
  unfold releaseNext at hrequest
  split at hrequest
  · exact waiting_release desk 0 request hrequest
  next rest _ =>
    exact waiting_release { desk with traffic := { desk.traffic with order := rest } } _ request
      hrequest

/-- A new result is that of the request that the service has performed. -/
theorem mailbox_release (desk : Desk σ) (position : Nat) :
    ∀ reply ∈ (desk.release position).2.traffic.mailbox, reply ∈ desk.traffic.mailbox ∨
      ∃ request, Answers desk (desk.release position).2 request reply := by
  intro reply hreply
  unfold release at hreply ⊢
  cases hrequest : desk.traffic.waiting[position]? with
  | none =>
      rw [hrequest] at hreply
      exact .inl hreply
  | some request =>
      rw [hrequest] at hreply
      rcases List.mem_append.mp hreply with hold | hnew
      · exact .inl hold
      · obtain rfl := List.mem_singleton.mp hnew
        exact .inr ⟨request, List.mem_of_getElem? hrequest, rfl, rfl, rfl⟩

theorem mailbox_releaseNext (desk : Desk σ) :
    ∀ reply ∈ desk.releaseNext.traffic.mailbox, reply ∈ desk.traffic.mailbox ∨
      ∃ request, Answers desk desk.releaseNext request reply := by
  unfold releaseNext
  split
  · exact desk.mailbox_release 0
  next rest _ =>
    intro reply hreply
    rcases mailbox_release { desk with traffic := { desk.traffic with order := rest } } _ reply
        hreply with hold | ⟨request, hwaits, htab, hid, hperformed⟩
    · exact .inl hold
    · exact .inr ⟨request, hwaits, htab, hid, hperformed⟩

end Service

end Workbench.Desk
