import Workbench.Proofs.Desk.Moves

/-! # Tabs and requests agree

However requests are started, performed and applied, every request that a tab
waits for is under way for it, no two run for one tab, and a queued save never
outlasts the requests of its tab. These are one invariant, kept by every kind of
move. -/

namespace Workbench

/-! ## One tab -/

namespace Tab.Attended

variable {tab tab' : Tab} {tickets tickets' : List Ticket} {ticket : Ticket}

theorem keep (h : tab.Attended tickets) (hkeeps : tab.KeepsRequests tab') :
    tab'.Attended tickets where
  single := by
    rw [hkeeps.pendingSave]
    rcases hkeeps.pendingRefresh with hnone | hsame
    · exact .inl hnone
    · rw [hsame]
      exact h.single
  pending phase pending hpending := by
    have hbefore : tab.pending phase = some pending := by
      cases phase with
      | refresh =>
          rcases hkeeps.pendingRefresh with hnone | hsame
          · exact absurd (hnone.symm.trans hpending) (by simp)
          · exact hsame.symm.trans hpending
      | save => exact hkeeps.pendingSave.symm.trans hpending
    obtain ⟨hmem, hle⟩ := h.pending phase pending hbefore
    exact ⟨hkeeps.id ▸ hmem, Nat.le_trans hle hkeeps.generation⟩
  save := by
    rw [hkeeps.id, hkeeps.pendingSave]
    exact h.save

theorem congr (h : tab.Attended tickets) (hmem : ∀ ticket, ticket ∈ tickets' ↔ ticket ∈ tickets) :
    tab.Attended tickets' where
  single := h.single
  pending phase pending hpending := by
    rw [hmem]
    exact h.pending phase pending hpending
  save ticket hticket := h.save ticket ((hmem ticket).mp hticket)

/-- A request for another tab may come or go. -/
theorem cons_iff (hother : ticket.tab ≠ tab.id) :
    tab.Attended (ticket :: tickets) ↔ tab.Attended tickets := by
  constructor
  · intro h
    refine ⟨h.single, ?_, fun t ht => h.save t (List.mem_cons_of_mem _ ht)⟩
    intro phase pending hpending
    obtain ⟨hmem, hle⟩ := h.pending phase pending hpending
    rcases List.mem_cons.mp hmem with rfl | hmem
    · exact absurd rfl hother
    · exact ⟨hmem, hle⟩
  · intro h
    refine ⟨h.single, ?_, ?_⟩
    · intro phase pending hpending
      obtain ⟨hmem, hle⟩ := h.pending phase pending hpending
      exact ⟨List.mem_cons_of_mem _ hmem, hle⟩
    · intro t ht hid
      rcases List.mem_cons.mp ht with rfl | ht
      · exact absurd hid hother
      · exact h.save t ht hid

/-- No request is under way for a new tab. -/
theorem opened {id : TabId} (hfresh : ∀ ticket ∈ tickets, ticket.tab ≠ id) (file : FileInfo)
    (content : String) (encoding : Encoding) (etag : Option String) :
    (Tab.opened id file content encoding etag).Attended tickets where
  single := .inl rfl
  pending phase pending hpending := by cases phase <;> cases hpending
  save ticket hticket hid := absurd hid (hfresh ticket hticket)

/-- A request may start for an idle tab. -/
theorem waitingFor (h : tab.Attended tickets) (hidle : tab.isBusy = false) (request : RequestId)
    (phase : Desk.Phase) :
    (tab.waitingFor request phase).Attended
      ({ tab := tab.id, id := request, phase } :: tickets) := by
  have hnone := isBusy_eq_false_iff.mp hidle
  have hrefresh : tab.pendingRefresh = none := hnone .refresh
  have hsave : tab.pendingSave = none := hnone .save
  have hunsaved : ∀ ticket ∈ tickets, ticket.tab = tab.id → ticket.phase ≠ .save := by
    intro ticket hticket hid hphase
    have hpending := h.save ticket hticket hid hphase
    rw [hsave] at hpending
    cases hpending
  cases phase with
  | refresh =>
      refine ⟨.inr hsave, ?_, ?_⟩
      · intro phase pending hpending
        cases phase with
        | refresh =>
            obtain rfl := Option.some.inj hpending
            exact ⟨List.mem_cons_self, Nat.le_refl _⟩
        | save => exact absurd (hsave.symm.trans hpending) (by simp)
      · intro ticket hticket hid hphase
        rcases List.mem_cons.mp hticket with rfl | hticket
        · cases hphase
        · exact absurd hphase (hunsaved ticket hticket hid)
  | save =>
      refine ⟨.inl hrefresh, ?_, ?_⟩
      · intro phase pending hpending
        cases phase with
        | refresh => exact absurd (hrefresh.symm.trans hpending) (by simp)
        | save =>
            obtain rfl := Option.some.inj hpending
            exact ⟨List.mem_cons_self, Nat.le_refl _⟩
      · intro ticket hticket hid hphase
        rcases List.mem_cons.mp hticket with rfl | hticket
        · rfl
        · exact absurd hphase (hunsaved ticket hticket hid)

/-- While one request runs, no other does. -/
theorem pending_eq_none (h : tab.Attended tickets) {phase other : Desk.Phase}
    {pending : PendingRequest} (hpending : tab.pending phase = some pending)
    (hother : other ≠ phase) : tab.pending other = none := by
  have hsome : tab.pending phase ≠ none := by simp [hpending]
  cases phase with
  | refresh =>
      cases other with
      | refresh => exact absurd rfl hother
      | save => exact h.single.resolve_left hsome
  | save =>
      cases other with
      | refresh => exact h.single.resolve_right hsome
      | save => exact absurd rfl hother

/-- A tab whose request is answered is idle afterwards. -/
theorem idle_of_stopsWaiting (h : tab.Attended tickets) {phase : Desk.Phase}
    {request : RequestId} (hstops : tab.StopsWaiting tab' phase request) (other : Desk.Phase) :
    tab'.pending other = none := by
  obtain ⟨pending, hpending, -⟩ := Option.map_eq_some_iff.mp hstops.waited
  by_cases hother : other = phase
  · rw [hother]
    exact hstops.stopped
  · rw [hstops.others other hother]
    exact h.pending_eq_none hpending hother

/-- The request whose result was applied is no longer under way. -/
theorem answered {reply : Reply} (h : tab.Attended (reply.ticket :: tickets))
    (hfresh : reply.id ∉ tickets.map Ticket.id) (hanswered : tab.AnsweredBy reply tab') :
    tab'.Attended tickets := by
  rcases hanswered.stopsWaiting_or with ⟨rfl, hnot⟩ | hstops
  · refine ⟨h.single, ?_, fun t ht => h.save t (List.mem_cons_of_mem _ ht)⟩
    intro phase pending hpending
    obtain ⟨hmem, hle⟩ := h.pending phase pending hpending
    rcases List.mem_cons.mp hmem with hreply | hmem
    · obtain ⟨-, hrequest, rfl⟩ := Ticket.mk.inj hreply
      exact absurd (by rw [hpending, Option.map_some, hrequest]) hnot
    · exact ⟨hmem, hle⟩
  · have hidle := h.idle_of_stopsWaiting hstops
    refine ⟨.inl (hidle .refresh), ?_, ?_⟩
    · intro phase pending hpending
      rw [hidle phase] at hpending
      cases hpending
    · -- Another save under way would be the one that was applied.
      intro ticket hticket hid hphase
      rw [hanswered.id_eq] at hid
      have hsave := h.save ticket (List.mem_cons_of_mem _ hticket) hid hphase
      obtain ⟨pending, hpending, -⟩ := Option.map_eq_some_iff.mp hstops.waited
      have hsame : Desk.Phase.save = Desk.phaseOf reply.result := by
        by_contra hne
        rw [show tab.pendingSave = none from h.pending_eq_none hpending hne] at hsave
        cases hsave
      have hwaited := hstops.waited
      rw [← hsame] at hwaited
      obtain hids : ticket.id = reply.id := Option.some.inj (hsave.symm.trans hwaited)
      exact absurd (hids ▸ List.mem_map_of_mem hticket) hfresh

end Tab.Attended

namespace Desk

open TabBar

variable {σ : Type} {before after desk : Desk σ} {actions : List TabAction} {sparing : Prop}
  {reply : Reply} {rest : List Reply}

/-! ## All tabs -/

/-- The tabs and the requests under way know of each other. -/
structure Coherent (desk : Desk σ) : Prop where
  numbered : desk.bar.Numbered
  writable : desk.bar.Writable
  nodup : (desk.traffic.tickets.map Ticket.id).Nodup
  fresh : ∀ ticket ∈ desk.traffic.tickets, ticket.id ≤ desk.lastRequest
  known : ∀ ticket ∈ desk.traffic.tickets, ticket.tab ≤ desk.bar.lastId
  attended : ∀ tab ∈ desk.bar.tabs, tab.Attended desk.traffic.tickets

/-- A tab with a queued save has a request under way. -/
def QueuedBehind (desk : Desk σ) : Prop :=
  ∀ tab ∈ desk.bar.tabs, tab.saveQueued = true →
    ∃ ticket ∈ desk.traffic.tickets, ticket.tab = tab.id

/-- Besides, every queued save is behind a request, whose application gives that
save its turn. -/
structure Orderly (desk : Desk σ) : Prop extends Coherent desk where
  queued : desk.QueuedBehind

namespace Coherent

/-- An action that neither starts nor answers a request. -/
theorem act {action : TabAction} (h : before.Coherent) (hact : before.Performs after [action])
    (hstarts : action.started? = none) (happlies : action.applied? = none) : after.Coherent := by
  have hbar : after.bar = before.bar.next action := hact.bar
  constructor
  case numbered => exact hbar ▸ h.numbered.next action
  case writable => exact hbar ▸ h.writable.next h.numbered action
  case nodup => exact hact.traffic ▸ h.nodup
  case fresh =>
    rw [hact.traffic, hact.lastRequest]
    exact h.fresh
  case known =>
    rw [hact.traffic, hbar]
    intro ticket hticket
    exact Nat.le_trans (h.known ticket hticket) (h.numbered.lastId_le_next action)
  case attended =>
    rw [hact.traffic, hbar]
    intro tab' htab'
    rcases (transition_next h.numbered.nodup action).origin h.numbered.nodup htab' with
      hsame | ⟨tab, htab, hbecomes⟩ | ⟨file, content, encoding, etag, -, -, rfl⟩
    · exact h.attended tab' hsame
    · exact (h.attended tab htab).keep (hbecomes.keepsRequests hstarts happlies)
    · apply Tab.Attended.opened
      intro ticket hticket hid
      exact absurd (hid ▸ h.known ticket hticket) (Nat.not_succ_le_self _)

theorem send {phase : Phase} {index : Nat} {tab : Tab} (h : before.Coherent)
    (hsends : before.Sends after phase index tab) : after.Coherent := by
  have htickets := hsends.tickets
  have hfresh : before.lastRequest + 1 ∉ before.traffic.tickets.map Ticket.id := by
    intro hmem
    obtain ⟨ticket, hticket, hid⟩ := List.mem_map.mp hmem
    exact absurd (hid ▸ h.fresh ticket hticket) (Nat.not_succ_le_self _)
  have htab := List.mem_of_getElem? hsends.found
  constructor
  case numbered => exact hsends.bar ▸ h.numbered.next _
  case writable => exact hsends.bar ▸ h.writable.next h.numbered _
  case nodup =>
    rw [(htickets.map Ticket.id).nodup_iff, List.map_cons, List.nodup_cons]
    exact ⟨hfresh, h.nodup⟩
  case fresh =>
    rw [hsends.lastRequest]
    intro ticket hticket
    rcases List.mem_cons.mp (htickets.mem_iff.mp hticket) with rfl | hticket
    · exact Nat.le_refl _
    · exact Nat.le_succ_of_le (h.fresh ticket hticket)
  case known =>
    rw [hsends.bar]
    intro ticket hticket
    refine Nat.le_trans ?_ (h.numbered.lastId_le_next _)
    rcases List.mem_cons.mp (htickets.mem_iff.mp hticket) with rfl | hticket
    · exact (h.numbered.range _ (mem_ids_of_mem htab)).2
    · exact h.known ticket hticket
  case attended =>
    rw [hsends.tabs]
    intro other hother
    apply Tab.Attended.congr ?_ fun ticket => htickets.mem_iff
    rcases mem_set_cases h.numbered.nodup hsends.found hother with rfl | ⟨hmem, hne⟩
    · exact (h.attended tab htab).waitingFor hsends.idle _ phase
    · exact (Tab.Attended.cons_iff (Ne.symm hne)).mpr (h.attended other hmem)

theorem shuffle (h : before.Coherent) (hbar : after.bar = before.bar)
    (hlast : after.lastRequest = before.lastRequest)
    (htickets : after.traffic.tickets.Perm before.traffic.tickets) : after.Coherent := by
  obtain ⟨hnumbered, hwritable, hnodup, hfresh, hknown, hattended⟩ := h
  refine ⟨hbar ▸ hnumbered, hbar ▸ hwritable, ?_, ?_, ?_, ?_⟩
  · exact (htickets.map Ticket.id).nodup_iff.mpr hnodup
  · intro ticket hticket
    rw [hlast]
    exact hfresh ticket (htickets.mem_iff.mp hticket)
  · intro ticket hticket
    rw [hbar]
    exact hknown ticket (htickets.mem_iff.mp hticket)
  · rw [hbar]
    intro tab htab
    exact (hattended tab htab).congr fun ticket => htickets.mem_iff

theorem answer (h : before.Coherent) (hmailbox : before.traffic.mailbox = reply :: rest) :
    (before.answered reply rest).Coherent := by
  have htickets := Traffic.tickets_of_mailbox hmailbox
  have hmem : ∀ ticket ∈ (before.answered reply rest).traffic.tickets,
      ticket ∈ before.traffic.tickets :=
    fun ticket hticket => htickets.mem_iff.mpr (List.mem_cons_of_mem _ hticket)
  have hids := (htickets.map Ticket.id).nodup_iff.mp h.nodup
  rw [List.map_cons, List.nodup_cons] at hids
  constructor
  case numbered => exact h.numbered.next _
  case writable => exact h.writable.next h.numbered _
  case nodup => exact hids.2
  case fresh => exact fun ticket hticket => h.fresh ticket (hmem ticket hticket)
  case known =>
    exact fun ticket hticket =>
      Nat.le_trans (h.known ticket (hmem ticket hticket)) (h.numbered.lastId_le_next _)
  case attended =>
    intro other hother
    have hattended : ∀ tab ∈ before.bar.tabs,
        tab.Attended (reply.ticket :: (before.answered reply rest).traffic.tickets) :=
      fun tab htab => (h.attended tab htab).congr fun ticket => htickets.mem_iff.symm
    change other ∈ (before.bar.next reply.action).tabs at hother
    rcases before.bar.next_reply_cases reply with
      ⟨hgone, hsame⟩ | ⟨index, tab, tab', hfound, hid, hanswered, hnext⟩
    · rw [hsame] at hother
      refine (Tab.Attended.cons_iff ?_).mp (hattended other hother)
      intro hid
      exact hgone (mem_ids_iff.mpr ⟨other, hother, hid.symm⟩)
    · rw [hnext] at hother
      rcases mem_set_cases h.numbered.nodup hfound hother with rfl | ⟨hmem, hne⟩
      · exact (hattended tab (List.mem_of_getElem? hfound)).answered hids.1 hanswered
      · refine (Tab.Attended.cons_iff ?_).mp (hattended other hmem)
        rw [hid] at hne
        exact Ne.symm hne

theorem turn {id : TabId} (h : before.Coherent) (hturn : before.Turn id after actions) :
    after.Coherent := by
  cases hturn with
  | passed hnone => exact h.shuffle hnone.bar hnone.lastRequest (hnone.traffic ▸ .refl _)
  | dropped _ _ _ hact => exact h.act hact rfl rfl
  | started _ _ hsends => exact h.send hsends

theorem move (h : before.Coherent) (hmove : Move sparing before after actions) :
    after.Coherent := by
  cases hmove with
  | acted hsilent _ hact => exact h.act hact hsilent.started?_eq hsilent.applied?_eq
  | queued _ _ hact => exact h.act hact rfl rfl
  | sent hsends => exact h.send hsends
  | shuffled hbar hlast htickets => exact h.shuffle hbar hlast htickets
  | delivered hmailbox hturn => exact (h.answer hmailbox).turn hturn

theorem exists_ticket_of_isBusy (h : desk.Coherent) {tab : Tab} (htab : tab ∈ desk.bar.tabs)
    (hbusy : tab.isBusy = true) : ∃ ticket ∈ desk.traffic.tickets, ticket.tab = tab.id := by
  obtain ⟨phase, pending, hpending⟩ := Tab.exists_pending_of_isBusy hbusy
  exact ⟨_, ((h.attended tab htab).pending phase pending hpending).1, rfl⟩

end Coherent

/-! ## Queued saves -/

namespace Orderly

/-- An action that queues no save, while the requests under way stay. -/
theorem queued_act {action : TabAction} (h : before.Orderly)
    (hact : before.Performs after [action]) (hother : ∀ index, action ≠ .queueSave index) :
    after.QueuedBehind := by
  have hbar : after.bar = before.bar.next action := hact.bar
  unfold QueuedBehind
  rw [hbar, hact.traffic]
  intro tab' htab' hqueued
  rcases (transition_next h.numbered.nodup action).origin h.numbered.nodup htab' with
    hsame | ⟨tab, htab, hbecomes⟩ | ⟨file, content, encoding, etag, -, -, rfl⟩
  · exact h.queued tab' hsame hqueued
  · rw [hbecomes.id_eq]
    exact h.queued tab htab (hbecomes.saveQueued_before hqueued hother)
  · cases hqueued

theorem queued_queue {index : Nat} {tab : Tab} (h : before.Orderly)
    (hfound : before.bar.tabs[index]? = some tab) (hbusy : tab.isBusy = true)
    (hact : before.Performs after [.queueSave index]) : after.QueuedBehind := by
  have hbar : after.bar = before.bar.next (.queueSave index) := hact.bar
  unfold QueuedBehind
  rw [hbar, hact.traffic]
  intro tab' htab' hqueued
  rcases (transition_next h.numbered.nodup (.queueSave index)).origin h.numbered.nodup htab' with
    hsame | ⟨other, hother, hbecomes⟩ | ⟨file, content, encoding, etag, -, -, rfl⟩
  · exact h.queued tab' hsame hqueued
  · cases hbecomes with
    | queued hindex =>
        obtain rfl := Option.some.inj (hfound.symm.trans hindex)
        have hticket := h.exists_ticket_of_isBusy hother hbusy
        exact hticket
  · cases hqueued

theorem queued_send {phase : Phase} {index : Nat} {tab : Tab} (h : before.Orderly)
    (hsends : before.Sends after phase index tab) : after.QueuedBehind := by
  have htickets := hsends.tickets
  unfold QueuedBehind
  rw [hsends.tabs]
  intro other hother hqueued
  rcases mem_set_cases h.numbered.nodup hsends.found hother with rfl | ⟨hmem, -⟩
  · exact ⟨_, htickets.mem_iff.mpr List.mem_cons_self, (Tab.id_waitingFor _ _ _).symm⟩
  · obtain ⟨ticket, hticket, hid⟩ := h.queued other hmem hqueued
    exact ⟨ticket, htickets.mem_iff.mpr (List.mem_cons_of_mem _ hticket), hid⟩

/-- The application of a result takes a request only from the tab that asked. -/
theorem queued_answer (h : before.Orderly) (hmailbox : before.traffic.mailbox = reply :: rest) :
    ∀ tab ∈ (before.answered reply rest).bar.tabs, tab.id ≠ reply.tab → tab.saveQueued = true →
      ∃ ticket ∈ (before.answered reply rest).traffic.tickets, ticket.tab = tab.id := by
  intro other hother hne hqueued
  have hbefore : other ∈ before.bar.tabs := by
    change other ∈ (before.bar.next reply.action).tabs at hother
    rcases before.bar.next_reply_cases reply with
      ⟨-, hsame⟩ | ⟨index, tab, tab', hfound, hid, hanswered, hnext⟩
    · rwa [hsame] at hother
    · rw [hnext] at hother
      rcases mem_set_cases h.numbered.nodup hfound hother with rfl | ⟨hmem, -⟩
      · exact absurd (hanswered.id_eq.trans hid) hne
      · exact hmem
  obtain ⟨ticket, hticket, hid⟩ := h.queued other hbefore hqueued
  rcases List.mem_cons.mp ((Traffic.tickets_of_mailbox hmailbox).mem_iff.mp hticket) with
    rfl | hticket
  · exact absurd hid.symm hne
  · exact ⟨ticket, hticket, hid⟩

/-- After the turn of its queued save, the tab that asked has another request under
way or left the queue. -/
theorem queued_turn (h : before.Orderly) (hmailbox : before.traffic.mailbox = reply :: rest)
    (hturn : (before.answered reply rest).Turn reply.tab after actions) : after.QueuedBehind := by
  have hmiddle := h.toCoherent.answer hmailbox
  have hothers := h.queued_answer hmailbox
  unfold QueuedBehind
  cases hturn with
  | passed hnone hbusy =>
      have hbar : after.bar = (before.answered reply rest).bar := hnone.bar
      rw [hbar, hnone.traffic]
      intro tab htab hqueued
      by_cases hid : tab.id = reply.tab
      · exact hmiddle.exists_ticket_of_isBusy htab (hbusy tab htab hid hqueued)
      · exact hothers tab htab hid hqueued
  | dropped hfound hid _ hact =>
      have hbar : after.bar = (before.answered reply rest).bar.next (.cancelQueuedSave _) :=
        hact.bar
      rw [hbar, hact.traffic, next_cancelQueuedSave hfound]
      intro other hother hqueued
      rcases mem_set_cases hmiddle.numbered.nodup hfound hother with rfl | ⟨hmem, hne⟩
      · cases hqueued
      · exact hothers other hmem (hid ▸ hne) hqueued
  | started hid _ hsends =>
      have htickets := hsends.tickets
      rw [hsends.tabs]
      intro other hother hqueued
      rcases mem_set_cases hmiddle.numbered.nodup hsends.found hother with rfl | ⟨hmem, hne⟩
      · cases hqueued
      · obtain ⟨ticket, hticket, hticket_tab⟩ := hothers other hmem (hid ▸ hne) hqueued
        exact ⟨ticket, htickets.mem_iff.mpr (List.mem_cons_of_mem _ hticket), hticket_tab⟩

theorem move (h : before.Orderly) (hmove : Move sparing before after actions) : after.Orderly where
  toCoherent := h.toCoherent.move hmove
  queued := by
    cases hmove with
    | acted hsilent _ hact =>
        apply h.queued_act hact
        rintro index rfl
        exact hsilent.elim
    | queued hfound hbusy hact => exact h.queued_queue hfound hbusy hact
    | sent hsends => exact h.queued_send hsends
    | shuffled hbar _ htickets =>
        unfold QueuedBehind
        rw [hbar]
        intro tab htab hqueued
        obtain ⟨ticket, hticket, hid⟩ := h.queued tab htab hqueued
        exact ⟨ticket, htickets.mem_iff.mpr hticket, hid⟩
    | delivered hmailbox hturn => exact h.queued_turn hmailbox hturn

theorem moves (h : before.Orderly) (hmoves : Moves sparing before after actions) :
    after.Orderly := by
  induction hmoves with
  | refl => exact h
  | cons first _ ih => exact ih (h.move first)

/-- With no request under way, no tab waits for one. -/
theorem quiet (h : desk.Orderly) (hidle : desk.inFlight = 0) :
    ∀ tab ∈ desk.bar.tabs, tab.isBusy = false ∧ tab.saveQueued = false := by
  have hnone : desk.traffic.tickets = [] := by
    apply List.length_eq_zero_iff.mp
    rw [Traffic.length_tickets]
    exact hidle
  have hfree : ∀ id, ¬ ∃ ticket ∈ desk.traffic.tickets, ticket.tab = id := by
    rintro id ⟨ticket, hticket, -⟩
    rw [hnone] at hticket
    cases hticket
  intro tab htab
  constructor
  · cases hbusy : tab.isBusy with
    | false => rfl
    | true => exact absurd (h.exists_ticket_of_isBusy htab hbusy) (hfree _)
  · cases hqueued : tab.saveQueued with
    | false => rfl
    | true => exact absurd (h.queued tab htab hqueued) (hfree _)

end Orderly

end Desk

end Workbench
