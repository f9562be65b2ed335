import Workbench.Proofs.Desk.Actions
import Workbench.Proofs.Tabs.Queue
import Workbench.Proofs.Tabs.Requests

/-! # Requests under way

A request is under way from its start until its result is applied, whether or
not the service has performed it meanwhile. A ticket is what does not change in
that time: for which tab the request runs, its number, and whether it refreshes
or saves. -/

namespace Workbench

/-- What is known of a request for as long as it is under way. -/
structure Ticket where
  tab : TabId
  id : RequestId
  phase : Desk.Phase
  deriving DecidableEq

namespace Errand

/-- A read refreshes, a write saves. -/
def phase : Errand → Desk.Phase
  | .read _ => .refresh
  | .write _ _ _ _ => .save

theorem phase_of_isWrite {errand : Errand} (h : errand.isWrite = true) : errand.phase = .save := by
  cases errand with
  | read path => cases h
  | write path content encoding expected => rfl

/-- The result of a read is applied as a refresh, that of a write as a save. -/
theorem phaseOf_perform {σ : Type} [FileService σ] (errand : Errand) (service : σ) :
    Desk.phaseOf (errand.perform service).1 = errand.phase := by
  cases errand with
  | read path =>
      unfold perform
      dsimp only
      split <;> rfl
  | write path content encoding expected =>
      unfold perform
      dsimp only
      split <;> rfl

end Errand

def Request.ticket (request : Request) : Ticket :=
  { tab := request.tab, id := request.id, phase := request.errand.phase }

def Reply.ticket (reply : Reply) : Ticket :=
  { tab := reply.tab, id := reply.id, phase := Desk.phaseOf reply.result }

namespace Traffic

variable {traffic : Traffic}

/-- The tickets of all requests under way. -/
def tickets (traffic : Traffic) : List Ticket :=
  traffic.waiting.map Request.ticket ++ traffic.mailbox.map Reply.ticket

theorem mem_tickets_of_waiting {request : Request} (h : request ∈ traffic.waiting) :
    request.ticket ∈ traffic.tickets :=
  List.mem_append_left _ (List.mem_map_of_mem h)

theorem mem_tickets_of_mailbox {reply : Reply} (h : reply ∈ traffic.mailbox) :
    reply.ticket ∈ traffic.tickets :=
  List.mem_append_right _ (List.mem_map_of_mem h)

theorem length_tickets (traffic : Traffic) : traffic.tickets.length = traffic.inFlight := by
  simp [tickets, inFlight]

theorem tickets_start (traffic : Traffic) (request : Request) :
    (traffic.start request).tickets.Perm (request.ticket :: traffic.tickets) := by
  unfold tickets start
  rw [List.map_append, List.map_singleton, List.append_assoc]
  exact List.perm_middle

/-- A request that is performed stays under way. -/
theorem tickets_answered {position : Nat} {request : Request} {reply : Reply}
    (hrequest : traffic.waiting[position]? = some request) (hreply : reply.ticket = request.ticket) :
    (traffic.answered position reply).tickets.Perm traffic.tickets := by
  obtain ⟨hlt, rfl⟩ := List.getElem?_eq_some_iff.mp hrequest
  have hwaiting := (List.getElem_cons_eraseIdx_perm hlt).map Request.ticket
  unfold tickets answered
  rw [List.map_append, List.map_singleton, hreply, ← List.append_assoc]
  -- The new result goes to the end, its request stood among the waiting ones.
  exact (List.perm_append_singleton _ _).trans (hwaiting.append_right _)

/-- The application of a result ends its request. -/
theorem tickets_of_mailbox {reply : Reply} {rest : List Reply}
    (h : traffic.mailbox = reply :: rest) :
    traffic.tickets.Perm (reply.ticket :: { traffic with mailbox := rest }.tickets) := by
  unfold tickets
  rw [h, List.map_cons]
  exact List.perm_middle

end Traffic

/-! ## What a tab waits for -/

namespace Tab

variable {tab tab' : Tab} {tickets : List Ticket}

/-- The request of a kind that runs for the tab. -/
def pending (tab : Tab) : Desk.Phase → Option PendingRequest
  | .refresh => tab.pendingRefresh
  | .save => tab.pendingSave

theorem isBusy_eq_false_iff : tab.isBusy = false ↔ ∀ phase, tab.pending phase = none := by
  rw [isBusy_eq_false]
  constructor
  · rintro ⟨hrefresh, hsave⟩ phase
    cases phase with
    | refresh => exact hrefresh
    | save => exact hsave
  · intro h
    exact ⟨h .refresh, h .save⟩

theorem exists_pending_of_isBusy (h : tab.isBusy = true) :
    ∃ phase pending, tab.pending phase = some pending := by
  by_contra hnone
  have hidle : tab.isBusy = false := by
    rw [isBusy_eq_false_iff]
    intro phase
    cases hpending : tab.pending phase with
    | none => rfl
    | some pending => exact absurd ⟨phase, pending, hpending⟩ hnone
  rw [h] at hidle
  cases hidle

/-- What the result of a request makes of the tab that asked. -/
def AnsweredBy (tab : Tab) (reply : Reply) (tab' : Tab) : Prop :=
  match reply.result with
  | .refresh result => tab.Refreshed reply.id result tab'
  | .save result => tab.SaveAnswered reply.id result tab'

theorem AnsweredBy.id_eq {reply : Reply} (h : tab.AnsweredBy reply tab') : tab'.id = tab.id := by
  unfold AnsweredBy at h
  split at h
  · exact h.id_eq
  · exact h.id_eq

theorem AnsweredBy.saveQueued_eq {reply : Reply} (h : tab.AnsweredBy reply tab') :
    tab'.saveQueued = tab.saveQueued := by
  unfold AnsweredBy at h
  split at h
  · cases h <;> rfl
  · cases h <;> rfl

/-- The tab waited for a request and waits no longer, and what else it waits for is
the same. -/
structure StopsWaiting (tab tab' : Tab) (phase : Desk.Phase) (request : RequestId) : Prop where
  waited : (tab.pending phase).map (·.request) = some request
  stopped : tab'.pending phase = none
  others : ∀ other, other ≠ phase → tab'.pending other = tab.pending other

theorem StopsWaiting.of_refresh {request : RequestId} {generation : Nat}
    (hpending : tab.pendingRefresh = some { request, generation })
    (hstopped : tab'.pendingRefresh = none) (hsave : tab'.pendingSave = tab.pendingSave) :
    tab.StopsWaiting tab' .refresh request where
  waited := by rw [pending, hpending, Option.map_some]
  stopped := hstopped
  others other hother := by
    cases other with
    | refresh => exact absurd rfl hother
    | save => exact hsave

theorem StopsWaiting.of_save {request : RequestId} {generation : Nat}
    (hpending : tab.pendingSave = some { request, generation })
    (hstopped : tab'.pendingSave = none) (hrefresh : tab'.pendingRefresh = tab.pendingRefresh) :
    tab.StopsWaiting tab' .save request where
  waited := by rw [pending, hpending, Option.map_some]
  stopped := hstopped
  others other hother := by
    cases other with
    | refresh => exact hrefresh
    | save => exact absurd rfl hother

theorem Refreshed.stopsWaiting_or {request : RequestId} {result : RefreshResult}
    (h : tab.Refreshed request result tab') :
    (tab' = tab ∧ tab.pendingRefresh.map (·.request) ≠ some request) ∨
      tab.StopsWaiting tab' .refresh request := by
  cases h with
  | dropped _ hother => exact .inl ⟨rfl, hother⟩
  | outdated _ hpending => exact .inr (.of_refresh hpending rfl rfl)
  | confirmed _ hpending => exact .inr (.of_refresh hpending rfl rfl)
  | returned _ hpending => exact .inr (.of_refresh hpending rfl rfl)
  | contested _ hpending => exact .inr (.of_refresh hpending rfl rfl)
  | adopted _ hpending => exact .inr (.of_refresh hpending rfl rfl)
  | missing hpending => exact .inr (.of_refresh hpending rfl rfl)
  | failed _ hpending => exact .inr (.of_refresh hpending rfl rfl)

theorem SaveAnswered.stopsWaiting_or {request : RequestId} {result : SaveResult}
    (h : tab.SaveAnswered request result tab') :
    (tab' = tab ∧ tab.pendingSave.map (·.request) ≠ some request) ∨
      tab.StopsWaiting tab' .save request := by
  cases h with
  | dropped _ hother => exact .inl ⟨rfl, hother⟩
  | stored _ hpending => exact .inr (.of_save hpending rfl rfl)
  | storedOlder _ hpending => exact .inr (.of_save hpending rfl rfl)
  | refused hpending => exact .inr (.of_save hpending rfl rfl)
  | failed _ hpending => exact .inr (.of_save hpending rfl rfl)

/-- A tab that does not wait for a result is left alone. -/
theorem AnsweredBy.stopsWaiting_or {reply : Reply} (h : tab.AnsweredBy reply tab') :
    (tab' = tab ∧
      (tab.pending (Desk.phaseOf reply.result)).map (·.request) ≠ some reply.id) ∨
      tab.StopsWaiting tab' (Desk.phaseOf reply.result) reply.id := by
  unfold AnsweredBy at h
  split at h
  next result hresult =>
    rw [hresult]
    exact h.stopsWaiting_or
  next result hresult =>
    rw [hresult]
    exact h.stopsWaiting_or

/-- At most one request runs for the tab, what runs is under way, and every save
under way for the tab is the one that it waits for. -/
structure Attended (tickets : List Ticket) (tab : Tab) : Prop where
  single : tab.pendingRefresh = none ∨ tab.pendingSave = none
  pending : ∀ phase pending, tab.pending phase = some pending →
    { tab := tab.id, id := pending.request, phase } ∈ tickets ∧
      pending.generation ≤ tab.generation
  save : ∀ ticket ∈ tickets, ticket.tab = tab.id → ticket.phase = .save →
    tab.pendingSave.map (·.request) = some ticket.id

end Tab

namespace TabBar

/-- The result of a request changes the tab that asked, if that is open. -/
theorem next_reply_cases (bar : TabBar) (reply : Reply) :
    (reply.tab ∉ bar.ids ∧ bar.next reply.action = bar) ∨
      ∃ index tab tab', bar.tabs[index]? = some tab ∧ tab.id = reply.tab ∧
        tab.AnsweredBy reply tab' ∧
        bar.next reply.action = { bar with tabs := bar.tabs.set index tab' } := by
  unfold Tab.AnsweredBy Reply.action
  cases reply.result with
  | refresh result =>
      rcases bar.answer_cases reply.tab fun index tab => tab.applyRefresh reply.id result index with
        ⟨hgone, hsame⟩ | ⟨index, tab, htab, hid, hafter⟩
      · exact .inl ⟨hgone, hsame⟩
      · exact .inr ⟨index, tab, _, htab, hid, tab.refreshed_applyRefresh _ _ _, hafter⟩
  | save result =>
      rcases bar.answer_cases reply.tab fun index tab => tab.applySave reply.id result index with
        ⟨hgone, hsame⟩ | ⟨index, tab, htab, hid, hafter⟩
      · exact .inl ⟨hgone, hsame⟩
      · exact .inr ⟨index, tab, _, htab, hid, tab.saveAnswered_applySave _ _ _, hafter⟩

end TabBar

end Workbench
