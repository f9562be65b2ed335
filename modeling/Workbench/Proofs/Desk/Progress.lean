import Workbench.Proofs.Desk.Orderly

/-! # How requests progress

Requests are numbered in the order of their start. Each one that was started is
under way until its result is applied, and as long as a tab waits for it the tab
keeps what the request was started for. Every applied result brings the desk
nearer to rest. -/

namespace Workbench

namespace TabBar

variable {bar : TabBar} {action : TabAction} {tab tab' : Tab} {tickets : List Ticket}
  {phase : Desk.Phase} {pending : PendingRequest}

/-- A running request is the one that the action starts, or was running before. -/
theorem Becomes.pending_before (h : Becomes bar action tab tab')
    (hpending : tab'.pending phase = some pending)
    (hstarts : action.started? ≠ some pending.request) : tab.pending phase = some pending := by
  cases phase with
  | refresh => exact (h.pendingRefresh_eq hpending).resolve_left hstarts
  | save => exact (h.pendingSave_eq_some hpending).resolve_left hstarts

/-- While a request runs, its tab is steady, unless it is pointed at another path
while it is being saved. -/
theorem Becomes.steady (h : Becomes bar action tab tab') (hattended : tab.Attended tickets)
    (hbefore : tab.pending phase = some pending) (hafter : tab'.pending phase = some pending)
    (hspared : phase = .refresh ∨ ¬ tab.RepointedBy action) : tab.Steady tab' := by
  rcases h.steady_or with hsteady | ⟨hrepointed, hforgotten⟩ | ⟨hsaving, hended⟩
  · exact hsteady
  · rcases hspared with rfl | hspared
    · exact absurd (hforgotten.symm.trans hafter) (by simp)
    · exact absurd hrepointed hspared
  · cases phase with
    | refresh =>
        have hnone : tab.pending .save = none := hattended.pending_eq_none hbefore (by simp)
        rw [Tab.pending] at hnone
        rw [hnone] at hsaving
        cases hsaving
    | save => exact absurd (hended.symm.trans hafter) (by simp)

end TabBar

namespace Desk

open TabBar

variable {σ : Type} {before after desk : Desk σ} {actions : List TabAction} {sparing : Prop}
  {reply : Reply} {rest : List Reply} {tab' : Tab} {phase : Phase} {pending : PendingRequest}

/-! ## The numbers of requests -/

theorem Turn.lastRequest_le {id : TabId} (h : before.Turn id after actions) :
    before.lastRequest ≤ after.lastRequest := by
  cases h with
  | passed h => exact Nat.le_of_eq h.lastRequest.symm
  | dropped _ _ _ h => exact Nat.le_of_eq h.lastRequest.symm
  | started _ _ h => exact h.lastRequest ▸ Nat.le_succ _

theorem Move.lastRequest_le (h : Move sparing before after actions) :
    before.lastRequest ≤ after.lastRequest := by
  cases h with
  | acted _ _ h => exact Nat.le_of_eq h.lastRequest.symm
  | queued _ _ h => exact Nat.le_of_eq h.lastRequest.symm
  | sent h => exact h.lastRequest ▸ Nat.le_succ _
  | shuffled _ hlast => exact Nat.le_of_eq hlast.symm
  | delivered _ hturn => exact hturn.lastRequest_le

theorem Moves.lastRequest_le (h : Moves sparing before after actions) :
    before.lastRequest ≤ after.lastRequest := by
  induction h with
  | refl => exact Nat.le_refl _
  | cons first _ ih => exact Nat.le_trans first.lastRequest_le ih

/-! ## The tab that waits -/

/-- A tab of the desk waits for the request that the given tab waits for. If the
moves in between were sparing, or the request is a refresh, it was steady
since. -/
def HadPending (sparing : Prop) (desk : Desk σ) (phase : Phase) (pending : PendingRequest)
    (tab' : Tab) : Prop :=
  ∃ tab ∈ desk.bar.tabs, tab.id = tab'.id ∧ tab.pending phase = some pending ∧
    (phase = .refresh ∨ sparing → tab.Steady tab')

theorem HadPending.self (hpending : tab'.pending phase = some pending)
    (htab' : tab' ∈ desk.bar.tabs) : desk.HadPending sparing phase pending tab' :=
  ⟨tab', htab', rfl, hpending, fun _ => .refl tab'⟩

theorem HadPending.mono {sparing' : Prop} (h : desk.HadPending sparing phase pending tab')
    (hsparing : sparing' → sparing) : desk.HadPending sparing' phase pending tab' := by
  obtain ⟨tab, htab, hid, hpending, hsteady⟩ := h
  exact ⟨tab, htab, hid, hpending, fun hspared => hsteady (hspared.imp_right hsparing)⟩

theorem HadPending.trans {tab : Tab} (hid : tab.id = tab'.id)
    (h : desk.HadPending sparing phase pending tab)
    (hsteady : phase = .refresh ∨ sparing → tab.Steady tab') :
    desk.HadPending sparing phase pending tab' := by
  obtain ⟨first, hfirst, hfirst_id, hpending, hfirst_steady⟩ := h
  exact ⟨first, hfirst, hfirst_id.trans hid, hpending,
    fun hspared => (hfirst_steady hspared).trans (hsteady hspared)⟩

theorem Coherent.hadPending_next (h : desk.Coherent) {action : TabAction}
    (hstarts : action.started? ≠ some pending.request)
    (hspares : sparing → ∀ tab ∈ desk.bar.tabs, tab.RepointedBy action → tab.pendingSave = none)
    (htab' : tab' ∈ (desk.bar.next action).tabs) (hpending : tab'.pending phase = some pending) :
    desk.HadPending sparing phase pending tab' := by
  rcases (transition_next h.numbered.nodup action).origin h.numbered.nodup htab' with
    hsame | ⟨tab, htab, hbecomes⟩ | ⟨file, content, encoding, etag, -, -, rfl⟩
  · exact .self hpending hsame
  · have hbefore := hbecomes.pending_before hpending hstarts
    refine ⟨tab, htab, hbecomes.id_eq.symm, hbefore, ?_⟩
    intro hspared
    apply hbecomes.steady (h.attended tab htab) hbefore hpending
    cases phase with
    | refresh => exact .inl rfl
    | save =>
        have hsparing : sparing := hspared.resolve_left (by simp)
        refine .inr fun hrepointed => ?_
        have hnone : tab.pendingSave = none := hspares hsparing tab htab hrepointed
        exact absurd (hnone.symm.trans hbefore) (by simp)
  · cases phase <;> cases hpending

theorem Coherent.hadPending_stay (h : desk.Coherent) {action : TabAction}
    (hstarts : action.started? ≠ some pending.request) (hstays : ¬ action.Repoints)
    (htab' : tab' ∈ (desk.bar.next action).tabs) (hpending : tab'.pending phase = some pending) :
    desk.HadPending sparing phase pending tab' :=
  h.hadPending_next hstarts (fun _ _ _ hrepointed => absurd hrepointed.repoints hstays) htab'
    hpending

/-- Applying a result starts nothing and points no tab at another path. -/
theorem Coherent.hadPending_answered (h : before.Coherent)
    (htab' : tab' ∈ (before.answered reply rest).bar.tabs)
    (hpending : tab'.pending phase = some pending) :
    before.HadPending sparing phase pending tab' := by
  have hkind : reply.action.started? = none ∧ ¬ reply.action.Repoints := by
    unfold Reply.action
    split <;> exact ⟨rfl, id⟩
  exact h.hadPending_stay (by simp [hkind.1]) hkind.2 htab' hpending

theorem Coherent.hadPending_send {kind : Phase} {index : Nat} {tab : Tab} (h : before.Coherent)
    (hsends : before.Sends after kind index tab) (hold : pending.request ≤ before.lastRequest)
    (htab' : tab' ∈ after.bar.tabs) (hpending : tab'.pending phase = some pending) :
    before.HadPending sparing phase pending tab' := by
  have hnew : before.lastRequest + 1 ≠ pending.request := Nat.ne_of_gt (Nat.lt_succ_of_le hold)
  have hkind : (startAction index (before.lastRequest + 1) kind).started? =
        some (before.lastRequest + 1) ∧
      ¬ (startAction index (before.lastRequest + 1) kind).Repoints := by
    cases kind <;> exact ⟨rfl, id⟩
  rw [hsends.bar] at htab'
  exact h.hadPending_stay (by simpa [hkind.1] using hnew) hkind.2 htab' hpending

theorem Coherent.hadPending_turn {id : TabId} (h : before.Coherent)
    (hturn : before.Turn id after actions) (hold : pending.request ≤ before.lastRequest)
    (htab' : tab' ∈ after.bar.tabs) (hpending : tab'.pending phase = some pending) :
    before.HadPending sparing phase pending tab' := by
  cases hturn with
  | passed hnone =>
      have hbar : after.bar = before.bar := hnone.bar
      exact .self hpending (hbar ▸ htab')
  | dropped _ _ _ hact =>
      rw [hact.bar] at htab'
      refine h.hadPending_stay ?_ ?_ htab' hpending
      · simp [TabAction.started?]
      · exact not_false
  | started _ _ hsends => exact h.hadPending_send hsends hold htab' hpending

theorem Coherent.hadPending_move (h : before.Coherent) (hmove : Move sparing before after actions)
    (hold : pending.request ≤ before.lastRequest) (htab' : tab' ∈ after.bar.tabs)
    (hpending : tab'.pending phase = some pending) :
    before.HadPending sparing phase pending tab' := by
  cases hmove with
  | acted hsilent hspares hact =>
      rw [hact.bar] at htab'
      exact h.hadPending_next (by simp [hsilent.started?_eq]) hspares htab' hpending
  | queued _ _ hact =>
      rw [hact.bar] at htab'
      refine h.hadPending_stay ?_ ?_ htab' hpending
      · simp [TabAction.started?]
      · exact not_false
  | sent hsends => exact h.hadPending_send hsends hold htab' hpending
  | shuffled hbar => exact .self hpending (hbar ▸ htab')
  | delivered hmailbox hturn =>
      have hturned : HadPending sparing _ phase pending tab' :=
        (h.answer hmailbox).hadPending_turn hturn hold htab' hpending
      obtain ⟨middle, hmiddle, hid, hmiddle_pending, hsteady⟩ := hturned
      exact (h.hadPending_answered hmiddle hmiddle_pending).trans hid hsteady

/-- Whoever waits for a request after some moves, and did not start it since,
waited for it before. -/
theorem Coherent.hadPending_moves (h : before.Coherent)
    (hmoves : Moves sparing before after actions) (hold : pending.request ≤ before.lastRequest)
    (htab' : tab' ∈ after.bar.tabs) (hpending : tab'.pending phase = some pending) :
    before.HadPending sparing phase pending tab' := by
  induction hmoves with
  | refl => exact .self hpending htab'
  | cons first _ ih =>
      obtain ⟨middle, hmiddle, hid, hmiddle_pending, hsteady⟩ :=
        ih (h.move first) (Nat.le_trans hold first.lastRequest_le) htab'
      exact (h.hadPending_move first hold hmiddle hmiddle_pending).trans hid hsteady

/-! ## Started and applied -/

/-- The requests that some actions start, in order. -/
def started (actions : List TabAction) : List RequestId := actions.filterMap TabAction.started?

/-- The requests whose results some actions apply, in order. -/
def applied (actions : List TabAction) : List RequestId := actions.filterMap TabAction.applied?

/-- The numbers of the requests under way. -/
def requests (desk : Desk σ) : List RequestId := desk.traffic.tickets.map Ticket.id

/-- What was under way or is started is applied, or is under way afterwards. -/
def Balanced (before after : Desk σ) (actions : List TabAction) : Prop :=
  (started actions ++ before.requests).Perm (applied actions ++ after.requests)

theorem Balanced.trans {middle : Desk σ} {later : List TabAction}
    (h : Balanced before middle actions) (h' : Balanced middle after later) :
    Balanced before after (actions ++ later) := by
  apply List.perm_iff_count.mpr
  intro request
  have hfirst := List.Perm.count_eq h request
  have hsecond := List.Perm.count_eq h' request
  simp only [started, applied, List.filterMap_append, List.count_append] at hfirst hsecond ⊢
  omega

theorem Balanced.of_traffic_eq (h : after.traffic = before.traffic)
    (hstarts : started actions = []) (happlies : applied actions = []) :
    Balanced before after actions := by
  unfold Balanced requests
  rw [hstarts, happlies, h]

theorem Sends.balanced {kind : Phase} {index : Nat} {tab : Tab}
    (h : before.Sends after kind index tab) :
    Balanced before after [startAction index (before.lastRequest + 1) kind] := by
  have hrequests := (h.tickets.map Ticket.id).symm
  unfold Balanced
  cases kind <;> exact hrequests

theorem Turn.balanced {id : TabId} (h : before.Turn id after actions) :
    Balanced before after actions := by
  cases h with
  | passed hnone => exact .of_traffic_eq hnone.traffic rfl rfl
  | dropped _ _ _ hact => exact .of_traffic_eq hact.traffic rfl rfl
  | started _ _ hsends => exact hsends.balanced

theorem balanced_answered (hmailbox : before.traffic.mailbox = reply :: rest) :
    Balanced before (before.answered reply rest) [reply.action] := by
  have hrequests := (Traffic.tickets_of_mailbox hmailbox).map Ticket.id
  unfold Balanced Reply.action
  split <;> exact hrequests

theorem Move.balanced (h : Move sparing before after actions) : Balanced before after actions := by
  cases h with
  | acted hsilent _ hact =>
      apply Balanced.of_traffic_eq hact.traffic
      · simp [started, hsilent.started?_eq]
      · simp [applied, hsilent.applied?_eq]
  | queued _ _ hact => exact .of_traffic_eq hact.traffic rfl rfl
  | sent hsends => exact hsends.balanced
  | shuffled _ _ htickets => exact (htickets.map Ticket.id).symm
  | delivered hmailbox hturn => exact (balanced_answered hmailbox).trans hturn.balanced

theorem Moves.balanced (h : Moves sparing before after actions) :
    Balanced before after actions := by
  induction h with
  | refl => exact .refl _
  | cons first _ ih => exact first.balanced.trans ih

/-! ## The queue is guarded -/

theorem Turn.guarded {id : TabId} (h : before.Turn id after actions) :
    before.bar.Guarded actions := by
  cases h with
  | passed => exact trivial
  | @dropped index tab hfound _ hpointless =>
      refine ⟨?_, trivial⟩
      intro position other hcancels hother
      obtain rfl := TabAction.cancelQueuedSave.inj hcancels
      obtain rfl := Option.some.inj (hfound.symm.trans hother)
      exact hpointless
  | started => exact .of_ne (by simp) trivial

theorem Move.guarded (h : Move sparing before after actions) : before.bar.Guarded actions := by
  cases h with
  | acted hsilent =>
      refine .of_ne ?_ trivial
      rintro index rfl
      exact hsilent
  | queued => exact .of_ne (by simp) trivial
  | @sent phase => exact .of_ne (by cases phase <;> simp [startAction]) trivial
  | shuffled => exact trivial
  | delivered _ hturn =>
      refine .of_ne ?_ hturn.guarded
      unfold Reply.action
      split <;> simp

theorem Moves.guarded (h : Moves sparing before after actions) : before.bar.Guarded actions := by
  induction h with
  | refl => exact trivial
  | cons first _ ih => exact first.guarded.append (first.bar ▸ ih)

end Desk

end Workbench
