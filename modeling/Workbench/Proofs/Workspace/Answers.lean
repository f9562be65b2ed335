import Workbench.Proofs.Workspace.Moves
import Workbench.Proofs.Workspace.Requests

/-! # What a result is applied to

Between the start of a request and the application of its result the tab may be
edited, reopened, moved or saved. A result counts only if the tab is still the
one that the request was started for: for a refresh always, for a save as long
as renames wait for the saves below them. -/

namespace Workbench.Workspace

open TabBar

variable {σ : Type} [FileService σ] {start : Workspace σ} {history : List (Step σ)} {tab : Tab}
  {reply : Reply}

/-- A read is answered as a refresh and a write as a save, so the result tells
which of them was asked for. -/
theorem Starts.errand_of_answers {earlier : List (Step σ)} {step : Step σ} {request : Request}
    (hstarts : Starts start earlier step tab request) {before after : Desk σ}
    (hanswers : before.Answers after request reply) :
    request.errand = tab.errand (Desk.phaseOf reply.result) := by
  have hphase := request.errand.phaseOf_perform before.service
  rw [hanswers.performed] at hphase
  rw [hphase]
  rcases hstarts.errand_eq with hread | hsave
  · rw [hread]
    rfl
  · rw [hsave]
    rfl

/-- Every result is that of a request which some step started and a later step got
answered. -/
theorem exists_started (hstart : start.Fresh)
    (hreply : reply ∈ (start.run history).desk.traffic.mailbox) :
    ∃ earlier step between performing later asked request,
      history = earlier ++ step :: (between ++ performing :: later) ∧
      Starts start earlier step asked request ∧
      (start.run (earlier ++ step :: between)).desk.Answers
        (start.run (earlier ++ step :: (between ++ [performing]))).desk request reply ∧
      request.errand = asked.errand (Desk.phaseOf reply.result) := by
  obtain ⟨first, performing, later, request, rfl, hanswers⟩ :=
    exists_answers start hstart.bar hstart.mailbox history hreply
  obtain ⟨earlier, step, between, asked, rfl, hstarts⟩ :=
    exists_starts start hstart.bar hstart.waiting first hanswers.waits
  refine ⟨earlier, step, between, performing, later, asked, request, by simp, hstarts, ?_,
    hstarts.errand_of_answers hanswers⟩
  simpa using hanswers

/-- If a tab waits for a request at its present edit count, then it has kept its text
since the request was started for it, and the file and version as well unless it was
moved while it was being saved. -/
theorem Starts.kept {earlier later : List (Step σ)} {step : Step σ} {asked : Tab}
    {request : Request} (hstart : start.Fresh) (hstarts : Starts start earlier step asked request)
    (htab : tab ∈ (start.run (earlier ++ step :: later)).desk.bar.tabs)
    (hid : tab.id = request.tab) {phase : Desk.Phase}
    (hpending : tab.pending phase = some { request := request.id, generation := tab.generation }) :
    asked.EditsCounted tab ∧ tab.generation = asked.generation ∧
      (phase = .refresh ∨ Waited start (earlier ++ step :: later) → asked.Agrees tab) := by
  have hsplit : earlier ++ step :: later = (earlier ++ [step]) ++ later := by simp
  rw [hsplit] at htab ⊢
  rw [run_append] at htab
  -- From the start of the request on, the same tab waits for it.
  have horderly := orderly_run hstart.orderly (earlier ++ [step])
  have hold : request.id ≤ (start.run (earlier ++ [step])).desk.lastRequest :=
    horderly.fresh _ (Traffic.mem_tickets_of_waiting hstarts.waits)
  obtain ⟨seen, hseen, hseen_id, hseen_pending, hsteady⟩ :=
    hadPending_run horderly later hold htab hpending
  obtain rfl : seen = asked :=
    eq_of_id_eq horderly.numbered.nodup hseen hstarts.mem_tabs
      (hseen_id.trans (hid.trans hstarts.id_eq.symm))
  have hcounted : seen.EditsCounted tab := by
    rw [bar_run] at htab
    exact editsCounted_run horderly.numbered hseen htab hseen_id.symm
  have hle := ((horderly.attended seen hseen).pending _ _ hseen_pending).2
  have hsame := Nat.le_antisymm hle hcounted.le
  refine ⟨hcounted, hsame, fun hspared => ?_⟩
  have hkept := hsteady (hspared.imp_right fun hwaited => hwaited.of_append.2)
  exact hkept.agrees hsame

/-- If a tab waits for a result at its present edit count, then it agrees with the
tab that the request was started for. -/
theorem exists_asked (hstart : start.Fresh) (htab : tab ∈ (start.run history).desk.bar.tabs)
    (hreply : reply ∈ (start.run history).desk.traffic.mailbox) (hid : tab.id = reply.tab)
    (hpending : tab.pending (Desk.phaseOf reply.result) =
      some { request := reply.id, generation := tab.generation }) :
    ∃ earlier step between performing later asked request,
      history = earlier ++ step :: (between ++ performing :: later) ∧
      Starts start earlier step asked request ∧
      (start.run (earlier ++ step :: between)).desk.Answers
        (start.run (earlier ++ step :: (between ++ [performing]))).desk request reply ∧
      request.errand = asked.errand (Desk.phaseOf reply.result) ∧
      (Desk.phaseOf reply.result = .refresh ∨ Waited start history → asked.Agrees tab) := by
  obtain ⟨earlier, step, between, performing, later, asked, request, rfl, hstarts, hanswers,
    herrand⟩ := exists_started hstart hreply
  rw [hanswers.tab_eq] at hid
  rw [hanswers.id_eq] at hpending
  exact ⟨earlier, step, between, performing, later, asked, request, rfl, hstarts, hanswers,
    herrand, (hstarts.kept hstart htab hid hpending).2.2⟩

/-! ## Refreshes -/

/-- The result is dropped when it is applied. -/
def Dropped (w : Workspace σ) (reply : Reply) : Prop :=
  ∃ reason, (w.desk.dispatch reply.action).1 = .ok (.dropped reason)

omit [FileService σ] in
/-- A refresh that is not dropped finds the tab that waits for it, at the edit count
of its start. -/
theorem exists_awaiting {w : Workspace σ} (hrefresh : Desk.phaseOf reply.result = .refresh)
    (hkept : ¬ Dropped w reply) :
    ∃ tab ∈ w.desk.bar.tabs, tab.id = reply.tab ∧
      tab.pendingRefresh = some { request := reply.id, generation := tab.generation } := by
  cases hresult : reply.result with
  | save result =>
      rw [hresult] at hrefresh
      cases hrefresh
  | refresh result =>
      unfold Dropped at hkept
      simp only [Reply.action, hresult, Desk.dispatch, apply, answer] at hkept
      cases hfind : w.desk.bar.findId? reply.tab with
      | none =>
          rw [hfind] at hkept
          exact absurd ⟨.tabClosed, rfl⟩ hkept
      | some index =>
          obtain ⟨tab, hfound, hid⟩ := findId?_eq_some hfind
          simp only [hfind, hfound] at hkept
          refine ⟨tab, List.mem_of_getElem? hfound, hid, ?_⟩
          unfold Tab.applyRefresh at hkept
          cases hawaited : Tab.awaited? tab.pendingRefresh reply.id with
          | none =>
              rw [hawaited] at hkept
              exact absurd ⟨.superseded, rfl⟩ hkept
          | some pending =>
              simp only [hawaited] at hkept
              rw [Tab.awaited?_eq_some hawaited]
              by_cases hcount : tab.generation = pending.generation
              · rw [hcount]
              · rw [if_pos hcount] at hkept
                exact absurd ⟨.localEdits, rfl⟩ hkept

/-- What is known of the requests of each tab after a run. -/
structure Serialized (start : Workspace σ) (history : List (Step σ)) : Prop where
  /-- No tab is refreshed and saved at the same time. -/
  single : ∀ tab ∈ (start.run history).desk.bar.tabs,
    tab.pendingRefresh = none ∨ tab.pendingSave = none
  /-- A refresh that is not dropped when it is applied next was started by some step
  for a tab that is still open and agrees with what it was then. -/
  asked : ∀ reply rest, (start.run history).desk.traffic.mailbox = reply :: rest →
    Desk.phaseOf reply.result = .refresh → ¬ Dropped (start.run history) reply →
      ∃ tab ∈ (start.run history).desk.bar.tabs, tab.id = reply.tab ∧
        ∃ earlier step later asked request, history = earlier ++ step :: later ∧
          Starts start earlier step asked request ∧ request.tab = reply.tab ∧
          request.id = reply.id ∧ request.errand = .read asked.path ∧ asked.Agrees tab

/-- The requests of a tab do not overlap, and a refresh is applied only to the tab
it was started for. -/
theorem serialized_run (start : Workspace σ) (hstart : start.Fresh) (history : List (Step σ)) :
    Serialized start history := by
  have horderly := orderly_run hstart.orderly history
  constructor
  case single => exact fun tab htab => (horderly.attended tab htab).single
  case asked =>
    intro reply rest hmailbox hrefresh hkept
    obtain ⟨tab, htab, hid, hpending⟩ := exists_awaiting hrefresh hkept
    have hreply : reply ∈ (start.run history).desk.traffic.mailbox :=
      hmailbox ▸ List.mem_cons_self
    have hwaits : tab.pending (Desk.phaseOf reply.result) =
        some { request := reply.id, generation := tab.generation } := by
      rw [hrefresh]
      exact hpending
    obtain ⟨earlier, step, between, performing, later, asked, request, rfl, hstarts, hanswers,
      herrand, hagrees⟩ := exists_asked hstart htab hreply hid hwaits
    rw [hrefresh] at herrand
    exact ⟨tab, htab, hid, earlier, step, between ++ performing :: later, asked, request, rfl,
      hstarts, hanswers.tab_eq.symm, hanswers.id_eq.symm, herrand, hagrees (.inl hrefresh)⟩

/-- A tab that is read again after another client wrote its file. -/
def changedMeanwhile : List (Step MemoryFiles) :=
  [.outside fun m => (m.put "/notes" "other").2, .outside fun m => (m.put "/plan" "one").2,
   .openPath "/plan", .openPath "/notes", .click 0, .outside fun m => (m.put "/plan" "two").2,
   .release 0]

theorem changedMeanwhile_serialized :
    openingMemory.Fresh ∧
      (∃ reply ∈ (openingMemory.run changedMeanwhile).desk.traffic.mailbox,
        Desk.phaseOf reply.result = .refresh ∧
          ((openingMemory.run changedMeanwhile).desk.dispatch reply.action).1 =
            .ok (.adopted 0)) ∧
      Serialized openingMemory changedMeanwhile := by
  have hfresh : openingMemory.Fresh := fresh_opening _ _ _ _ _
  exact ⟨hfresh, by decide +kernel, serialized_run openingMemory hfresh changedMeanwhile⟩

end Workbench.Workspace
