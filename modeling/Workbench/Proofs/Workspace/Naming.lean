import Workbench.Proofs.Tabs.Naming
import Workbench.Proofs.Workspace.Answers
import Workbench.Proofs.Workspace.SaveStates
import Workbench.Proofs.Workspace.Service

/-! # Versions and contents in a workspace

Over files in memory, every tab without unsaved edits holds the content that its
version names, as long as no content comes from elsewhere: neither with a wrong name
from the caller, nor from another writer that is reported to the tabs. -/

namespace Workbench.Workspace

open TabBar

variable {start w : Workspace MemoryFiles} {history : List (Step MemoryFiles)}
  {step : Step MemoryFiles} {reply : Reply} {tab : Tab}

/-- The step brings in no content of its own, except under the version that names it.
Other clients change the files as they like. -/
def Step.Truthful : Step MemoryFiles → Prop
  | .openFile _ content encoding etag =>
      ∀ version, etag = some version → version = MemoryFiles.versionOf encoding content
  | .externalWrite _ _ _ _ | .upload _ => False
  | .outside change => MemoryFiles.ClientChange change
  | _ => True

/-! ## Files -/

theorem named_perform (h : w.desk.service.Named) (hstep : step.Truthful) :
    (w.perform step).desk.service.Named := by
  by_cases houtside : ∃ change, step = .outside change
  · obtain ⟨change, rfl⟩ := houtside
    exact h.clientChange hstep
  · have hcalled := w.called_perform fun change heq => houtside ⟨change, heq⟩
    exact MemoryFiles.keeps_named.called hcalled h

theorem named_run (h : start.desk.service.Named) (hsteps : ∀ step ∈ history, step.Truthful) :
    (start.run history).desk.service.Named := by
  induction history generalizing start with
  | nil => exact h
  | cons step rest ih =>
      obtain ⟨hfirst, hrest⟩ := List.forall_mem_cons.mp hsteps
      exact ih (named_perform h hfirst) hrest

/-! ## Results -/

/-- What was read for a refresh comes with its name. -/
theorem named_of_fetched (hstart : start.Fresh) (hfiles : start.desk.service.Named)
    (hsteps : ∀ step ∈ history, step.Truthful)
    (hreply : reply ∈ (start.run history).desk.traffic.mailbox) {content : FileContent}
    (hresult : reply.result = .refresh (.fetched content)) : content.Named := by
  obtain ⟨earlier, step, later, request, rfl, hanswers⟩ :=
    exists_answers start hstart.bar hstart.mailbox history hreply
  have hbefore := named_run hfiles (List.forall_mem_append.mp hsteps).1
  have hperformed := hanswers.performed
  rw [hresult] at hperformed
  obtain ⟨path, hread⟩ := Errand.fetchFile_of_fetched hperformed
  exact hbefore.fetchFile hread

/-- The answer of a save names what the tab holds if that was not edited since the
save was started. -/
theorem names_of_written (hstart : start.Fresh)
    (hreply : reply ∈ (start.run history).desk.traffic.mailbox) {write : WriteResult}
    (hresult : reply.result = .save (.written write))
    (htab : tab ∈ (start.run history).desk.bar.tabs) (hid : tab.id = reply.tab)
    (hpending : tab.pendingSave = some { request := reply.id, generation := tab.generation }) :
    write.etag = MemoryFiles.versionOf tab.encoding tab.content := by
  obtain ⟨earlier, step, between, performing, later, asked, request, rfl, hstarts, hanswers,
    herrand⟩ := exists_started hstart hreply
  rw [hanswers.tab_eq] at hid
  rw [hanswers.id_eq] at hpending
  have hsaving : tab.pending .save =
      some { request := request.id, generation := tab.generation } := hpending
  obtain ⟨hcounted, hsame, -⟩ := hstarts.kept hstart htab hid hsaving
  have hperformed := hanswers.performed
  rw [herrand, hresult] at hperformed
  have hstored := Errand.storeFile_of_written hperformed
  rw [hcounted.content hsame, hcounted.encoding hsame]
  exact MemoryFiles.etag_of_storeFile (congrArg Prod.fst hstored)

/-! ## Steps -/

theorem truthful_of_bare {action : TabAction} (h : action.Bare) (bar : TabBar) :
    Truthful bar action := by
  cases action <;> first | exact h.elim | exact trivial

theorem truthful_reply (hstart : start.Fresh) (hfiles : start.desk.service.Named)
    (hsteps : ∀ step ∈ history, step.Truthful)
    (hreply : reply ∈ (start.run history).desk.traffic.mailbox) :
    Truthful (start.run history).desk.bar reply.action := by
  unfold Reply.action
  cases hresult : reply.result with
  | refresh result =>
      rintro content rfl
      exact named_of_fetched hstart hfiles hsteps hreply hresult
  | save result =>
      rintro tab htab hid write rfl hpending
      exact names_of_written hstart hreply hresult htab hid hpending

theorem truthful_resolveActions (hfiles : w.desk.service.Named) (index : Nat)
    (decision : ConflictAction) :
    Along Truthful w.desk.bar (w.desk.resolveActions index decision) := by
  have hall : ∀ action ∈ w.desk.resolveActions index decision, Truthful w.desk.bar action := by
    apply Desk.forall_resolveActions
    case haccept => exact fun path content hread => hfiles.fetchFile hread
    case hkeep => exact trivial
    case hsavedAs =>
      intro tab newPath service write hfound hstored other hother
      obtain rfl := Option.some.inj (hfound.symm.trans hother)
      exact MemoryFiles.etag_of_storeFile hstored
  rcases w.desk.resolveActions_cases index decision with hnone | ⟨action, hone, -⟩
  · rw [hnone]
    exact trivial
  · rw [hone] at hall ⊢
    exact ⟨List.forall_mem_singleton.mp hall, trivial⟩

/-- All actions of a truthful step tell the truth. -/
theorem truthful_actions (hstart : start.Fresh) (hfiles : start.desk.service.Named)
    (hsteps : ∀ step ∈ history, step.Truthful) (hstep : step.Truthful) :
    Along Truthful (start.run history).desk.bar ((start.run history).actions step) := by
  have hnamed := named_run hfiles hsteps
  by_cases hdeliver : step = .deliver
  · subst hdeliver
    rw [actions]
    rcases (start.run history).desk.deliverActions_cases with
      hnone | ⟨reply, rest, queued, hmailbox, hall, hsaving⟩
    · rw [hnone]
      exact trivial
    · rw [hall]
      constructor
      · exact truthful_reply hstart hfiles hsteps (hmailbox ▸ List.mem_cons_self)
      · exact along_of_forall fun action haction bar =>
          truthful_of_bare (hsaving action haction).bare bar
  · by_cases hresolve : ∃ index decision, step = .resolve index decision
    · obtain ⟨index, decision, rfl⟩ := hresolve
      exact truthful_resolveActions hnamed index decision
    · apply along_of_forall
      apply forall_actions
      case hread =>
        rintro service hcalled file path content hread bar version ⟨⟩
        exact (MemoryFiles.keeps_named.called hcalled hnamed).fetchFile hread
      case hcreate =>
        rintro path service write hstored bar version ⟨⟩
        exact MemoryFiles.etag_of_storeFile hstored
      case hfile =>
        rintro file content encoding etag rfl bar
        exact hstep
      case hbare => exact fun action hbare bar => truthful_of_bare hbare bar
      case hresolve => exact fun index decision heq => hresolve ⟨index, decision, heq⟩
      case hdeliver => exact hdeliver
      case hannounces => cases step <;> first | exact id | exact fun _ => hstep.elim

theorem faithful_bar (hstart : start.Fresh) (hfiles : start.desk.service.Named)
    (hsteps : ∀ step ∈ history, step.Truthful) :
    ∀ tab ∈ (start.run history).desk.bar.tabs, tab.Faithful := by
  induction history using List.reverseRecOn with
  | nil =>
      rw [run_nil, hstart.bar]
      exact fun tab htab => absurd htab List.not_mem_nil
  | append_singleton history step ih =>
      obtain ⟨hbefore, hlast⟩ := List.forall_mem_append.mp hsteps
      have horderly := orderly_run hstart.orderly history
      rw [run_append, run_cons, run_nil, bar_perform]
      exact faithful_run horderly.numbered
        (truthful_actions hstart hfiles hbefore (List.forall_mem_singleton.mp hlast))
        (prudent_actions horderly step) (ih hbefore)

/-- What the versions of open tabs say. -/
structure VersionsHold (w : Workspace MemoryFiles) : Prop where
  /-- A tab without unsaved edits holds the content that its version names. -/
  named : ∀ tab ∈ w.desk.bar.tabs, tab.unsaved = false → tab.Named
  /-- When a refresh has found the version of such a tab, it has found the content of
  the tab, or a clash of digests. -/
  confirmed : ∀ tab ∈ w.desk.bar.tabs, tab.unsaved = false →
    ∀ reply ∈ w.desk.traffic.mailbox, ∀ content, reply.result = .refresh (.fetched content) →
      tab.etag = some content.etag →
        (tab.encoding = content.encoding ∧ tab.content = content.content) ∨
          DigestsClash (namedText tab.encoding tab.content)
            (namedText content.encoding content.content)

/-- Over files in memory, versions name the contents of all tabs without unsaved
edits, whatever is done and whatever other clients change. -/
theorem versionsHold_run (start : Workspace MemoryFiles) (hstart : start.Fresh)
    (hfiles : start.desk.service.Named) (history : List (Step MemoryFiles))
    (hsteps : ∀ step ∈ history, step.Truthful) : VersionsHold (start.run history) := by
  have hfaithful := faithful_bar hstart hfiles hsteps
  constructor
  case named => exact fun tab htab hsaved => (hfaithful tab htab).named hsaved
  case confirmed =>
    intro tab htab hsaved reply hreply content hresult hetag
    have htab_named := (hfaithful tab htab).named hsaved content.etag hetag
    have hcontent_named := named_of_fetched hstart hfiles hsteps hreply hresult
    exact MemoryFiles.eq_or_clash_of_versionOf_eq (htab_named.symm.trans hcontent_named)

/-- A draft that is saved, and read again after another client has stored the same
text once more. -/
def rereadAfterSave : List (Step MemoryFiles) :=
  [.outside fun m => (m.put "/notes" "other").2, .outside fun m => (m.put "/plan" "one").2,
   .openPath "/plan", .edit 0 "two" 5, .save 0, .release 0, .deliver, .openPath "/notes",
   .outside fun m => (m.put "/plan" "two").2, .click 0, .release 0]

theorem rereadAfterSave_versionsHold :
    openingMemory.Fresh ∧ openingMemory.desk.service.Named ∧
      (∀ step ∈ rereadAfterSave, step.Truthful) ∧
      (∃ tab ∈ (openingMemory.run rereadAfterSave).desk.bar.tabs,
        tab.unsaved = false ∧ tab.content = "two" ∧
          ∃ reply ∈ (openingMemory.run rereadAfterSave).desk.traffic.mailbox,
            reply.result = .refresh
              (.fetched ⟨"/plan", "two", .utf8, tab.etag.getD "", 3, some 4⟩)) ∧
      VersionsHold (openingMemory.run rereadAfterSave) := by
  have hfresh : openingMemory.Fresh := fresh_opening _ _ _ _ _
  have hfiles : openingMemory.desk.service.Named := MemoryFiles.named_empty
  have hsteps : ∀ step ∈ rereadAfterSave, step.Truthful := by
    simp only [rereadAfterSave, List.forall_mem_cons]
    exact ⟨.put _ _, .put _ _, trivial, trivial, trivial, trivial, trivial, trivial, .put _ _,
      trivial, trivial, nofun⟩
  exact ⟨hfresh, hfiles, hsteps, by decide +kernel,
    versionsHold_run openingMemory hfresh hfiles rereadAfterSave hsteps⟩

end Workbench.Workspace
