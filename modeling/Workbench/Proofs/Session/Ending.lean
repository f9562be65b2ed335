import Workbench.Proofs.Session.Course
import Workbench.Proofs.Session.Snapshot
import Workbench.Proofs.Workspace.Settling

/-! # A session ends finished

Whatever is typed, and in whatever order results come in, a session carries out the commands
up to the first `exit` and is then finished, once: nothing is under way any more, the user is
warned of the edits that were never saved, and the snapshot shows the tabs as they are. The
service is one that answers in time, so the wait at the end completes (`Desk.settle`). -/

namespace Workbench

variable {σ : Type}

namespace Shell

/-- What the user is told at the end about edits that were never saved. -/
def unsavedNotices (bar : TabBar) : List Notice :=
  if (unsavedPaths bar).isEmpty then []
  else
    [{ level := .info
       message := s!"{(unsavedPaths bar).length} tab(s) closed with unsaved changes"
       details := some (", ".intercalate (unsavedPaths bar)) }]

/-- What is journaled at the end about edits that were never saved, if a journal is kept. -/
def unsavedEntries (desk : Desk σ) : List JournalEntry :=
  if desk.journal.file.isSome then
    (unsavedNotices desk.bar).flatMap fun notice =>
      { level := "warn", event := "session.unsaved", message := notice.details.getD "" } ::
        if desk.echoNotices then
          [{ level := "info", event := s!"notify.{notice.level.name}", message := notice.message }]
        else []
  else []

section Warning

variable (desk : Desk σ)

theorem bar_warnUnsaved : (warnUnsaved desk).bar = desk.bar := by
  unfold warnUnsaved
  dsimp only
  split
  · rfl
  · rw [Desk.bar_notify, Desk.bar_logWarn]

theorem traffic_warnUnsaved : (warnUnsaved desk).traffic = desk.traffic := by
  unfold warnUnsaved
  dsimp only
  split
  · rfl
  · rw [Desk.traffic_notify, Desk.traffic_logWarn]

theorem notices_warnUnsaved :
    (warnUnsaved desk).notices = desk.notices ++ unsavedNotices desk.bar := by
  unfold warnUnsaved unsavedNotices Desk.notify
  dsimp only
  split
  · rw [List.append_nil]
  · split <;> rfl

theorem entries_warnUnsaved :
    (warnUnsaved desk).journal.entries = desk.journal.entries ++ unsavedEntries desk := by
  unfold warnUnsaved unsavedEntries unsavedNotices Desk.notify Desk.logInfo Desk.logWarn
    Journal.info Journal.warn Journal.append
  dsimp only
  by_cases hkept : desk.journal.file.isSome = true <;> cases desk.echoNotices <;> split <;> simp_all

end Warning

/-- What finishing leaves of a shell: nothing is under way, the user is warned of exactly those
tabs that have unsaved edits, and the snapshot is that of the tabs as they are. -/
structure Finished [FileService σ] (before after : Shell σ) : Prop where
  finish : after = before.finish.2
  idle : after.desk.inFlight = 0
  quiet : ∀ tab ∈ after.desk.bar.tabs,
    tab.pendingRefresh = none ∧ tab.pendingSave = none ∧ tab.saveQueued = false
  bar : after.desk.bar = before.desk.settle.2.bar
  notices : after.desk.notices = before.desk.settle.2.notices ++ unsavedNotices after.desk.bar
  journal : after.desk.journal.entries =
    before.desk.settle.2.journal.entries ++ unsavedEntries before.desk.settle.2
  snapshot : ∀ file, before.snapshotFile = some file →
    Snapshot.load after.disk file = .ok (some (Snapshot.capture after.desk.bar))

section Finish

variable [FileService σ] {shell : Shell σ}

theorem desk_finish (shell : Shell σ) :
    shell.finish.2.desk = warnUnsaved shell.desk.settle.2 := by
  unfold finish
  dsimp only
  split
  · rfl
  · split <;> rfl

/-- The snapshot of the tabs as they are at the end can be written, if one is to be. -/
def SnapshotWritten (shell : Shell σ) (bar : TabBar) : Prop :=
  ∀ file, shell.snapshotFile = some file →
    ((Snapshot.capture bar).save file shell.disk).1 = .ok ()

/-- If the snapshot can be written, finishing succeeds and the snapshot is in its file. -/
theorem finish_of_written (h : shell.SnapshotWritten shell.finish.2.desk.bar) :
    (∃ reply, shell.finish.1 = .ok reply) ∧ ∀ file, shell.snapshotFile = some file →
      Snapshot.load shell.finish.2.disk file =
        .ok (some (Snapshot.capture shell.finish.2.desk.bar)) := by
  rw [desk_finish] at h ⊢
  unfold finish withDesk
  dsimp only
  cases hfile : shell.snapshotFile with
  | none => exact ⟨⟨_, rfl⟩, nofun⟩
  | some file =>
      have hwritten := h file hfile
      dsimp only
      generalize (warnUnsaved shell.desk.settle.2).bar = bar at hwritten ⊢
      cases hsaved : (Snapshot.capture bar).save file shell.disk with
      | mk answer disk =>
          rw [hsaved] at hwritten
          obtain rfl : answer = .ok () := hwritten
          refine ⟨⟨_, rfl⟩, ?_⟩
          rintro _ ⟨⟩
          exact Snapshot.load_save hsaved

/-- A shell in order is finished properly if its snapshot can be written. -/
theorem finished_finish (horderly : shell.desk.Orderly)
    (h : shell.SnapshotWritten shell.finish.2.desk.bar) : Finished shell shell.finish.2 := by
  obtain ⟨hsettled, hidle, -⟩ := Desk.settle_spec horderly
  have hbar : shell.finish.2.desk.bar = shell.desk.settle.2.bar := by
    rw [desk_finish, bar_warnUnsaved]
  constructor
  case finish => rfl
  case idle =>
    rw [desk_finish, Desk.inFlight, traffic_warnUnsaved]
    exact hidle
  case quiet =>
    rw [hbar]
    intro tab htab
    obtain ⟨hbusy, hqueued⟩ := hsettled.quiet hidle tab htab
    have hnone := Tab.isBusy_eq_false_iff.mp hbusy
    exact ⟨hnone .refresh, hnone .save, hqueued⟩
  case bar => exact hbar
  case notices => rw [hbar, desk_finish, notices_warnUnsaved]
  case journal => rw [desk_finish, entries_warnUnsaved]
  case snapshot => exact (finish_of_written h).2

end Finish

end Shell

namespace Session

open Workspace

variable [FileService σ]

/-- As long as a session is not finished, its requests stay in order. -/
theorem orderly_foldl_undergo {s : Session σ} (horderly : s.shell.desk.Orderly)
    {events : List (Event σ)} (h : ∀ event ∈ events, ¬ event.Finishes) :
    (events.foldl undergo s).shell.desk.Orderly := by
  rw [shell_foldl_undergo s h]
  change ((events.flatMap Event.operations).foldl operate s.shell.workspace).desk.Orderly
  rw [← run_stepsOf]
  exact orderly_run horderly _

/-- As long as a session is not finished, nothing is written. -/
theorem snapshotWritten_foldl_undergo_iff (s : Session σ) {events : List (Event σ)}
    (h : ∀ event ∈ events, ¬ event.Finishes) (bar : TabBar) :
    (events.foldl undergo s).shell.SnapshotWritten bar ↔ s.shell.SnapshotWritten bar := by
  rw [shell_foldl_undergo s h]
  rfl

/-- How a session over some turns has ended: it was finished by its last event and by no event
before, and it has carried out, and counted, the commands of the script up to the first
`exit`. -/
structure EndsFinished (shell : Shell σ) (turns : List (Turn σ)) (last : List (Arrival σ))
    (earlier : List (Event σ)) (ending : Event σ) : Prop where
  course : Turn.course last turns = earlier ++ [ending]
  session : ((start shell).run turns last).2 = (earlier ++ [ending]).foldl undergo (start shell)
  commands : (earlier ++ [ending]).filterMap Event.command? =
    Command.upToExit (turns.filterMap Turn.command?)
  answer : ((start shell).run turns last).1 =
    .ok (Command.upToExit (turns.filterMap Turn.command?)).length
  finishes : ending.Finishes
  once : ∀ event ∈ earlier, ¬ event.Finishes
  finished : Shell.Finished (earlier.foldl undergo (start shell)).shell
    ((start shell).run turns last).2.shell

/-- **End.** From whatever a workspace can come to, with any turns of waiting requests laid down,
and whatever happens in between, a session whose lines are texts and whose snapshot can be
written ends finished. -/
theorem ends_finished {first : Workspace σ} (hfirst : first.Fresh) (history : List (Step σ))
    {shell : Shell σ} (hshell : shell.workspace = first.run history) {turns : List (Turn σ)}
    (hreadable : ∀ t ∈ turns, t.Readable) (last : List (Arrival σ))
    (hwritten : shell.SnapshotWritten ((start shell).run turns last).2.shell.desk.bar) :
    ∃ earlier ending, EndsFinished shell turns last earlier ending := by
  obtain ⟨earlier, ending, hcourse, hfinishes, honce⟩ := Turn.exists_course_eq hreadable last
  have hcommands := Turn.commands_course hreadable last
  have hsession := snd_run (start shell) turns last
  rw [hcourse] at hcommands hsession
  have hcount : ((start shell).run turns last).2.executed =
      (Command.upToExit (turns.filterMap Turn.command?)).length := by
    rw [hsession, executed_foldl_undergo, hcommands]
    exact Nat.zero_add _
  have hafter : ((start shell).run turns last).2.shell =
      (earlier.foldl undergo (start shell)).shell.finish.2 := by
    rw [hsession, List.foldl_append]
    exact shell_undergo_of_finishes _ hfinishes
  have horderly : (start shell).shell.desk.Orderly := by
    change shell.workspace.desk.Orderly
    rw [hshell]
    exact orderly_run hfirst.orderly history
  have hwritten := (snapshotWritten_foldl_undergo_iff (start shell) honce _).mpr hwritten
  rw [hafter] at hwritten
  refine ⟨earlier, ending, hcourse, hsession, hcommands, ?_, hfinishes, honce, ?_⟩
  · rcases fst_run hreadable (start shell) last with hanswer | ⟨before, hbefore, hrun⟩
    · rw [hanswer, hcount]
    · -- The input has ended, and the session could be finished.
      obtain ⟨rfl, -⟩ := List.append_inj' (hcourse.symm.trans hbefore) rfl
      obtain ⟨⟨reply, hreply⟩, -⟩ := Shell.finish_of_written hwritten
      rw [← hcount, hrun, fst_conclude hreply, executed_conclude]
  · rw [hafter]
    exact Shell.finished_finish (orderly_foldl_undergo horderly honce) hwritten

/-- A shell over one stored file, with a file for its snapshot. -/
def draftShell : Shell MemoryFiles :=
  { workspace := openingMemory.run [.outside fun m => (m.put "/plan" "one").2]
    snapshotFile := some "/state/session.json"
    disk := .empty }

/-- A draft is saved, and then edited once more while the save is under way. Some lines are no
commands, one command fails, and the last line comes after `quit`. -/
def draftScript : List (Turn MemoryFiles) :=
  ["# plan", "open /plan", "nonsense", "edit 0 two", "save 0", "save 9", "edit 0 three", "quit",
    "close 0"].map fun line => { before := [], input := .text line, during := [], now := 5 }

theorem draftScript_ends_finished :
    openingMemory.Fresh ∧ (∀ t ∈ draftScript, t.Readable) ∧
      ((start draftShell).run draftScript []).1 = .ok 6 ∧
      ((start draftShell).run draftScript []).2.shell.desk.notices =
        [⟨.info, "1 tab(s) closed with unsaved changes", some "/plan"⟩] ∧
      ∃ earlier ending, EndsFinished draftShell draftScript [] earlier ending := by
  have hfresh : openingMemory.Fresh := fresh_opening _ _ _ _ _
  have hreadable : ∀ t ∈ draftScript, t.Readable :=
    List.forall_mem_map.mpr fun line _ => ⟨line, rfl⟩
  refine ⟨hfresh, hreadable, by decide +kernel, by decide +kernel,
    ends_finished hfresh _ rfl hreadable [] ?_⟩
  rintro file ⟨⟩
  decide +kernel

end Session

end Workbench
