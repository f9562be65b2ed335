import Workbench.Proofs.Desk.Restoring
import Workbench.Proofs.Session.Snapshot
import Workbench.Proofs.Workspace.Actions

/-! # Sessions and restarts

What a session leaves in its snapshot file is enough to open the same tabs again, whatever
the file service tells then. -/

namespace Workbench.Workspace

variable {σ τ : Type} [FileService σ] [FileService τ]

/-- **Restart.** After any run that leaves no two tabs with the same path, a saved snapshot is
loaded as it was captured, and restoring it resumes the session, over any file service. -/
theorem resumes_after_restart {start : Workspace σ} (hstart : start.desk.bar = .empty)
    (history : List (Step σ)) (hdistinct : (start.run history).desk.bar.paths.Nodup)
    {file : String} {disk saved : Disk}
    (hsaved : (Snapshot.capture (start.run history).desk.bar).save file disk = (.ok (), saved))
    (service : τ) (autosave : AutosavePolicy) (journal : Journal) (echoNotices : Bool) :
    ∃ snapshot, Snapshot.load saved file = .ok (some snapshot) ∧
      Desk.Resumes (start.run history).desk.bar
        ((Desk.opening (Recorded.starting service) autosave journal echoNotices).restore
          snapshot) := by
  have hactive : (start.run history).desk.bar.ActiveValid := by
    rw [bar_run_eq hstart]
    exact TabBar.activeValid_run _
  exact ⟨_, Snapshot.load_save hsaved, Desk.resumes_restore hactive hdistinct rfl rfl rfl⟩

/-- Three tabs are opened, the second one is selected and moved to the front. -/
def threeTabs : List (Step MemoryFiles) :=
  [.openUnloaded (.ofPath "/a \"quoted\""), .openUnloaded (.ofPath "/b"),
    .openFile (.ofPath "/größe") "text" .utf8 none, .click 1, .move 1 0]

theorem resumes_threeTabs :
    let bar := (openingMemory.run threeTabs).desk.bar
    let saved := ((Snapshot.capture bar).save "/state/session.json" .empty).2
    bar.paths = ["/b", "/a \"quoted\"", "/größe"] ∧
      ∃ snapshot, Snapshot.load saved "/state/session.json" = .ok (some snapshot) ∧
        Desk.Resumes bar
          ((Desk.opening (Recorded.starting MemoryFiles.empty) .disabled .disabled false).restore
            snapshot) := by
  intro bar saved
  have hpaths : bar.paths = ["/b", "/a \"quoted\"", "/größe"] := by decide +kernel
  have hsaved : ((Snapshot.capture bar).save "/state/session.json" .empty).1 = .ok () := by
    decide +kernel
  exact ⟨hpaths, resumes_after_restart rfl threeTabs (hpaths ▸ by decide) (Prod.ext hsaved rfl)
    MemoryFiles.empty .disabled .disabled false⟩

end Workbench.Workspace
