import Workbench.Desk.Tabs
import Workbench.Json.Printer
import Workbench.Json.Reader
import Workbench.Json.Record

/-! # Session snapshots

What is kept of a session until the next one: the paths of the open tabs in
order, and which of them was active. Contents and edits are not kept. A
restored session has the same tabs in the same order; only the active one is
read. -/

namespace Workbench

/-- The open paths in order, and the active one. -/
structure Snapshot where
  openPaths : List String
  activePath : Option String
  deriving DecidableEq, Inhabited

namespace Snapshot

def capture (bar : TabBar) : Snapshot :=
  { openPaths := bar.paths, activePath := bar.activeTab?.map (·.path) }

def toJson (snapshot : Snapshot) : Json :=
  .ofMembers
    [("open_paths", .list (snapshot.openPaths.map .text)),
     ("active_path", .ofText? snapshot.activePath)]

/-- The snapshot that was written. Absent fields stand for no tabs and no active
one. -/
def ofJson? (j : Json) : Option Snapshot := do
  match ← Json.fields? ["open_paths", "active_path"] j with
  | [openPaths, activePath] =>
      pure
        { openPaths := ← Json.defaulted [] (Json.listOf? Json.text?) openPaths
          activePath := ← Json.defaulted none (Json.nullable Json.text?) activePath }
  | _ => none

def render (snapshot : Snapshot) : String := snapshot.toJson.renderPretty

/-- The snapshot in the text of a snapshot file. -/
def parse (text : String) : Option Snapshot := (Json.parse text).bind ofJson?

end Snapshot

namespace Desk

variable {σ : Type} [FileService σ]

/-- Adds a tab for a path, unless it is open. The count tells the tabs added. -/
def restoreTab (step : Nat × Desk σ) (path : String) : Nat × Desk σ :=
  if (step.2.bar.find? path).isSome then step
  else (step.1 + 1, (step.2.openUnloaded (.ofPath path)).2)

/-- Opens the tabs of a snapshot and reads the active one. Tells how many tabs
were added. -/
def restore (desk : Desk σ) (snapshot : Snapshot) : Nat × Desk σ :=
  let (restored, desk) := snapshot.openPaths.foldl restoreTab (0, desk)
  let target := (snapshot.activePath.bind desk.bar.find?) <|> desk.bar.active
  let desk := match target with
    | some index => desk.activateAndLoad index
    | none => desk
  (restored, desk.logInfo "session.restored" s!"{restored} tabs")

end Desk

end Workbench
