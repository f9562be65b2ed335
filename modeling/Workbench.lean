import Workbench.File.Wire
import Workbench.Main
import Workbench.Proofs.Tabs.Structure
import Workbench.Proofs.Tabs.UnsavedEdits
import Workbench.Proofs.Tabs.Consistency
import Workbench.Proofs.Workspace.Conflict
import Workbench.Proofs.Workspace.Versions
import Workbench.Proofs.Workspace.Settling
import Workbench.Proofs.Workspace.Answers
import Workbench.Proofs.Workspace.Stored
import Workbench.Proofs.Workspace.LateSaves
import Workbench.Proofs.Tabs.SaveStates
import Workbench.Proofs.Desk.Prudence
import Workbench.Proofs.Workspace.SaveStates
import Workbench.Proofs.Workspace.KeepLocal
import Workbench.Proofs.File.Naming
import Workbench.Proofs.Tabs.Naming
import Workbench.Proofs.Workspace.Naming
import Workbench.Proofs.Workspace.Autosave
import Workbench.Proofs.Path.Ancestors
import Workbench.Proofs.Relocation
import Workbench.Proofs.File.Answers
import Workbench.Proofs.File.Folders
import Workbench.Proofs.File.Renames
import Workbench.Proofs.File.Deeds
import Workbench.Proofs.Workspace.SaveAs
import Workbench.Proofs.Tabs.Renames
import Workbench.Proofs.Workspace.Renames
import Workbench.Proofs.Tree.Deeds
import Workbench.Proofs.Workspace.Uploads
import Workbench.Proofs.File.Recorded
import Workbench.Proofs.Workspace.Failures
import Workbench.Proofs.Json.Literals
import Workbench.Proofs.File.Wire
import Workbench.Proofs.Text.Percent
import Workbench.Proofs.File.Url
import Workbench.Proofs.File.Peer
import Workbench.Proofs.File.Transport
import Workbench.Proofs.Disk
import Workbench.Proofs.Desk.Restoring
import Workbench.Proofs.Session.Restart
import Workbench.Proofs.Tabs.Active
import Workbench.Proofs.Tabs.Folders
import Workbench.Proofs.Workspace.Displaced
import Workbench.Proofs.Workspace.UploadedTabs
import Workbench.Proofs.Tree.Rollback
import Workbench.Proofs.Tree.Rename
import Workbench.Proofs.Tree.Independence
import Workbench.Proofs.Tabs.InPlace
import Workbench.Proofs.Workspace.Refusals
import Workbench.Proofs.Tabs.Replies
import Workbench.Proofs.Tree.Progress
import Workbench.Proofs.Workspace.UploadReports
import Workbench.Proofs.Session.Records
import Workbench.Proofs.Path.Reversal
import Workbench.Proofs.Path.Hierarchy
import Workbench.Proofs.Text.Words
import Workbench.Proofs.Session.Typing
import Workbench.Proofs.Session.Ending
import Workbench.Proofs.Path.Spelling
import Workbench.Proofs.Tree.Listing
import Workbench.Proofs.Session.Listing
