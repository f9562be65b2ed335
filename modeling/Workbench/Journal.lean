import Workbench.Disk
import Workbench.Json.Printer

/-! # The session journal

What a session did, as lines of a level, an event and a message. A journal that
is kept for no file drops every line. A disk may refuse the lines, and then they
are lost. -/

namespace Workbench

structure JournalEntry where
  level : String
  event : String
  message : String
  deriving DecidableEq, Inhabited

namespace JournalEntry

/-- The line in the journal's file: a JSON record that begins with the time. -/
def line (entry : JournalEntry) (timestamp : String) : String :=
  Json.render (.ofMembers
    [("timestamp", .text timestamp), ("level", .text entry.level), ("event", .text entry.event),
     ("message", .text entry.message)])

end JournalEntry

/-- The lines so far, oldest first, and the file they are kept for. -/
structure Journal where
  file : Option String
  entries : List JournalEntry
  deriving DecidableEq, Inhabited

namespace Journal

/-- A journal that drops every line. -/
def disabled : Journal := { file := none, entries := [] }

/-- An empty journal kept for a file. -/
def toFile (path : String) : Journal := { file := some path, entries := [] }

/-- Adds a line of any level. -/
def append (journal : Journal) (level event message : String) : Journal :=
  if journal.file.isSome then
    { journal with entries := journal.entries ++ [{ level, event, message }] }
  else journal

/-- Adds a line about the normal course of things. -/
def info (journal : Journal) (event message : String) : Journal :=
  journal.append "info" event message

/-- Adds a line about something that was refused or given up. -/
def warn (journal : Journal) (event message : String) : Journal :=
  journal.append "warn" event message

/-- Adds a line about a failure. -/
def error (journal : Journal) (event message : String) : Journal :=
  journal.append "error" event message

/-- Writes every line to the end of the journal's file. -/
def writeOn (journal : Journal) (disk : Disk) (timestamp : String) : Disk :=
  match journal.file with
  | none => disk
  | some path =>
      journal.entries.foldl (fun disk entry =>
        disk.append path (Text.utf8Bytes (entry.line timestamp ++ "\n"))) disk

end Journal

end Workbench
