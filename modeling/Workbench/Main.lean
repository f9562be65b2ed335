import Std.Time.Format
import Workbench.CommandLine

/-! # The program

The command line on a console. A session reads and answers one line at a time,
and what it adds to its notices, its journal and its snapshot is shown or kept
after every line. Nobody answers requests here, so files are found in memory
only. -/

namespace Workbench

/-- A peer that leaves every request unanswered. -/
structure Nobody

instance : Rest.Peer Nobody where
  answer _ nobody := (none, nobody)

namespace Console

abbrev Running := Session (LaunchedFiles Nobody)

/-- The environment's values of some variables. -/
def environment (names : List String) : IO Environment := do
  let bindings ← names.filterMapM fun name => do
    return (← IO.getEnv name).map fun value => (name, value)
  return { bindings }

def load (disk : Disk) (path : String) : IO Disk := do
  match ← (IO.FS.readBinFile path).toBaseIO with
  | .ok bytes => return disk.append path bytes.toList
  | .error (.noFileOrDirectory ..) => return disk
  | .error _ => return (disk.makeFolder path).2

/-- The surroundings of a session, as far as it looks at them. -/
def surroundings (options : LaunchOptions) : IO (Surroundings Nobody) := do
  let names := ["HOME", Rest.baseVariable]
  let env ← environment names
  let disk ← (Session.settingsPath? options env).toList.foldlM load .empty
  let around : Surroundings Nobody := { environment := env, disk, peer := {} }
  match Session.settingsFor options around with
  | .error _ => return around
  | .ok settings =>
      let env ← environment (names ++ [Text.trim settings.tokenVariable])
      let disk ← (settings.snapshotPath env).toOption.toList.foldlM load disk
      return { around with environment := env, disk }

/-- How much of a session has been shown or kept. -/
structure Shown where
  replies : Nat
  notices : Nat
  entries : Nat
  snapshot : Option (List UInt8)

def snapshotBytes (s : Running) : Option (List UInt8) :=
  s.shell.snapshotFile.bind fun path => (s.shell.disk.read path).toOption

def Shown.all (s : Running) : Shown :=
  { replies := s.replies.length
    notices := s.shell.desk.notices.length
    entries := s.shell.desk.journal.entries.length
    snapshot := snapshotBytes s }

def timestamp : IO String := do
  return (Std.Time.DateTime.ofTimestampWithZone (← Std.Time.Timestamp.now) .UTC).toISO8601String

/-- Adds a line to the end of a file. -/
def appendLine (path line : String) : IO Unit := do
  IO.FS.createDirAll (Disk.folderOf path)
  let file ← IO.FS.Handle.mk path .append
  file.putStrLn line

/-- Replaces a file as a whole. -/
def replaceFile (path : String) (bytes : List UInt8) : IO Unit := do
  IO.FS.createDirAll (Disk.folderOf path)
  let draft := path ++ ".draft"
  IO.FS.writeBinFile draft (ByteArray.mk bytes.toArray)
  IO.FS.rename draft path

/-- Shows and keeps what has not been shown yet. Lines that the journal's file
does not take are dropped. -/
def publish (shown : Shown) (s : Running) : IO Unit := do
  for reply in s.replies.drop shown.replies do
    IO.println reply
  for notice in s.shell.desk.notices.drop shown.notices do
    IO.eprintln notice.line
  let time ← timestamp
  for entry in s.shell.desk.journal.entries.drop shown.entries do
    if let some path := s.shell.desk.journal.file then
      let _ ← (appendLine path (entry.line time)).toBaseIO
  if let some path := s.shell.snapshotFile then
    if let some bytes := snapshotBytes s then
      unless shown.snapshot = some bytes do
        replaceFile path bytes

/-- The bytes of a line that is typed, with its line end. Those read before are
given, the latest first. -/
partial def lineBytes (read : List UInt8) : IO (List UInt8) := do
  match (← (← IO.getStdin).read 1).toList with
  | [] => return read.reverse
  | b :: _ => if b == 10 then return (b :: read).reverse else lineBytes (b :: read)

/-- The next line that is typed, if there is one. -/
def nextLine : IO (Option InputLine) := do
  let bytes ← lineBytes []
  return if bytes.isEmpty then none else some (.ofBytes bytes)

/-- Answers line after line until the session ends. Requests are performed before
each line. -/
partial def converse (s : Running) : IO (Except SessionError Nat) := do
  match ← nextLine with
  | none =>
      let (answer, after) := (s.arrive .allPerformed).conclude
      publish (.all s) after
      return answer
  | some input =>
      let now ← IO.monoMsNow
      let (next, after) := s.turn { before := [.allPerformed], input, during := [], now }
      publish (.all s) after
      match next with
      | .goOn => converse after
      | .left => return .ok after.executed
      | .broken error => return .error error

/-- Runs a session with some options. -/
def runSession (options : LaunchOptions) : IO (Except CommandLine.Failure String) := do
  let around ← surroundings options
  match Session.launch options around with
  | .error error => return .error (.launch error)
  | .ok s =>
      publish { replies := 0, notices := 0, entries := 0, snapshot := snapshotBytes s } s
      return ((← converse s).map CommandLine.summary).mapError .session

/-- Carries out what the arguments ask for. -/
def carryOut (arguments : List String) : IO (Except CommandLine.Failure String) :=
  match CommandLine.plan arguments with
  | .error failure => return .error failure
  | .ok (.tell text) => return .ok text
  | .ok (.session options) => runSession options

end Console

end Workbench

/-- Carries out the command line and tells whether it failed. -/
def main (arguments : List String) : IO UInt32 := do
  match ← Workbench.Console.carryOut arguments with
  | .ok text =>
      IO.println text
      return 0
  | .error failure =>
      IO.eprintln failure.message
      return 1
