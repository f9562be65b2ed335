import Workbench.Session.Launch

/-! # The command line

The first argument is a verb: a session is run, or help is given. The answer is a
text for the standard output, or a failure; what a session writes while it runs
comes before it. -/

namespace Workbench

inductive Verb
  | session
  | help
  | unknown
  deriving DecidableEq, Inhabited

def Verb.parse (argument : String) : Verb :=
  if argument = "session" then .session
  else if ["help", "--help", "-h"].contains argument then .help
  else .unknown

namespace CommandLine

def helpLines : List String :=
  ["Commands:",
   "  session [--config PATH] [--memory]   Run an editor session against the file service",
   "  help                                 Show this help"]

/-- Everything that can be typed. -/
def helpText : String :=
  "\n".intercalate (helpLines ++ ["", "Session commands:"] ++ Shell.helpLines)

/-- Why the command line failed. -/
inductive Failure
  | unknownVerb (argument : String)
  | launch (error : LaunchError)
  | session (error : SessionError)
  deriving DecidableEq, Inhabited

def Failure.message : Failure → String
  | .unknownVerb argument => s!"unknown command `{argument}`"
  | .launch error => error.message
  | .session error => error.message

/-- What the arguments ask for: a text at once, or a session with options. -/
inductive Plan
  | tell (text : String)
  | session (options : LaunchOptions)
  deriving DecidableEq, Inhabited

/-- The plan of some arguments. Without any, help is given. -/
def plan : List String → Except Failure Plan
  | [] => .ok (.tell helpText)
  | argument :: rest =>
      match Verb.parse argument with
      | .session =>
          match LaunchOptions.parse rest with
          | .ok options => .ok (.session options)
          | .error error => .error (.launch (.options error))
      | .help => .ok (.tell helpText)
      | .unknown => .error (.unknownVerb argument)

/-- What is told when a session has ended. -/
def summary (executed : Nat) : String := s!"commands={executed}"

/-- Everything that a command line did: its answer, what a session wrote, the
notices for the user, the disk and the peer afterwards. -/
structure Report (π : Type) where
  answer : Except Failure String
  output : String
  notices : List Notice
  disk : Disk
  peer : π

namespace Report

variable {π : Type}

/-- The notices as lines on a console. -/
def told (report : Report π) : String := String.join (report.notices.map (·.line ++ "\n"))

/-- What goes to the standard output: an answer comes last. -/
def standardOutput (report : Report π) : String :=
  match report.answer with
  | .ok text => report.output ++ text ++ "\n"
  | .error _ => report.output

/-- What goes to the standard error: a failure comes last. -/
def standardError (report : Report π) : String :=
  match report.answer with
  | .ok _ => report.told
  | .error failure => report.told ++ failure.message ++ "\n"

def exitCode (report : Report π) : Nat :=
  match report.answer with
  | .ok _ => 0
  | .error _ => 1

end Report

variable {π : Type}

/-- The peer of a session after it, if its files were not in memory. -/
def peerAfter (before : π) : LaunchedFiles π → π
  | .inl _ => before
  | .inr files => files.peer

/-- The report of a session that has ended. The lines of the journal are written
under a time. -/
def reportOf (peer : π) (timestamp : String) (answer : Except SessionError Nat)
    (s : Session (LaunchedFiles π)) : Report π :=
  { answer := (answer.map summary).mapError .session
    output := s.output
    notices := s.shell.desk.notices
    disk := s.shell.desk.journal.writeOn s.shell.disk timestamp
    peer := peerAfter peer s.shell.desk.service }

/-- The report of a command line that ran no session. -/
def quiet (around : Surroundings π) (answer : Except Failure String) : Report π :=
  { answer, output := "", notices := [], disk := around.disk, peer := around.peer }

/-- Carries out a command line with some bytes of input. -/
def run [Rest.Peer π] (arguments : List String) (around : Surroundings π) (input : List UInt8)
    (timestamp : String) : Report π :=
  match plan arguments with
  | .error failure => quiet around (.error failure)
  | .ok (.tell text) => quiet around (.ok text)
  | .ok (.session options) =>
      match Session.launch options around with
      | .error error => quiet around (.error (.launch error))
      | .ok s =>
          let (answer, s) := s.runIntake (Intake.empty.bytes input)
          reportOf around.peer timestamp answer s

end CommandLine

end Workbench
