import Workbench.Session.Shell

/-! # Sessions

A session reads one line after the other until it is told to leave or no line is
left, and is finished in either case. Between its own steps the world moves on:
the file service performs requests, and others change what it keeps. A script
holds all of that, so a session is a function of its script. -/

namespace Workbench

/-- Something that happens on the side of the file service. -/
inductive Arrival (σ : Type)
  /-- The waiting request at a position is performed. -/
  | performed (position : Nat)
  /-- Every waiting request is performed, oldest first. -/
  | allPerformed
  /-- Somebody else changes what the service keeps. -/
  | changed (change : σ → σ)

/-- A line of input, unless its bytes are no text. -/
inductive InputLine
  | text (line : String)
  | unreadable
  deriving DecidableEq, Inhabited

/-- One turn of a session: what happens before the line is read, the line, what
happens while its command is carried out, and the time. -/
structure Turn (σ : Type) where
  before : List (Arrival σ)
  input : InputLine
  during : List (Arrival σ)
  now : Nat
  /-- What happens each time the results that have come are applied, as long as
  more come in. -/
  amid : List (List (Arrival σ)) := []
  /-- The time when tabs that are due are saved. -/
  later : Nat := now

namespace InputLine

/-- The line that bytes spell in UTF-8. -/
def ofBytes (bytes : List UInt8) : InputLine :=
  match String.fromUTF8? (ByteArray.mk bytes.toArray) with
  | none => .unreadable
  | some line => .text line

end InputLine

/-- Input on its way: the turns so far, what has happened since, and the bytes of
a line begun, the latest first. -/
structure Intake (σ : Type) where
  turns : List (Turn σ)
  arrivals : List (Arrival σ)
  line : List UInt8

namespace Intake

variable {σ : Type}

def empty : Intake σ := { turns := [], arrivals := [], line := [] }

/-- Ends a line. By then every waiting request has been performed. -/
def endLine (i : Intake σ) : Intake σ :=
  { turns := i.turns ++
      [{ before := i.arrivals ++ [.allPerformed], input := .ofBytes i.line.reverse, during := [],
         now := 0 }]
    arrivals := []
    line := [] }

/-- Takes a byte. A line feed ends the line. -/
def byte (i : Intake σ) (b : UInt8) : Intake σ :=
  if b == 10 then i.endLine else { i with line := b :: i.line }

/-- Takes some bytes. -/
def bytes (i : Intake σ) (bs : List UInt8) : Intake σ := bs.foldl byte i

/-- Something happens before more bytes come. -/
def arrival (i : Intake σ) (a : Arrival σ) : Intake σ := { i with arrivals := i.arrivals ++ [a] }

/-- Ends the input. A line begun is a line. -/
def close (i : Intake σ) : Intake σ := if i.line.isEmpty then i else i.endLine

end Intake

/-- Why a session broke off. -/
inductive SessionError
  | unreadableInput
  | finish (error : ShellError)
  deriving DecidableEq, Inhabited

namespace SessionError

def message : SessionError → String
  | .unreadableInput => "failed to read command: stream did not contain valid UTF-8"
  | .finish error => error.message

end SessionError

/-- A session under way: its shell, the replies so far, and the number of
commands carried out. -/
structure Session (σ : Type) where
  shell : Shell σ
  replies : List String
  executed : Nat

namespace Session

variable {σ : Type}

/-- A session that has read nothing yet. -/
def start (shell : Shell σ) : Session σ := { shell, replies := [], executed := 0 }

def reply (s : Session σ) (text : String) : Session σ := { s with replies := s.replies ++ [text] }

/-- Everything written so far. -/
def output (s : Session σ) : String := String.join (s.replies.map (· ++ "\n"))

def replyText : Except ShellError String → String
  | .ok text => text
  | .error error => s!"error: {error.message}"

/-- Whether a session goes on after a line. -/
inductive Continuation
  | goOn
  | left
  | broken (error : SessionError)
  deriving DecidableEq, Inhabited

section Service

variable [FileService σ]

/-- Lets something happen on the side of the service. -/
def arrive (s : Session σ) : Arrival σ → Session σ
  | .performed position => { s with shell := s.shell.withDesk (s.shell.desk.release position).2 }
  | .allPerformed => { s with shell := s.shell.withDesk s.shell.desk.releaseAll }
  | .changed change =>
      { s with
        shell := s.shell.withDesk { s.shell.desk with service := change s.shell.desk.service } }

/-- Applies the results that have come, while something happens on the side of the
service. -/
def pumpAmid (s : Session σ) (arrivals : List (Arrival σ)) : Session σ :=
  arrivals.foldl arrive { s with shell := s.shell.withDesk s.shell.desk.pump.2 }

/-- Carries out a command and writes its reply. -/
def command (s : Session σ) (now : Nat) (c : Command) : Session σ :=
  let (answer, shell) := s.shell.execute now c
  { shell, replies := s.replies ++ [replyText answer], executed := s.executed + 1 }

def turn (s : Session σ) (t : Turn σ) : Continuation × Session σ :=
  let s := t.before.foldl arrive s
  match t.input with
  | .unreadable => (.broken .unreadableInput, s)
  | .text line =>
      match Command.parse line with
      | .error error => (.goOn, s.reply s!"error: {error.message}")
      | .ok none => (.goOn, s)
      | .ok (some .exit) => (.left, s.command t.now .exit)
      | .ok (some c) =>
          let s := t.amid.foldl pumpAmid (t.during.foldl arrive (s.command t.now c))
          (.goOn, { s with shell := s.shell.tick t.later })

/-- Ends a session whose input has ended. -/
def conclude (s : Session σ) : Except SessionError Nat × Session σ :=
  match s.shell.finish with
  | (.ok text, shell) => (.ok s.executed, { s with shell }.reply text)
  | (.error error, shell) => (.error (.finish error), { s with shell })

/-- Runs a session over its turns. The arrivals come before the end of the input
is seen. Tells the number of commands carried out. -/
def run (s : Session σ) (turns : List (Turn σ)) (last : List (Arrival σ)) :
    Except SessionError Nat × Session σ :=
  match turns with
  | [] => (last.foldl arrive s).conclude
  | t :: rest =>
      match s.turn t with
      | (.goOn, s) => s.run rest last
      | (.left, s) => (.ok s.executed, s)
      | (.broken error, s) => (.error error, s)

/-- Runs a session over its input. Before the end is seen every waiting request has
been performed. -/
def runIntake (s : Session σ) (i : Intake σ) : Except SessionError Nat × Session σ :=
  let i := i.close
  s.run i.turns (i.arrivals ++ [.allPerformed])

end Service

end Session

end Workbench
