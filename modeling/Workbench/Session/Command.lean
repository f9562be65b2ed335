import Workbench.Desk.Conflict
import Workbench.Text.Blank
import Workbench.Word

/-! # Session commands

What can be typed in a session, one command a line: a verb and its arguments,
separated by blanks. The text of `edit` and `upload` is the rest of the line, in
which a backslash before `n` or `t` stands for a line end or a tab. -/

namespace Workbench

open Text

inductive Command
  | openPath (path : String)
  | click (index : Nat)
  | edit (index : Nat) (content : String)
  | save (index : Nat)
  | close (index : Nat)
  | closeOthers (index : Nat)
  | closeAll
  | move (source : Nat) (target : Nat)
  | resolve (index : Nat) (action : ConflictAction)
  | list (folder : String)
  | create (path : String)
  | rename (oldPath : String) (newPath : String)
  | delete (path : String)
  | upload (path : String) (content : String)
  | tabs
  | pump
  | settle
  | help
  | exit
  deriving DecidableEq, Inhabited

/-- Why a line is not a command. -/
inductive CommandError
  /-- An argument is missing. -/
  | missingArgument (usage : String)
  /-- An argument that should be a position is none. -/
  | invalidIndex (argument : String) (usage : String)
  /-- No command begins with the verb. -/
  | unknownVerb (verb : String)
  deriving DecidableEq, Inhabited

namespace CommandError

def message : CommandError → String
  | .missingArgument usage => s!"usage: {usage}"
  | .invalidIndex argument usage => s!"invalid tab index `{argument}`; usage: {usage}"
  | .unknownVerb verb => s!"unknown session command `{verb}`"

end CommandError

namespace Command

/-- The number that decimal digits spell, if they are digits throughout. -/
def decimal? (digits : List Char) : Option Nat :=
  if digits.all Char.isDigit && !digits.isEmpty then
    some (digits.foldl (fun n c => 10 * n + (c.toNat - '0'.toNat)) 0)
  else none

/-- The position that an argument spells: decimal digits, after a plus sign if
one likes. A position fits into a word. -/
def index? (argument : String) : Option Nat :=
  let digits := match argument.toList with
    | '+' :: rest => rest
    | cs => cs
  (decimal? digits).filter Word.fits

def position (argument : Option String) (usage : String) : Except CommandError Nat :=
  match argument with
  | none => .error (.missingArgument usage)
  | some argument =>
      match index? argument with
      | some n => .ok n
      | none => .error (.invalidIndex argument usage)

def word (argument : Option String) (usage : String) : Except CommandError String :=
  match argument with
  | none => .error (.missingArgument usage)
  | some argument => .ok argument

/-- A typed text with its line ends and tabs. -/
def unescape (text : List Char) : String :=
  String.ofList (replacePair '\\' 't' '\t' (replacePair '\\' 'n' '\n' text))

/-- The first word of an argument text and everything after the blank that
follows it. -/
def splitFirst (rest : List Char) : Option String × List Char :=
  match cutAtBlank rest with
  | some (first, text) => (some (String.ofList first), text)
  | none => (if rest.isEmpty then none else some (String.ofList rest), [])

def conflictAction (args : List String) (usage : String) : Except CommandError ConflictAction :=
  match args with
  | "server" :: _ => .ok .acceptServer
  | "local" :: _ => .ok .keepLocal
  | "save-as" :: rest => (word rest.head? usage).map .saveAs
  | _ => .error (.missingArgument usage)

/-- The command with a verb and an argument text. The text has no blanks at its
ends. -/
def ofVerb (verb : String) (rest : List Char) : Except CommandError Command :=
  let args := (wordsOf rest).map String.ofList
  match verb with
  | "open" => (word args.head? "open PATH").map .openPath
  | "click" => (position args.head? "click N").map .click
  | "edit" =>
      let (index, text) := splitFirst rest
      (position index "edit N TEXT").map fun index => .edit index (unescape text)
  | "save" => (position args.head? "save N").map .save
  | "close" => (position args.head? "close N").map .close
  | "close-others" => (position args.head? "close-others N").map .closeOthers
  | "close-all" => .ok .closeAll
  | "move" => do
      let source ← position args[0]? "move FROM TO"
      let target ← position args[1]? "move FROM TO"
      pure (.move source target)
  | "resolve" => do
      let usage := "resolve N server|local|save-as PATH"
      let index ← position args.head? usage
      let action ← conflictAction args.tail usage
      pure (.resolve index action)
  | "ls" => .ok (.list (args.head?.getD "/"))
  | "new" => (word args.head? "new PATH").map .create
  | "rename" => do
      let oldPath ← word args[0]? "rename OLD NEW"
      let newPath ← word args[1]? "rename OLD NEW"
      pure (.rename oldPath newPath)
  | "delete" => (word args.head? "delete PATH").map .delete
  | "upload" =>
      let (path, text) := splitFirst rest
      (word path "upload PATH TEXT").map fun path => .upload path (unescape text)
  | "tabs" => .ok .tabs
  | "pump" => .ok .pump
  | "settle" => .ok .settle
  | "help" => .ok .help
  | "exit" => .ok .exit
  | "quit" => .ok .exit
  | verb => .error (.unknownVerb verb)

/-- The command that a line spells. Blank lines and lines that begin with a hash
sign are passed over. -/
def parse (line : String) : Except CommandError (Option Command) :=
  match trimChars line.toList with
  | [] => .ok none
  | '#' :: _ => .ok none
  | cs =>
      let (verb, rest) := match cutAtBlank cs with
        | some (verb, rest) => (verb, trimChars rest)
        | none => (cs, [])
      (ofVerb (String.ofList verb) rest).map some

end Command

end Workbench
