import Workbench.File.Either
import Workbench.File.Memory
import Workbench.Session.Script
import Workbench.Settings.Store

/-! # Launching a session

A session is launched with a few options. They name the settings file, and may
keep all files in memory; a session in memory has no snapshot, for its files are
gone when it ends. -/

namespace Workbench

structure LaunchOptions where
  settingsFile : Option String
  inMemory : Bool
  deriving DecidableEq, Inhabited

/-- Why arguments are not options. -/
inductive OptionError
  | missingPath
  | unexpected (argument : String)
  deriving DecidableEq, Inhabited

namespace OptionError

def usage : String := "usage: session [--config PATH] [--memory]"

def message : OptionError → String
  | .missingPath => usage
  | .unexpected argument => s!"unexpected argument `{argument}`; {usage}"

end OptionError

namespace LaunchOptions

def none : LaunchOptions := { settingsFile := .none, inMemory := false }

/-- The options that arguments give, after some others. Of two paths the last
one counts. -/
def parseFrom (options : LaunchOptions) : List String → Except OptionError LaunchOptions
  | [] => .ok options
  | "--config" :: path :: rest => parseFrom { options with settingsFile := some path } rest
  | ["--config"] => .error .missingPath
  | "--memory" :: rest => parseFrom { options with inMemory := true } rest
  | argument :: _ => .error (.unexpected argument)

/-- The options that arguments give. -/
def parse (arguments : List String) : Except OptionError LaunchOptions :=
  parseFrom none arguments

end LaunchOptions

/-- What a program finds around it: the environment, the disk, and somebody who
answers requests. -/
structure Surroundings (π : Type) where
  environment : Environment
  disk : Disk
  peer : π

/-- The files of a launched session: in memory, or behind a web interface. -/
abbrev LaunchedFiles (π : Type) := MemoryFiles ⊕ Rest.Files π

/-- Why a session was not launched. -/
inductive LaunchError
  | options (error : OptionError)
  | settings (error : SettingsError)
  | snapshot (error : SnapshotError)
  deriving DecidableEq, Inhabited

namespace LaunchError

def message : LaunchError → String
  | .options error => error.message
  | .settings error => error.message
  | .snapshot error => error.message

end LaunchError

namespace Settings

variable {π : Type}

def files (s : Settings) (options : LaunchOptions) (env : Environment) (peer : π) :
    LaunchedFiles π :=
  if options.inMemory then .inl .empty else .inr { client := s.client env, peer }

/-- The shell of a session. Only a session that is not in memory and restores its
tabs has a snapshot. -/
def openShell (s : Settings) (options : LaunchOptions) (around : Surroundings π) :
    Except SettingsError (Shell (LaunchedFiles π)) := do
  let service := s.files options around.environment around.peer
  let desk := Desk.opening service s.autosave s.journal true
  let snapshotFile ←
    if s.restoresTabs && !options.inMemory then (s.snapshotPath around.environment).map some
    else .ok none
  pure { workspace := { desk, tree := .empty }, snapshotFile, disk := around.disk }

end Settings

namespace Session

variable {π : Type}

/-- The file with the settings of a session, if there can be one. -/
def settingsPath? (options : LaunchOptions) (env : Environment) : Option String :=
  options.settingsFile <|> (Settings.defaultFile env).toOption

/-- The settings that options name. -/
def settingsFor (options : LaunchOptions) (around : Surroundings π) :
    Except SettingsError Settings :=
  match options.settingsFile with
  | some path => Settings.load around.disk path
  | none => Settings.loadDefault around.disk around.environment

/-- The first line of a session in the journal. -/
def startedLine (s : Settings) (options : LaunchOptions) (env : Environment) (restored : Nat) :
    String :=
  s!"base_url={s.address env} restored={restored} memory={options.inMemory}"

variable [Rest.Peer π]

/-- A session that has read nothing yet, with its tabs opened again. -/
def launch (options : LaunchOptions) (around : Surroundings π) :
    Except LaunchError (Session (LaunchedFiles π)) := do
  let settings ← (settingsFor options around).mapError .settings
  let shell ← (settings.openShell options around).mapError .settings
  match shell.restore with
  | (.error error, _) => .error (.snapshot error)
  | (.ok restored, shell) =>
      let line := startedLine settings options around.environment restored
      let desk := shell.desk.logInfo "session.started" line
      pure (start (shell.withDesk desk))

end Session

end Workbench
