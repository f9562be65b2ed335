import Workbench.Desk.Basic
import Workbench.Disk
import Workbench.Environment
import Workbench.File.Rest

/-! # Settings

What a session is run with: where the file service is, when tabs are saved by
themselves, and which files hold the journal and the snapshot. The environment
can name another address and holds the token and the home folder. -/

namespace Workbench

open Text

structure Settings where
  baseUrl : String
  /-- The variable that holds the token for the file service. -/
  tokenVariable : String
  autosave : AutosavePolicy
  journalFile : Option String
  /-- The tabs of the last session are opened again. -/
  restoresTabs : Bool
  snapshotFile : Option String
  deriving DecidableEq

/-- What is wrong with settings. -/
inductive SettingsFlaw
  | noBase
  | badScheme (base : String)
  | noTokenVariable
  | noDelay
  | relativeJournalFile
  | relativeSnapshotFile
  deriving DecidableEq, Inhabited

namespace SettingsFlaw

def message : SettingsFlaw → String
  | .noBase => "`file_service.base_url` must be non-empty"
  | .badScheme base =>
      s!"`file_service.base_url` must start with http:// or https://, got `{base}`"
  | .noTokenVariable => "`file_service.token_env` must be non-empty"
  | .noDelay => "`autosave.delay_ms` must be greater than zero when autosave is enabled"
  | .relativeJournalFile => "`logging.path` must be an absolute path"
  | .relativeSnapshotFile => "`session.state_path` must be an absolute path"

end SettingsFlaw

/-- Why settings could not be read or written. -/
inductive SettingsError
  | read (path : String) (error : DiskError)
  | parse (path : String)
  | makeFolder (path : String) (error : DiskError)
  | write (path : String) (error : DiskError)
  | flawed (flaw : SettingsFlaw)
  | noHome
  deriving DecidableEq, Inhabited

namespace SettingsError

def message : SettingsError → String
  | .read path error => s!"failed to read file {path}: {error.message}"
  | .parse path => s!"invalid yaml in {path}: not settings"
  | .makeFolder path error => s!"failed to create directory {path}: {error.message}"
  | .write path error => s!"failed to write file {path}: {error.message}"
  | .flawed flaw => s!"settings validation failed: {flaw.message}"
  | .noHome => "failed to resolve home directory for global config path"

end SettingsError

namespace Settings

def defaultTokenVariable : String := "TABSYNC_API_TOKEN"

/-- The folder in the home folder where settings and snapshots are kept. -/
def folderName : String := ".tabsync"

def settingsName : String := "config.yaml"

def snapshotName : String := "session.json"

/-- The settings of a session for which nothing is said. -/
def standard : Settings :=
  { baseUrl := Rest.defaultBase
    tokenVariable := defaultTokenVariable
    autosave := .after AutosavePolicy.defaultDelay
    journalFile := none
    restoresTabs := true
    snapshotFile := none }

instance : Inhabited Settings := ⟨standard⟩

/-- A text begins like a web address. -/
def hasWebScheme (s : String) : Bool :=
  "http://".toList.isPrefixOf s.toList || "https://".toList.isPrefixOf s.toList

/-- The first flaw of settings. -/
def flaw? (s : Settings) : Option SettingsFlaw :=
  let base := trim s.baseUrl
  if base.isEmpty then some .noBase
  else if !hasWebScheme base then some (.badScheme base)
  else if (trim s.tokenVariable).isEmpty then some .noTokenVariable
  else if s.autosave.enabled && s.autosave.delay == 0 then some .noDelay
  else if s.journalFile.any (!Disk.isAbsolute ·) then some .relativeJournalFile
  else if s.snapshotFile.any (!Disk.isAbsolute ·) then some .relativeSnapshotFile
  else none

/-- Settings without a flaw. -/
def validated (s : Settings) : Except SettingsError Settings :=
  match s.flaw? with
  | some flaw => .error (.flawed flaw)
  | none => .ok s

/-- A file in the folder in the home folder. -/
def homeFile (env : Environment) (name : String) : Except SettingsError String :=
  match env.get? "HOME" with
  | some home => .ok (Disk.join (Disk.join home folderName) name)
  | none => .error .noHome

/-- Where settings are kept when nothing else is said. -/
def defaultFile (env : Environment) : Except SettingsError String := homeFile env settingsName

/-- Where the snapshot is kept. -/
def snapshotPath (s : Settings) (env : Environment) : Except SettingsError String :=
  match s.snapshotFile with
  | some path => .ok path
  | none => homeFile env snapshotName

/-- The address of the file service. The environment's comes first. -/
def address (s : Settings) (env : Environment) : String :=
  (env.given? Rest.baseVariable).getD (trim s.baseUrl)

def token (s : Settings) (env : Environment) : Option String :=
  env.given? (trim s.tokenVariable)

def client (s : Settings) (env : Environment) : Rest.Client :=
  .ofBase (s.address env) (s.token env)

def journal (s : Settings) : Journal := { file := s.journalFile, entries := [] }

end Settings

end Workbench
