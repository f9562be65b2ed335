import Workbench.Settings.Form

/-! # Settings files

Settings are kept on a disk. They are checked when they are read and before they
are written, so a file never holds flawed settings that were written here. -/

namespace Workbench.Settings

/-- The settings in a file. -/
def load (disk : Disk) (path : String) : Except SettingsError Settings :=
  match disk.readText path with
  | .error error => .error (.read path error)
  | .ok text =>
      match parse text with
      | none => .error (.parse path)
      | some settings => settings.validated

/-- The settings in a file, or the usual ones if there is no such file. -/
def loadOrStandard (disk : Disk) (path : String) : Except SettingsError Settings :=
  if disk.holds path then load disk path else .ok standard

/-- The settings in the usual file. -/
def loadDefault (disk : Disk) (env : Environment) : Except SettingsError Settings :=
  (defaultFile env).bind (loadOrStandard disk)

/-- Writes settings into a file, making its folder first. -/
def save (s : Settings) (path : String) (disk : Disk) : Except SettingsError Unit × Disk :=
  match s.validated with
  | .error error => (.error error, disk)
  | .ok _ =>
      match disk.makeParent path with
      | (.error error, disk) => (.error (.makeFolder (Disk.folderOf path) error), disk)
      | (.ok _, disk) =>
          match disk.replace path (Text.utf8Bytes s.render) with
          | (.ok _, disk) => (.ok (), disk)
          | (.error error, disk) => (.error (.write path error), disk)

/-- Writes settings into the usual file and tells its path. -/
def saveDefault (s : Settings) (env : Environment) (disk : Disk) :
    Except SettingsError String × Disk :=
  match defaultFile env with
  | .error error => (.error error, disk)
  | .ok path =>
      match s.save path disk with
      | (.ok _, disk) => (.ok path, disk)
      | (.error error, disk) => (.error error, disk)

end Workbench.Settings
