import CallTable.Files.Access
import CallTable.Settings

/-!
# Settings files

Loading reads the settings of a file and takes their paths as relative to its directory; saving
writes settings as they are. A file that may be missing stands for the standard settings then,
with paths relative to nothing.
-/

namespace CallTable.Settings

open FileSystem

variable {m : Type → Type} [Monad m] [FileSystem m]

/-- The settings of a file. -/
def load (path : Path) : m (Except FileError Settings) := do
  match ← readText "config" path with
  | .error failure => return .error failure
  | .ok text =>
    match ofText? text with
    | none => return .error (.badSettings path)
    | some settings => return .ok ((path.parent?.map settings.resolvePaths).getD settings)

/-- The settings of a file, or the standard ones if nothing stands at the path. -/
def loadOrStandard (path : Path) : m (Logged (Except FileError Settings)) := do
  if ← pathExists path then
    return pure (← load path)
  else
    return do
      Logged.report (.settingsMissing path.text)
      return .ok standard

/-- Writes settings to a file. -/
def save (settings : Settings) (path : Path) : m (Except FileError Unit) :=
  saveText path settings.render

/-- The texts of the table dump and the signature dump that settings name. -/
def readDumps (settings : Settings) : m (Except FileError (String × String)) := do
  match ← readText "table dump" settings.table with
  | .error failure => return .error failure
  | .ok table =>
    match ← readText "signature dump" settings.signatures with
    | .error failure => return .error failure
    | .ok signatures => return .ok (table, signatures)

end CallTable.Settings
