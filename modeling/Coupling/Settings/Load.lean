import Coupling.Disk.Basic
import Coupling.Settings.Decode
import Coupling.Settings.Validate
import Coupling.Toml.Reader

/-!
# Settings files
-/

namespace Coupling

/-- Why settings cannot be used. -/
inductive SettingsError where
  | unreadable (path : Path) (cause : DiskError)
  | malformed
  | invalid (issues : List Issue)
deriving DecidableEq, Repr

namespace Settings

/-- Settings without issues. -/
def validated (s : Settings) : Except SettingsError Settings :=
  if s.issues.isEmpty then .ok s else .error (.invalid s.issues)

/-- The settings of a text. -/
def ofText (text : List Char) : Except SettingsError Settings :=
  match (Toml.parse? text).bind (decode? false) with
  | none => .error .malformed
  | some s => s.validated

/-- The settings of a file. -/
def load (d : Disk) (path : Path) : Except SettingsError Settings :=
  match d.readText path with
  | .error e => .error (.unreadable path e)
  | .ok text => ofText text

/-- The name of settings files that are looked for. -/
def fileName : Path := .ofText ".connascence.toml"

/-- Directories that are searched for a settings file. -/
def searchDepth : Nat := 10

/-- The settings file next to a directory or above it: the first one that can be read. -/
def nearest? (d : Disk) (start : Path) : Option (List Char) :=
  (Paths.ancestors searchDepth start).findSome? fun directory =>
    (d.readText (Paths.join directory fileName)).toOption

/-- The settings of the nearest file, or the usual ones if there is none. -/
def discover (d : Disk) (start : Path) : Except SettingsError Settings :=
  match nearest? d start with
  | some text => ofText text
  | none => .ok {}

end Settings

end Coupling
