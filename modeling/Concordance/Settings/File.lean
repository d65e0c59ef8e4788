import Concordance.Settings.Form
import Concordance.Workspace.Access

/-!
Settings in files. The strict loader says what is wrong with a file; the lenient one takes the standard
settings then. Saving makes the folders above the file.
-/

namespace Concordance.Settings

/-- Why settings cannot be loaded. -/
inductive LoadError where
  | io (cause : IoError)
  | invalid (cause : Json.ReadError)
deriving DecidableEq, Repr

def LoadError.message : LoadError → String
  | io e => "IO error: " ++ e.message
  | invalid e => "invalid config: " ++ e.message

/-- The settings that a file's bytes hold, if the bytes can be read. -/
def ofContent (parallel : Option UInt64) : Except IoError ByteArray → Except LoadError Settings
  | .error e => .error (.io e)
  | .ok content => match decode parallel content.toList with
    | .ok s => .ok s
    | .error e => .error (.invalid e)

/-- Loads settings from a file. -/
def load (parallel : Option UInt64) (w : Workspace) (path : String) : Except LoadError Settings :=
  ofContent parallel (w.read path)

/-- The settings loaded, or the standard ones where they cannot be loaded. -/
def orStandard (parallel : Option UInt64) : Except LoadError Settings → Settings
  | .ok s => s
  | .error _ => .standard parallel

/-- Saves settings to a file. -/
def save (s : Settings) (w : Workspace) (path : String) : Except IoError Workspace :=
  w.save path s.text.toUTF8

end Concordance.Settings
