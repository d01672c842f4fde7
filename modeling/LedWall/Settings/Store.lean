import LedWall.Files.Basic
import LedWall.Settings.Environment
import LedWall.Settings.Reader
import LedWall.Settings.Writer

/-!
# Keeping settings

Settings are kept in a text file. A file that is not there stands for the usual settings.
-/

namespace LedWall.Settings

/-- The file of this user's settings: in the directory that the environment names for such files, or
else in the usual one below the home directory. -/
def location? (env : Environment) : Option String :=
  let base := (env "XDG_CONFIG_HOME").or
    ((env "HOME").map fun home => Files.inside home ".config")
  base.map fun base => Files.inside (Files.inside base "flaschen") "config.toml"

def location (env : Environment) : Except SettingsError String :=
  match location? env with
  | some path => .ok path
  | none => .error .noLocation

variable {m : Type → Type} [Monad m] [Files m] [Toml.Format]

def loadFrom (path : String) : m (Except SettingsError Settings) := do
  match ← Files.read path with
  | .ok text =>
      match parse? text with
      | some s => return .ok s
      | none => return .error .parse
  | .error .missing => return .ok {}
  | .error (.other reason) => return .error (.io path reason)

def writeTo (s : Settings) (path : String) : m (Except SettingsError Unit) := do
  match s.render? with
  | none => return .error .serialize
  | some text =>
      match ← Files.write path text with
      | .ok () => return .ok ()
      | .error reason => return .error (.io path reason)

def saveTo (s : Settings) (path : String) : m (Except SettingsError Unit) := do
  if let some directory := Files.parent? path then
    if let .error reason ← Files.makeDirectory directory then
      return .error (.io directory reason)
  s.writeTo path

def load (env : Environment) : m (Except SettingsError Settings) := do
  match location env with
  | .ok path => loadFrom path
  | .error e => return .error e

def save (s : Settings) (env : Environment) : m (Except SettingsError Unit) := do
  match location env with
  | .ok path => s.saveTo path
  | .error e => return .error e

end LedWall.Settings
