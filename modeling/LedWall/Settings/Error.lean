import LedWall.Text.Quoted

/-!
# Failures of settings
-/

namespace LedWall

inductive SettingsError where
  | noLocation
  | io (path reason : String)
  | parse
  | serialize
  | invalidVariable (name value : String)
deriving DecidableEq

def SettingsError.message : SettingsError → String
  | noLocation => "could not determine platform config directory"
  | io path reason => "I/O error accessing config at " ++ path ++ ": " ++ reason
  | parse => "failed to parse config TOML"
  | serialize => "failed to serialize config"
  | invalidVariable name value => "invalid value " ++ Text.quoted value ++ " for " ++ name

end LedWall
