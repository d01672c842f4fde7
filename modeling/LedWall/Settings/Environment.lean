import LedWall.Settings.Basic
import LedWall.Settings.Error
import LedWall.Text.Blank

/-!
# Settings from the environment

Variables that override the panel of the settings, one after the other. A variable that is unset or
empty says nothing.
-/

namespace LedWall

abbrev Environment := String → Option String

def Environment.get? (env : Environment) (name : String) : Option String :=
  (env name).filter (· ≠ "")

namespace PanelSettings

def numberUpTo? (limit : Nat) (value : String) : Option Nat :=
  Decimal.ofText? limit (Text.trim value)

/-- The variables in the order in which they take effect, and the change that a value makes. -/
def environmentVariables : List (String × (String → PanelSettings → Option PanelSettings)) :=
  [("FT_DISPLAY", fun value p =>
      match Endpoint.parse value with
      | .ok e => some { p with host := e.host, port := e.port }
      | .error _ => none),
    ("FT_HOST", fun value p => some { p with host := value }),
    ("FT_PORT", fun value p =>
      (numberUpTo? 65535 value).map fun n => { p with port := .ofNat n }),
    ("FT_WIDTH", fun value p =>
      (numberUpTo? 4294967295 value).map fun n => { p with width := .ofNat n }),
    ("FT_HEIGHT", fun value p =>
      (numberUpTo? 4294967295 value).map fun n => { p with height := .ofNat n }),
    ("FT_LAYER", fun value p =>
      (numberUpTo? 255 value).map fun n => { p with layer := .ofNat n }),
    ("FT_UDP_SIZE", fun value p =>
      (numberUpTo? 18446744073709551615 value).map fun n => { p with datagram := n })]

def overrideBy (env : Environment) :
    List (String × (String → PanelSettings → Option PanelSettings)) → PanelSettings →
      Except SettingsError Unit × PanelSettings
  | [], p => (.ok (), p)
  | (name, change) :: rest, p =>
      match env.get? name with
      | none => overrideBy env rest p
      | some value =>
          match change value p with
          | some p => overrideBy env rest p
          | none => (.error (.invalidVariable name value), p)

def override (env : Environment) (p : PanelSettings) :
    Except SettingsError Unit × PanelSettings :=
  overrideBy env environmentVariables p

end PanelSettings

end LedWall
