import LedWall.Settings.Basic
import LedWall.Toml.Format

/-!
# Writing settings

Settings as a table that holds every field. A chain that is absent has no section.
-/

namespace LedWall

open Toml (Value Table)

namespace Settings

def number (n : Nat) : Value := .integer n

def numbers (ns : List Nat) : Value := .array (ns.map number)

def tables {α : Type} (fields : α → Table) (xs : List α) : Value :=
  .array (xs.map fun x => .table (fields x))

end Settings

def StreamFormat.name : StreamFormat → String
  | q7 => "q7"
  | raw => "raw"

def Direction.name : Direction → String
  | horizontal => "horizontal"
  | vertical => "vertical"

open Settings

def PanelSettings.toTable (p : PanelSettings) : Table := [
  ("host", .string p.host),
  ("port", number p.port.toNat),
  ("width", number p.width.toNat),
  ("height", number p.height.toNat),
  ("layer", number p.layer.toNat),
  ("transparent", .boolean p.transparent),
  ("udp_size", number p.datagram)]

def StreamSettings.toTable (s : StreamSettings) : Table := [
  ("interval_ms", number s.interval),
  ("timeout_ms", number s.timeout),
  ("format", .string s.format.name)]

def MemberSettings.toTable (m : MemberSettings) : Table := [
  ("host", .string m.host),
  ("port", number m.port.toNat),
  ("width", number m.width.toNat),
  ("height", number m.height.toNat),
  ("layer", number m.layer.toNat),
  ("transparent", .boolean m.transparent),
  ("x_offset", number m.x.toNat),
  ("y_offset", number m.y.toNat),
  ("place_on_server", .boolean m.placeOnServer)]

def Run.toTable (r : Run) : Table := [
  ("direction", .string r.direction.name),
  ("x", number r.x.toNat),
  ("y", number r.y.toNat),
  ("segments", numbers r.segments)]

def ChainSettings.toTable (c : ChainSettings) : Table := [
  ("host", .string c.host),
  ("port", number c.port.toNat),
  ("layer", number c.layer.toNat),
  ("transparent", .boolean c.transparent),
  ("width", number c.width.toNat),
  ("height", number c.height.toNat),
  ("segments", numbers c.segments),
  ("runs", tables Run.toTable c.runs)]

namespace Settings

def toTable (s : Settings) : Table := [
  ("display", .table s.panel.toTable),
  ("stream", .table s.stream.toTable),
  ("canvas", .table [("members", tables MemberSettings.toTable s.members)])] ++
  s.chain.toList.map fun c => ("remap", .table c.toTable)

def render? [Toml.Format] (s : Settings) : Option String := Toml.Format.write? s.toTable

end Settings

end LedWall
