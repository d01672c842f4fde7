import LedWall.Settings.Basic
import LedWall.Toml.Format

/-!
# Reading settings

Settings as a TOML document. Fields that are absent have their usual value, if they have one, and
fields that nothing here knows are passed over. A section may also be spelled as an array that gives
its fields in order.
-/

namespace LedWall

open Toml (Value Table)

def PanelSettings.fieldNames : List String :=
  ["host", "port", "width", "height", "layer", "transparent", "udp_size"]

def StreamSettings.fieldNames : List String := ["interval_ms", "timeout_ms", "format"]

def MemberSettings.fieldNames : List String :=
  ["host", "port", "width", "height", "layer", "transparent", "x_offset", "y_offset",
    "place_on_server"]

def ChainSettings.fieldNames : List String :=
  ["host", "port", "layer", "transparent", "width", "height", "segments", "runs"]

def Run.fieldNames : List String := ["direction", "x", "y", "segments"]

namespace Settings

/-- The fields of a section. A date stands for a section with no field that is known. -/
def sectionOf? (names : List String) : Value → Option Table
  | .table fields => some fields
  | .array elements => some (names.zip elements)
  | .dateTime _ => some []
  | _ => none

def optional {α : Type} (t : Table) (name : String) (read : Value → Option α) (usual : α) :
    Option α :=
  match t.get? name with
  | none => some usual
  | some v => read v

def required {α : Type} (t : Table) (name : String) (read : Value → Option α) : Option α :=
  (t.get? name).bind read

def byte? (v : Value) : Option UInt8 := (v.natUpTo? 255).map UInt8.ofNat

def port? (v : Value) : Option UInt16 := (v.natUpTo? 65535).map UInt16.ofNat

def word? (v : Value) : Option UInt32 := (v.natUpTo? 4294967295).map UInt32.ofNat

def nat? (v : Value) : Option Nat := v.natUpTo? 18446744073709551615

def listOf? {α : Type} (read : Value → Option α) (v : Value) : Option (List α) :=
  v.array?.bind fun elements => elements.mapM read

/-- One of several choices, spelled as its name, or as a table with the name for its only key and
nothing under it. -/
def choice? {α : Type} (names : List (String × α)) : Value → Option α
  | .string name => names.lookup name
  | .table [(name, .table [])] => names.lookup name
  | .table [(name, .array [])] => names.lookup name
  | _ => none

end Settings

def StreamFormat.names : List (String × StreamFormat) := [("q7", .q7), ("raw", .raw)]

def Direction.names : List (String × Direction) :=
  [("horizontal", .horizontal), ("vertical", .vertical)]

open Settings

def PanelSettings.ofValue? (v : Value) : Option PanelSettings := do
  let t ← sectionOf? fieldNames v
  let usual : PanelSettings := {}
  return {
    host := ← optional t "host" Value.string? usual.host
    port := ← optional t "port" port? usual.port
    width := ← optional t "width" word? usual.width
    height := ← optional t "height" word? usual.height
    layer := ← optional t "layer" byte? usual.layer
    transparent := ← optional t "transparent" Value.boolean? usual.transparent
    datagram := ← optional t "udp_size" nat? usual.datagram }

def StreamSettings.ofValue? (v : Value) : Option StreamSettings := do
  let t ← sectionOf? fieldNames v
  let usual : StreamSettings := {}
  return {
    interval := ← optional t "interval_ms" nat? usual.interval
    timeout := ← optional t "timeout_ms" nat? usual.timeout
    format := ← optional t "format" (choice? StreamFormat.names) usual.format }

def MemberSettings.ofValue? (v : Value) : Option MemberSettings := do
  let t ← sectionOf? fieldNames v
  return {
    host := ← optional t "host" Value.string? settingsHost
    port := ← optional t "port" port? defaultPort
    width := ← required t "width" word?
    height := ← required t "height" word?
    layer := ← optional t "layer" byte? settingsLayer
    transparent := ← optional t "transparent" Value.boolean? false
    x := ← optional t "x_offset" word? 0
    y := ← optional t "y_offset" word? 0
    placeOnServer := ← optional t "place_on_server" Value.boolean? false }

def Run.ofValue? (v : Value) : Option Run := do
  let t ← sectionOf? fieldNames v
  return {
    direction := ← required t "direction" (choice? Direction.names)
    x := ← required t "x" word?
    y := ← required t "y" word?
    segments := ← required t "segments" (listOf? nat?) }

def ChainSettings.ofValue? (v : Value) : Option ChainSettings := do
  let t ← sectionOf? fieldNames v
  return {
    host := ← optional t "host" Value.string? settingsHost
    port := ← optional t "port" port? defaultPort
    layer := ← optional t "layer" byte? settingsLayer
    transparent := ← optional t "transparent" Value.boolean? false
    width := ← required t "width" word?
    height := ← required t "height" word?
    segments := ← required t "segments" (listOf? nat?)
    runs := ← optional t "runs" (listOf? Run.ofValue?) [] }

namespace Settings

def membersOf? (v : Value) : Option (List MemberSettings) := do
  let t ← sectionOf? ["members"] v
  optional t "members" (listOf? MemberSettings.ofValue?) []

def ofTable? (t : Table) : Option Settings := do
  return {
    panel := ← optional t "display" PanelSettings.ofValue? {}
    stream := ← optional t "stream" StreamSettings.ofValue? {}
    members := ← optional t "canvas" membersOf? []
    chain := ← optional t "remap" (fun v => (ChainSettings.ofValue? v).map some) none }

def parse? [Toml.Format] (text : String) : Option Settings :=
  (Toml.Format.read? text).bind ofTable?

end Settings

end LedWall
