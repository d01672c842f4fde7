import LedWall.Link.Basic
import LedWall.Settings.Basic
import LedWall.Surface.Canvas
import LedWall.Surface.Strip

/-!
# Assembly

Surfaces over links, as settings describe them. The picture of a panel is made before its link is
opened, so that bad sizes are reported first.
-/

namespace LedWall

inductive AssemblyError where
  | surface (cause : SurfaceError)
  | chain (cause : ChainError)
  | member (index : Nat) (cause : SurfaceError)
  | emptyCanvas
  | badSlices (width count : UInt32)

def AssemblyError.message : AssemblyError → String
  | surface cause => cause.message
  | chain cause => cause.message
  | member index cause => s!"canvas member #{index}: " ++ cause.message
  | emptyCanvas => "no canvas members configured"
  | badSlices width count => s!"cannot cut width {width} into {count} slices"

variable {m : Type → Type} [Monad m] {σ : Type} [Network m σ]

def Panel.connect (endpoint : Endpoint) (width height : UInt32) (layer : UInt8)
    (transparent : Bool) : m (Except SurfaceError (Panel (Link σ))) := do
  match FrameBuffer.blank width height layer transparent with
  | .error e => return .error e
  | .ok buffer =>
      match ← Link.connect endpoint with
      | .error e => return .error e
      | .ok link => return .ok (.ofBuffer buffer link)

def PanelSettings.connect (p : PanelSettings) : m (Except SurfaceError (Panel (Link σ))) := do
  let opened ← Panel.connect p.endpoint p.width p.height p.layer p.transparent
  return opened.map fun panel => panel.withMaxDatagram p.datagram

def MemberSettings.connect (s : MemberSettings) : m (Except SurfaceError (Panel (Link σ))) := do
  let opened ← Panel.connect s.endpoint s.width s.height s.layer s.transparent
  return opened.map fun panel =>
    if s.placeOnServer then panel.withMode (.offset ⟨s.x.toInt32, s.y.toInt32, s.layer⟩) else panel

def addMembers (canvas : Canvas (Link σ)) (index : Nat) :
    List MemberSettings → m (Except AssemblyError (Canvas (Link σ)))
  | [] => return .ok canvas
  | s :: more => do
      match ← s.connect with
      | .error e => return .error (.member index e)
      | .ok panel => addMembers (canvas.add (.panel panel) s.x s.y) (index + 1) more

def Settings.connectCanvas (s : Settings) : m (Except AssemblyError (Canvas (Link σ))) := do
  match s.members with
  | [] => return .error .emptyCanvas
  | members => addMembers .empty 0 members

def addSlices (endpoint : Endpoint) (width height : UInt32) (layer : UInt8)
    (canvas : Canvas (Link σ)) : List Nat → m (Except AssemblyError (Canvas (Link σ)))
  | [] => return .ok canvas
  | i :: more => do
      let x := UInt32.ofNat i * width
      match ← Panel.connect endpoint width height layer true with
      | .error e => return .error (.surface e)
      | .ok panel =>
          let panel := panel.withMode (.offset ⟨x.toInt32, 0, layer⟩)
          addSlices endpoint width height layer (canvas.add (.panel panel) x 0) more

/-- Opens a canvas of `count` equally wide transparent slices side by side, which the one server at
the endpoint puts together. Columns that are left over belong to no slice. -/
def Canvas.connectSlices (endpoint : Endpoint) (width height count : UInt32) (layer : UInt8) :
    m (Except AssemblyError (Canvas (Link σ))) := do
  if count = 0 ∨ width < count then return .error (.badSlices width count)
  else addSlices endpoint (width / count) height layer .empty (List.range count.toNat)

/-- Opens the chain behind its table, on a row of lights as long as the chain. -/
def ChainSettings.connect (s : ChainSettings) : m (Except AssemblyError (Strip (Link σ))) := do
  match CoordinateTable.build s.width s.height s.segments s.runs with
  | .error e => return .error (.chain e)
  | .ok table =>
      let length := max (UInt32.ofNat table.segments.total) 1
      match ← Panel.connect s.endpoint length 1 s.layer s.transparent with
      | .error e => return .error (.surface e)
      | .ok panel => return (Strip.make (.panel panel) table).mapError .chain

end LedWall
