import LedWall.Chain
import LedWall.Surface.Panel

/-!
# Surfaces

Anything that has pixels and can be sent: a panel, a chain of lights seen through a coordinate table,
or a canvas of surfaces placed side by side. Coordinates are signed so that drawings may hang over an
edge; a place that no pixel answers for reads as nothing and takes no colour.
-/

namespace LedWall

structure Placement (σ : Type) where
  surface : σ
  x : UInt32
  y : UInt32

inductive Surface (τ : Type) where
  | panel (panel : Panel τ)
  /-- The first row of the inner surface, addressed through a table. -/
  | remapped (inner : Surface τ) (table : CoordinateTable)
  /-- Placed surfaces, and for each place of the canvas the member that owns it. -/
  | canvas (members : List (Placement (Surface τ))) (owners : Grid (Option Nat))

namespace Surface

variable {τ : Type}

def width : Surface τ → UInt32
  | panel p => p.buffer.width
  | remapped _ table => table.width
  | canvas _ owners => owners.width

def height : Surface τ → UInt32
  | panel p => p.buffer.height
  | remapped _ table => table.height
  | canvas _ owners => owners.height

mutual

def get? : Surface τ → Int32 → Int32 → Option Color
  | panel p, x, y => p.buffer.get? x y
  | remapped inner table, x, y =>
      match table.lookup x y with
      | some position => inner.get? (.ofNat position) 0
      | none => none
  | canvas members owners, x, y =>
      match (owners.get? x y).join with
      | some member => getMember? members member x y
      | none => none

def getMember? : List (Placement (Surface τ)) → Nat → Int32 → Int32 → Option Color
  | [], _, _, _ => none
  | ⟨s, left, top⟩ :: _, 0, x, y => s.get? (x - left.toInt32) (y - top.toInt32)
  | _ :: members, member + 1, x, y => getMember? members member x y

end

mutual

def set : Surface τ → Int32 → Int32 → Color → Surface τ
  | panel p, x, y, c => panel (p.set x y c)
  | remapped inner table, x, y, c =>
      match table.lookup x y with
      | some position => remapped (inner.set (.ofNat position) 0 c) table
      | none => remapped inner table
  | canvas members owners, x, y, c =>
      match (owners.get? x y).join with
      | some member => canvas (setMember members member x y c) owners
      | none => canvas members owners

def setMember :
    List (Placement (Surface τ)) → Nat → Int32 → Int32 → Color → List (Placement (Surface τ))
  | [], _, _, _, _ => []
  | ⟨s, left, top⟩ :: members, 0, x, y, c =>
      ⟨s.set (x - left.toInt32) (y - top.toInt32) c, left, top⟩ :: members
  | p :: members, member + 1, x, y, c => p :: setMember members member x y c

end

mutual

def clear : Surface τ → Surface τ
  | panel p => panel p.clear
  | remapped inner table => remapped inner.clear table
  | canvas members owners => canvas (clearMembers members) owners

def clearMembers : List (Placement (Surface τ)) → List (Placement (Surface τ))
  | [] => []
  | ⟨s, left, top⟩ :: members => ⟨s.clear, left, top⟩ :: clearMembers members

end

variable {m : Type → Type} [Monad m] [Transport m τ]

mutual

/-- Sends every panel once. A canvas attempts all its members and reports those that failed. -/
def send : Surface τ → m (Except SurfaceError Unit × Surface τ)
  | panel p => do
      let (result, p) ← p.send
      return (result, panel p)
  | remapped inner table => do
      let (result, inner) ← inner.send
      return (result, remapped inner table)
  | canvas members owners => do
      let (failures, members') ← sendMembers 0 members
      let result := if failures.isEmpty then .ok () else .error (.composite members.length failures)
      return (result, canvas members' owners)

def sendMembers (index : Nat) :
    List (Placement (Surface τ)) → m (List (Nat × SurfaceError) × List (Placement (Surface τ)))
  | [] => return ([], [])
  | ⟨s, left, top⟩ :: members => do
      let (result, s) ← s.send
      let (failures, members) ← sendMembers (index + 1) members
      let failures := match result with
        | .ok () => failures
        | .error e => (index, e) :: failures
      return (failures, ⟨s, left, top⟩ :: members)

end

end Surface

end LedWall
