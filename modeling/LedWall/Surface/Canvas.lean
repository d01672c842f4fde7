import LedWall.Surface.Basic

/-!
# Canvases

A canvas grows with each surface placed on it. The whole rectangle of a new member becomes its own,
also where older members were, and a write goes to the owner of the place alone.
-/

namespace LedWall

namespace Placement

variable {τ : Type}

/-- The first column to the right of the placed surface, as far as there are columns. -/
def right (p : Placement (Surface τ)) : UInt32 :=
  UInt32.ofNat (min (p.x.toNat + p.surface.width.toNat) 4294967295)

def bottom (p : Placement (Surface τ)) : UInt32 :=
  UInt32.ofNat (min (p.y.toNat + p.surface.height.toNat) 4294967295)

end Placement

structure Owner where
  member : Nat
  x : Int32
  y : Int32
deriving DecidableEq

structure Canvas (τ : Type) where
  members : List (Placement (Surface τ))
  owners : Grid (Option Nat)

namespace Canvas

variable {τ : Type}

def empty : Canvas τ := ⟨[], .uniform 0 0 none⟩

def toSurface (c : Canvas τ) : Surface τ := .canvas c.members c.owners

def width (c : Canvas τ) : UInt32 := c.owners.width

def height (c : Canvas τ) : UInt32 := c.owners.height

/-- Places a surface, which becomes the last member and owns its whole rectangle. -/
def add (c : Canvas τ) (s : Surface τ) (x y : UInt32) : Canvas τ :=
  let p : Placement (Surface τ) := ⟨s, x, y⟩
  let owners := c.owners.grow (max c.width p.right) (max c.height p.bottom) none
  ⟨c.members ++ [p],
    owners.paint x.toNat p.right.toNat y.toNat p.bottom.toNat (some c.members.length)⟩

def owner? (c : Canvas τ) (x y : Int32) : Option Owner := do
  let member ← (c.owners.get? x y).join
  let p ← c.members[member]?
  return ⟨member, x - p.x.toInt32, y - p.y.toInt32⟩

def get? (c : Canvas τ) (x y : Int32) : Option Color := c.toSurface.get? x y

def set (c : Canvas τ) (x y : Int32) (color : Color) : Canvas τ :=
  match (c.owners.get? x y).join with
  | some member => { c with members := Surface.setMember c.members member x y color }
  | none => c

def fill (c : Canvas τ) (color : Color) : Canvas τ :=
  (List.range c.height.toInt32.toInt.toNat).foldl (fun c y =>
    (List.range c.width.toInt32.toInt.toNat).foldl (fun c x =>
      c.set (.ofNat x) (.ofNat y) color) c) c

def clear (c : Canvas τ) : Canvas τ := { c with members := Surface.clearMembers c.members }

def modifyMember (c : Canvas τ) (member : Nat) (f : Surface τ → Surface τ) : Canvas τ :=
  { c with members := c.members.modify member fun p => { p with surface := f p.surface } }

theorem toSurface_set (c : Canvas τ) (x y : Int32) (color : Color) :
    (c.set x y color).toSurface = c.toSurface.set x y color := by
  unfold set toSurface
  rw [Surface.set]
  split <;> simp_all

end Canvas

end LedWall
