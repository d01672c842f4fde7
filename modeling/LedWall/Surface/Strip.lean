import LedWall.Surface.Basic

/-!
# Strips

A surface whose first row is a chain of lights, seen through a coordinate table.
-/

namespace LedWall

structure Strip (τ : Type) where
  inner : Surface τ
  table : CoordinateTable

namespace Strip

variable {τ : Type}

def toSurface (s : Strip τ) : Surface τ := .remapped s.inner s.table

/-- A chain needs a row at least as long as itself. -/
def make (inner : Surface τ) (table : CoordinateTable) : Except ChainError (Strip τ) :=
  let needed := table.segments.total
  if inner.width.toNat < needed then .error (.innerTooShort needed inner.width)
  else .ok ⟨inner, table⟩

/-- Writes every light of one segment, whether or not a place of the grid leads to it. -/
def fillSegment (s : Strip τ) (id : Nat) (c : Color) : Except ChainError (Strip τ) :=
  match s.table.segments.segment? id with
  | none => .error (.unknownSegment id s.table.segments.count)
  | some segment =>
      .ok { s with
        inner := (List.range' segment.start segment.length).foldl (fun inner position =>
          inner.set (.ofNat position) 0 c) s.inner }

end Strip

end LedWall
