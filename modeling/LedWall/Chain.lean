import LedWall.Grid
import LedWall.Surface.Error

/-!
# Chains

Some installations are one long chain of lights laid through an irregular shape. The chain consists
of segments laid end to end; a run puts some segments on a straight line of a grid. A coordinate
table tells for each place of the grid which light of the chain is there, if any. Later runs take
places over from earlier ones.
-/

namespace LedWall

structure Segment where
  start : Nat
  length : Nat
deriving DecidableEq, Inhabited

structure Segments where
  lengths : List Nat
deriving DecidableEq

namespace Segments

def count (s : Segments) : Nat := s.lengths.length

/-- The length of some segments laid end to end, taken to be below 2 ^ 64. -/
def span (lengths : List Nat) : Nat := lengths.foldr (· + ·) 0

def segment? (s : Segments) (id : Nat) : Option Segment :=
  s.lengths[id]?.map fun length => ⟨span (s.lengths.take id), length⟩

def total (s : Segments) : Nat := span s.lengths

end Segments

inductive Direction where
  | horizontal
  | vertical
deriving DecidableEq

/-- Segments laid on a line that starts at `(x, y)` and goes right or down. -/
structure Run where
  direction : Direction
  x : UInt32
  y : UInt32
  segments : List Nat
deriving DecidableEq

namespace Run

def place (r : Run) (distance : Nat) : Nat × Nat :=
  match r.direction with
  | .horizontal => (r.x.toNat + distance, r.y.toNat)
  | .vertical => (r.x.toNat, r.y.toNat + distance)

def Fits (r : Run) (length : Nat) (width height : UInt32) : Prop :=
  r.x < width ∧ r.y < height ∧
    match r.direction with
    | .horizontal => r.x.toNat + length ≤ width.toNat
    | .vertical => r.y.toNat + length ≤ height.toNat

instance (r : Run) (length : Nat) (width height : UInt32) :
    Decidable (r.Fits length width height) := by
  unfold Fits
  cases r.direction <;> infer_instance

end Run

inductive ChainError where
  | invalidDimension (width height : UInt32)
  | unknownSegment (id count : Nat)
  | runOutOfBounds (run : Nat) (x y : UInt32) (length : Nat) (width height : UInt32)
  | emptyRun (run : Nat)
  | innerTooShort (needed : Nat) (available : UInt32)
deriving DecidableEq

/-- For each place of a grid the position on the chain of the light there. -/
structure CoordinateTable where
  segments : Segments
  grid : Grid (Option Nat)

namespace CoordinateTable

def lay (grid : Grid (Option Nat)) (r : Run) (start length : Nat) : Grid (Option Nat) :=
  (List.range length).foldl (fun grid i =>
    let (x, y) := r.place i
    grid.setCell x y (some (start + i))) grid

def segment (segments : Segments) (id : Nat) : Except ChainError Segment :=
  match segments.segment? id with
  | some s => .ok s
  | none => .error (.unknownSegment id segments.count)

def totalLength (segments : Segments) : List Nat → Except ChainError Nat
  | [] => .ok 0
  | id :: ids => do
      let s ← segment segments id
      let rest ← totalLength segments ids
      return s.length + rest

def addRun (segments : Segments) (grid : Grid (Option Nat)) (index : Nat) (r : Run) :
    Except ChainError (Grid (Option Nat)) :=
  match r.segments with
  | [] => .error (.emptyRun index)
  | id :: ids => do
      let first ← segment segments id
      let length ← totalLength segments (id :: ids)
      if r.Fits length grid.width grid.height then
        return lay grid r first.start length
      else throw (.runOutOfBounds index r.x r.y length grid.width grid.height)

def addRuns (segments : Segments) :
    List Run → Nat → Grid (Option Nat) → Except ChainError (Grid (Option Nat))
  | [], _, grid => .ok grid
  | r :: rs, index, grid => do
      let grid ← addRun segments grid index r
      addRuns segments rs (index + 1) grid

/-- The table of a grid with the given segments and runs, which are laid in order. -/
def build (width height : UInt32) (lengths : List Nat) (runs : List Run) :
    Except ChainError CoordinateTable := do
  if width = 0 ∨ height = 0 then
    throw (.invalidDimension width height)
  let segments : Segments := ⟨lengths⟩
  let grid ← addRuns segments runs 0 (.uniform width height none)
  return ⟨segments, grid⟩

def width (t : CoordinateTable) : UInt32 := t.grid.width

def height (t : CoordinateTable) : UInt32 := t.grid.height

def lookup (t : CoordinateTable) (x y : Int32) : Option Nat := (t.grid.get? x y).join

def mappedCount (t : CoordinateTable) : Nat := t.grid.cells.countP Option.isSome

end CoordinateTable

def ChainError.message : ChainError → String
  | invalidDimension width height => (SurfaceError.invalidDimension width height).message
  | unknownSegment id count => s!"unknown segment {id} (table has {count} segments)"
  | runOutOfBounds run x y length width height =>
      s!"run #{run} at ({x}, {y}) with length {length} leaves the {width}x{height} grid"
  | emptyRun run => s!"run #{run} has no segments"
  | innerTooShort needed available =>
      s!"inner display is {available} pixels wide but the segments need {needed}"

end LedWall
