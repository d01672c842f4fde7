/-!
# Row filters

Each row of an image is stored as differences from a prediction made of the bytes to the left, above,
and above to the left.
-/

namespace LedWall.Png

inductive Filter where
  | plain
  | left
  | above
  | average
  | nearest
deriving DecidableEq

namespace Filter

def ofByte? (b : UInt8) : Option Filter :=
  if b = 0 then some plain
  else if b = 1 then some left
  else if b = 2 then some above
  else if b = 3 then some average
  else if b = 4 then some nearest
  else none

/-- Of three neighbours the one nearest to `a + b - c`; on a tie the left one, then the upper. -/
def nearestNeighbour (a b c : UInt8) : UInt8 :=
  let estimate : Int := a.toNat + b.toNat - c.toNat
  let toA := (estimate - a.toNat).natAbs
  let toB := (estimate - b.toNat).natAbs
  let toC := (estimate - c.toNat).natAbs
  if toA ≤ toB ∧ toA ≤ toC then a else if toB ≤ toC then b else c

def predict : Filter → UInt8 → UInt8 → UInt8 → UInt8
  | plain, _, _, _ => 0
  | left, a, _, _ => a
  | above, _, b, _ => b
  | average, a, b, _ => UInt8.ofNat ((a.toNat + b.toNat) / 2)
  | nearest, a, b, c => nearestNeighbour a b c

/-- Undoes the filter on one row, given the restored row above and how many bytes lie between a byte
and its left neighbour. Beyond the edges the neighbours are zero. -/
def restore (f : Filter) (distance : Nat) (upper raw : Array UInt8) : Array UInt8 :=
  (List.range raw.size).foldl (fun row i =>
    let a := if distance ≤ i then row.getD (i - distance) 0 else 0
    let c := if distance ≤ i then upper.getD (i - distance) 0 else 0
    row.push (raw.getD i 0 + f.predict a (upper.getD i 0) c)) #[]

end Filter

end LedWall.Png
