/-!
# Bit order

A compressed stream packs its fields into bytes from the low bit up. The reader keeps the bits left
of the byte it is in apart from the bytes it has not touched, so that a stored block can drop the
rest of a byte.
-/

namespace LedWall.Flate

/-- A position in a stream: bits left of the current byte, low bit first, and the bytes after it. -/
structure Bits where
  pending : List Bool
  rest : List UInt8

namespace Bits

def ofByte (b : UInt8) : List Bool :=
  [b.toNat.testBit 0, b.toNat.testBit 1, b.toNat.testBit 2, b.toNat.testBit 3,
    b.toNat.testBit 4, b.toNat.testBit 5, b.toNat.testBit 6, b.toNat.testBit 7]

def ofBytes (bytes : List UInt8) : Bits := ⟨[], bytes⟩

def size (s : Bits) : Nat := s.pending.length + 8 * s.rest.length

def next? (s : Bits) : Option (Bool × Bits) :=
  match s.pending, s.rest with
  | bit :: pending, rest => some (bit, ⟨pending, rest⟩)
  | [], b :: rest => some (b.toNat.testBit 0, ⟨(ofByte b).tail, rest⟩)
  | [], [] => none

/-- The number in the next `n` bits, low bit first. -/
def number? : Nat → Bits → Option (Nat × Bits)
  | 0, s => some (0, s)
  | n + 1, s => do
      let (bit, s) ← s.next?
      let (high, s) ← number? n s
      some (bit.toNat + 2 * high, s)

def align (s : Bits) : Bits := ⟨[], s.rest⟩

end Bits

end LedWall.Flate
