import LedWall.Flate.Code

/-!
# Inflating

The blocks of a compressed stream: stored bytes, or words of two prefix codes that are either fixed
or described at the head of the block. A word is a byte, the end of the block, or a copy of bytes
already written.
-/

namespace LedWall.Flate

/-- Shortest length and count of extra bits of each copy length symbol from 257 on. -/
def copyLengths : Array (Nat × Nat) := #[
  (3, 0), (4, 0), (5, 0), (6, 0), (7, 0), (8, 0), (9, 0), (10, 0), (11, 1), (13, 1), (15, 1),
  (17, 1), (19, 2), (23, 2), (27, 2), (31, 2), (35, 3), (43, 3), (51, 3), (59, 3), (67, 4), (83, 4),
  (99, 4), (115, 4), (131, 5), (163, 5), (195, 5), (227, 5), (258, 0)]

def copyDistances : Array (Nat × Nat) := #[
  (1, 0), (2, 0), (3, 0), (4, 0), (5, 1), (7, 1), (9, 2), (13, 2), (17, 3), (25, 3), (33, 4),
  (49, 4), (65, 5), (97, 5), (129, 6), (193, 6), (257, 7), (385, 7), (513, 8), (769, 8), (1025, 9),
  (1537, 9), (2049, 10), (3073, 10), (4097, 11), (6145, 11), (8193, 12), (12289, 12), (16385, 13),
  (24577, 13)]

def lengthOrder : List Nat := [16, 17, 18, 0, 8, 7, 9, 6, 10, 5, 11, 4, 12, 3, 13, 2, 14, 1, 15]

def copyBack (distance : Nat) : Nat → Array UInt8 → Array UInt8
  | 0, out => out
  | n + 1, out => copyBack distance n (out.push (out.getD (out.size - distance) 0))

def extra? (table : Array (Nat × Nat)) (symbol : Nat) (s : Bits) : Option (Nat × Bits) := do
  let (base, width) ← table[symbol]?
  let (more, s) ← s.number? width
  some (base + more, s)

/-- Reads words up to the end of the block; `fuel` bounds their number. Besides the symbol for it, the
two that stand for no copy length end a block. -/
def words? (literals distances : Code) : Nat → Bits → Array UInt8 → Option (Bits × Array UInt8)
  | 0, _, _ => none
  | fuel + 1, s, out => do
      let (symbol, s) ← literals.decode? s
      if symbol < 256 then words? literals distances fuel s (out.push (UInt8.ofNat symbol))
      else if symbol = 256 ∨ 285 < symbol then some (s, out)
      else
        let (length, s) ← extra? copyLengths (symbol - 257) s
        let (symbol, s) ← distances.decode? s
        let (distance, s) ← extra? copyDistances symbol s
        if distance ≤ out.size then
          words? literals distances fuel s (copyBack distance length out)
        else none

def stored? (s : Bits) (out : Array UInt8) : Option (Bits × Array UInt8) :=
  match s.rest with
  | a :: b :: c :: d :: rest =>
      let length := a.toNat + 256 * b.toNat
      if c = a ^^^ 255 ∧ d = b ^^^ 255 then
        let bytes := rest.take length
        if bytes.length = length then
          some (⟨[], rest.drop length⟩, out ++ bytes.toArray)
        else none
      else none
  | _ => none

def fixedLiterals : List Nat :=
  List.replicate 144 8 ++ List.replicate 112 9 ++ List.replicate 24 7 ++ List.replicate 8 8

def fixedDistances : List Nat := List.replicate 32 5

def shortLengths? : Nat → Bits → Option (List Nat × Bits)
  | 0, s => some ([], s)
  | n + 1, s => do
      let (l, s) ← s.number? 3
      let (ls, s) ← shortLengths? n s
      some (l :: ls, s)

def lengths? (code : Code) (count : Nat) : Nat → List Nat → Bits → Option (List Nat × Bits)
  | 0, _, _ => none
  | fuel + 1, seen, s =>
      if seen.length = count then some (seen.reverse, s)
      else if count < seen.length then none
      else do
        let (symbol, s) ← code.decode? s
        if symbol < 16 then lengths? code count fuel (symbol :: seen) s
        else if symbol = 16 then
          let last ← seen.head?
          let (more, s) ← s.number? 2
          lengths? code count fuel (List.replicate (3 + more) last ++ seen) s
        else if symbol = 17 then
          let (more, s) ← s.number? 3
          lengths? code count fuel (List.replicate (3 + more) 0 ++ seen) s
        else
          let (more, s) ← s.number? 7
          lengths? code count fuel (List.replicate (11 + more) 0 ++ seen) s

/-- The two codes described at the head of a block. There has to be a word for the end of the block,
and there are no words for symbols that stand for nothing. -/
def describedCodes? (s : Bits) : Option (Code × Code × Bits) := do
  let (literals, s) ← s.number? 5
  let (distances, s) ← s.number? 5
  let (short, s) ← s.number? 4
  guard (literals ≤ 29 ∧ distances ≤ 29)
  let (listed, s) ← shortLengths? (short + 4) s
  let lengthOf (symbol : Nat) : Nat :=
    (((lengthOrder.zip listed).find? fun p => p.1 = symbol).map Prod.snd).getD 0
  let code ← Code.canonical? ((List.range 19).map lengthOf)
  let total := literals + 257 + (distances + 1)
  let (lengths, s) ← lengths? code total (total + 1) [] s
  if lengths.getD 256 0 = 0 then none
  else
    let literalCode ← Code.canonical? (lengths.take (literals + 257))
    let distanceCode ← Code.canonicalOrSmall? (lengths.drop (literals + 257))
    some (literalCode, distanceCode, s)

def blocks? : Nat → Bits → Array UInt8 → Option (Bits × Array UInt8)
  | 0, _, _ => none
  | fuel + 1, s, out => do
      let (last, s) ← s.next?
      let (kind, s) ← s.number? 2
      let (s, out) ←
        if kind = 0 then stored? s.align out
        else if kind = 1 then do
          let literals ← Code.canonical? fixedLiterals
          let distances ← Code.canonical? fixedDistances
          words? literals distances (s.size + 1) s out
        else if kind = 2 then do
          let (literals, distances, s) ← describedCodes? s
          words? literals distances (s.size + 1) s out
        else none
      if last then some (s, out) else blocks? fuel s out

def inflate? (bytes : List UInt8) : Option (Bits × Array UInt8) :=
  let s := Bits.ofBytes bytes
  blocks? (s.size + 1) s #[]

end LedWall.Flate
