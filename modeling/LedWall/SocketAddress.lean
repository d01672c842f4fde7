import LedWall.Endpoint

/-!
# Socket addresses

Numeric addresses of both families, in their usual spellings. Four decimal numbers make a short
address; eight hexadecimal groups make a long one, in which one row of zero groups may be left out and
the last two groups may be spelled as a short address.
-/

namespace LedWall

inductive IpAddress where
  | v4 (a b c d : UInt8)
  | v6 (groups : List UInt16)
deriving DecidableEq

structure SocketAddress where
  address : IpAddress
  port : UInt16
deriving DecidableEq

namespace IpAddress

def decimalByte? (s : List Char) : Option (UInt8 × List Char) :=
  let ds := s.takeWhile Char.isDigit
  let n := Decimal.value (ds.map fun c => c.toNat - 48)
  if ds = [] ∨ 3 < ds.length ∨ 255 < n ∨ (ds.head? = some '0' ∧ ds.length ≠ 1) then none
  else some (UInt8.ofNat n, s.dropWhile Char.isDigit)

def given? (c : Char) : List Char → Option (List Char)
  | d :: s => if d = c then some s else none
  | [] => none

def dotted? (s : List Char) :
    Option ((UInt8 × UInt8 × UInt8 × UInt8) × List Char) := do
  let (a, s) ← decimalByte? s
  let s ← given? '.' s
  let (b, s) ← decimalByte? s
  let s ← given? '.' s
  let (c, s) ← decimalByte? s
  let s ← given? '.' s
  let (d, s) ← decimalByte? s
  return ((a, b, c, d), s)

def hexDigit? (c : Char) : Option Nat :=
  if c.isDigit then some (c.toNat - 48)
  else if 'a' ≤ c ∧ c ≤ 'f' then some (c.toNat - 87)
  else if 'A' ≤ c ∧ c ≤ 'F' then some (c.toNat - 55)
  else none

def group? (s : List Char) : Option (UInt16 × List Char) :=
  let ds := s.takeWhile fun c => (hexDigit? c).isSome
  if ds = [] ∨ 4 < ds.length then none
  else
    let n := ds.foldl (fun v c => 16 * v + (hexDigit? c).getD 0) 0
    some (UInt16.ofNat n, s.drop ds.length)

def pair (a b : UInt8) : UInt16 := UInt16.ofNat (a.toNat * 256 + b.toNat)

/-- Reads up to `room` groups, which a colon divides; `first` says that none precedes. The flag of the
answer tells whether the last two groups were spelled as a short address. -/
def groups (first : Bool) : Nat → List Char → List UInt16 × Bool × List Char
  | 0, s => ([], false, s)
  | room + 1, s =>
      match if first then some s else given? ':' s with
      | none => ([], false, s)
      | some after =>
          match if room = 0 then none else dotted? after with
          | some ((a, b, c, d), rest) => ([pair a b, pair c d], true, rest)
          | none =>
              match group? after with
              | none => ([], false, s)
              | some (g, rest) =>
                  let (gs, short, rest) := groups false room rest
                  (g :: gs, short, rest)

def long? (s : List Char) : Option (List UInt16 × List Char) :=
  let (front, short, rest) := groups true 8 s
  if front.length = 8 then some (front, rest)
  else if short then none
  else do
    let rest ← given? ':' rest
    let rest ← given? ':' rest
    let (back, _, rest) := groups true (7 - front.length) rest
    return (front ++ List.replicate (8 - front.length - back.length) 0 ++ back, rest)

def parse? (s : String) : Option IpAddress :=
  match dotted? s.toList with
  | some ((a, b, c, d), []) => some (.v4 a b c d)
  | _ =>
      match long? s.toList with
      | some (gs, []) => some (.v6 gs)
      | _ => none

def dottedText (a b c d : UInt8) : String :=
  String.intercalate "." ([a, b, c, d].map fun n => Decimal.text n.toNat)

def groupText (g : UInt16) : String := String.ofList (Nat.toDigits 16 g.toNat)

def joinGroups (gs : List UInt16) : String := String.intercalate ":" (gs.map groupText)

def longestZeros (gs : List UInt16) : Nat × Nat :=
  (List.range gs.length).foldl (fun best i =>
    let run := ((gs.drop i).takeWhile (· = 0)).length
    if best.2 < run then (i, run) else best) (0, 0)

/-- The usual spelling: the longest row of at least two zero groups is left out, and a short address
inside a long one keeps its dots. -/
def text : IpAddress → String
  | v4 a b c d => dottedText a b c d
  | v6 gs =>
      match gs with
      | [0, 0, 0, 0, 0, 0xffff, x, y] =>
          "::ffff:" ++ dottedText (UInt8.ofNat (x.toNat / 256)) (UInt8.ofNat x.toNat)
            (UInt8.ofNat (y.toNat / 256)) (UInt8.ofNat y.toNat)
      | gs =>
          let (start, length) := longestZeros gs
          if 1 < length then
            joinGroups (gs.take start) ++ "::" ++ joinGroups (gs.drop (start + length))
          else joinGroups gs

end IpAddress

namespace SocketAddress

def text (a : SocketAddress) : String :=
  match a.address with
  | .v4 .. => a.address.text ++ ":" ++ Decimal.text a.port.toNat
  | .v6 _ => "[" ++ a.address.text ++ "]:" ++ Decimal.text a.port.toNat

end SocketAddress

def Endpoint.numeric? (e : Endpoint) : Option SocketAddress :=
  (IpAddress.parse? e.host).map fun address => ⟨address, e.port⟩

end LedWall
