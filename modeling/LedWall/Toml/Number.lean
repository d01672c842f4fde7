import LedWall.Text.Decimal
import LedWall.Toml.Lexical

/-!
# Numbers of TOML documents

Integers in four bases, and numbers with a fraction or an exponent. Single underscores may stand
between digits.
-/

namespace LedWall.Toml

def wellGrouped : Bool → List Char → Bool
  | afterDigit, [] => afterDigit
  | afterDigit, '_' :: s => afterDigit && wellGrouped false s
  | _, _ :: s => wellGrouped true s

def digitGroups (isDigit : Char → Bool) : Reader (List Char) := fun s =>
  let inRun (c : Char) : Bool := isDigit c || c = '_'
  let run := s.takeWhile inRun
  if wellGrouped false run then some (run.filter (· ≠ '_'), s.dropWhile inRun) else none

def digitValue (c : Char) : Nat :=
  if c.isDigit then c.toNat - 48 else if 'a' ≤ c then c.toNat - 87 else c.toNat - 55

def ofDigits (base : Nat) (ds : List Char) : Nat :=
  ds.foldl (fun n c => base * n + digitValue c) 0

def sign : List Char → Bool × List Char
  | '-' :: s => (true, s)
  | '+' :: s => (false, s)
  | s => (false, s)

def signedDigits : Reader (Bool × List Char) := fun s => do
  let (negative, s) := sign s
  let (ds, s) ← digitGroups Char.isDigit s
  if ds.head? = some '0' ∧ ds.length ≠ 1 then none else some ((negative, ds), s)

def isHexDigit (c : Char) : Bool :=
  c.isDigit || ('a' ≤ c && c ≤ 'f') || ('A' ≤ c && c ≤ 'F')

def unsigned (base : Nat) (isDigit : Char → Bool) : Reader Nat := fun s =>
  (digitGroups isDigit s).map fun (ds, s) => (ofDigits base ds, s)

def integerLiteral : Reader Int
  | '0' :: 'x' :: s => (unsigned 16 isHexDigit s).map fun (n, s) => (n, s)
  | '0' :: 'o' :: s => (unsigned 8 (fun c => '0' ≤ c && c ≤ '7') s).map fun (n, s) => (n, s)
  | '0' :: 'b' :: s => (unsigned 2 (fun c => c = '0' || c = '1') s).map fun (n, s) => (n, s)
  | s => (signedDigits s).map fun ((negative, ds), s) =>
      (if negative then -(ofDigits 10 ds : Int) else ofDigits 10 ds, s)

def fraction : Reader (List Char)
  | '.' :: s => digitGroups Char.isDigit s
  | _ => none

def exponent : Reader Int
  | [] => none
  | c :: s =>
      if c = 'e' ∨ c = 'E' then do
        let (negative, s) := sign s
        let (ds, s) ← digitGroups Char.isDigit s
        return (if negative then -(ofDigits 10 ds : Int) else ofDigits 10 ds, s)
      else none

/-- The least number that rounds to infinity in double precision. -/
def overflowBound : Nat := (1 <<< 1024) - (1 <<< 970)

/-- Whether `mantissa` times ten to the `exponent` is beyond double precision. The bound has 309
digits, so that only numbers with as many are compared in full. -/
def overflows (mantissa : Nat) (exponent : Int) : Bool :=
  let position := (Decimal.digits mantissa).length + exponent
  if mantissa = 0 then false
  else if position < 309 then false
  else if 309 < position then true
  else if 0 ≤ exponent then overflowBound ≤ mantissa * Nat.pow 10 exponent.toNat
  else overflowBound * Nat.pow 10 (-exponent).toNat ≤ mantissa

def finiteFloat : Reader Unit := fun s => do
  let ((negative, whole), s) ← signedDigits s
  let (part, power, s) ←
    match fraction s with
    | some (part, s) =>
        match exponent s with
        | some (power, s) => some (part, power, s)
        | none => some (part, 0, s)
    | none => (exponent s).map fun (power, s) => ([], power, s)
  if !negative && overflows (ofDigits 10 (whole ++ part)) (power - part.length) then none
  else some ((), s)

def specialFloat : Reader Unit := fun s =>
  let (_, s) := sign s
  ((expect? "inf".toList s).or (expect? "nan".toList s)).map fun s => ((), s)

/-- Reads a number with a fraction or an exponent, infinity, or the value that is no number, and gives
its spelling. A positive number must not be so large that it would be infinite. -/
def floatLiteral : Reader String := fun s =>
  (Reader.orElse finiteFloat specialFloat s).map fun (_, rest) => (taken s rest, rest)

end LedWall.Toml
