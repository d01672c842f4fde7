/-!
# Values of TOML documents
-/

namespace LedWall.Toml

/-- A value. Fractions and dates keep their spelling, as nothing here computes with them. -/
inductive Value where
  | string (text : String)
  | integer (value : Int)
  | float (spelling : String)
  | boolean (value : Bool)
  | dateTime (spelling : String)
  | array (elements : List Value)
  | table (fields : List (String × Value))
deriving Inhabited

abbrev Table := List (String × Value)

def Table.get? (t : Table) (name : String) : Option Value := t.lookup name

def maxInteger : Int := 9223372036854775807

def minInteger : Int := -9223372036854775808

namespace Value

def string? : Value → Option String
  | .string text => some text
  | _ => none

def boolean? : Value → Option Bool
  | .boolean value => some value
  | _ => none

def array? : Value → Option (List Value)
  | .array elements => some elements
  | _ => none

def natUpTo? (limit : Nat) : Value → Option Nat
  | .integer (.ofNat n) => if n ≤ limit then some n else none
  | _ => none

end Value

end LedWall.Toml
