import LedWall.Toml.Statement

/-!
# Writing TOML documents

Every statement has a line of its own, and headers an empty line before them. Arrays of at least two
elements have a line for each. In a table the fields that fit behind their names come first; tables and
arrays of tables follow under headers.
-/

namespace LedWall.Toml

def writtenKey (key : String) : List Char :=
  let cs := key.toList
  if cs ≠ [] ∧ cs.all isBareKey then cs
  else if StringForm.choose cs = .literal then writtenIn .literal cs
  else writtenIn .basic cs

def writtenPath (path : Path) : List Char := ['.'].intercalate (path.map writtenKey)

mutual

def writtenValue : Value → List Char
  | .string text => writtenString text.toList
  | .integer n => (toString n).toList
  | .float spelling => spelling.toList
  | .boolean b => (if b then "true" else "false").toList
  | .dateTime spelling => spelling.toList
  | .array [] => ['[', ']']
  | .array [v] => ['['] ++ writtenValue v ++ [']']
  | .array (v :: w :: vs) => ['[', '\n'] ++ writtenElements (v :: w :: vs) ++ [']']
  | .table fields => ['\x7b'] ++ writtenFields true fields ++ ['\x7d']

def writtenElements : List Value → List Char
  | [] => []
  | v :: vs => "    ".toList ++ writtenValue v ++ [',', '\n'] ++ writtenElements vs

def writtenFields (first : Bool) : List (String × Value) → List Char
  | [] => if first then [] else [' ']
  | (name, v) :: fields =>
      (if first then [' '] else [',', ' ']) ++ writtenKey name ++ " = ".toList ++
        writtenValue v ++ writtenFields false fields

end

def Statement.written : Statement → List Char
  | .table path => ['['] ++ writtenPath path ++ [']', '\n']
  | .element path => ['[', '['] ++ writtenPath path ++ [']', ']', '\n']
  | .field path value => writtenPath path ++ " = ".toList ++ writtenValue value ++ ['\n']

def Statement.isHeader : Statement → Bool
  | .field .. => false
  | _ => true

def render (xs : List Statement) : String :=
  match xs with
  | [] => ""
  | x :: xs =>
      String.ofList (x.written ++ xs.flatMap fun x =>
        if x.isHeader then '\n' :: x.written else x.written)

def Value.isTable : Value → Bool
  | .table _ => true
  | _ => false

def Value.isInline : Value → Bool
  | .table _ => false
  | .array elements => elements.isEmpty || !elements.all isTable
  | _ => true

def inlineFields (t : Table) : List Statement :=
  (t.filter fun field => field.2.isInline).map fun field => .field [field.1] field.2

/-- The header of a table. A table that has nothing but tables inside needs none. -/
def Value.header (path : Path) : Value → List Statement
  | .table fields =>
      if fields ≠ [] ∧ inlineFields fields = [] then [] else [.table path]
  | _ => []

mutual

def Value.under (path : Path) : Value → List Statement
  | .table fields => inlineFields fields ++ fieldsUnder path fields
  | .array elements => elementsUnder path elements
  | _ => []

def fieldsUnder (path : Path) : List (String × Value) → List Statement
  | [] => []
  | (name, v) :: fields =>
      (if v.isInline then [] else v.header (path ++ [name]) ++ v.under (path ++ [name])) ++
        fieldsUnder path fields

def elementsUnder (path : Path) : List Value → List Statement
  | [] => []
  | v :: vs => .element path :: v.under path ++ elementsUnder path vs

end

def Table.statements (t : Table) : List Statement := (Value.table t).under []

mutual

def Value.fits : Value → Bool
  | .integer n => minInteger ≤ n && n ≤ maxInteger
  | .array elements => elementsFit elements
  | .table fields => fieldsFit fields
  | _ => true

def elementsFit : List Value → Bool
  | [] => true
  | v :: vs => v.fits && elementsFit vs

def fieldsFit : List (String × Value) → Bool
  | [] => true
  | (_, v) :: fields => v.fits && fieldsFit fields

end

def write? (t : Table) : Option String := if fieldsFit t then some (render t.statements) else none

end LedWall.Toml
