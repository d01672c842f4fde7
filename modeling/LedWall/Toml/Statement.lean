import LedWall.Toml.DateTime
import LedWall.Toml.StringForm
import LedWall.Toml.Value

/-!
# Statements of TOML documents

A document is a list of statements, each on lines of its own: the header of a table, the header of an
element of an array of tables, or a field of the table whose header came last. This module reads
statements; what they say together is for the document.
-/

namespace LedWall.Toml

abbrev Path := List String

inductive Statement where
  | table (path : Path)
  | element (path : Path)
  | field (path : Path) (value : Value)

/-- Paths of so many keys, and values nested so deep, are not accepted any more. -/
def depthLimit : Nat := 80

def isBareKey (c : Char) : Bool := c.isAlphanum || c = '_' || c = '-'

def simpleKey : Reader String := fun s =>
  match s.takeWhile isBareKey with
  | [] => lineString s
  | cs => some (String.ofList cs, s.dropWhile isBareKey)

def keysWithin : Nat → Reader Path
  | 0, _ => none
  | room + 1, s => do
      let (key, rest) ← simpleKey (skipSpace s)
      match skipSpace rest with
      | '.' :: rest =>
          let (keys, rest) ← keysWithin room rest
          return (key :: keys, rest)
      | rest => return ([key], rest)

def keyPath : Reader Path := keysWithin (depthLimit - 1)

def elementsWithin {α : Type} (item : Reader α) : Nat → Reader (List α)
  | 0, _ => none
  | steps + 1, s =>
      match skipFiller s with
      | ']' :: rest => some ([], rest)
      | s => do
          let (x, rest) ← item s
          match skipFiller rest with
          | ']' :: rest => return ([x], rest)
          | ',' :: rest =>
              let (xs, rest) ← elementsWithin item steps rest
              return (x :: xs, rest)
          | _ => none

/-- Reads values with commas between them, which may lie on several lines, and the closing bracket.
There cannot be more values than characters. -/
def elements {α : Type} (item : Reader α) : Reader (List α) := fun s =>
  elementsWithin item (s.length + 1) s

def assignment (item : Reader Value) : Reader (Path × Value) := fun s => do
  let (path, rest) ← keyPath s
  match rest with
  | '=' :: rest =>
      let (value, rest) ← item (skipSpace rest)
      return ((path, value), rest)
  | _ => none

def assignmentsWithin (item : Reader Value) : Nat → Reader (List (Path × Value))
  | 0, _ => none
  | steps + 1, s => do
      let (x, rest) ← assignment item s
      match skipSpace rest with
      | '\x7d' :: rest => return ([x], rest)
      | ',' :: rest =>
          let (xs, rest) ← assignmentsWithin item steps rest
          return (x :: xs, rest)
      | _ => none

def inlineAssignments (item : Reader Value) : Reader (List (Path × Value)) := fun s =>
  match skipSpace s with
  | '\x7d' :: rest => some ([], rest)
  | s => assignmentsWithin item (s.length + 1) s

def boolean : Reader Value := fun s =>
  ((expect? "true".toList s).map fun s => (.boolean true, s)).or
    ((expect? "false".toList s).map fun s => (.boolean false, s))

def integerInRange : Reader Value := fun s => do
  let (n, rest) ← integerLiteral s
  if minInteger ≤ n ∧ n ≤ maxInteger then some (.integer n, rest) else none

def scalar : Reader Value := fun s =>
  ((stringLiteral s).map fun (text, rest) => (Value.string text, rest)).or <|
    (boolean s).or <|
      ((dateTimeLiteral s).map fun (text, rest) => (Value.dateTime text, rest)).or <|
        ((floatLiteral s).map fun (text, rest) => (Value.float text, rest)).or <|
          integerInRange s

end LedWall.Toml
