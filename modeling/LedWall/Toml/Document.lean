import LedWall.Toml.Statement

/-!
# TOML documents

Statements build a tree of tables. A table may come into being because a deeper one is named, and can
then get its own header once; a table that has a header, or that is written in a line, is closed to
dotted keys from elsewhere. A header that leads through an array of tables means its last element.
-/

namespace LedWall.Toml

/-- How a table came into being. -/
inductive Origin where
  | header
  | implied
  | dotted
deriving DecidableEq

inductive Node where
  | value (value : Value)
  | table (origin : Origin) (fields : List (String × Node))
  | tables (elements : List (List (String × Node)))

namespace Node

abbrev Fields := List (String × Node)

def Fields.alter (name : String) (change : Option Node → Option Node) : Fields → Option Fields
  | [] => (change none).map fun node => [(name, node)]
  | (n, node) :: fields =>
      if n = name then (change (some node)).map fun node => (n, node) :: fields
      else (alter name change fields).map fun fields => (n, node) :: fields

def onLast (change : Fields → Option Fields) : List Fields → Option (List Fields)
  | [] => none
  | [fields] => (change fields).map fun fields => [fields]
  | fields :: elements => (onLast change elements).map fun elements => fields :: elements

/-- Changes the table that a header means by a name. A table that is missing is implied. -/
def enter (change : Fields → Option Fields) : Option Node → Option Node
  | none => (change []).map fun fields => .table .implied fields
  | some (.table origin fields) => (change fields).map fun fields => .table origin fields
  | some (.tables elements) => (onLast change elements).map .tables
  | some (.value _) => none

def Fields.within (change : Fields → Option Fields) : Path → Fields → Option Fields
  | [], fields => change fields
  | name :: path, fields => fields.alter name (enter (within change path))

def Fields.open (name : String) (fields : Fields) : Option Fields :=
  fields.alter name fun
    | none => some (.table .header [])
    | some (.table .implied fields) => some (.table .header fields)
    | some _ => none

def Fields.push (name : String) (fields : Fields) : Option Fields :=
  fields.alter name fun
    | none => some (.tables [[]])
    | some (.tables elements) => some (.tables (elements ++ [[]]))
    | some _ => none

/-- Adds a new value under a dotted key. The table in which it ends must come from dotted keys too, and
those on the way must have no header of their own. -/
def Fields.assign (value : Value) (isOpen : Bool) : Path → Fields → Option Fields
  | [], _ => none
  | [name], fields =>
      if isOpen then
        fields.alter name fun
          | none => some (.value value)
          | some _ => none
      else none
  | name :: path, fields =>
      fields.alter name fun
        | none => (assign value true path []).map fun fields => .table .dotted fields
        | some (.table origin fields) =>
            if origin = .header then none
            else
              (assign value (origin = .dotted) path fields).map fun fields => .table origin fields
        | some (.tables elements) => (onLast (assign value false path) elements).map .tables
        | some (.value _) => none

mutual

def toValue : Node → Value
  | value v => v
  | table _ fields => .table (fieldValues fields)
  | tables elements => .array (elementValues elements)

def fieldValues : List (String × Node) → Table
  | [] => []
  | (name, node) :: fields => (name, node.toValue) :: fieldValues fields

def elementValues : List (List (String × Node)) → List Value
  | [] => []
  | fields :: elements => .table (fieldValues fields) :: elementValues elements

end

end Node

def inlineTable? (assignments : List (Path × Value)) : Option Value :=
  (assignments.foldlM (fun fields (path, value) => Node.Fields.assign value true path fields)
    ([] : Node.Fields)).map fun fields => .table (Node.fieldValues fields)

def valueWithin : Nat → Reader Value
  | room, '[' :: s =>
      match room with
      | 0 => none
      | room + 1 => (elements (valueWithin room) s).map fun (vs, rest) => (.array vs, rest)
  | room, '\x7b' :: s =>
      match room with
      | 0 => none
      | room + 1 => do
          let (assignments, rest) ← inlineAssignments (valueWithin room) s
          let value ← inlineTable? assignments
          return (value, rest)
  | _, s => scalar s

def value : Reader Value := valueWithin (depthLimit - 1)

def statement : Reader Statement
  | '[' :: '[' :: s => do
      let (path, rest) ← keyPath s
      match rest with
      | ']' :: ']' :: rest => return (.element path, rest)
      | _ => none
  | '[' :: s => do
      let (path, rest) ← keyPath s
      match rest with
      | ']' :: rest => return (.table path, rest)
      | _ => none
  | s => do
      let ((path, value), rest) ← assignment value s
      return (.field path value, rest)

def statementsWithin : Nat → List Char → Option (List Statement)
  | 0, _ => none
  | steps + 1, s =>
      match skipSpace s with
      | [] => some []
      | s =>
          match nextLine? s with
          | some rest => statementsWithin steps rest
          | none => do
              let (x, rest) ← statement s
              let xs ← statementsWithin steps (← nextLine? rest)
              return x :: xs

def statements (s : List Char) : Option (List Statement) := statementsWithin (s.length + 1) s

structure Draft where
  fields : Node.Fields
  current : Path

namespace Draft

def empty : Draft := ⟨[], []⟩

def add (d : Draft) : Statement → Option Draft
  | .table path =>
      match path.getLast? with
      | none => none
      | some name => (d.fields.within (·.open name) path.dropLast).map fun fields => ⟨fields, path⟩
  | .element path =>
      match path.getLast? with
      | none => none
      | some name => (d.fields.within (·.push name) path.dropLast).map fun fields => ⟨fields, path⟩
  | .field path value =>
      (d.fields.within (Node.Fields.assign value true path) d.current).map fun fields => ⟨fields, d.current⟩

end Draft

def tableOf? (xs : List Statement) : Option Table :=
  (xs.foldlM Draft.add .empty).map fun d => Node.fieldValues d.fields

/-- Reads a document. A byte order mark before it does not count. -/
def parse? (text : String) : Option Table :=
  let s := match text.toList with
    | '\ufeff' :: s => s
    | s => s
  (statements s).bind tableOf?

end LedWall.Toml
