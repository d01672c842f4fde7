/-!
# Characters, lines and space of TOML documents
-/

namespace LedWall.Toml

/-- Takes something off the front of a text and gives the rest, or refuses. -/
abbrev Reader (α : Type) := List Char → Option (α × List Char)

def isSpace (c : Char) : Bool := c = ' ' || c = '\t'

def isText (c : Char) : Bool := c = '\t' || (' ' ≤ c && c ≠ '\x7f')

def skipSpace (s : List Char) : List Char := s.dropWhile isSpace

def afterBreak? : List Char → Option (List Char)
  | '\n' :: s => some s
  | '\r' :: '\n' :: s => some s
  | _ => none

/-- The next line, if nothing but space and a comment is left of this one. -/
def nextLine? (s : List Char) : Option (List Char) :=
  let s := match skipSpace s with
    | '#' :: s => s.dropWhile isText
    | s => s
  match s with
  | [] => some []
  | s => afterBreak? s

def fillerFrom : Bool → List Char → List Char
  | _, [] => []
  | _, '\n' :: s => fillerFrom false s
  | _, '\r' :: '\n' :: s => fillerFrom false s
  | true, c :: s => if isText c then fillerFrom true s else c :: s
  | false, c :: s =>
      if c = '#' then fillerFrom true s
      else if isSpace c then fillerFrom false s
      else c :: s

def skipFiller (s : List Char) : List Char := fillerFrom false s

def Reader.orElse {α : Type} (first second : Reader α) : Reader α := fun s =>
  (first s).or (second s)

def expect? : List Char → List Char → Option (List Char)
  | [], s => some s
  | c :: cs, d :: s => if c = d then expect? cs s else none
  | _ :: _, [] => none

def taken (s rest : List Char) : String := String.ofList (s.take (s.length - rest.length))

end LedWall.Toml
