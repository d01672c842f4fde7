/-!
# Files

Reading and writing whole text files. Paths are texts with slashes between names.
-/

namespace LedWall

inductive ReadFailure where
  | missing
  | other (reason : String)
deriving DecidableEq

def ReadFailure.reason : ReadFailure → String
  | missing => "no such file or directory"
  | other reason => reason

/-- A file system, with effects in `m`. Failures come with a reason in words. -/
class Files (m : Type → Type) where
  read : String → m (Except ReadFailure String)
  /-- Makes a directory and those that it is in, as far as they are not there. -/
  makeDirectory : String → m (Except String Unit)
  write : String → String → m (Except String Unit)

namespace Files

def inside (directory name : String) : String :=
  if directory = "" ∨ directory.toList.getLast? = some '/' then directory ++ name
  else directory ++ "/" ++ name

def namesFrom : List Char → List Char → List String
  | [], name => [String.ofList name.reverse]
  | '/' :: s, name => String.ofList name.reverse :: namesFrom s []
  | c :: s, name => namesFrom s (c :: name)

def names (path : String) : List String :=
  (namesFrom path.toList []).filter fun name => name ≠ "" ∧ name ≠ "."

def isAbsolute (path : String) : Bool := path.toList.head? = some '/'

/-- The directory that the last name of a path is in; the empty path stands for the working
directory. -/
def parent? (path : String) : Option String :=
  match names path with
  | [] => none
  | all =>
      let way := String.intercalate "/" all.dropLast
      some (if isAbsolute path then "/" ++ way else way)

end Files

end LedWall
