import LedWall.Files.Basic

/-!
# Files in memory

A file system inside the program. The root is a directory; everything else is there only if it was
made. A path is followed name by name, so that each name but the last has to lead to a directory,
also when the next one leads back up.
-/

namespace LedWall

inductive FileEntry where
  | directory
  | file (bytes : List UInt8)
deriving DecidableEq

/-- Entries by the names that lead to them from the root, and the working directory. -/
structure MemoryFiles where
  working : List String
  entries : List (List String × FileEntry)

namespace MemoryFiles

def nameLimit : Nat := 255

def pathLimit : Nat := 4095

def entry? (f : MemoryFiles) (place : List String) : Option FileEntry :=
  if place = [] then some .directory else f.entries.lookup place

def put (f : MemoryFiles) (place : List String) (entry : FileEntry) : MemoryFiles :=
  { f with entries := (place, entry) :: f.entries.filter fun e => e.1 ≠ place }

def start (f : MemoryFiles) (path : String) : List String :=
  if Files.isAbsolute path then [] else f.working

/-- The place that a name leads to from a directory; nothing has to stand there. -/
def follow (f : MemoryFiles) (place : List String) (name : String) :
    Except ReadFailure (List String) :=
  match f.entry? place with
  | none => .error .missing
  | some (.file _) => .error (.other "not a directory")
  | some .directory =>
      if name = ".." then .ok place.dropLast
      else if nameLimit < name.utf8ByteSize then .error (.other "the name is too long")
      else .ok (place ++ [name])

def misfit? (path : String) : Option ReadFailure :=
  if path.toList.contains '\x00' then some (.other "unfit path")
  else if path = "" then some .missing
  else if pathLimit < path.utf8ByteSize then some (.other "the path is too long")
  else none

/-- The place that a path leads to; only its last name may be missing. -/
def reach (f : MemoryFiles) (path : String) : Except ReadFailure (List String) :=
  match misfit? path with
  | some failure => .error failure
  | none => (Files.names path).foldlM f.follow (f.start path)

def namesDirectory (path : String) : Bool :=
  match path.toList.reverse with
  | '/' :: _ => true
  | ['.'] => true
  | '.' :: '/' :: _ => true
  | ['.', '.'] => true
  | '.' :: '.' :: '/' :: _ => true
  | _ => false

def readText (f : MemoryFiles) (path : String) : Except ReadFailure String := do
  let place ← f.reach path
  match f.entry? place with
  | none => .error .missing
  | some .directory => .error (.other "is a directory")
  | some (.file bytes) =>
      if namesDirectory path then .error (.other "not a directory")
      else
        match String.fromUTF8? ⟨bytes.toArray⟩ with
        | some text => .ok text
        | none => .error (.other "invalid text")

/-- Makes the directories that are missing on the way along some names. What was made stays when the
way ends early. -/
def makeAlong (f : MemoryFiles) (place : List String) : List String → Except String Unit × MemoryFiles
  | [] => (.ok (), f)
  | name :: names =>
      match f.follow place name with
      | .error failure => (.error failure.reason, f)
      | .ok next =>
          match f.entry? next with
          | some .directory => makeAlong f next names
          | some (.file _) => (.error "a file is in the way", f)
          | none => makeAlong (f.put next .directory) next names

def makeAll (f : MemoryFiles) (path : String) : Except String Unit × MemoryFiles :=
  match misfit? path with
  | some .missing => (.ok (), f)
  | some failure => (.error failure.reason, f)
  | none => f.makeAlong (f.start path) (Files.names path)

def writeBytes (f : MemoryFiles) (path : String) (bytes : List UInt8) :
    Except String MemoryFiles := do
  let place ← (f.reach path).mapError ReadFailure.reason
  if f.entry? place = some .directory ∨ namesDirectory path then .error "is a directory"
  else .ok (f.put place (.file bytes))

def write (path text : String) : StateM MemoryFiles (Except String Unit) := fun f =>
  match f.writeBytes path text.toUTF8.data.toList with
  | .ok f => (.ok (), f)
  | .error reason => (.error reason, f)

instance : Files (StateM MemoryFiles) where
  read path f := (f.readText path, f)
  makeDirectory path f := f.makeAll path
  write := write

end MemoryFiles

end LedWall
