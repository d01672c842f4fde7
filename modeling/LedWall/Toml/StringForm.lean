import LedWall.Text.Decimal
import LedWall.Toml.Number

/-!
# Strings of TOML documents

A string is written between double quotes, where escapes are possible, or between apostrophes, where
everything stands for itself. Either mark may be tripled, and then the string may span lines; a line
break right behind the opening mark does not count.
-/

namespace LedWall.Toml

inductive StringForm where
  | basic
  | literal
  | multilineBasic
  | multilineLiteral
deriving DecidableEq

def shortEscape? (c : Char) : Option Char :=
  if c = 'b' then some '\x08'
  else if c = 't' then some '\t'
  else if c = 'n' then some '\n'
  else if c = 'f' then some '\x0c'
  else if c = 'r' then some '\r'
  else if c = '"' then some '"'
  else if c = '\\' then some '\\'
  else none

def isHex (c : Char) : Bool :=
  c.isDigit || ('a' ≤ c && c ≤ 'f') || ('A' ≤ c && c ≤ 'F')

def codePoint? (ds : List Char) : Option Char :=
  let n := ofDigits 16 ds
  if ds.all isHex ∧ n.isValidChar then some (Char.ofNat n) else none

def escapeSequence : Reader Char
  | 'u' :: s =>
      if s.length < 4 then none else (codePoint? (s.take 4)).map fun c => (c, s.drop 4)
  | 'U' :: s =>
      if s.length < 8 then none else (codePoint? (s.take 8)).map fun c => (c, s.drop 8)
  | c :: s => (shortEscape? c).map fun c => (c, s)
  | [] => none

theorem length_of_escapeSequence {s r : List Char} {c : Char}
    (h : escapeSequence s = some (c, r)) : r.length ≤ s.length := by
  unfold escapeSequence at h
  split at h
  · split at h
    · simp at h
    · simp only [Option.map_eq_some_iff, Prod.mk.injEq] at h
      obtain ⟨_, _, _, rfl⟩ := h
      simp; omega
  · split at h
    · simp at h
    · simp only [Option.map_eq_some_iff, Prod.mk.injEq] at h
      obtain ⟨_, _, _, rfl⟩ := h
      simp; omega
  · simp only [Option.map_eq_some_iff, Prod.mk.injEq] at h
    obtain ⟨_, _, _, rfl⟩ := h
    simp
  · simp at h

def basicRest (s : List Char) : Option (List Char × List Char) :=
  match s with
  | [] => none
  | '"' :: s => some ([], s)
  | '\\' :: s =>
      match h : escapeSequence s with
      | none => none
      | some (c, r) =>
          have := length_of_escapeSequence h
          (basicRest r).map fun (cs, rest) => (c :: cs, rest)
  | c :: s => if isText c then (basicRest s).map fun (cs, rest) => (c :: cs, rest) else none
termination_by s.length

def literalRest : List Char → Option (List Char × List Char)
  | [] => none
  | '\x27' :: s => some ([], s)
  | c :: s => if isText c then (literalRest s).map fun (cs, rest) => (c :: cs, rest) else none

def endsLine (s : List Char) : Bool := (afterBreak? (skipSpace s)).isSome

/-- Reads the inside and the end of a basic string of several lines. The flag tells that lines are
being joined, which skips space and line breaks. Up to two quotes may stand right before the end. -/
def multilineBasicRest (joining : Bool) (s : List Char) : Option (List Char × List Char) :=
  match s with
  | [] => none
  | '"' :: '"' :: '"' :: '"' :: '"' :: s => some (['"', '"'], s)
  | '"' :: '"' :: '"' :: '"' :: s => some (['"'], s)
  | '"' :: '"' :: '"' :: s => some ([], s)
  | '\n' :: s =>
      if joining then multilineBasicRest true s
      else (multilineBasicRest false s).map fun (cs, rest) => ('\n' :: cs, rest)
  | '\r' :: '\n' :: s =>
      if joining then multilineBasicRest true s
      else (multilineBasicRest false s).map fun (cs, rest) => ('\n' :: cs, rest)
  | '\\' :: s =>
      if endsLine s then multilineBasicRest true s
      else
        match h : escapeSequence s with
        | none => none
        | some (c, r) =>
            have := length_of_escapeSequence h
            (multilineBasicRest false r).map fun (cs, rest) => (c :: cs, rest)
  | c :: s =>
      if joining && isSpace c then multilineBasicRest true s
      else if isText c then (multilineBasicRest false s).map fun (cs, rest) => (c :: cs, rest)
      else none
termination_by s.length

def multilineLiteralRest : List Char → Option (List Char × List Char)
  | [] => none
  | '\x27' :: '\x27' :: '\x27' :: '\x27' :: '\x27' :: s => some (['\x27', '\x27'], s)
  | '\x27' :: '\x27' :: '\x27' :: '\x27' :: s => some (['\x27'], s)
  | '\x27' :: '\x27' :: '\x27' :: s => some ([], s)
  | '\n' :: s => (multilineLiteralRest s).map fun (cs, rest) => ('\n' :: cs, rest)
  | '\r' :: '\n' :: s => (multilineLiteralRest s).map fun (cs, rest) => ('\n' :: cs, rest)
  | c :: s =>
      if isText c then (multilineLiteralRest s).map fun (cs, rest) => (c :: cs, rest) else none

def asString (r : Option (List Char × List Char)) : Option (String × List Char) :=
  r.map fun (cs, rest) => (String.ofList cs, rest)

def lineString : Reader String
  | '"' :: s => asString (basicRest s)
  | '\x27' :: s => asString (literalRest s)
  | _ => none

def stringLiteral : Reader String
  | '"' :: '"' :: '"' :: s => asString (multilineBasicRest false ((afterBreak? s).getD s))
  | '\x27' :: '\x27' :: '\x27' :: s => asString (multilineLiteralRest ((afterBreak? s).getD s))
  | s => lineString s

def needsEscape (c : Char) : Bool := c ≠ '\t' && c ≠ '\n' && (c < ' ' || c = '\x7f')

def longestRowFrom (c : Char) (best here : Nat) : List Char → Nat
  | [] => best
  | d :: s =>
      let here := if d = c then here + 1 else 0
      longestRowFrom c (max best here) here s

def longestRow (c : Char) (s : List Char) : Nat := longestRowFrom c 0 0 s

namespace StringForm

/-- The form in which a text is written: the first of basic, literal and their multiline forms that
holds it without escapes, or else a basic form. -/
def choose (s : List Char) : StringForm :=
  let plain := !s.any needsEscape
  let breaks := s.any (· = '\n')
  let backslash := s.any (· = '\\')
  if plain && !backslash && longestRow '"' s = 0 && !breaks then .basic
  else if plain && longestRow '\x27' s = 0 && !breaks then .literal
  else if plain && !backslash && longestRow '"' s ≤ 2 then .multilineBasic
  else if plain && longestRow '\x27' s ≤ 2 then .multilineLiteral
  else if breaks then .multilineBasic
  else .basic

def isMultiline : StringForm → Bool
  | basic | literal => false
  | multilineBasic | multilineLiteral => true

def mark : StringForm → List Char
  | basic => ['"']
  | literal => ['\x27']
  | multilineBasic => ['"', '"', '"']
  | multilineLiteral => ['\x27', '\x27', '\x27']

end StringForm

def fourHexDigits (n : Nat) : List Char :=
  let digits := (Nat.toDigits 16 n).map Char.toUpper
  List.replicate (4 - digits.length) '0' ++ digits

def escaped (breaks : Bool) (c : Char) : List Char :=
  if c = '\x08' then ['\\', 'b']
  else if c = '\t' then ['\\', 't']
  else if c = '\n' then (if breaks then ['\n'] else ['\\', 'n'])
  else if c = '\x0c' then ['\\', 'f']
  else if c = '\r' then ['\\', 'r']
  else if c = '\\' then ['\\', '\\']
  else if needsEscape c then ['\\', 'u'] ++ fourHexDigits c.toNat
  else [c]

/-- Writes the inside of a basic string. Of `row` quotes right before, as many as `limit` may stand as
they are; line breaks stay if `breaks` is set. -/
def escapedBasic (limit : Nat) (breaks : Bool) (row : Nat) : List Char → List Char
  | [] => []
  | c :: s =>
      if c = '"' then
        if row < limit then '"' :: escapedBasic limit breaks (row + 1) s
        else '\\' :: '"' :: escapedBasic limit breaks 0 s
      else escaped breaks c ++ escapedBasic limit breaks 0 s

def writtenIn (form : StringForm) (s : List Char) : List Char :=
  let start := if form.isMultiline && s.any (· = '\n') then ['\n'] else []
  let inside := match form with
    | .basic => escapedBasic 0 false 0 s
    | .multilineBasic => escapedBasic 2 true 0 s
    | .literal | .multilineLiteral => s
  form.mark ++ start ++ inside ++ form.mark

def writtenString (s : List Char) : List Char := writtenIn (.choose s) s

end LedWall.Toml
