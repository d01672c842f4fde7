import LedWall.Toml.Number

/-!
# Dates and times of TOML documents

A date, a time of day, or both; a date with a time may tell its distance from universal time. Days
exist in their month, and a minute may have a leap second.
-/

namespace LedWall.Toml

def fixedDigits (count : Nat) : Reader Nat := fun s =>
  let ds := s.take count
  if ds.length = count ∧ ds.all Char.isDigit then some (ofDigits 10 ds, s.drop count) else none

def twoDigits (low high : Nat) : Reader Nat := fun s => do
  let (n, s) ← fixedDigits 2 s
  if low ≤ n ∧ n ≤ high then some (n, s) else none

def isLeapYear (year : Nat) : Bool :=
  year % 4 = 0 && (year % 100 ≠ 0 || year % 400 = 0)

def daysInMonth (year month : Nat) : Nat :=
  if month = 2 then (if isLeapYear year then 29 else 28)
  else if month = 4 ∨ month = 6 ∨ month = 9 ∨ month = 11 then 30
  else 31

def date (s : List Char) : Option (List Char) := do
  let (year, s) ← fixedDigits 4 s
  let s ← expect? ['-'] s
  let (month, s) ← twoDigits 1 12 s
  let s ← expect? ['-'] s
  let (_, s) ← twoDigits 1 (daysInMonth year month) s
  return s

def secondFraction : List Char → List Char
  | '.' :: s =>
      match s.takeWhile Char.isDigit with
      | [] => '.' :: s
      | _ => s.dropWhile Char.isDigit
  | s => s

def time (s : List Char) : Option (List Char) := do
  let (_, s) ← twoDigits 0 23 s
  let s ← expect? [':'] s
  let (_, s) ← twoDigits 0 59 s
  let s ← expect? [':'] s
  let (_, s) ← twoDigits 0 60 s
  return secondFraction s

def distance : List Char → Option (List Char)
  | [] => none
  | c :: s =>
      if c = 'Z' ∨ c = 'z' then some s
      else if c = '+' ∨ c = '-' then do
        let (_, s) ← twoDigits 0 23 s
        let s ← expect? [':'] s
        let (_, s) ← twoDigits 0 59 s
        return s
      else none

def timeOfDate (s : List Char) : List Char :=
  match s with
  | c :: r =>
      if c = 'T' ∨ c = 't' ∨ c = ' ' then
        match time r with
        | some r => (distance r).getD r
        | none => s
      else s
  | [] => []

/-- Reads a date, a time or both, and gives the spelling. -/
def dateTimeLiteral : Reader String := fun s =>
  (((date s).map timeOfDate).or (time s)).map fun rest => (taken s rest, rest)

end LedWall.Toml
