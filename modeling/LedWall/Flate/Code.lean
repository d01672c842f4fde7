import LedWall.Flate.Bits

/-!
# Prefix codes

A code is a binary tree with symbols at its leaves; a compressed stream gives only the length of
each symbol's word, and the words follow in canonical order.
-/

namespace LedWall.Flate

/-- A binary tree of code words; `empty` marks words that belong to no symbol. -/
inductive Code where
  | empty
  | leaf (symbol : Nat)
  | node (zero one : Code)

namespace Code

def decode? : Code → Bits → Option (Nat × Bits)
  | empty, _ => none
  | leaf symbol, s => some (symbol, s)
  | node zero one, s =>
      match s.next? with
      | some (false, s) => zero.decode? s
      | some (true, s) => one.decode? s
      | none => none

def insert (symbol : Nat) : List Bool → Code → Code
  | [], _ => leaf symbol
  | false :: word, node zero one => node (insert symbol word zero) one
  | true :: word, node zero one => node zero (insert symbol word one)
  | false :: word, _ => node (insert symbol word empty) empty
  | true :: word, _ => node empty (insert symbol word empty)

def word (length value : Nat) : List Bool :=
  (List.range length).map fun i => value.testBit (length - 1 - i)

def insertLength (lengths : List Nat) (length : Nat) (start : Nat × Code) : Nat × Code :=
  lengths.zipIdx.foldl (fun (first, code) (l, symbol) =>
    if l = length then (first + 1, code.insert symbol (word length first)) else (first, code)) start

/-- Puts in the words of every length, shorter ones first and within one length in the order of the
symbols, where zero means no word. Gives the number of words of the greatest length that are used up
and the tree, unless the words do not fit. -/
def fill? (lengths : List Nat) : Option (Nat × Code) :=
  (List.range' 1 15).foldlM (fun (first, code) length =>
    let filled := insertLength lengths length (2 * first, code)
    if filled.1 ≤ 1 <<< length then some filled else none) (0, empty)

def canonical? (lengths : List Nat) : Option Code :=
  match fill? lengths with
  | some (used, code) => if used = 1 <<< 15 then some code else none
  | none => none

/-- The same for codes that may go unused: there may be no word at all, or a single one of one
bit. -/
def canonicalOrSmall? (lengths : List Nat) : Option Code :=
  match lengths.filter (· ≠ 0) with
  | [] => some empty
  | [1] => some (insertLength lengths 1 (0, empty)).2
  | _ => canonical? lengths

end Code

end LedWall.Flate
