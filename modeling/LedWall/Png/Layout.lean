import LedWall.Color
import LedWall.Flate.Checksum
import LedWall.Png.Fault

/-!
# Pixel layouts

What the header of an image says about its pixels: the size, how many bits a sample has, which
samples make a pixel, and in how many passes the rows come.
-/

namespace LedWall.Png

open Flate

inductive Samples where
  | grey
  | rgb
  | palette
  | greyAlpha
  | rgbAlpha
deriving DecidableEq

namespace Samples

def ofByte? (b : UInt8) : Option Samples :=
  if b = 0 then some grey
  else if b = 2 then some rgb
  else if b = 3 then some palette
  else if b = 4 then some greyAlpha
  else if b = 6 then some rgbAlpha
  else none

def count : Samples → Nat
  | grey => 1
  | rgb => 3
  | palette => 1
  | greyAlpha => 2
  | rgbAlpha => 4

def depths : Samples → List Nat
  | grey => [1, 2, 4, 8, 16]
  | rgb => [8, 16]
  | palette => [1, 2, 4, 8]
  | greyAlpha => [8, 16]
  | rgbAlpha => [8, 16]

end Samples

structure Layout where
  width : UInt32
  height : UInt32
  depth : Nat
  samples : Samples
  interlaced : Bool

/-- A pass over an image: every `across`-th column from `left` of every `down`-th row from `top`. -/
structure Pass where
  left : Nat
  top : Nat
  across : Nat
  down : Nat

namespace Pass

def columns (p : Pass) (width : Nat) : Nat := (width - p.left + p.across - 1) / p.across

def rows (p : Pass) (height : Nat) : Nat := (height - p.top + p.down - 1) / p.down

end Pass

namespace Layout

/-- Reads the data of the header chunk, of which no more than the first thirteen bytes count. -/
def read? : List UInt8 → Option Layout
  | a :: b :: c :: d :: e :: f :: g :: h :: depth :: colour :: compression :: filter ::
      interlace :: _ => do
      let samples ← Samples.ofByte? colour
      let width := ofBigEndian a b c d
      let height := ofBigEndian e f g h
      if width ≠ 0 ∧ height ≠ 0 ∧ depth.toNat ∈ samples.depths ∧ compression = 0 ∧ filter = 0 ∧
          interlace ≤ 1 then
        some ⟨width, height, depth.toNat, samples, interlace = 1⟩
      else none
  | _ => none

def rgbBytes (width height : UInt32) : List UInt8 :=
  bigEndian width ++ bigEndian height ++ [8, 2, 0, 0, 0]

def passes (l : Layout) : List Pass :=
  if l.interlaced then
    [⟨0, 0, 8, 8⟩, ⟨4, 0, 8, 8⟩, ⟨0, 4, 4, 8⟩, ⟨2, 0, 4, 4⟩, ⟨0, 2, 2, 4⟩, ⟨1, 0, 2, 2⟩, ⟨0, 1, 1, 2⟩]
  else [⟨0, 0, 1, 1⟩]

def rowBytes (l : Layout) (columns : Nat) : Nat :=
  (columns * l.samples.count * l.depth + 7) / 8

def neighbourDistance (l : Layout) : Nat := max 1 (l.samples.count * l.depth / 8)

def passBytes (l : Layout) (p : Pass) : Nat :=
  let columns := p.columns l.width.toNat
  if columns = 0 then 0 else p.rows l.height.toNat * (1 + l.rowBytes columns)

def dataBytes (l : Layout) : Nat := l.passes.foldl (fun n p => n + l.passBytes p) 0

/-- Sample `i` of a row as it is stored; a 16-bit sample is reduced to eight bits, to the nearest. -/
def sample (l : Layout) (row : Array UInt8) (i : Nat) : Nat :=
  if l.depth = 16 then
    ((row.getD (2 * i) 0).toNat * 256 + (row.getD (2 * i + 1) 0).toNat + 128) / 257
  else if l.depth = 8 then (row.getD i 0).toNat
  else
    let bit := i * l.depth
    ((row.getD (bit / 8) 0).toNat >>> (8 - l.depth - bit % 8)) % (1 <<< l.depth)

def brightness (l : Layout) (row : Array UInt8) (i : Nat) : UInt8 :=
  let s := l.sample row i
  UInt8.ofNat (if l.depth < 8 then s * 255 / ((1 <<< l.depth) - 1) else s)

/-- The colour of pixel `i` of a row; transparency is dropped and an index past the end of the
palette is black. -/
def color (l : Layout) (palette row : Array UInt8) (i : Nat) : Color :=
  match l.samples with
  | .grey => let v := l.brightness row i; ⟨v, v, v⟩
  | .greyAlpha => let v := l.brightness row (2 * i); ⟨v, v, v⟩
  | .rgb => ⟨l.brightness row (3 * i), l.brightness row (3 * i + 1), l.brightness row (3 * i + 2)⟩
  | .rgbAlpha =>
      ⟨l.brightness row (4 * i), l.brightness row (4 * i + 1), l.brightness row (4 * i + 2)⟩
  | .palette =>
      let entry := 3 * l.sample row i
      if entry + 3 ≤ palette.size then
        ⟨palette.getD entry 0, palette.getD (entry + 1) 0, palette.getD (entry + 2) 0⟩
      else .black

end Layout

end LedWall.Png
