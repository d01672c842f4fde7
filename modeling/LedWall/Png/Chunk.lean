import LedWall.Flate.Checksum
import LedWall.Png.Fault

/-!
# Chunks

An image file is a signature and a row of chunks: a length, a four-letter kind, the data and a
checksum over kind and data. A wrong checksum is passed over only if the kind starts with a lower
case letter, which marks what a reader may do without.
-/

namespace LedWall.Png

open Flate

def signature : List UInt8 := [0x89, 0x50, 0x4E, 0x47, 0x0D, 0x0A, 0x1A, 0x0A]

/-- A kind of chunk: four letters in ASCII. -/
abbrev Kind := List UInt8

namespace Kind

def header : Kind := [0x49, 0x48, 0x44, 0x52]

def palette : Kind := [0x50, 0x4C, 0x54, 0x45]

def transparency : Kind := [0x74, 0x52, 0x4E, 0x53]

def gamma : Kind := [0x67, 0x41, 0x4D, 0x41]

def primaries : Kind := [0x63, 0x48, 0x52, 0x4D]

def intent : Kind := [0x73, 0x52, 0x47, 0x42]

def density : Kind := [0x70, 0x48, 0x59, 0x73]

def data : Kind := [0x49, 0x44, 0x41, 0x54]

def finish : Kind := [0x49, 0x45, 0x4E, 0x44]

def isOptional (kind : Kind) : Bool := (kind.headD 0) &&& 32 ≠ 0

end Kind

structure Chunk where
  kind : Kind
  data : List UInt8

namespace Chunk

def bytes (c : Chunk) : List UInt8 :=
  bigEndian (UInt32.ofNat c.data.length) ++ c.kind ++ c.data ++ bigEndian (crc32 (c.kind ++ c.data))

structure Reading where
  chunk : Chunk
  sound : Bool
  rest : List UInt8

def body? (length : Nat) (bytes : List UInt8) : Option Reading :=
  let kind := bytes.take 4
  let data := (bytes.drop 4).take length
  match (bytes.drop 4).drop length with
  | e :: f :: g :: h :: rest =>
      if data.length = length then
        some ⟨⟨kind, data⟩, ofBigEndian e f g h = crc32 (kind ++ data), rest⟩
      else none
  | _ => none

def read? : List UInt8 → Option Reading
  | a :: b :: c :: d :: rest => body? (ofBigEndian a b c d).toNat rest
  | _ => none

/-- The kind of the chunk at the head of some bytes, as far as length and kind are there. -/
def kind? (bytes : List UInt8) : Option Kind :=
  if 8 ≤ bytes.length then some ((bytes.drop 4).take 4) else none

end Chunk

end LedWall.Png
