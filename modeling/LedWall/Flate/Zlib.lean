import LedWall.Bands
import LedWall.Flate.Checksum
import LedWall.Flate.Inflate

/-!
# Compressed data with its envelope

Two header bytes, compressed blocks and a checksum. Writing uses stored blocks only, so every byte
string has a written form that is simple to read back.
-/

namespace LedWall.Flate.Zlib

def storedLimit : Nat := 65535

def storedBlock (last : Bool) (bytes : List UInt8) : List UInt8 :=
  let low := UInt8.ofNat (bytes.length % 256)
  let high := UInt8.ofNat (bytes.length / 256)
  [if last then 1 else 0, low, high, low ^^^ 255, high ^^^ 255] ++ bytes

def storedBlocks : List (List UInt8) → List UInt8
  | [] => storedBlock true []
  | [bytes] => storedBlock true bytes
  | bytes :: more => storedBlock false bytes ++ storedBlocks more

def wrap (bytes : List UInt8) : List UInt8 :=
  [0x78, 0x01] ++ storedBlocks (bands storedLimit bytes) ++ bigEndian (adler32 bytes)

/-- Reads an envelope. The checksum has to be there but is not compared. -/
def unwrap? (bytes : List UInt8) : Option (Array UInt8) :=
  match bytes with
  | method :: flags :: rest =>
      if method &&& 15 = 8 ∧ method >>> 4 ≤ 7 ∧ flags &&& 32 = 0 ∧
          (method.toNat * 256 + flags.toNat) % 31 = 0 then do
        let (s, out) ← inflate? rest
        if 4 ≤ s.rest.length then some out else none
      else none
  | _ => none

end LedWall.Flate.Zlib
