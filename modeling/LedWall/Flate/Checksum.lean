/-!
# Checksums

The two checksums of compressed images: a cyclic redundancy check over each chunk and a pair of
modular sums over the uncompressed data.
-/

namespace LedWall.Flate

def crcBit (crc : UInt32) : UInt32 :=
  if crc &&& 1 = 1 then (0xEDB88320 : UInt32) ^^^ (crc >>> 1) else crc >>> 1

def crcByte (crc : UInt32) (b : UInt8) : UInt32 :=
  crcBit <| crcBit <| crcBit <| crcBit <| crcBit <| crcBit <| crcBit <| crcBit <|
    crc ^^^ b.toUInt32

/-- The reflected 32-bit cyclic redundancy check with polynomial `0x04C11DB7`. -/
def crc32 (bytes : List UInt8) : UInt32 :=
  bytes.foldl crcByte 0xFFFFFFFF ^^^ 0xFFFFFFFF

/-- The sum of the bytes and the sum of its running values, both modulo 65521. -/
def adler32 (bytes : List UInt8) : UInt32 :=
  let (a, b) := bytes.foldl (fun (s : Nat × Nat) byte =>
    let a := (s.1 + byte.toNat) % 65521
    (a, (s.2 + a) % 65521)) (1, 0)
  UInt32.ofNat (b * 65536 + a)

def bigEndian (n : UInt32) : List UInt8 :=
  [UInt8.ofNat (n.toNat / 16777216), UInt8.ofNat (n.toNat / 65536), UInt8.ofNat (n.toNat / 256),
    UInt8.ofNat n.toNat]

def ofBigEndian (a b c d : UInt8) : UInt32 :=
  UInt32.ofNat (a.toNat * 16777216 + b.toNat * 65536 + c.toNat * 256 + d.toNat)

theorem ofBigEndian_bigEndian (n : UInt32) {a b c d : UInt8} (h : bigEndian n = [a, b, c, d]) :
    ofBigEndian a b c d = n := by
  simp only [bigEndian, List.cons.injEq, and_true] at h
  obtain ⟨rfl, rfl, rfl, rfl⟩ := h
  apply UInt32.toNat_inj.mp
  have := n.toNat_lt
  simp only [ofBigEndian, UInt8.toNat_ofNat', UInt32.toNat_ofNat']
  omega

end LedWall.Flate
