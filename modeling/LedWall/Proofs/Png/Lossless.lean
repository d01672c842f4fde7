import LedWall.Png.Codec
import LedWall.Proofs.Png.Rows

/-!
# Lossless codecs

A codec is lossless if it gives back every image that it has written. The codec of stored rows is.
-/

namespace LedWall.Png

/-- Every image with positive sides is written, and read back as it was. -/
def Codec.Lossless [Codec] : Prop :=
  ∀ image : Image, image.width ≠ 0 → image.height ≠ 0 → ∃ bytes,
    Codec.write image.width image.height image.pixels = .ok bytes ∧ Codec.read bytes = .ok image

theorem ofParts_written (image : Image) (hw : image.width ≠ 0) :
    ofParts ⟨some (.rgb image.width image.height), none, []⟩
      (Flate.Zlib.wrap (plainRows image.width image.pixels)) = .ok image := by
  have hread := readPixels_plainRows hw image.length_pixels #[]
  have hsamples : ¬ ((Layout.rgb image.width image.height).samples = .palette ∧
      (none : Option (List UInt8)).isNone) := by
    rintro ⟨⟨⟩, -⟩
  rw [ofParts]
  dsimp only
  rw [if_neg hsamples, Flate.Zlib.unwrap?_wrap]
  dsimp only
  split
  next e he => cases hread.symm.trans he
  next pixels hpixels =>
    cases hread.symm.trans hpixels
    rfl

theorem decode_signature (bytes : List UInt8) : decode (signature ++ bytes) = (do
    let (h, compressed) ← gather .empty (bytes.length + 1) bytes
    ofParts h compressed) :=
  if_pos rfl

theorem decode_encode (image : Image) (hw : image.width ≠ 0) (hh : image.height ≠ 0) : ∃ bytes,
    encode image.width image.height image.pixels = .ok bytes ∧ decode bytes = .ok image := by
  have hsides : ¬ (image.width = 0 ∨ image.height = 0) := by simp [hw, hh]
  rw [encode, if_neg hsides]
  refine ⟨_, rfl, ?_⟩
  have hwrap : Flate.Zlib.wrap (plainRows image.width image.pixels) ≠ [] := by
    simp [Flate.Zlib.wrap]
  have hbody : ∀ data : List UInt8, signature ++
      Chunk.bytes ⟨Kind.header, Layout.rgbBytes image.width image.height⟩ ++ data ++
        Chunk.bytes ⟨Kind.finish, []⟩ = signature ++
      (Chunk.bytes ⟨Kind.header, Layout.rgbBytes image.width image.height⟩ ++
        (data ++ Chunk.bytes ⟨Kind.finish, []⟩)) := by simp
  have hfuel : ∀ data : List UInt8, ∃ fuel, data.length ≤ fuel ∧
      (Chunk.bytes ⟨Kind.header, Layout.rgbBytes image.width image.height⟩ ++
        (data ++ Chunk.bytes ⟨Kind.finish, []⟩)).length + 1 = fuel + 2 := by
    intro data
    refine ⟨data.length + 36, by simp, ?_⟩
    simp [Chunk.bytes, Layout.rgbBytes, Flate.bigEndian, Kind.header, Kind.finish]
  obtain ⟨fuel, hle, hlength⟩ :=
    hfuel (dataChunks (Flate.Zlib.wrap (plainRows image.width image.pixels)))
  rw [hbody, decode_signature, hlength, gather_written hw hh hwrap hle]
  exact ofParts_written image hw

theorem lossless : Codec.Lossless := decode_encode

end LedWall.Png
