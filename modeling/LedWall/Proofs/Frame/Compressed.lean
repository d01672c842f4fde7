import LedWall.FrameBuffer
import LedWall.Proofs.Frame.RoundTrip
import LedWall.Proofs.Png.Lossless

/-!
# Compressed frames read back

The header of a compressed frame ends with the one blank that the reader takes, so that the image
behind it is passed to the codec byte for byte. Whatever the codec makes of the bytes, a frame comes
out only if the image has the sides that the header tells.
-/

namespace LedWall.Frame

open Decimal

theorem Scan.channelRange_written {gap : List UInt8} (hgap : ∀ b ∈ gap, isBlank b = true)
    {rest : List UInt8} (h : NoDigitAhead rest) (comments : List (List UInt8)) :
    Scan.channelRange ⟨gap ++ (signedBytes 255 ++ rest), comments⟩ = .ok ⟨rest, comments⟩ := by
  have hfield := Scan.field_signedBytes .channelRange (i := 255) (by decide) hgap h comments
  simp only [Scan.channelRange, hfield, bind, Except.bind, ↓reduceIte]
  rfl

theorem layer_toNat (layer : UInt8) : Frame.layer (layer.toNat : Int) = .ok layer := by
  rw [Frame.layer, layer?_toNat]

section Codec

variable [Png.Codec]

/-- A written header is read up to the first byte of the image, and nothing of the image is taken for
a part of it. -/
theorem parse_q7Bytes (width height : UInt32) (offset : Offset) (payload : List UInt8) :
    parse (q7Bytes width height offset payload) =
      match Png.Codec.read payload with
      | .error fault => .error (.png fault)
      | .ok image =>
          if image.width ≠ width ∨ image.height ≠ height then
            .error (.malformed (.sizeMismatch width height image.width image.height))
          else .ok ⟨.q7, width, height, offset, image.pixels⟩ := by
  have hbytes : (q7Bytes width height offset payload).drop 2 =
      0x0A :: (bytes width.toNat ++ 0x20 :: (bytes height.toNat ++ ([0x0A] ++ (signedBytes 255 ++
        ([0x0A] ++ (signedBytes offset.x.toInt ++ ([0x0A, 0x20] ++ (signedBytes offset.y.toInt ++
          ([0x0A, 0x20] ++ (signedBytes offset.z.toNat ++ 0x0A :: payload)))))))))) := by
    simp [q7Bytes, q7Header, sizeLine, channelLine, compressedMagic, newline, space, signedBytes]
  have hraw : ¬ rawMagic.isPrefixOf (q7Bytes width height offset payload) = true := by
    simp [q7Bytes, q7Header, compressedMagic, rawMagic, List.isPrefixOf]
  have hmagic : compressedMagic.isPrefixOf (q7Bytes width height offset payload) = true := by
    simp [q7Bytes, q7Header, compressedMagic, List.isPrefixOf]
  have hline : ∀ b ∈ ([0x0A] : List UInt8), isBlank b = true := by simp [isBlank]
  have hindent : ∀ b ∈ ([0x0A, 0x20] : List UInt8), isBlank b = true := by simp [isBlank]
  have hspace : ∀ bs, NoDigitAhead (0x20 :: bs) := noDigitAhead_cons (by decide)
  have hend : NoDigitAhead (0x0A :: payload) := noDigitAhead_cons (by decide) _
  have hnextLine : ∀ bs, NoDigitAhead ([0x0A] ++ bs) := noDigitAhead_cons (by decide)
  have hnextIndent : ∀ bs, NoDigitAhead ([0x0A, 0x20] ++ bs) := fun bs =>
    noDigitAhead_cons (by decide) (0x20 :: bs)
  have hz : -9223372036854775808 ≤ (offset.z.toNat : Int) ∧
      (offset.z.toNat : Int) ≤ 9223372036854775807 := by
    have hlt := offset.z.toNat_lt
    omega
  have hdata : Scan.data ⟨0x0A :: payload, []⟩ = .ok payload := rfl
  rw [parse, if_neg hraw, if_pos hmagic, hbytes, parseCompressed]
  simp only [Scan.side_bytes .width width (by decide : isBlank 0x0A = true) (hspace _),
    Scan.side_bytes .height height (by decide : isBlank 0x20 = true) (hnextLine _),
    Scan.channelRange_written hline (hnextLine _),
    Scan.field_signedBytes .x (coordinate_fits offset.x) hline (hnextIndent _),
    Scan.field_signedBytes .y (coordinate_fits offset.y) hindent (hnextIndent _),
    Scan.field_signedBytes .layer hz hindent hend, hdata, layer_toNat, Int32.ofInt_toInt, bind,
    Except.bind]
  cases Png.Codec.read payload with
  | error fault => rfl
  | ok image =>
      dsimp only [pure, Except.pure]
      split <;> rfl

theorem encodeQ7_eq {b : FrameBuffer} {image : List UInt8} (offset : Offset)
    (h : Png.Codec.write b.width b.height b.pixels = .ok image) :
    b.encodeQ7 offset = .ok (q7Bytes b.width b.height offset image) := by
  have hcount := checkCount_eq_ok b.length_pixels
  have himage : b.encodeImage = .ok image := by
    simp only [FrameBuffer.encodeImage, encodeImage, hcount, h, bind, Except.bind]
    rfl
  rw [FrameBuffer.encodeQ7, himage]
  rfl

/-- Reading a written Q7 frame gives back the buffer and its place if the codec is lossless, and from
any other image behind a header comes a frame of exactly the pixels that the header tells or none. -/
theorem q7_round_trip (hcodec : Png.Codec.Lossless) :
    (∀ (b : FrameBuffer) (offset : Offset), ∃ datagram, b.encodeQ7 offset = .ok datagram ∧
      parse datagram = .ok ⟨.q7, b.width, b.height, offset, b.pixels⟩) ∧
    ∀ (width height : UInt32) (offset : Offset) (payload : List UInt8),
      (∀ image, Png.Codec.read payload = .ok image →
        image.width ≠ width ∨ image.height ≠ height →
        parse (q7Bytes width height offset payload) =
          .error (.malformed (.sizeMismatch width height image.width image.height))) ∧
      ∀ frame, parse (q7Bytes width height offset payload) = .ok frame →
        frame.width = width ∧ frame.height = height ∧
          frame.pixels.length = width.toNat * height.toNat := by
  constructor
  · intro b offset
    obtain ⟨image, hwrite, hread⟩ :=
      hcodec ⟨b.width, b.height, b.pixels, b.length_pixels⟩ b.width_pos b.height_pos
    refine ⟨_, encodeQ7_eq offset hwrite, ?_⟩
    rw [parse_q7Bytes, hread]
    simp
  · intro width height offset payload
    rw [parse_q7Bytes]
    constructor
    · intro image hread hsides
      rw [hread]
      exact if_pos hsides
    · intro frame hframe
      cases hread : Png.Codec.read payload with
      | error fault =>
          rw [hread] at hframe
          cases hframe
      | ok image =>
          rw [hread] at hframe
          dsimp only at hframe
          split at hframe
          next => cases hframe
          next hsides =>
            rw [not_or, not_not, not_not] at hsides
            obtain ⟨rfl, rfl⟩ := hsides
            cases hframe
            exact ⟨rfl, rfl, image.length_pixels⟩

end Codec

def twoLamps : FrameBuffer := ⟨⟨2, 1, #[.red, .blue], rfl⟩, 0, false, by decide, by decide⟩

theorem q7_round_trip_twoLamps : Png.Codec.Lossless ∧
    (∃ datagram, twoLamps.encodeQ7 ⟨-1, 2147483647, 255⟩ = .ok datagram ∧
      parse datagram = .ok ⟨.q7, 2, 1, ⟨-1, 2147483647, 255⟩, [.red, .blue]⟩) ∧
    ∃ payload, parse (q7Bytes 1 2 .zero payload) =
      .error (.malformed (.sizeMismatch 1 2 2 1)) := by
  have h := q7_round_trip Png.lossless
  obtain ⟨payload, -, hread⟩ := Png.lossless ⟨2, 1, [.red, .blue], rfl⟩ (by decide) (by decide)
  exact ⟨Png.lossless, h.1 twoLamps _, payload,
    (h.2 1 2 .zero payload).1 _ hread (.inl (by decide))⟩

end LedWall.Frame
