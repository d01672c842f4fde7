import LedWall.Proofs.Frame.Compressed
import LedWall.Proofs.Frame.Grammar

/-!
# Frames in normal form

A frame can be laid out in many ways: with comments, signs and leading zeros, with numbers behind the
pixels or a part of them, as raw pixels or as a compressed image. Whatever was read can be written as
an offset frame, and reading that gives the same frame again.
-/

namespace LedWall.Frame

def normal (f : Frame) : Frame := { f with kind := .offset }

/-- A frame has the pixels that its sides tell, and raw ones are fewer than 64 bits can count. -/
structure Sound (f : Frame) : Prop where
  count : f.pixels.length = f.width.toNat * f.height.toNat
  size : f.kind ≠ .q7 → pixelBytes f.width f.height < 2 ^ 64

theorem sound_of_raw {bs : List UInt8} {f : Frame} (h : parseRaw bs = .ok f) : f.Sound := by
  obtain ⟨header, -, hframe⟩ := bind_eq_ok.mp h
  rcases header.frame_cases with ⟨g, hg, hcomplete, htaken⟩ | hshort | ⟨cause, hcause⟩
  · obtain rfl : f = g := Except.ok.inj (hframe.symm.trans hg)
    have hsize := hcomplete.size
    rw [← htaken.width_eq, ← htaken.height_eq] at hsize
    have hcount := htaken.count
    rw [← htaken.width_eq, ← htaken.height_eq] at hcount
    exact ⟨hcount, fun _ => hsize⟩
  · rw [RawHeader.frame_of_short hshort] at hframe
    cases hframe
  · rw [hcause] at hframe
    cases hframe

section Codec

variable [Png.Codec]

theorem sound_of_compressed {bs : List UInt8} {f : Frame} (h : parseCompressed bs = .ok f) :
    f.Sound := by
  obtain ⟨⟨width, s⟩, -, h⟩ := bind_eq_ok.mp h
  obtain ⟨⟨height, s⟩, -, h⟩ := bind_eq_ok.mp h
  obtain ⟨s, -, h⟩ := bind_eq_ok.mp h
  obtain ⟨⟨x, s⟩, -, h⟩ := bind_eq_ok.mp h
  obtain ⟨⟨y, s⟩, -, h⟩ := bind_eq_ok.mp h
  obtain ⟨⟨z, s⟩, -, h⟩ := bind_eq_ok.mp h
  obtain ⟨data, -, h⟩ := bind_eq_ok.mp h
  cases hread : Png.Codec.read data with
  | error fault =>
      simp only [hread] at h
      cases h
  | ok image =>
      simp only [hread] at h
      by_cases hsides : image.width ≠ width ∨ image.height ≠ height
      · obtain ⟨_, hmismatch, -⟩ := bind_eq_ok.mp ((if_pos hsides).symm.trans h)
        cases hmismatch
      · obtain ⟨layer, -, hf⟩ := bind_eq_ok.mp ((if_neg hsides).symm.trans h)
        obtain rfl := Except.ok.inj hf
        rw [not_or, not_not, not_not] at hsides
        obtain ⟨rfl, rfl⟩ := hsides
        exact ⟨image.length_pixels, fun hkind => absurd rfl hkind⟩

theorem sound_of_parse {bytes : List UInt8} {f : Frame} (h : parse bytes = .ok f) : f.Sound := by
  rw [parse] at h
  by_cases hraw : rawMagic.isPrefixOf bytes = true
  · rw [if_pos hraw] at h
    exact sound_of_raw h
  · rw [if_neg hraw] at h
    by_cases hcompressed : compressedMagic.isPrefixOf bytes = true
    · rw [if_pos hcompressed] at h
      exact sound_of_compressed h
    · rw [if_neg hcompressed] at h
      cases h

/-- A frame that was read has as many pixels as its sides tell, and can be written as an offset frame.
Reading that gives the frame in normal form, however the first bytes were laid out, so that reading,
writing and reading again is reading up to the form. A compressed image whose bytes cannot even be
counted in 64 bits is left out. -/
theorem reparsed_normal (bytes : List UInt8) (himage : ∀ f, parse bytes = .ok f → f.kind = .q7 →
      pixelBytes f.width f.height < 2 ^ 64) :
    (∀ f, parse bytes = .ok f → f.pixels.length = f.width.toNat * f.height.toNat ∧
      ∃ datagram, encodeOffset f.width f.height f.offset f.pixels = .ok datagram ∧
        parse datagram = .ok f.normal) ∧
    (do
      let f ← parse bytes
      let datagram ← encodeOffset f.width f.height f.offset f.pixels
      parse datagram) = (parse bytes).map normal := by
  have hagain : ∀ f, parse bytes = .ok f →
      parse (offsetBytes f.width f.height f.offset f.pixels) = .ok f.normal := by
    intro f hf
    have hsound := sound_of_parse hf
    have hsize : pixelBytes f.width f.height < 2 ^ 64 := by
      by_cases hkind : f.kind = .q7
      · exact himage f hf hkind
      · exact hsound.size hkind
    exact parse_offsetBytes f.offset hsound.count hsize
  constructor
  · intro f hf
    have hsound := sound_of_parse hf
    exact ⟨hsound.count, _, encodeOffset_eq_ok f.offset hsound.count, hagain f hf⟩
  · cases hf : parse bytes with
    | error e => rfl
    | ok f =>
        have hwritten := encodeOffset_eq_ok f.offset (sound_of_parse hf).count
        simp only [hwritten, hagain f hf, bind, Except.bind]
        rfl

end Codec

def untidyBytes : List UInt8 :=
  rawMagic ++ [0x20, 0x23, 0x61, 0x0A, 0x2B, 0x30, 0x31, 0x20, 0x31, 0x0A, 0x32, 0x35, 0x35, 0x20] ++
    [9, 8, 7] ++ [0x20, 0x2D, 0x35, 0x0A, 0x78]

theorem reparsed_normal_untidy :
    (parse untidyBytes = .ok ⟨.offset, 1, 1, ⟨-5, 0, 0⟩, [⟨9, 8, 7⟩]⟩ ∧
      ∃ datagram, encodeOffset 1 1 ⟨-5, 0, 0⟩ [⟨9, 8, 7⟩] = .ok datagram ∧
        parse datagram = .ok ⟨.offset, 1, 1, ⟨-5, 0, 0⟩, [⟨9, 8, 7⟩]⟩) ∧
    ∃ payload, parse (q7Bytes 2 1 ⟨7, -7, 3⟩ payload) =
        .ok ⟨.q7, 2, 1, ⟨7, -7, 3⟩, [.red, .blue]⟩ ∧
      ∃ datagram, encodeOffset 2 1 ⟨7, -7, 3⟩ [.red, .blue] = .ok datagram ∧
        parse datagram = .ok ⟨.offset, 2, 1, ⟨7, -7, 3⟩, [.red, .blue]⟩ := by
  have huntidy : parse untidyBytes = .ok ⟨.offset, 1, 1, ⟨-5, 0, 0⟩, [⟨9, 8, 7⟩]⟩ := by
    decide +kernel
  obtain ⟨payload, -, hread⟩ := Png.lossless ⟨2, 1, [.red, .blue], rfl⟩ (by decide) (by decide)
  have hcompressed : parse (q7Bytes 2 1 ⟨7, -7, 3⟩ payload) =
      .ok ⟨.q7, 2, 1, ⟨7, -7, 3⟩, [.red, .blue]⟩ := by
    rw [parse_q7Bytes, hread]
    exact if_neg (by decide)
  have hsmall : ∀ {bytes : List UInt8} {g : Frame}, parse bytes = .ok g →
      pixelBytes g.width g.height < 2 ^ 64 → ∀ f, parse bytes = .ok f → f.kind = .q7 →
        pixelBytes f.width f.height < 2 ^ 64 := by
    intro bytes g hg hsize f hf _
    obtain rfl := Except.ok.inj (hg.symm.trans hf)
    exact hsize
  exact ⟨⟨huntidy, ((reparsed_normal untidyBytes (hsmall huntidy (by decide))).1 _ huntidy).2⟩,
    payload, hcompressed,
    ((reparsed_normal _ (hsmall hcompressed (by decide))).1 _ hcompressed).2⟩

end LedWall.Frame
