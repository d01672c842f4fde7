import LedWall.Proofs.Frame.Header

/-!
# Frames of raw pixels read back

A written header ends one byte behind the channel range, and that byte is the one blank which the
reader takes. Whatever the pixels look like, they are therefore cut out by count alone, and the
footer starts where they end.
-/

namespace LedWall.Frame

open Decimal

theorem Scan.field_signedBytes (name : Field) {i : Int}
    (hi : -9223372036854775808 ≤ i ∧ i ≤ 9223372036854775807) {gap : List UInt8}
    (hgap : ∀ b ∈ gap, isBlank b = true) {rest : List UInt8} (h : NoDigitAhead rest)
    (comments : List (List UInt8)) :
    Scan.field name ⟨gap ++ (signedBytes i ++ rest), comments⟩ = .ok (i, ⟨rest, comments⟩) := by
  have hn : number? (gap ++ (signedBytes i ++ rest)) = some (i, rest) := by
    rw [number?_append_of_isBlank hgap]
    exact number?_signedBytes hi h
  have hc : gapComments (gap ++ (signedBytes i ++ rest)) = [] := by
    rw [gapComments_append_of_isBlank hgap, gapComments_signedBytes]
  simp only [Scan.field, hn, hc, List.append_nil]

theorem Scan.side_bytes (name : Field) (side : UInt32) {gap : UInt8} (hgap : isBlank gap = true)
    {rest : List UInt8} (h : NoDigitAhead rest) (comments : List (List UInt8)) :
    Scan.side name ⟨gap :: (bytes side.toNat ++ rest), comments⟩ =
      .ok (side, ⟨rest, comments⟩) := by
  have hlt := side.toNat_lt
  have hfield : Scan.field name ⟨gap :: (bytes side.toNat ++ rest), comments⟩ =
      .ok ((side.toNat : Int), ⟨rest, comments⟩) :=
    Scan.field_signedBytes name (i := side.toNat) ⟨by omega, by omega⟩
      (List.forall_mem_singleton.mpr hgap) h comments
  have hr : 0 ≤ (side.toNat : Int) ∧ (side.toNat : Int) < 4294967296 := by omega
  simp only [Scan.side, hfield, bind, Except.bind, hr, and_self, ↓reduceIte, Int.toNat_natCast,
    UInt32.ofNat_toNat]
  rfl

theorem RawHeader.read_written (width height : UInt32) {gap data : List UInt8}
    {comments : List (List UInt8)} (h : NoDigitAhead gap)
    (hn : number? gap = some (255, 0x0A :: data)) (hc : gapComments gap = comments) :
    RawHeader.read (0x0A :: (bytes width.toNat ++ 0x20 :: (bytes height.toNat ++ gap))) =
      .ok ⟨width, height, comments, data⟩ := by
  have hspace : NoDigitAhead (0x20 :: (bytes height.toNat ++ gap)) :=
    noDigitAhead_cons (by decide) _
  have hrange : Scan.channelRange ⟨gap, []⟩ = .ok ⟨0x0A :: data, comments⟩ := by
    simp only [Scan.channelRange, Scan.field, hn, hc, List.nil_append, bind, Except.bind,
      ↓reduceIte]
    rfl
  have hdata : Scan.data ⟨0x0A :: data, comments⟩ = .ok data := rfl
  simp only [RawHeader.read, Scan.side_bytes _ _ (by decide : isBlank 0x0A = true) hspace,
    Scan.side_bytes _ _ (by decide : isBlank 0x20 = true) h, hrange, hdata, bind, Except.bind]
  rfl

def placementText (offset : Offset) : List UInt8 :=
  placementMark ++ (0x20 :: (signedBytes offset.x.toInt ++ 0x20 ::
    (signedBytes offset.y.toInt ++ 0x20 :: bytes offset.z.toNat)))

theorem newline_notMem_placementText (offset : Offset) :
    (0x0A : UInt8) ∉ placementText offset := by
  have hz := newline_notMem_signedBytes offset.z.toNat
  simp only [placementText, placementMark, List.cons_append, List.nil_append, List.mem_cons,
    List.mem_append, newline_notMem_signedBytes, not_or]
  exact ⟨by decide, by decide, by decide, by decide, not_false, by decide, not_false,
    by decide, hz⟩

theorem coordinate_fits (i : Int32) :
    -9223372036854775808 ≤ i.toInt ∧ i.toInt ≤ 9223372036854775807 := by
  have hl := i.le_toInt
  have hu := i.toInt_lt
  omega

theorem layer?_toNat (layer : UInt8) : layer? (layer.toNat : Int) = some layer := by
  have hlt := layer.toNat_lt
  rw [layer?, if_pos (by omega), Int.toNat_natCast, UInt8.ofNat_toNat]

theorem placement?_placementText (offset : Offset) :
    placement? (placementText offset) = some offset := by
  have hspace : ∀ bs, NoDigitAhead (0x20 :: bs) := noDigitAhead_cons (by decide)
  have hblank : isBlank 0x20 = true := by decide
  have hz := offset.z.toNat_lt
  have hnumbers : numbers 3 ((placementText offset).drop placementMark.length) =
      [offset.x.toInt, offset.y.toInt, (offset.z.toNat : Int)] := by
    have hlast : number? (bytes offset.z.toNat) = some ((offset.z.toNat : Int), []) := by
      have hend : NoDigitAhead [] := by simp [NoDigitAhead]
      have h := number?_bytes (by omega : offset.z.toNat ≤ 9223372036854775807) hend
      rwa [List.append_nil] at h
    rw [placementText, List.drop_left]
    simp only [numbers, number?_cons_of_isBlank hblank,
      number?_signedBytes (coordinate_fits _) (hspace _), hlast]
  have hmark : placementMark.isPrefixOf (placementText offset) = true := by
    rw [List.isPrefixOf_iff_prefix]
    exact List.prefix_append _ _
  rw [placement?, if_pos hmark, hnumbers]
  simp only [layer?_toNat, Option.getD_some, Int32.ofInt_toInt]

theorem RawHeader.read_offset (width height : UInt32) (offset : Offset) (data : List UInt8) :
    RawHeader.read ((offsetHeader width height offset ++ data).drop 2) =
      .ok ⟨width, height, [placementText offset], data⟩ := by
  have hbytes : (offsetHeader width height offset ++ data).drop 2 =
      0x0A :: (bytes width.toNat ++ 0x20 :: (bytes height.toNat ++
        0x0A :: 0x23 :: (placementText offset ++ 0x0A :: (bytes 255 ++ 0x0A :: data)))) := by
    simp [offsetHeader, sizeLine, channelLine, placementText, rawMagic, newline, space]
  have htext := newline_notMem_placementText offset
  rw [hbytes]
  apply RawHeader.read_written
  · exact noDigitAhead_cons (by decide) _
  · rw [number?_cons_of_isBlank (by decide), number?_comment htext]
    exact number?_bytes (by decide) (noDigitAhead_cons (by decide) _)
  · rw [gapComments_cons_of_isBlank (by decide), gapComments_comment htext, gapComments_bytes]

theorem RawHeader.read_plain (width height : UInt32) (data : List UInt8) :
    RawHeader.read ((plainHeader width height ++ data).drop 2) = .ok ⟨width, height, [], data⟩ := by
  have hbytes : (plainHeader width height ++ data).drop 2 =
      0x0A :: (bytes width.toNat ++ 0x20 :: (bytes height.toNat ++
        0x0A :: (bytes 255 ++ 0x0A :: data))) := by
    simp [plainHeader, sizeLine, channelLine, rawMagic, newline, space]
  rw [hbytes]
  apply RawHeader.read_written
  · exact noDigitAhead_cons (by decide) _
  · rw [number?_cons_of_isBlank (by decide)]
    exact number?_bytes (by decide) (noDigitAhead_cons (by decide) _)
  · rw [gapComments_cons_of_isBlank (by decide), gapComments_bytes]

/-- Pixels are cut out by count, whatever bytes they are and whatever follows. -/
theorem RawHeader.frame_dump (width height : UInt32) (comments : List (List UInt8))
    {pixels : List Color} (hp : pixels.length = width.toNat * height.toNat)
    (hs : 3 * (width.toNat * height.toNat) < 2 ^ 64) (footer : List UInt8) :
    RawHeader.frame ⟨width, height, comments, Color.dump pixels ++ footer⟩ = (do
      let offset ← overridden ((comments.findSome? placement?).getD .zero) (numbers 3 footer)
      return {
        kind := if (comments.findSome? placement?).isSome ||
            (!(numbers 3 footer).isEmpty && offset ≠ .zero) then .offset else .plain
        width, height, offset, pixels }) := by
  have hlen : (Color.dump pixels).length = width.toNat * height.toNat * 3 := by
    rw [Color.length_dump, hp, Nat.mul_comm]
  have hfits : ¬ 18446744073709551616 ≤ width.toNat * height.toNat * 3 := by omega
  have henough : ¬ (Color.dump pixels ++ footer).length < width.toNat * height.toNat * 3 := by
    rw [List.length_append, hlen]
    omega
  have htake : (Color.dump pixels ++ footer).take (width.toNat * height.toNat * 3) =
      Color.dump pixels := by
    rw [← hlen, List.take_left]
  have hdrop : (Color.dump pixels ++ footer).drop (width.toNat * height.toNat * 3) = footer := by
    rw [← hlen, List.drop_left]
  simp only [RawHeader.frame, RawHeader.needed, RawHeader.commented, RawHeader.footer, hfits,
    henough, ↓reduceIte, htake, hdrop, Color.ofDump_dump]

theorem numbers_plainFooter (layer : UInt8) :
    numbers 3 (plainFooter layer) = [0, 0, (layer.toNat : Int)] := by
  have hline : ∀ bs, NoDigitAhead (0x0A :: bs) := noDigitAhead_cons (by decide)
  have hblank : isBlank 0x0A = true := by decide
  have hlt := layer.toNat_lt
  have hbytes : plainFooter layer =
      bytes 0 ++ 0x0A :: (bytes 0 ++ 0x0A :: (bytes layer.toNat ++ [0x0A])) := by
    simp [plainFooter, newline]
  rw [hbytes]
  simp only [numbers, number?_bytes (by decide : 0 ≤ 9223372036854775807) (hline _),
    number?_bytes (by omega : layer.toNat ≤ 9223372036854775807) (hline _),
    number?_cons_of_isBlank hblank]
  rfl

theorem overridden_plainFooter (offset : Offset) (layer : UInt8) :
    overridden offset [0, 0, (layer.toNat : Int)] = .ok ⟨0, 0, layer⟩ := by
  simp only [overridden, Frame.layer, layer?_toNat, bind, Except.bind]
  rfl

theorem parse_offsetBytes [Png.Codec] {width height : UInt32} (offset : Offset)
    {pixels : List Color}
    (hp : pixels.length = width.toNat * height.toNat)
    (hs : 3 * (width.toNat * height.toNat) < 2 ^ 64) :
    parse (offsetBytes width height offset pixels) =
      .ok ⟨.offset, width, height, offset, pixels⟩ := by
  have hmagic : rawMagic.isPrefixOf (offsetBytes width height offset pixels) = true := by
    simp [offsetBytes, offsetHeader, rawMagic, List.isPrefixOf]
  have hframe := RawHeader.frame_dump width height [placementText offset] hp hs []
  rw [List.append_nil] at hframe
  rw [parse, if_pos hmagic, parseRaw, offsetBytes, RawHeader.read_offset]
  simp only [bind, Except.bind]
  rw [hframe]
  simp only [List.findSome?, placement?_placementText, numbers, number?_nil, overridden, bind,
    Except.bind, Option.getD_some, Option.isSome_some, Bool.true_or, ↓reduceIte]
  rfl

theorem parse_plainBytes [Png.Codec] {width height : UInt32} (layer : UInt8)
    {pixels : List Color}
    (hp : pixels.length = width.toNat * height.toNat)
    (hs : 3 * (width.toNat * height.toNat) < 2 ^ 64) :
    parse (plainBytes width height layer pixels) =
      .ok ⟨if layer = 0 then .plain else .offset, width, height, ⟨0, 0, layer⟩, pixels⟩ := by
  have hmagic : rawMagic.isPrefixOf (plainBytes width height layer pixels) = true := by
    simp [plainBytes, plainHeader, rawMagic, List.isPrefixOf]
  have hframe := RawHeader.frame_dump width height [] hp hs (plainFooter layer)
  rw [parse, if_pos hmagic, parseRaw, plainBytes, List.append_assoc, RawHeader.read_plain]
  simp only [bind, Except.bind]
  rw [hframe, numbers_plainFooter, overridden_plainFooter]
  by_cases hl : layer = 0
  · subst hl
    rfl
  · have hne : (⟨0, 0, layer⟩ : Offset) ≠ .zero := by
      intro h
      exact hl (congrArg Offset.z h)
    simp only [bind, Except.bind, List.findSome?, Option.isSome_none, List.isEmpty_cons,
      Bool.not_false, Bool.false_or, Bool.true_and, hne, hl, ne_eq, not_false_eq_true,
      decide_true, ↓reduceIte]
    rfl

theorem checkCount_eq_ok {width height : UInt32} {pixels : List Color}
    (hp : pixels.length = width.toNat * height.toNat) : checkCount width height pixels = .ok () := by
  rw [checkCount, if_pos hp]

theorem encodeOffset_eq_ok {width height : UInt32} (offset : Offset) {pixels : List Color}
    (hp : pixels.length = width.toNat * height.toNat) :
    encodeOffset width height offset pixels = .ok (offsetBytes width height offset pixels) := by
  rw [encodeOffset, checkCount_eq_ok hp]
  rfl

/-- Reading a written frame gives back its sides, its pixels and its place, in both forms of raw
pixels. A plain frame counts as placed exactly if its layer is not the lowest. -/
theorem parse_encode [Png.Codec] (width height : UInt32) (pixels : List Color)
    (hp : pixels.length = width.toNat * height.toNat)
    (hs : 3 * (width.toNat * height.toNat) < 2 ^ 64) :
    (∀ offset, ∃ datagram, encodeOffset width height offset pixels = .ok datagram ∧
      parse datagram = .ok ⟨.offset, width, height, offset, pixels⟩) ∧
    ∀ layer, ∃ datagram, encodePlain width height layer pixels = .ok datagram ∧
      parse datagram = .ok
        ⟨if layer ≠ 0 then .offset else .plain, width, height, ⟨0, 0, layer⟩, pixels⟩ := by
  constructor
  · intro offset
    refine ⟨offsetBytes width height offset pixels, ?_, parse_offsetBytes offset hp hs⟩
    rw [encodeOffset, checkCount_eq_ok hp]
    rfl
  · intro layer
    refine ⟨plainBytes width height layer pixels, ?_, ?_⟩
    · rw [encodePlain, checkCount_eq_ok hp]
      rfl
    · rw [parse_plainBytes layer hp hs]
      by_cases hl : layer = 0 <;> simp [hl]

/-- Pixels that spell a blank, a placement comment and a footer of their own. -/
def textualPixels : List Color :=
  [⟨0x20, 0x23, 0x46⟩, ⟨0x54, 0x3A, 0x37⟩, ⟨0x0A, 0x2D, 0x35⟩, ⟨0x20, 0x39, 0x0A⟩]

theorem parse_encode_textualPixels :
    (textualPixels.length = (2 : UInt32).toNat * (2 : UInt32).toNat ∧
      3 * ((2 : UInt32).toNat * (2 : UInt32).toNat) < 2 ^ 64) ∧
    (∃ datagram, encodeOffset 2 2 ⟨-2147483648, 7, 255⟩ textualPixels = .ok datagram ∧
      parse datagram = .ok ⟨.offset, 2, 2, ⟨-2147483648, 7, 255⟩, textualPixels⟩) ∧
    ∃ datagram, encodePlain 2 2 0 textualPixels = .ok datagram ∧
      parse datagram = .ok ⟨.plain, 2, 2, ⟨0, 0, 0⟩, textualPixels⟩ := by
  have h := parse_encode 2 2 textualPixels (by decide) (by decide)
  exact ⟨by decide, h.1 ⟨-2147483648, 7, 255⟩, h.2 0⟩

end LedWall.Frame
