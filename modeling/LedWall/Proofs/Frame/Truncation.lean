import LedWall.Proofs.Frame.Grammar
import LedWall.Proofs.Frame.RoundTrip

/-!
# Frames cut off

A number ends where something that is no digit follows, so what has been read as a header stays one
whatever is put behind. The first bytes of a frame can therefore not have a shorter header of their
own: cut off inside the header they have none, and cut off inside the pixels they have the header of
the whole frame and too few bytes behind it. Only what follows the pixels can be lost unnoticed.
-/

namespace LedWall.Frame

open Decimal

theorem Gap.append {bs rest : List UInt8} (h : Gap bs rest) (hne : rest ≠ [])
    (more : List UInt8) : Gap (bs ++ more) (rest ++ more) := by
  induction h with
  | nil bs => exact .nil _
  | blank hb _ ih => exact .blank hb (ih hne)
  | @comment text bs rest ht hend h ih =>
      have hbs : bs ≠ [] := by
        rintro rfl
        exact hne (List.suffix_nil.mp (suffix_of_gap h))
      rw [List.cons_append, List.append_assoc]
      refine .comment ht ?_ (ih hne)
      rwa [List.head?_append_of_ne_nil bs hbs]

theorem Numeral.append {bs rest : List UInt8} {value : Int} (h : Numeral bs value rest)
    (hne : rest ≠ []) (more : List UInt8) : Numeral (bs ++ more) value (rest ++ more) := by
  obtain ⟨mark, factor, digits, rfl, hmark, hdigits, hrest, hvalue⟩ := h
  refine ⟨mark, factor, digits, by simp only [List.append_assoc], hmark, hdigits, ?_, hvalue⟩
  rwa [NoDigitAhead, List.head?_append_of_ne_nil rest hne]

theorem Number.append {bs rest : List UInt8} {value : Int} (h : Number bs value rest)
    (hne : rest ≠ []) (more : List UInt8) : Number (bs ++ more) value (rest ++ more) := by
  obtain ⟨mid, hgap, hnumeral⟩ := h
  have hmid : mid ≠ [] := by
    rintro rfl
    obtain ⟨mark, _, digits, hnil, -⟩ := hnumeral
    exact hne (List.append_eq_nil_iff.mp (List.append_eq_nil_iff.mp hnil.symm).2).2
  exact ⟨mid ++ more, hgap.append hmid more, hnumeral.append hne more⟩

theorem Number.ne_nil {bs rest : List UInt8} {value : Int} (h : Number bs value rest) :
    bs ≠ [] := by
  rintro rfl
  have hread := number?_eq_some_iff.mpr h
  rw [number?_nil] at hread
  cases hread

theorem Header.append {bs data : List UInt8} {width height : UInt32}
    (h : Header bs width height data) (more : List UInt8) :
    Header (bs ++ more) width height (data ++ more) := by
  obtain ⟨r₁, r₂, b, hw, hh, hc, hb⟩ := h
  exact ⟨r₁ ++ more, r₂ ++ more, b, hw.append hh.ne_nil more, hh.append hc.ne_nil more,
    hc.append (List.cons_ne_nil b data) more, hb⟩

theorem not_header_of_cut {head data cut : List UInt8} {width height : UInt32}
    (h : Header (head ++ data) width height data) (hcut : cut <+: head)
    (hshort : cut.length < head.length) {width' height' : UInt32} {rest : List UInt8} :
    ¬ Header cut width' height' rest := by
  intro hheader
  obtain ⟨more, rfl⟩ := hcut
  have hwhole := hheader.append (more ++ data)
  rw [← List.append_assoc] at hwhole
  obtain ⟨-, -, hdata⟩ := hwhole.unique h
  have hlength := congrArg List.length hdata
  simp only [List.length_append] at hlength hshort
  omega

theorem parse_of_not_header [Png.Codec] {bs : List UInt8}
    (h : ∀ width height data, ¬ Header bs width height data) :
    ∃ cause, parse (rawMagic ++ bs) = .error (.malformed cause) := by
  rcases parse_raw_cases bs with ⟨_, _, _, _, hh, -⟩ | ⟨_, _, _, hh, -⟩ | hmalformed
  · exact absurd hh (h _ _ _)
  · exact absurd hh (h _ _ _)
  · exact hmalformed

theorem cut_magic_cases {cut : List UInt8} (h : cut <+: rawMagic) :
    cut = [] ∨ cut = [0x50] ∨ cut = rawMagic := by
  have hmem := (List.mem_inits cut rawMagic).mpr h
  simpa [rawMagic] using hmem

theorem parse_of_cut_header [Png.Codec] {head data cut : List UInt8} {width height : UInt32}
    (h : Header (head ++ data) width height data) (hcut : cut <+: rawMagic ++ head)
    (hshort : cut.length < (rawMagic ++ head).length) :
    ∃ cause, parse cut = .error (.malformed cause) := by
  have hbehind : ∀ tail, tail <+: head → tail.length < head.length →
      ∃ cause, parse (rawMagic ++ tail) = .error (.malformed cause) :=
    fun tail htail hlt => parse_of_not_header fun _ _ _ => not_header_of_cut h htail hlt
  rw [List.length_append] at hshort
  rcases List.prefix_or_prefix_of_prefix hcut (List.prefix_append rawMagic head) with
    hmagic | ⟨tail, rfl⟩
  · rcases cut_magic_cases hmagic with rfl | rfl | rfl
    · exact ⟨.unknownMagic, rfl⟩
    · exact ⟨.unknownMagic, rfl⟩
    · have hnone := hbehind [] List.nil_prefix (by rw [List.length_nil]; omega)
      rwa [List.append_nil] at hnone
  · rw [List.length_append] at hshort
    exact hbehind tail ((List.prefix_append_right_inj rawMagic).mp hcut) (by omega)

/-- A frame that is cut off inside its pixels tells how many bytes it needs and has. -/
theorem parse_of_cut_pixels [Png.Codec] {head data : List UInt8} {width height : UInt32}
    (h : Header (head ++ data) width height data)
    (hsize : pixelBytes width height < 2 ^ 64) (hshort : data.length < pixelBytes width height) :
    parse (rawMagic ++ (head ++ data)) =
      .error (.truncated (pixelBytes width height) data.length) := by
  obtain ⟨comments, hparse⟩ := parse_of_header h
  rw [hparse]
  exact RawHeader.frame_of_short (h := ⟨width, height, comments, data⟩) ⟨hsize, hshort⟩

theorem value_le_value_append (ds more : List Nat) : value ds ≤ value (ds ++ more) := by
  induction more using List.reverseRecOn with
  | nil => rw [List.append_nil]
  | append_singleton more d ih =>
      rw [← List.append_assoc, value_append_singleton]
      omega

theorem ofBytes_le_of_prefix {ds bs : List UInt8} (h : ds <+: bs) : ofBytes ds ≤ ofBytes bs := by
  obtain ⟨more, rfl⟩ := h
  rw [ofBytes, ofBytes, List.map_append]
  exact value_le_value_append _ _

theorem number_of_digits {ds : List UInt8} (hne : ds ≠ []) (hd : ∀ b ∈ ds, isDigit b = true)
    (hfits : ofBytes ds < 2 ^ 63) : Number ds (ofBytes ds) [] := by
  refine ⟨ds, .nil ds, [], 1, ds, (List.append_nil ds).symm, .absent, ⟨hne, hd⟩, ?_, ?_, ?_, ?_⟩
  · simp [NoDigitAhead]
  · rw [Int.one_mul]
  · omega
  · exact_mod_cast hfits

/-- Where a line with a numeral is cut off, a number that is no larger is read. -/
theorem number_of_cut_line {n : Nat} (hn : n < 2 ^ 63) {cut rest : List UInt8} {value : Int}
    (hcut : cut <+: bytes n ++ [0x0A]) (h : Number cut value rest) : 0 ≤ value ∧ value ≤ n := by
  rcases List.prefix_concat_iff.mp hcut with rfl | hdigits
  · have hread := number?_bytes (by omega : n ≤ 9223372036854775807)
      (noDigitAhead_cons (by decide : isDigit 0x0A = false) [])
    obtain ⟨rfl, -⟩ := h.unique (number?_eq_some_iff.mp hread)
    exact ⟨Int.natCast_nonneg n, le_refl _⟩
  · have hle : ofBytes cut ≤ n := by
      have hprefix := ofBytes_le_of_prefix hdigits
      rwa [ofBytes_bytes] at hprefix
    have hnumber := number_of_digits h.ne_nil
      (fun b hb => isDigit_of_mem_bytes (hdigits.mem hb)) (by omega)
    obtain ⟨rfl, -⟩ := h.unique hnumber
    exact ⟨Int.natCast_nonneg _, Int.ofNat_le.mpr hle⟩

theorem Number.next_line {bs rest : List UInt8} {value : Int} (h : Number (0x0A :: bs) value rest) :
    Number bs value rest := by
  rw [← number?_eq_some_iff, number?_cons_of_isBlank (by decide)] at h
  exact number?_eq_some_iff.mp h

theorem layerFits_of_cut_footer {layer : UInt8} {cut : List UInt8}
    (hcut : cut <+: plainFooter layer) : LayerFits cut := by
  intro x y z r₁ r₂ r₃ hx hy hz
  have hzero : ∀ bs, Number (bytes 0 ++ 0x0A :: bs) 0 (0x0A :: bs) := fun bs =>
    number?_eq_some_iff.mp (number?_bytes (by decide) (noDigitAhead_cons (by decide) bs))
  have hfooter : plainFooter layer =
      bytes 0 ++ 0x0A :: (bytes 0 ++ 0x0A :: (bytes layer.toNat ++ [0x0A])) := by
    simp [plainFooter, newline]
  obtain ⟨more, hmore⟩ := hcut
  have hfirst := hx.append hy.ne_nil more
  rw [hmore, hfooter] at hfirst
  obtain ⟨-, hr₁⟩ := hfirst.unique (hzero _)
  have hsecond := hy.append hz.ne_nil more
  rw [hr₁] at hsecond
  obtain ⟨-, hr₂⟩ := hsecond.next_line.unique (hzero _)
  obtain ⟨b, line, rfl⟩ := List.exists_cons_of_ne_nil hz.ne_nil
  obtain ⟨rfl, hline⟩ := List.cons.inj hr₂
  have hlayer := layer.toNat_lt
  have hz' := number_of_cut_line (by omega) ⟨more, hline⟩ hz.next_line
  omega

theorem header_plainHeader (width height : UInt32) (data : List UInt8) :
    Header ((plainHeader width height).drop 2 ++ data) width height data :=
  RawHeader.read_sound (RawHeader.read_plain width height data)

theorem header_offsetHeader (width height : UInt32) (offset : Offset) (data : List UInt8) :
    Header ((offsetHeader width height offset).drop 2 ++ data) width height data :=
  RawHeader.read_sound (RawHeader.read_offset width height offset data)

/-- The reader tells that bytes end too early for a frame with a header of `header` bytes and pixels
of `needed` bytes. -/
def Noticed [Png.Codec] (header needed : Nat) (cut : List UInt8) : Prop :=
  (cut.length < header ∧ ∃ cause, parse cut = .error (.malformed cause)) ∨
    header ≤ cut.length ∧ parse cut = .error (.truncated needed (cut.length - header))

section Written

variable {width height : UInt32} {pixels : List Color}

theorem noticed_of_cut [Png.Codec] {head footer cut : List UInt8}
    (h : ∀ data, Header (head ++ data) width height data)
    (hp : pixels.length = width.toNat * height.toNat)
    (hs : 3 * (width.toNat * height.toNat) < 2 ^ 64)
    (hcut : cut <+: rawMagic ++ head ++ (Color.dump pixels ++ footer))
    (hshort : cut.length < (rawMagic ++ head ++ Color.dump pixels).length) :
    Noticed (rawMagic ++ head).length (pixelBytes width height) cut := by
  have hdump : (Color.dump pixels).length = pixelBytes width height := by
    rw [Color.length_dump, hp, pixelBytes]
  have hwhole := List.prefix_append (rawMagic ++ head) (Color.dump pixels ++ footer)
  by_cases hlt : cut.length < (rawMagic ++ head).length
  · exact .inl ⟨hlt, parse_of_cut_header (h [])
      (List.prefix_of_prefix_length_le hcut hwhole (Nat.le_of_lt hlt)) hlt⟩
  · obtain ⟨data, rfl⟩ := List.prefix_of_prefix_length_le hwhole hcut (Nat.le_of_not_lt hlt)
    have hlength (tail : List UInt8) :
        (rawMagic ++ head ++ tail).length = (rawMagic ++ head).length + tail.length :=
      List.length_append
    rw [hlength, hlength, hdump] at hshort
    refine .inr ⟨by omega, ?_⟩
    rw [hlength, Nat.add_sub_cancel_left, List.append_assoc]
    exact parse_of_cut_pixels (h data) hs (by omega)

theorem parse_of_cut_footer [Png.Codec] (hp : pixels.length = width.toNat * height.toNat)
    (hs : 3 * (width.toNat * height.toNat) < 2 ^ 64) {layer : UInt8} {footer : List UInt8}
    (hcut : footer <+: plainFooter layer) :
    ∃ f, parse (plainHeader width height ++ (Color.dump pixels ++ footer)) = .ok f ∧
      f.width = width ∧ f.height = height ∧ f.pixels = pixels := by
  obtain ⟨comments, hparse⟩ :=
    parse_of_header (header_plainHeader width height (Color.dump pixels ++ footer))
  obtain ⟨offset, hoffset⟩ := (overridden_eq_ok_iff ((comments.findSome? placement?).getD .zero)
    footer).mpr (layerFits_of_cut_footer hcut)
  have hframe := RawHeader.frame_dump width height comments hp hs footer
  rw [hoffset] at hframe
  exact ⟨_, hparse.trans hframe, rfl, rfl, rfl⟩

end Written

/-- A frame that has lost any of its pixels is never taken for another one: cut off inside the
header it has a bad shape, and cut off inside the pixels the reader tells how many bytes are needed
and found. This holds of each proper beginning of an offset frame. A plain frame may lose what
follows the pixels, and still shows them. -/
theorem truncation_noticed [Png.Codec] (width height : UInt32) (pixels : List Color)
    (hp : pixels.length = width.toNat * height.toNat)
    (hs : 3 * (width.toNat * height.toNat) < 2 ^ 64) :
    (∀ offset, ∃ datagram, encodeOffset width height offset pixels = .ok datagram ∧
      ∀ cut, cut <+: datagram → cut ≠ datagram →
        Noticed (offsetHeader width height offset).length (pixelBytes width height) cut) ∧
    ∀ layer, ∃ datagram, encodePlain width height layer pixels = .ok datagram ∧
      datagram = plainHeader width height ++ (Color.dump pixels ++ plainFooter layer) ∧
      ∀ cut, cut <+: datagram →
        (cut.length < (plainHeader width height ++ Color.dump pixels).length →
          Noticed (plainHeader width height).length (pixelBytes width height) cut) ∧
        ((plainHeader width height ++ Color.dump pixels).length ≤ cut.length →
          ∃ f, parse cut = .ok f ∧ f.width = width ∧ f.height = height ∧ f.pixels = pixels) := by
  constructor
  · intro offset
    refine ⟨offsetBytes width height offset pixels, ?_, fun cut hcut hne => ?_⟩
    · rw [encodeOffset, checkCount_eq_ok hp]
      rfl
    · have hlt : cut.length < (offsetBytes width height offset pixels).length :=
        Nat.lt_of_le_of_ne hcut.length_le fun hlength => hne (hcut.eq_of_length hlength)
      have hwhole : offsetBytes width height offset pixels =
          offsetHeader width height offset ++ (Color.dump pixels ++ []) := by
        rw [List.append_nil, offsetBytes]
      rw [hwhole] at hcut
      exact noticed_of_cut (header_offsetHeader width height offset) hp hs hcut hlt
  · intro layer
    have hbytes : plainBytes width height layer pixels =
        plainHeader width height ++ (Color.dump pixels ++ plainFooter layer) :=
      List.append_assoc _ _ _
    refine ⟨plainBytes width height layer pixels, ?_, hbytes, fun cut hcut => ⟨?_, ?_⟩⟩
    · rw [encodePlain, checkCount_eq_ok hp]
      rfl
    · rw [hbytes] at hcut
      exact noticed_of_cut (header_plainHeader width height) hp hs hcut
    · intro hlong
      have hpixels : plainHeader width height ++ Color.dump pixels <+:
          plainBytes width height layer pixels := List.prefix_append _ _
      obtain ⟨footer, rfl⟩ := List.prefix_of_prefix_length_le hpixels hcut hlong
      rw [List.append_assoc]
      exact parse_of_cut_footer hp hs ((List.prefix_append_right_inj _).mp hcut)

theorem truncation_noticed_textualPixels :
    (textualPixels.length = (2 : UInt32).toNat * (2 : UInt32).toNat ∧
      3 * ((2 : UInt32).toNat * (2 : UInt32).toNat) < 2 ^ 64) ∧
    (∃ datagram, encodeOffset 2 2 ⟨-2147483648, 7, 255⟩ textualPixels = .ok datagram ∧
      (∃ cause, parse (datagram.take 20) = .error (.malformed cause)) ∧
      parse (datagram.take 45) = .error (.truncated 12 11)) ∧
    ∃ datagram, encodePlain 2 2 25 textualPixels = .ok datagram ∧
      ∃ f, parse (datagram.take 28) = .ok f ∧ f.width = 2 ∧ f.height = 2 ∧
        f.pixels = textualPixels := by
  obtain ⟨hoffset, hplain⟩ := truncation_noticed 2 2 textualPixels (by decide) (by decide)
  have hheader : (offsetHeader 2 2 ⟨-2147483648, 7, 255⟩).length = 34 := by decide +kernel
  refine ⟨by decide, ?_, ?_⟩
  · obtain ⟨datagram, hdatagram, hcut⟩ := hoffset ⟨-2147483648, 7, 255⟩
    have hlength : datagram.length = 46 := by
      obtain rfl := Except.ok.inj hdatagram
      decide +kernel
    have hne : ∀ n < 46, datagram.take n ≠ datagram := by
      intro n hn he
      have htake := congrArg List.length he
      rw [List.length_take] at htake
      omega
    refine ⟨datagram, hdatagram, ?_, ?_⟩
    · rcases hcut _ (List.take_prefix 20 datagram) (hne 20 (by decide)) with h | h
      · exact h.2
      · rw [hheader, List.length_take, hlength] at h
        exact absurd h.1 (by decide)
    · rcases hcut _ (List.take_prefix 45 datagram) (hne 45 (by decide)) with h | h
      · rw [hheader, List.length_take, hlength] at h
        exact absurd h.1 (by decide)
      · rw [hheader, List.length_take, hlength] at h
        exact h.2
  · obtain ⟨datagram, hdatagram, hbytes, hcut⟩ := hplain 25
    refine ⟨datagram, hdatagram, (hcut _ (List.take_prefix 28 datagram)).2 ?_⟩
    rw [hbytes]
    decide +kernel

end LedWall.Frame
