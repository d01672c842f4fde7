import LedWall.Proofs.Frame.Tiles
import LedWall.Proofs.Grid
import LedWall.FrameBuffer
import Mathlib.Algebra.Order.Floor.Div

/-!
# Headers and tiles in bytes

A written header has at most 62 bytes, whatever numbers are in it. The bytes that tiling keeps free
are therefore enough, and no tile grows beyond the datagram that it was cut for.
-/

namespace LedWall

namespace Decimal

theorem length_digits_le {n k : Nat} (hk : 0 < k) (h : n < 10 ^ k) : (digits n).length ≤ k := by
  induction k generalizing n with
  | zero => omega
  | succ k ih =>
      unfold digits
      split
      · simp
      · rename_i hn
        have hk' : 0 < k := by
          rcases Nat.eq_zero_or_pos k with rfl | hpos
          · omega
          · exact hpos
        have hdiv : n / 10 < 10 ^ k := by
          rw [Nat.pow_succ] at h
          omega
        have hle := ih hk' hdiv
        rw [List.length_append, List.length_singleton]
        omega

theorem length_bytes_le {n k : Nat} (hk : 0 < k) (h : n < 10 ^ k) : (bytes n).length ≤ k := by
  rw [bytes, List.length_map]
  exact length_digits_le hk h

theorem length_signedBytes_le {i : Int} {k : Nat} (hk : 0 < k) (h : i.natAbs < 10 ^ k) :
    (signedBytes i).length ≤ k + 1 := by
  cases i with
  | ofNat n => exact Nat.le_succ_of_le (length_bytes_le hk h)
  | negSucc n =>
      rw [signedBytes, List.length_cons]
      exact Nat.succ_le_succ (length_bytes_le hk h)

end Decimal

namespace Frame

open Decimal

theorem length_offsetHeader_le (width height : UInt32) (offset : Offset) :
    (offsetHeader width height offset).length ≤ 62 := by
  have hside : ∀ side : UInt32, (bytes side.toNat).length ≤ 10 := by
    intro side
    have hlt := side.toNat_lt
    exact length_bytes_le (by decide) (by omega)
  have hcoordinate : ∀ i : Int32, (signedBytes i.toInt).length ≤ 11 := by
    intro i
    have hl := i.le_toInt
    have hu := i.toInt_lt
    exact length_signedBytes_le (by decide) (by omega)
  have hlayer : (bytes offset.z.toNat).length ≤ 3 := by
    have hlt := offset.z.toNat_lt
    exact length_bytes_le (by decide) (by omega)
  have hrange : (bytes 255).length ≤ 3 := length_bytes_le (by decide) (by decide)
  have hw := hside width
  have hh := hside height
  have hx := hcoordinate offset.x
  have hy := hcoordinate offset.y
  simp only [offsetHeader, sizeLine, channelLine, rawMagic, newline, space, placementMark,
    List.length_append, List.length_cons, List.length_nil]
  omega

theorem length_offsetBytes_le (width height : UInt32) (offset : Offset) (pixels : List Color) :
    (offsetBytes width height offset pixels).length ≤ 62 + 3 * pixels.length := by
  have hheader := length_offsetHeader_le width height offset
  rw [offsetBytes, List.length_append, Color.length_dump]
  omega

theorem length_plainBytes (width height : UInt32) (layer : UInt8) (pixels : List Color) :
    (plainBytes width height layer pixels).length =
      14 + (bytes width.toNat).length + (bytes height.toNat).length +
        (bytes layer.toNat).length + 3 * pixels.length := by
  have hrange : (bytes 255).length = 3 := by decide +kernel
  have hzero : (bytes 0).length = 1 := by decide +kernel
  simp only [plainBytes, plainHeader, plainFooter, sizeLine, channelLine, rawMagic, newline, space,
    List.length_append, List.length_cons, List.length_nil, Color.length_dump, hrange, hzero]
  omega

theorem rowsPerTile_eq_zero_iff {rowBytes maxDatagram : Nat} (hrow : 0 < rowBytes) :
    rowsPerTile rowBytes maxDatagram = 0 ↔ maxDatagram < rowBytes + 64 := by
  rw [rowsPerTile, headerReserve, Nat.div_eq_zero_iff]
  omega

theorem le_rowsPerTile_iff {rowBytes maxDatagram rows : Nat} (hrow : 0 < rowBytes)
    (hrows : 0 < rows) :
    rows ≤ rowsPerTile rowBytes maxDatagram ↔ rows * rowBytes + 64 ≤ maxDatagram := by
  have hpos : 0 < rows * rowBytes := Nat.mul_pos hrows hrow
  rw [rowsPerTile, headerReserve, Nat.le_div_iff_mul_le hrow]
  omega

theorem rowsPerTile_mul_le {rowBytes maxDatagram : Nat}
    (hrows : rowsPerTile rowBytes maxDatagram ≠ 0) :
    rowsPerTile rowBytes maxDatagram * rowBytes + 64 ≤ maxDatagram := by
  have hle : rowsPerTile rowBytes maxDatagram * rowBytes ≤ maxDatagram - headerReserve :=
    Nat.div_mul_le_self _ _
  have hpos : 0 < maxDatagram - headerReserve := by
    rw [Nat.pos_iff_ne_zero]
    intro hzero
    rw [rowsPerTile, hzero, Nat.zero_div] at hrows
    exact hrows rfl
  rw [headerReserve] at hle hpos
  omega

theorem tileCount_eq_ceilDiv {height rows : Nat} : tileCount height rows = height ⌈/⌉ rows :=
  (Nat.ceilDiv_eq_add_pred_div height rows).symm

theorem tileCount_eq_one_iff {height rows : Nat} (hheight : 0 < height) (hrows : 0 < rows) :
    tileCount height rows = 1 ↔ height ≤ rows := by
  have hfirst : 0 < tileCount height rows := (lt_tileCount hrows 0).mpr (by omega)
  have hsecond : 1 < tileCount height rows ↔ 1 * rows < height := lt_tileCount hrows 1
  omega

section Whole

variable {whole : Frame} {rows maxDatagram : Nat}

theorem length_tile_le (hp : whole.pixels.length = whole.width.toNat * whole.height.toNat)
    (hfit : rows * (whole.width.toNat * 3) + 64 ≤ maxDatagram) (i : Nat) :
    (offsetBytes (tileFrame whole rows i).width (tileFrame whole rows i).height
      (tileFrame whole rows i).offset (tileFrame whole rows i).pixels).length ≤ maxDatagram := by
  have hbytes := length_offsetBytes_le (tileFrame whole rows i).width
    (tileFrame whole rows i).height (tileFrame whole rows i).offset (tileFrame whole rows i).pixels
  have hheight : tileHeight whole.height.toNat rows i ≤ rows := Nat.min_le_left _ _
  have hsize := Nat.mul_le_mul_left whole.width.toNat hheight
  have hcomm : rows * (whole.width.toNat * 3) = 3 * (whole.width.toNat * rows) := by ring
  rw [length_pixels_tileFrame hp] at hbytes
  omega

theorem tileFrames_of_le (hkind : whole.kind = .offset) (hh : 0 < whole.height.toNat)
    (hp : whole.pixels.length = whole.width.toNat * whole.height.toNat)
    (hrows : whole.height.toNat ≤ rows) : tileFrames whole rows = [whole] := by
  have hcount : tileCount whole.height.toNat rows = 1 :=
    (tileCount_eq_one_iff hh (Nat.lt_of_lt_of_le hh hrows)).mpr hrows
  have hheight : tileHeight whole.height.toNat rows 0 = whole.height.toNat := by
    rw [tileHeight]
    omega
  have hpixels : whole.pixels.length ≤ rows * whole.width.toNat := by
    rw [hp, Nat.mul_comm]
    exact Nat.mul_le_mul_right _ hrows
  have hplace : Int32.ofNat (0 * rows) = 0 := by
    rw [Nat.zero_mul]
    rfl
  have hfirst : tileFrame whole rows 0 = whole := by
    rw [tileFrame, hheight, hplace, Int32.add_zero, Nat.zero_mul, List.drop_zero,
      List.take_of_length_le hpixels, UInt32.ofNat_toNat, ← hkind]
  rw [tileFrames, hcount, List.range_one, List.map_singleton, hfirst]

end Whole

section Cut

variable {width height : UInt32} {pixels : List Color} {maxDatagram : Nat}

theorem ne_nil_of_sides (hw : 0 < width.toNat) (hh : 0 < height.toNat)
    (hp : pixels.length = width.toNat * height.toNat) : pixels ≠ [] := by
  rw [← List.length_pos_iff, hp]
  exact Nat.mul_pos hw hh

/-- A frame with pixels is refused exactly if one row and the kept bytes are too long. -/
theorem encodeTiles_eq_rowTooWide_iff (hw : 0 < width.toNat) (hh : 0 < height.toNat)
    (hp : pixels.length = width.toNat * height.toNat) (offset : Offset) :
    encodeTiles width height offset pixels maxDatagram =
        .error (.rowTooWide (width.toNat * 3) maxDatagram) ↔
      maxDatagram < 3 * width.toNat + 64 := by
  rw [encodeTiles_eq hp (ne_nil_of_sides hw hh hp), Nat.mul_comm 3,
    ← rowsPerTile_eq_zero_iff (by omega)]
  by_cases hrows : rowsPerTile (width.toNat * 3) maxDatagram = 0 <;> simp [hrows]

theorem encodeTiles_eq_ok (hw : 0 < width.toNat) (hh : 0 < height.toNat)
    (hp : pixels.length = width.toNat * height.toNat) (offset : Offset)
    (hmax : 3 * width.toNat + 64 ≤ maxDatagram) :
    encodeTiles width height offset pixels maxDatagram =
      .ok ((tileFrames ⟨.offset, width, height, offset, pixels⟩
          (rowsPerTile (width.toNat * 3) maxDatagram)).map fun f =>
        offsetBytes f.width f.height f.offset f.pixels) := by
  have hrows : rowsPerTile (width.toNat * 3) maxDatagram ≠ 0 := by
    rw [Ne, rowsPerTile_eq_zero_iff (by omega)]
    omega
  rw [encodeTiles_eq hp (ne_nil_of_sides hw hh hp), if_neg hrows]

theorem exists_encodeTiles (hw : 0 < width.toNat) (hh : 0 < height.toNat)
    (hp : pixels.length = width.toNat * height.toNat) (offset : Offset)
    (hmax : 3 * width.toNat + 64 ≤ maxDatagram) :
    ∃ tiles, encodeTiles width height offset pixels maxDatagram = .ok tiles ∧
      tiles.length = height.toNat ⌈/⌉ ((maxDatagram - 64) / (3 * width.toNat)) ∧
      (tiles.length = 1 ↔ 3 * width.toNat * height.toNat + 64 ≤ maxDatagram) ∧
      ((∃ whole, encodeOffset width height offset pixels = .ok whole ∧ tiles = [whole]) ↔
        3 * width.toNat * height.toNat + 64 ≤ maxDatagram) := by
  have hrowBytes : 0 < width.toNat * 3 := by omega
  have hrows : 0 < rowsPerTile (width.toNat * 3) maxDatagram := by
    rw [Nat.pos_iff_ne_zero, Ne, rowsPerTile_eq_zero_iff hrowBytes]
    omega
  have hfit : height.toNat ≤ rowsPerTile (width.toNat * 3) maxDatagram ↔
      3 * width.toNat * height.toNat + 64 ≤ maxDatagram := by
    rw [le_rowsPerTile_iff hrowBytes hh, Nat.mul_comm 3, Nat.mul_comm height.toNat]
  have hwhole := encodeOffset_eq_ok offset hp
  obtain ⟨tiles, htiles⟩ : ∃ tiles, tiles = (tileFrames ⟨.offset, width, height, offset, pixels⟩
      (rowsPerTile (width.toNat * 3) maxDatagram)).map fun f =>
        offsetBytes f.width f.height f.offset f.pixels := ⟨_, rfl⟩
  have hlength : tiles.length =
      tileCount height.toNat (rowsPerTile (width.toNat * 3) maxDatagram) := by
    rw [htiles, List.length_map, tileFrames, List.length_map, List.length_range]
  have hone : tiles.length = 1 ↔ 3 * width.toNat * height.toNat + 64 ≤ maxDatagram := by
    rw [hlength, tileCount_eq_one_iff hh hrows, hfit]
  refine ⟨tiles, htiles ▸ encodeTiles_eq_ok hw hh hp offset hmax, ?_, hone, ?_, fun hle => ?_⟩
  · rw [hlength, tileCount_eq_ceilDiv, rowsPerTile, headerReserve, Nat.mul_comm 3]
  · rintro ⟨whole, -, hsingle⟩
    rw [← hone, hsingle, List.length_singleton]
  · refine ⟨_, hwhole, ?_⟩
    rw [htiles, tileFrames_of_le rfl hh hp (hfit.mpr hle)]
    rfl

theorem length_le_of_encodeTiles (hw : 0 < width.toNat) (hh : 0 < height.toNat) {offset : Offset}
    {tiles : List (List UInt8)}
    (ht : encodeTiles width height offset pixels maxDatagram = .ok tiles) :
    ∀ t ∈ tiles, t.length ≤ maxDatagram := by
  have hp := length_of_encodeTiles ht
  rw [encodeTiles_eq hp (ne_nil_of_sides hw hh hp)] at ht
  by_cases hrows : rowsPerTile (width.toNat * 3) maxDatagram = 0
  · rw [if_pos hrows] at ht
    cases ht
  · rw [if_neg hrows] at ht
    obtain rfl := Except.ok.inj ht
    intro t ht
    obtain ⟨f, hf, rfl⟩ := List.mem_map.mp ht
    obtain ⟨i, -, rfl⟩ := List.mem_map.mp hf
    refine length_tile_le ?_ (rowsPerTile_mul_le hrows) i
    exact hp

end Cut

end Frame

/-- Whatever the picture of a panel and its place, the tiles keep to the limit. -/
theorem FrameBuffer.length_le_of_encodeTiles {b : FrameBuffer} {place : Offset} {maxDatagram : Nat}
    {tiles : List (List UInt8)} (ht : b.encodeTiles place maxDatagram = .ok tiles) :
    ∀ t ∈ tiles, t.length ≤ maxDatagram := by
  have hw := toNat_pos_iff.mpr b.width_pos
  have hh := toNat_pos_iff.mpr b.height_pos
  exact Frame.length_le_of_encodeTiles hw hh ht

end LedWall
