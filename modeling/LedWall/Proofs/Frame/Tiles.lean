import LedWall.Proofs.Frame.RoundTrip

/-!
# Tiles put together again

A frame that is too long for one datagram is cut into bands of rows. The tiles are described here by
the frames they stand for, one for each multiple of the band's height below the height of the whole;
together these hold every pixel once, each band at its own rows.
-/

namespace LedWall

theorem getElem?_bands {α : Type} {size : Nat} (hsize : 0 < size) (xs : List α) (i : Nat) :
    (bands size xs)[i]? =
      if i * size < xs.length then some ((xs.drop (i * size)).take size) else none := by
  induction i generalizing xs with
  | zero =>
      rw [bands]
      cases xs with
      | nil => simp
      | cons x xs => simp [Nat.ne_of_gt hsize]
  | succ i ih =>
      rw [bands]
      by_cases hxs : xs = []
      · simp [hxs]
      · rw [if_neg (by simp [hxs, Nat.ne_of_gt hsize]), List.getElem?_cons_succ, ih,
          List.length_drop, List.drop_drop, Nat.succ_mul, Nat.add_comm size]
        have hlen : i * size < xs.length - size ↔ i * size + size < xs.length := by omega
        simp only [hlen]

namespace Frame

def tileCount (height rows : Nat) : Nat := (height + rows - 1) / rows

/-- The rows of band `i`: all but the last band have `rows` of them. -/
def tileHeight (height rows i : Nat) : Nat := min rows (height - i * rows)

def tileFrame (whole : Frame) (rows i : Nat) : Frame where
  kind := .offset
  width := whole.width
  height := UInt32.ofNat (tileHeight whole.height.toNat rows i)
  offset := { whole.offset with y := whole.offset.y + Int32.ofNat (i * rows) }
  pixels := (whole.pixels.drop (i * (rows * whole.width.toNat))).take (rows * whole.width.toNat)

def tileFrames (whole : Frame) (rows : Nat) : List Frame :=
  (List.range (tileCount whole.height.toNat rows)).map (tileFrame whole rows)

theorem lt_tileCount {height rows : Nat} (hrows : 0 < rows) (i : Nat) :
    i < tileCount height rows ↔ i * rows < height := by
  rw [tileCount, Nat.lt_iff_add_one_le, Nat.le_div_iff_mul_le hrows, Nat.add_one_mul]
  omega

theorem tileHeight_pos {height rows i : Nat} (hrows : 0 < rows) (hi : i * rows < height) :
    0 < tileHeight height rows i := by
  rw [tileHeight]
  omega

theorem tileHeight_le (height rows i : Nat) : tileHeight height rows i ≤ height := by
  rw [tileHeight]
  omega

theorem sum_tileHeight (height rows i : Nat) :
    ((List.range i).map (tileHeight height rows)).sum = min (i * rows) height := by
  induction i with
  | zero => simp
  | succ i ih =>
      rw [List.range_succ, List.map_append, List.sum_append, ih, Nat.succ_mul]
      simp only [List.map_cons, List.map_nil, List.sum_singleton, tileHeight]
      omega

section Whole

variable {whole : Frame} {rows : Nat}

theorem toNat_height_tileFrame (i : Nat) :
    (tileFrame whole rows i).height.toNat = tileHeight whole.height.toNat rows i := by
  have hle := tileHeight_le whole.height.toNat rows i
  have hlt := whole.height.toNat_lt
  exact UInt32.toNat_ofNat_of_lt' (Nat.lt_of_le_of_lt hle hlt)

theorem length_pixels_tileFrame (hp : whole.pixels.length = whole.width.toNat * whole.height.toNat)
    (i : Nat) : (tileFrame whole rows i).pixels.length =
      whole.width.toNat * tileHeight whole.height.toNat rows i := by
  have hrest : whole.pixels.length - i * (rows * whole.width.toNat) =
      whole.width.toNat * (whole.height.toNat - i * rows) := by
    rw [hp, Nat.mul_sub, ← Nat.mul_assoc, Nat.mul_comm (i * rows)]
  simp only [tileFrame, List.length_take, List.length_drop, hrest]
  rw [tileHeight, Nat.mul_comm rows, Nat.mul_min_mul_left]

theorem getElem?_tileFrames (hrows : 0 < rows) (i : Nat) :
    (tileFrames whole rows)[i]? =
      if i * rows < whole.height.toNat then some (tileFrame whole rows i) else none := by
  rw [tileFrames, List.getElem?_map]
  by_cases hi : i < tileCount whole.height.toNat rows
  · rw [List.getElem?_range hi, if_pos ((lt_tileCount hrows i).mp hi)]
    rfl
  · rw [List.getElem?_eq_none (by rw [List.length_range]; omega),
      if_neg (mt (lt_tileCount hrows i).mpr hi)]
    rfl

theorem forall_mem_tileFrames {P : Frame → Prop} (hrows : 0 < rows)
    (h : ∀ i, i * rows < whole.height.toNat → P (tileFrame whole rows i)) :
    ∀ f ∈ tileFrames whole rows, P f := by
  intro f hf
  obtain ⟨i, hi, rfl⟩ := List.mem_map.mp hf
  exact h i ((lt_tileCount hrows i).mp (List.mem_range.mp hi))

theorem heights_tileFrames (n : Nat) :
    (((List.range n).map (tileFrame whole rows)).map fun f => f.height.toNat) =
      (List.range n).map (tileHeight whole.height.toNat rows) := by
  rw [List.map_map]
  exact List.map_congr_left fun i _ => toNat_height_tileFrame i

theorem map_pixels_tileFrames (hrows : 0 < rows) (hw : 0 < whole.width.toNat)
    (hp : whole.pixels.length = whole.width.toNat * whole.height.toNat) :
    (tileFrames whole rows).map (·.pixels) = bands (rows * whole.width.toNat) whole.pixels := by
  apply List.ext_getElem?
  intro i
  have hin : i * (rows * whole.width.toNat) < whole.pixels.length ↔
      i * rows < whole.height.toNat := by
    rw [hp, ← Nat.mul_assoc, Nat.mul_comm whole.width.toNat]
    exact Nat.mul_lt_mul_right hw
  rw [getElem?_bands (Nat.mul_pos hrows hw), List.getElem?_map, getElem?_tileFrames hrows]
  by_cases hi : i * rows < whole.height.toNat
  · rw [if_pos hi, if_pos (hin.mpr hi)]
    rfl
  · rw [if_neg hi, if_neg (mt hin.mp hi)]
    rfl

theorem toInt_y_tileFrame (hh : whole.height.toNat ≤ 2 ^ 31)
    (hy : whole.offset.y.toInt + whole.height.toNat - 1 ≤ 2 ^ 31 - 1) {i : Nat}
    (hi : i * rows < whole.height.toNat) :
    (tileFrame whole rows i).offset.y.toInt = whole.offset.y.toInt + (i * rows : Nat) := by
  have hlo := whole.offset.y.le_toInt
  have hrow : (Int32.ofNat (i * rows)).toInt = (i * rows : Nat) :=
    Int32.toInt_ofNat_of_lt (Nat.lt_of_lt_of_le hi hh)
  rw [tileFrame, Int32.toInt_add, hrow]
  exact Int.bmod_eq_of_le (by omega) (by omega)

end Whole

/-- Frames that hold the bands of one frame from the top down, each at its own rows. -/
structure Cut (whole : Frame) (parts : List Frame) : Prop where
  kind : ∀ f ∈ parts, f.kind = .offset
  width : ∀ f ∈ parts, f.width = whole.width
  column : ∀ f ∈ parts, f.offset.x = whole.offset.x
  layer : ∀ f ∈ parts, f.offset.z = whole.offset.z
  height_pos : ∀ f ∈ parts, 1 ≤ f.height.toNat
  row : ∀ i f, parts[i]? = some f → f.offset.y.toInt =
    whole.offset.y.toInt + (((parts.take i).map fun g => g.height.toNat).sum : Nat)
  height : (parts.map fun f => f.height.toNat).sum = whole.height.toNat
  even : ∀ f ∈ parts.dropLast, ∀ g ∈ parts.dropLast, f.height = g.height
  pixels : parts.flatMap (·.pixels) = whole.pixels

theorem cut_tileFrames {whole : Frame} {rows : Nat} (hrows : 0 < rows)
    (hw : 0 < whole.width.toNat) (hh : whole.height.toNat ≤ 2 ^ 31)
    (hy : whole.offset.y.toInt + whole.height.toNat - 1 ≤ 2 ^ 31 - 1)
    (hp : whole.pixels.length = whole.width.toNat * whole.height.toNat) :
    Cut whole (tileFrames whole rows) where
  kind := forall_mem_tileFrames hrows fun _ _ => rfl
  width := forall_mem_tileFrames hrows fun _ _ => rfl
  column := forall_mem_tileFrames hrows fun _ _ => rfl
  layer := forall_mem_tileFrames hrows fun _ _ => rfl
  height_pos := by
    refine forall_mem_tileFrames hrows fun i hi => ?_
    rw [toNat_height_tileFrame]
    exact tileHeight_pos hrows hi
  row := by
    intro i f hf
    rw [getElem?_tileFrames hrows] at hf
    obtain ⟨hi, rfl⟩ : i * rows < whole.height.toNat ∧ tileFrame whole rows i = f := by
      simpa using hf
    have hmin : min i (tileCount whole.height.toNat rows) = i :=
      Nat.min_eq_left (Nat.le_of_lt ((lt_tileCount hrows i).mpr hi))
    rw [tileFrames, ← List.map_take, List.take_range, hmin, heights_tileFrames, sum_tileHeight,
      Nat.min_eq_left (Nat.le_of_lt hi)]
    exact toInt_y_tileFrame hh hy hi
  height := by
    have hend : whole.height.toNat ≤ tileCount whole.height.toNat rows * rows :=
      Nat.le_of_not_lt fun h => Nat.lt_irrefl _ ((lt_tileCount hrows _).mpr h)
    rw [tileFrames, heights_tileFrames, sum_tileHeight, Nat.min_eq_right hend]
  even := by
    have hfull : ∀ f ∈ (tileFrames whole rows).dropLast, f.height = UInt32.ofNat rows := by
      intro f hf
      rw [List.dropLast_eq_take, tileFrames, ← List.map_take, List.take_range] at hf
      obtain ⟨i, hi, rfl⟩ := List.mem_map.mp hf
      rw [List.mem_range, List.length_map, List.length_range] at hi
      have hlast : i + 1 < tileCount whole.height.toNat rows := by omega
      have hnext := (lt_tileCount hrows (i + 1)).mp hlast
      rw [Nat.add_one_mul] at hnext
      have hrest : rows ≤ whole.height.toNat - i * rows := by omega
      simp only [tileFrame, tileHeight, Nat.min_eq_left hrest]
    intro f hf g hg
    rw [hfull f hf, hfull g hg]
  pixels := by
    rw [List.flatMap_def, map_pixels_tileFrames hrows hw hp, flatten_bands (Nat.mul_pos hrows hw)]

theorem encodeTiles_of_isEmpty {width height : UInt32} {pixels : List Color}
    (hp : pixels.length = width.toNat * height.toNat) (he : pixels = []) (offset : Offset)
    (maxDatagram : Nat) : encodeTiles width height offset pixels maxDatagram =
      .ok [offsetBytes width height offset pixels] := by
  rw [encodeTiles, checkCount_eq_ok hp]
  simp only [bind, Except.bind, he, List.isEmpty_nil, or_true, ↓reduceIte]
  rfl

section Whole

variable {whole : Frame} {rows : Nat}

theorem tile_band (hp : whole.pixels.length = whole.width.toNat * whole.height.toNat)
    (hw : 0 < whole.width.toNat) (i : Nat) :
    tile whole.width whole.offset rows (tileFrame whole rows i).pixels i =
      offsetBytes whole.width (tileFrame whole rows i).height (tileFrame whole rows i).offset
        (tileFrame whole rows i).pixels := by
  rw [tile, length_pixels_tileFrame hp, Nat.mul_div_cancel_left _ hw]
  rfl

theorem map_tile_bands (hp : whole.pixels.length = whole.width.toNat * whole.height.toNat)
    (hw : 0 < whole.width.toNat) (hrows : 0 < rows) :
    ((bands (rows * whole.width.toNat) whole.pixels).zipIdx.map fun (band, i) =>
      tile whole.width whole.offset rows band i) =
    (tileFrames whole rows).map fun f => offsetBytes f.width f.height f.offset f.pixels := by
  rw [← map_pixels_tileFrames hrows hw hp]
  apply List.ext_getElem?
  intro i
  simp only [List.getElem?_map, List.getElem?_zipIdx, getElem?_tileFrames hrows, Nat.zero_add]
  by_cases hi : i * rows < whole.height.toNat
  · rw [if_pos hi]
    exact congrArg some (tile_band hp hw i)
  · rw [if_neg hi]
    rfl

end Whole

/-- A frame with pixels is written band by band, unless not even one row fits a datagram. -/
theorem encodeTiles_eq {width height : UInt32} {pixels : List Color}
    (hp : pixels.length = width.toNat * height.toNat) (he : pixels ≠ []) (offset : Offset)
    (maxDatagram : Nat) : encodeTiles width height offset pixels maxDatagram =
      if rowsPerTile (width.toNat * 3) maxDatagram = 0 then
        .error (.rowTooWide (width.toNat * 3) maxDatagram)
      else .ok ((tileFrames ⟨.offset, width, height, offset, pixels⟩
          (rowsPerTile (width.toNat * 3) maxDatagram)).map fun f =>
        offsetBytes f.width f.height f.offset f.pixels) := by
  have hpos : 0 < width.toNat * height.toNat := by
    rw [← hp]
    exact List.length_pos_of_ne_nil he
  have hw : 0 < width.toNat := Nat.pos_of_mul_pos_right hpos
  have hbytes : ¬ (width.toNat * 3 = 0 ∨ pixels.isEmpty = true) := by
    rintro (h | h)
    · omega
    · exact he (List.isEmpty_iff.mp h)
  rw [encodeTiles, checkCount_eq_ok hp]
  simp only [bind, Except.bind, hbytes, ↓reduceIte]
  by_cases hrows : rowsPerTile (width.toNat * 3) maxDatagram = 0
  · rw [if_pos hrows, if_pos hrows]
    rfl
  · rw [if_neg hrows, if_neg hrows]
    exact congrArg Except.ok (@map_tile_bands ⟨.offset, width, height, offset, pixels⟩ _ hp hw
      (Nat.pos_of_ne_zero hrows))

theorem length_of_encodeTiles {width height : UInt32} {offset : Offset} {pixels : List Color}
    {maxDatagram : Nat} {tiles : List (List UInt8)}
    (h : encodeTiles width height offset pixels maxDatagram = .ok tiles) :
    pixels.length = width.toNat * height.toNat := by
  by_contra hp
  rw [encodeTiles, checkCount, if_neg hp] at h
  cases h

theorem parse_band [Png.Codec] {whole : Frame} {rows : Nat}
    (hp : whole.pixels.length = whole.width.toNat * whole.height.toNat) {i : Nat}
    (hs : 3 * (whole.width.toNat * tileHeight whole.height.toNat rows i) < 2 ^ 64) :
    parse (offsetBytes (tileFrame whole rows i).width (tileFrame whole rows i).height
      (tileFrame whole rows i).offset (tileFrame whole rows i).pixels) =
        .ok (tileFrame whole rows i) := by
  apply parse_offsetBytes
  · rw [length_pixels_tileFrame hp, toNat_height_tileFrame]
    rfl
  · rw [toNat_height_tileFrame]
    exact hs

theorem parse_tileFrame [Png.Codec] {whole : Frame} {rows : Nat}
    (hp : whole.pixels.length = whole.width.toNat * whole.height.toNat)
    (hs : 3 * (whole.width.toNat * rows) < 2 ^ 64) (i : Nat) :
    parse (offsetBytes (tileFrame whole rows i).width (tileFrame whole rows i).height
      (tileFrame whole rows i).offset (tileFrame whole rows i).pixels) =
        .ok (tileFrame whole rows i) := by
  have hheight : tileHeight whole.height.toNat rows i ≤ rows := Nat.min_le_left _ _
  have hsize : whole.width.toNat * tileHeight whole.height.toNat rows i ≤
      whole.width.toNat * rows := Nat.mul_le_mul_left _ hheight
  exact parse_band hp (Nat.lt_of_le_of_lt (Nat.mul_le_mul_left 3 hsize) hs)

theorem cut_self {whole : Frame} (hkind : whole.kind = .offset) (hh : 0 < whole.height.toNat) :
    Cut whole [whole] where
  kind := by simpa using hkind
  width := by simp
  column := by simp
  layer := by simp
  height_pos := by
    intro f hf
    rw [List.mem_singleton.mp hf]
    exact hh
  row := by
    intro i f hf
    obtain ⟨rfl, rfl⟩ : i = 0 ∧ whole = f := by simpa [List.getElem?_singleton] using hf
    simp
  height := by simp
  even := by simp
  pixels := by simp

/-- Whenever a frame is written as tiles, these read back as the bands of the frame: nothing is lost
or doubled, and every band stands where it was cut out. -/
theorem cut_encodeTiles [Png.Codec] (width height : UInt32) (offset : Offset) (pixels : List Color)
    (maxDatagram : Nat) (tiles : List (List UInt8)) (h0 : 0 < height.toNat)
    (hh : height.toNat ≤ 2 ^ 31) (hy : offset.y.toInt + height.toNat - 1 ≤ 2 ^ 31 - 1)
    (hm : maxDatagram < 2 ^ 64)
    (ht : encodeTiles width height offset pixels maxDatagram = .ok tiles) :
    ∃ frames, tiles.map parse = frames.map .ok ∧
      Cut ⟨.offset, width, height, offset, pixels⟩ frames := by
  have hp := length_of_encodeTiles ht
  by_cases he : pixels = []
  · have hzero : width.toNat * height.toNat = 0 := by rw [← hp, he, List.length_nil]
    rw [encodeTiles_of_isEmpty hp he] at ht
    obtain rfl := Except.ok.inj ht
    refine ⟨[⟨.offset, width, height, offset, pixels⟩], ?_, cut_self rfl h0⟩
    simp only [List.map_cons, List.map_nil, parse_offsetBytes offset hp (by omega)]
  · have hpos : 0 < width.toNat * height.toNat := by
      rw [← hp]
      exact List.length_pos_of_ne_nil he
    have hw : 0 < width.toNat := Nat.pos_of_mul_pos_right hpos
    rw [encodeTiles_eq hp he] at ht
    by_cases hrows : rowsPerTile (width.toNat * 3) maxDatagram = 0
    · rw [if_pos hrows] at ht
      cases ht
    · rw [if_neg hrows] at ht
      obtain rfl := Except.ok.inj ht
      have hfit : rowsPerTile (width.toNat * 3) maxDatagram * (width.toNat * 3) ≤
          maxDatagram - headerReserve := Nat.div_mul_le_self _ _
      have hs : 3 * (width.toNat * rowsPerTile (width.toNat * 3) maxDatagram) < 2 ^ 64 := by
        have hcomm : 3 * (width.toNat * rowsPerTile (width.toNat * 3) maxDatagram) =
            rowsPerTile (width.toNat * 3) maxDatagram * (width.toNat * 3) := by ring
        omega
      refine ⟨_, ?_, cut_tileFrames (Nat.pos_of_ne_zero hrows) hw hh hy hp⟩
      simp only [tileFrames, List.map_map]
      exact List.map_congr_left fun i _ => parse_tileFrame hp hs i

theorem cut_encodeTiles_two_tiles :
    ∃ tiles, encodeTiles 2 3 ⟨-5, -1, 9⟩ (List.replicate 6 .red) 76 = .ok tiles ∧
      tiles.length = 2 ∧
      (0 < (3 : UInt32).toNat ∧ (3 : UInt32).toNat ≤ 2 ^ 31 ∧
        (-1 : Int32).toInt + (3 : UInt32).toNat - 1 ≤ 2 ^ 31 - 1 ∧ 76 < 2 ^ 64) ∧
      ∃ frames, tiles.map parse = frames.map .ok ∧
        Cut ⟨.offset, 2, 3, ⟨-5, -1, 9⟩, List.replicate 6 .red⟩ frames := by
  have ht := @encodeTiles_eq 2 3 (List.replicate 6 .red) rfl (by decide) ⟨-5, -1, 9⟩ 76
  rw [if_neg (by decide)] at ht
  refine ⟨_, ht, rfl, by decide, ?_⟩
  exact cut_encodeTiles 2 3 ⟨-5, -1, 9⟩ _ 76 _ (by decide) (by decide) (by decide) (by decide) ht

end Frame

end LedWall
