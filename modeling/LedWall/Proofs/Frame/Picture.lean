import LedWall.Proofs.Frame.Budget
import LedWall.Proofs.Grid
import LedWall.FrameBuffer

/-!
# What a wall shows

A wall keeps one colour for each place of each layer. A frame gives new colours to the places that it
covers, so of several frames the last one that covers a place decides, and the tiles of a frame show
what the whole frame shows.
-/

namespace LedWall

/-- The colours on a wall by column, row and layer, as far as frames have given any. -/
abbrev Picture := Int → Int → UInt8 → Option Color

def Picture.blank : Picture := fun _ _ _ => none

namespace Frame

def Covers (f : Frame) (x y : Int) (z : UInt8) : Prop :=
  z = f.offset.z ∧ (f.offset.x.toInt ≤ x ∧ x < f.offset.x.toInt + f.width.toNat) ∧
    f.offset.y.toInt ≤ y ∧ y < f.offset.y.toInt + f.height.toNat

instance (f : Frame) (x y : Int) (z : UInt8) : Decidable (f.Covers x y z) := by
  unfold Covers
  infer_instance

/-- The colour that a frame gives to a place. -/
def dot? (f : Frame) (x y : Int) (z : UInt8) : Option Color :=
  if f.Covers x y z then
    f.pixels[(y - f.offset.y.toInt).toNat * f.width.toNat + (x - f.offset.x.toInt).toNat]?
  else none

end Frame

namespace Picture

def painted (p : Picture) (f : Frame) : Picture := fun x y z => (f.dot? x y z).or (p x y z)

def paint (p : Picture) (frames : List Frame) : Picture := frames.foldl painted p

variable {p : Picture} {x y : Int} {z : UInt8}

theorem paint_append (frames more : List Frame) :
    p.paint (frames ++ more) = (p.paint frames).paint more :=
  List.foldl_append

theorem paint_of_none {frames : List Frame} (h : ∀ f ∈ frames, f.dot? x y z = none) :
    p.paint frames x y z = p x y z := by
  induction frames generalizing p with
  | nil => rfl
  | cons f frames ih =>
      obtain ⟨hf, hframes⟩ := List.forall_mem_cons.mp h
      have hlater := ih (p := p.painted f) hframes
      rw [paint, List.foldl_cons]
      rw [paint] at hlater
      rw [hlater, painted, hf, Option.none_or]

theorem paint_of_last {frames : List Frame} {n : Nat} {f : Frame} {c : Color}
    (hf : frames[n]? = some f) (hc : f.dot? x y z = some c)
    (hlater : ∀ k g, frames[k]? = some g → n < k → g.dot? x y z = none) :
    p.paint frames x y z = some c := by
  obtain ⟨hn, hget⟩ := List.getElem?_eq_some_iff.mp hf
  have hsplit : frames = (frames.take n ++ [f]) ++ frames.drop (n + 1) := by
    rw [← hget, List.take_append_getElem, List.take_append_drop]
  have hrest : ∀ g ∈ frames.drop (n + 1), g.dot? x y z = none := by
    intro g hg
    obtain ⟨i, hi⟩ := List.mem_iff_getElem?.mp hg
    rw [List.getElem?_drop] at hi
    exact hlater _ g hi (by omega)
  rw [hsplit, paint_append, paint_of_none hrest, paint_append]
  show (f.dot? x y z).or _ = _
  rw [hc, Option.some_or]

end Picture

namespace Frame

section Whole

variable {whole : Frame} {rows : Nat} {x y : Int} {z : UInt8}

theorem dot?_tileFrame (hh : whole.height.toNat ≤ 2 ^ 31)
    (hy : whole.offset.y.toInt + whole.height.toNat - 1 ≤ 2 ^ 31 - 1) {i : Nat}
    (hi : i * rows < whole.height.toNat) : (tileFrame whole rows i).dot? x y z =
      if whole.offset.y.toInt + (i * rows : Nat) ≤ y ∧
          y < whole.offset.y.toInt + (i * rows : Nat) + rows then
        whole.dot? x y z
      else none := by
  have htop : (tileFrame whole rows i).offset.y.toInt = whole.offset.y.toInt + (i * rows : Nat) :=
    toInt_y_tileFrame hh hy hi
  have hheight := @toNat_height_tileFrame whole rows i
  have hcovers : (tileFrame whole rows i).Covers x y z ↔ whole.Covers x y z ∧
      whole.offset.y.toInt + (i * rows : Nat) ≤ y ∧
        y < whole.offset.y.toInt + (i * rows : Nat) + rows := by
    rw [Covers, Covers, htop, hheight, tileHeight]
    simp only [tileFrame]
    constructor
    · rintro ⟨hz, hx, hin⟩
      exact ⟨⟨hz, hx, by omega⟩, by omega⟩
    · rintro ⟨⟨hz, hx, hin⟩, hrow⟩
      exact ⟨hz, hx, by omega⟩
  rw [dot?, dot?]
  by_cases hrow : whole.offset.y.toInt + (i * rows : Nat) ≤ y ∧
      y < whole.offset.y.toInt + (i * rows : Nat) + rows
  · rw [if_pos hrow]
    by_cases hc : whole.Covers x y z
    · have hstep : (y - whole.offset.y.toInt).toNat * whole.width.toNat =
          i * (rows * whole.width.toNat) +
            (y - (whole.offset.y.toInt + (i * rows : Nat))).toNat * whole.width.toNat := by
        rw [← Nat.mul_assoc, ← Nat.add_mul]
        congr 1
        omega
      have hin : (y - (whole.offset.y.toInt + (i * rows : Nat))).toNat * whole.width.toNat +
          (x - whole.offset.x.toInt).toNat < rows * whole.width.toNat := by
        obtain ⟨-, hx, -⟩ := hc
        have hrows : (y - (whole.offset.y.toInt + (i * rows : Nat))).toNat + 1 ≤ rows := by omega
        have hfull := Nat.mul_le_mul_right whole.width.toNat hrows
        rw [Nat.add_one_mul] at hfull
        omega
      rw [if_pos (hcovers.mpr ⟨hc, hrow⟩), if_pos hc, htop, hstep]
      simp only [tileFrame]
      rw [List.getElem?_take_of_lt hin, List.getElem?_drop, Nat.add_assoc]
    · rw [if_neg hc, if_neg fun h => hc (hcovers.mp h).1]
  · rw [if_neg hrow, if_neg fun h => hrow (hcovers.mp h).2]

/-- The tiles of a frame show what the whole frame shows. -/
theorem paint_tileFrames (hrows : 0 < rows) (hh : whole.height.toNat ≤ 2 ^ 31)
    (hy : whole.offset.y.toInt + whole.height.toNat - 1 ≤ 2 ^ 31 - 1) (p : Picture) :
    p.paint (tileFrames whole rows) = p.painted whole := by
  funext x y z
  have htile : ∀ k g, (tileFrames whole rows)[k]? = some g → k * rows < whole.height.toNat ∧
      g.dot? x y z = if whole.offset.y.toInt + (k * rows : Nat) ≤ y ∧
        y < whole.offset.y.toInt + (k * rows : Nat) + rows then whole.dot? x y z else none := by
    intro k g hg
    rw [getElem?_tileFrames hrows] at hg
    obtain ⟨hk, rfl⟩ : k * rows < whole.height.toNat ∧ tileFrame whole rows k = g := by simpa using hg
    exact ⟨hk, dot?_tileFrame hh hy hk⟩
  rw [Picture.painted]
  cases hdot : whole.dot? x y z with
  | none =>
      rw [Option.none_or]
      refine Picture.paint_of_none fun g hg => ?_
      obtain ⟨k, hk⟩ := List.mem_iff_getElem?.mp hg
      rw [(htile k g hk).2, hdot, ite_self]
  | some c =>
      rw [Option.some_or]
      have hc : whole.Covers x y z := by
        by_contra hout
        rw [dot?, if_neg hout] at hdot
        cases hdot
      obtain ⟨-, -, htop, hbottom⟩ := hc
      obtain ⟨row, hrow⟩ : ∃ row : Nat, y - whole.offset.y.toInt = row :=
        ⟨_, (Int.toNat_of_nonneg (by omega)).symm⟩
      have hdiv := Nat.div_add_mod' row rows
      have hmod := Nat.mod_lt row hrows
      have hlast : (tileFrames whole rows)[row / rows]? = some (tileFrame whole rows (row / rows)) := by
        rw [getElem?_tileFrames hrows, if_pos (by omega)]
      refine Picture.paint_of_last hlast ?_ fun k g hg hk => ?_
      · rw [(htile _ _ hlast).2, if_pos (by omega)]
        exact hdot
      · have hbelow := Nat.mul_le_mul_right rows (Nat.succ_le_of_lt hk)
        rw [Nat.succ_mul] at hbelow
        rw [(htile k g hg).2, if_neg (by omega)]

end Whole

end Frame

namespace FrameBuffer

def frameAt (b : FrameBuffer) (place : Offset) : Frame := ⟨.offset, b.width, b.height, place, b.pixels⟩

theorem pixels_ne_nil (b : FrameBuffer) : b.pixels ≠ [] := by
  have hw := toNat_pos_iff.mpr b.width_pos
  have hh := toNat_pos_iff.mpr b.height_pos
  exact Frame.ne_nil_of_sides hw hh b.length_pixels

theorem getElem?_pixels_eq_cell? (b : FrameBuffer) {x y : Nat}
    (hin : x < b.width.toNat ∧ y < b.height.toNat) :
    b.pixels[y * b.width.toNat + x]? = b.grid.cell? x y := by
  rw [Grid.cell?_eq_getElem? hin, pixels, Array.getElem?_toList]
  rfl

/-- The tiles of a picture read back as frames that show the whole picture. -/
theorem paint_of_encodeTiles [Png.Codec] {b : FrameBuffer} {place : Offset} {maxDatagram : Nat}
    {tiles : List (List UInt8)} (hm : maxDatagram < 2 ^ 64) (hh : b.height.toNat ≤ 2 ^ 31)
    (hy : place.y.toInt + b.height.toNat - 1 ≤ 2 ^ 31 - 1)
    (ht : b.encodeTiles place maxDatagram = .ok tiles) :
    ∃ frames, tiles.map Frame.parse = frames.map .ok ∧
      ∀ p : Picture, p.paint frames = p.painted (b.frameAt place) := by
  rw [encodeTiles, Frame.encodeTiles_eq b.length_pixels b.pixels_ne_nil] at ht
  by_cases hrows : Frame.rowsPerTile (b.width.toNat * 3) maxDatagram = 0
  · rw [if_pos hrows] at ht
    cases ht
  · rw [if_neg hrows] at ht
    obtain rfl := Except.ok.inj ht
    have hfit : Frame.rowsPerTile (b.width.toNat * 3) maxDatagram * (b.width.toNat * 3) ≤
        maxDatagram - headerReserve := Nat.div_mul_le_self _ _
    have hcomm : 3 * (b.width.toNat * Frame.rowsPerTile (b.width.toNat * 3) maxDatagram) =
        Frame.rowsPerTile (b.width.toNat * 3) maxDatagram * (b.width.toNat * 3) := by ring
    refine ⟨Frame.tileFrames (b.frameAt place) _, ?_,
      Frame.paint_tileFrames (Nat.pos_of_ne_zero hrows) hh hy⟩
    simp only [Frame.tileFrames, List.map_map]
    exact List.map_congr_left fun i _ =>
      @Frame.parse_tileFrame _ (b.frameAt place) _ b.length_pixels (hcomm ▸ by omega) i

theorem dot?_frameAt {b : FrameBuffer} {place : Offset} {x y : Int} {i j : Int32}
    (hi : i.toInt = x - place.x.toInt) (hj : j.toInt = y - place.y.toInt) :
    (b.frameAt place).dot? x y place.z = b.get? i j := by
  have hcovers : (b.frameAt place).Covers x y place.z ↔ b.grid.Holds i j := by
    rw [Frame.Covers, Grid.Holds, hi, hj]
    simp only [frameAt, width, height]
    constructor
    · rintro ⟨-, hin⟩
      omega
    · intro hin
      exact ⟨trivial, by omega⟩
  rw [get?, Frame.dot?]
  by_cases hin : b.grid.Holds i j
  · rw [if_pos (hcovers.mpr hin), Grid.get?_of_holds hin, Grid.cell?_eq_getElem? hin.inside, hi, hj]
    exact Array.getElem?_toList
  · rw [if_neg (mt hcovers.mp hin), Grid.get?_of_not_holds hin]

end FrameBuffer

end LedWall
