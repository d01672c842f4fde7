import LedWall.Drawing
import LedWall.Proofs.Canvas.Ownership
import LedWall.Proofs.Frame.Budget
import Mathlib

/-!
# The frames of the sweep

All rows of a frame look the same: a bar in one column, and the background in all others. The bar
starts at the left edge, never goes back, and leaves out no column if there are frames enough. The
number of a frame times the width, or times 255, is taken to be below 2 ^ 64.
-/

namespace LedWall

theorem Color.stored_of_ne_black {c : Color} (h : c ≠ black) (transparent : Bool) :
    c.stored transparent = c := by
  have hblack : c.isBlack = false := decide_eq_false h
  rw [stored, hblack, Bool.false_and]
  rfl

namespace Sweep

def column (width frames i : Nat) : Nat := i * width / frames

def shade (frames i : Nat) : Nat := 255 * i / frames

/-- The colour of column `x` in frame `i`. -/
def colour (width frames i x : Nat) : Color :=
  if x = column width frames i then ⟨255, .ofNat (shade frames i), .ofNat (255 - shade frames i)⟩
  else ⟨0, 0, 40⟩

def picture (width height frames i : Nat) : List Color :=
  (List.range height).flatMap fun _ => (List.range width).map (colour width frames i)

section Columns

variable {width frames i j : Nat}

theorem column_lt (hi : i < frames) (hwidth : 0 < width) : column width frames i < width := by
  rw [column, Nat.div_lt_iff_lt_mul (Nat.zero_lt_of_lt hi), Nat.mul_comm]
  exact Nat.mul_lt_mul_of_pos_left hi hwidth

theorem column_mono (hij : i ≤ j) : column width frames i ≤ column width frames j :=
  Nat.div_le_div_right (Nat.mul_le_mul_right width hij)

theorem column_zero (width frames : Nat) : column width frames 0 = 0 := by
  rw [column, Nat.zero_mul, Nat.zero_div]

theorem shade_lt (hi : i < frames) : shade frames i < 255 := by
  rw [shade, Nat.div_lt_iff_lt_mul (Nat.zero_lt_of_lt hi)]
  exact Nat.mul_lt_mul_of_pos_left hi (by decide)

/-- With as many frames as columns, the first frame that has come as far as a column shows the bar
there. -/
theorem exists_column {x : Nat} (hx : x < width) (hframes : width ≤ frames) :
    ∃ i < frames, column width frames i = x := by
  have hwidth : 0 < width := Nat.zero_lt_of_lt hx
  obtain ⟨i, hi⟩ : ∃ i, i = (x * frames + (width - 1)) / width := ⟨_, rfl⟩
  have hle : i * width ≤ x * frames + (width - 1) := hi ▸ Nat.div_mul_le_self _ _
  have hlt : x * frames + (width - 1) < (i + 1) * width :=
    (Nat.div_lt_iff_lt_mul hwidth).mp (hi ▸ Nat.lt_succ_self _)
  rw [Nat.succ_mul] at hlt
  have hnext : i * width < (x + 1) * frames := by
    rw [Nat.succ_mul]
    omega
  refine ⟨i, ?_, Nat.div_eq_of_lt_le (by omega) hnext⟩
  have hlast : (x + 1) * frames ≤ width * frames := Nat.mul_le_mul_right frames hx
  rw [Nat.mul_comm width] at hlast
  exact Nat.lt_of_mul_lt_mul_right (Nat.lt_of_lt_of_le hnext hlast)

end Columns

theorem length_picture (width height frames i : Nat) :
    (picture width height frames i).length = width * height := by
  simp [picture, Nat.mul_comm]

section Frame

variable {base : FrameBuffer} {frames i : Nat}

theorem grid_bar (frame : FrameBuffer) {bar n : Nat} (hbar : bar < 2 ^ 31) (hn : n < 2 ^ 31) {c : Color}
    (hc : c ≠ .black) : ((List.range n).foldl (fun frame y =>
      frame.set (.ofNat bar) (.ofNat y) c) frame).grid = frame.grid.paint bar (bar + 1) 0 n c := by
  have hrow : ∀ (g : Grid Color), ∀ y ∈ List.range n,
      g.set (.ofNat bar) (.ofNat y) c = g.paintRow bar (bar + 1) y c := by
    intro g y hy
    have hlt : y < 2 ^ 31 := Nat.lt_trans (List.mem_range.mp hy) hn
    rw [Grid.set, Int32.toInt_ofNat_of_lt hbar, Int32.toInt_ofNat_of_lt hlt,
      if_pos ⟨Int.natCast_nonneg bar, Int.natCast_nonneg y⟩, Grid.paintRow, Nat.add_sub_cancel_left]
    rfl
  have hset : ∀ (frame : FrameBuffer) (y : Nat), frame.grid.set (.ofNat bar) (.ofNat y) c =
      (frame.set (.ofNat bar) (.ofNat y) c).grid := by
    intro frame y
    exact congrArg (frame.grid.set _ _) (Color.stored_of_ne_black hc _).symm
  have hgrid : ((List.range n).foldl (fun frame y =>
      frame.set (.ofNat bar) (.ofNat y) c) frame).grid =
        (List.range n).foldl (fun g y => g.set (.ofNat bar) (.ofNat y) c) frame.grid :=
    (List.foldl_hom FrameBuffer.grid hset).symm
  rw [hgrid, List.foldl_ext _ _ _ hrow, Grid.paint, Nat.sub_zero, List.range_eq_range']

theorem grid_sweepFrame (hi : i < frames) (hwidth : base.width.toNat < 2 ^ 31)
    (hheight : base.height.toNat < 2 ^ 31) : (sweepFrame base i frames).grid =
      (Grid.uniform base.width base.height (⟨0, 0, 40⟩ : Color)).paint
        (column base.width.toNat frames i) (column base.width.toNat frames i + 1) 0 base.height.toNat
        ⟨255, .ofNat (shade frames i), .ofNat (255 - shade frames i)⟩ := by
  have hcolumn := column_lt hi (toNat_pos_iff.mpr base.width_pos)
  have hshade := shade_lt hi
  have hblue : 255 - UInt8.ofNat (shade frames i) = UInt8.ofNat (255 - shade frames i) :=
    (UInt8.ofNat_sub (Nat.le_of_lt hshade)).symm
  have hback : (base.fill sweepBackground).grid =
      Grid.uniform base.width base.height (⟨0, 0, 40⟩ : Color) :=
    congrArg base.grid.fill (Color.stored_of_ne_black (by decide) _)
  have hbar : (⟨255, .ofNat (shade frames i), 255 - UInt8.ofNat (shade frames i)⟩ : Color) ≠
      .black := by
    rintro ⟨⟩
  rw [← hback, ← hblue, sweepFrame, Canvas.toInt_toInt32 hheight, Int.toNat_natCast,
    Nat.mul_comm i 255]
  exact grid_bar _ (Nat.lt_trans hcolumn hwidth) hheight hbar

/-- What the frame shows: the bar over the background, whatever was there before. -/
theorem pixels_sweepFrame (hi : i < frames) (hwidth : base.width.toNat < 2 ^ 31)
    (hheight : base.height.toNat < 2 ^ 31) :
    (sweepFrame base i frames).pixels =
      picture base.width.toNat base.height.toNat frames i := by
  have hgrid := grid_sweepFrame hi hwidth hheight
  apply List.map_injective_iff.mpr (Option.some_injective Color)
  rw [FrameBuffer.pixels, ← Grid.map_cell?_places, hgrid, Grid.places, Grid.width_paint,
    Grid.height_paint, picture, List.map_flatMap, List.map_flatMap]
  apply List.flatMap_congr
  intro y hy
  rw [List.map_map, List.map_map]
  apply List.map_congr_left
  intro x hx
  have hin : x < base.width.toNat ∧ y < base.height.toNat :=
    ⟨List.mem_range.mp hx, List.mem_range.mp hy⟩
  rw [Function.comp_apply, Function.comp_apply, Grid.cell?_paint, Grid.cell?_uniform hin, colour,
    apply_ite some]
  by_cases hbar : x = column base.width.toNat frames i
  · rw [if_pos hbar, if_pos ⟨⟨⟨hbar.ge, Nat.lt_succ_of_le hbar.le⟩, Nat.zero_le y, hin.2⟩, hin⟩]
  · rw [if_neg hbar, if_neg]
    rintro ⟨⟨⟨hle, hlt⟩, -⟩, -⟩
    exact hbar (Nat.le_antisymm (Nat.le_of_lt_succ hlt) hle)

theorem encodeTiles_sweepFrame (hi : i < frames) (hwidth : base.width.toNat < 2 ^ 31)
    (hheight : base.height.toNat < 2 ^ 31) (offset : Offset) (maxDatagram : Nat) :
    (sweepFrame base i frames).encodeTiles offset maxDatagram =
      Frame.encodeTiles base.width base.height offset
        (picture base.width.toNat base.height.toNat frames i) maxDatagram := by
  have hgrid := grid_sweepFrame hi hwidth hheight
  rw [FrameBuffer.encodeTiles, pixels_sweepFrame hi hwidth hheight, FrameBuffer.width,
    FrameBuffer.height, hgrid, Grid.width_paint, Grid.height_paint]
  rfl

end Frame

end Sweep

end LedWall
