import LedWall.Proofs.Frame.Picture
import LedWall.Proofs.Png.Rows

/-!
# Frame buffers as maps of last writes

A frame buffer remembers one colour for each of its places: the last one that was written there, as
the rule for black lets it through, or the colour of the picture it was made from. Its sides never
change, so the encoders that do not count pixels are right to trust it.
-/

namespace LedWall

namespace Grid

variable {α : Type}

theorem cell?_set (g : Grid α) (x y : Int32) (v : α) {i j : Nat}
    (h : i < g.width.toNat ∧ j < g.height.toNat) :
    (g.set x y v).cell? i j = if x.toInt = i ∧ y.toInt = j then some v else g.cell? i j := by
  rw [set]
  by_cases hpos : 0 ≤ x.toInt ∧ 0 ≤ y.toInt
  · have hplace : (x.toInt.toNat = i ∧ y.toInt.toNat = j ∧ i < g.width.toNat ∧
        j < g.height.toNat) ↔ x.toInt = i ∧ y.toInt = j := by
      omega
    rw [if_pos hpos, cell?_setCell]
    simp only [hplace]
  · rw [if_neg hpos, if_neg]
    rintro ⟨hx, hy⟩
    omega

theorem cell?_fill {g : Grid α} {i j : Nat} (h : i < g.width.toNat ∧ j < g.height.toNat) (v : α) :
    (g.fill v).cell? i j = some v :=
  cell?_uniform h v

end Grid

namespace FrameBuffer

inductive Write where
  | set (x y : Int32) (c : Color)
  | fill (c : Color)
  | clear

namespace Write

def apply (b : FrameBuffer) : Write → FrameBuffer
  | set x y c => b.set x y c
  | fill c => b.fill c
  | clear => b.clear

/-- The colour that a write brings to a place, if it reaches the place. -/
def colour? (i j : Nat) : Write → Option Color
  | set x y c => if x.toInt = i ∧ y.toInt = j then some c else none
  | fill c => some c
  | clear => some .black

end Write

def written (b : FrameBuffer) (ws : List Write) : FrameBuffer := ws.foldl Write.apply b

/-- The last colour that some writes bring to a place. -/
def lastColour? (ws : List Write) (i j : Nat) : Option Color :=
  (ws.filterMap (Write.colour? i j)).getLast?

inductive Origin where
  | blank
  | dump (bytes : List UInt8)

namespace Origin

def make (o : Origin) (width height : UInt32) (layer : UInt8) (transparent : Bool) :
    Except SurfaceError FrameBuffer :=
  match o with
  | blank => FrameBuffer.blank width height layer transparent
  | dump bytes => FrameBuffer.ofDump width height layer transparent bytes

def colour (o : Origin) (width : UInt32) (transparent : Bool) (i j : Nat) : Color :=
  match o with
  | blank => .black
  | dump bytes =>
      let first := 3 * (j * width.toNat + i)
      (⟨bytes.getD first 0, bytes.getD (first + 1) 0, bytes.getD (first + 2) 0⟩ : Color).stored
        transparent

/-- The colour in column `i` of row `j` after some writes. -/
def colourAfter (o : Origin) (width : UInt32) (transparent : Bool) (ws : List Write) (i j : Nat) :
    Color :=
  match lastColour? ws i j with
  | some c => c.stored transparent
  | none => o.colour width transparent i j

end Origin

structure SameShape (b b' : FrameBuffer) : Prop where
  width : b'.width = b.width
  height : b'.height = b.height
  layer : b'.layer = b.layer
  transparent : b'.transparent = b.transparent

theorem sameShape_apply (b : FrameBuffer) (w : Write) : b.SameShape (w.apply b) := by
  cases w with
  | set x y c => exact ⟨Grid.width_set _ _ _ _, Grid.height_set _ _ _ _, rfl, rfl⟩
  | fill c => exact ⟨rfl, rfl, rfl, rfl⟩
  | clear => exact ⟨rfl, rfl, rfl, rfl⟩

theorem cell?_apply (b : FrameBuffer) (w : Write) {i j : Nat}
    (h : i < b.width.toNat ∧ j < b.height.toNat) :
    (w.apply b).grid.cell? i j =
      ((w.colour? i j).map (·.stored b.transparent)).or (b.grid.cell? i j) := by
  cases w with
  | set x y c =>
      have hset : (b.set x y c).grid = b.grid.set x y (c.stored b.transparent) := rfl
      rw [Write.apply, hset, Grid.cell?_set _ _ _ _ h, Write.colour?]
      by_cases hplace : x.toInt = i ∧ y.toInt = j
      · rw [if_pos hplace, if_pos hplace]
        rfl
      · rw [if_neg hplace, if_neg hplace]
        rfl
  | fill c => exact Grid.cell?_fill h _
  | clear => exact Grid.cell?_fill h _

theorem sameShape_written (b : FrameBuffer) (ws : List Write) : b.SameShape (b.written ws) := by
  induction ws generalizing b with
  | nil => exact ⟨rfl, rfl, rfl, rfl⟩
  | cons w ws ih =>
      have hfirst := b.sameShape_apply w
      have hrest := ih (w.apply b)
      exact ⟨hrest.width.trans hfirst.width, hrest.height.trans hfirst.height,
        hrest.layer.trans hfirst.layer, hrest.transparent.trans hfirst.transparent⟩

theorem lastColour?_append_singleton (ws : List Write) (w : Write) (i j : Nat) :
    lastColour? (ws ++ [w]) i j = (w.colour? i j).or (lastColour? ws i j) := by
  rw [lastColour?, List.filterMap_append]
  cases hw : w.colour? i j with
  | none => simp [hw, lastColour?]
  | some c => simp [hw]

theorem cell?_written (b : FrameBuffer) (ws : List Write) {i j : Nat}
    (h : i < b.width.toNat ∧ j < b.height.toNat) :
    (b.written ws).grid.cell? i j =
      ((lastColour? ws i j).map (·.stored b.transparent)).or (b.grid.cell? i j) := by
  -- The writes are taken from the last one back, which decides alone if it reaches the place.
  induction ws using List.reverseRecOn with
  | nil => rfl
  | append_singleton ws w ih =>
      have hshape := b.sameShape_written ws
      have hin : i < (b.written ws).width.toNat ∧ j < (b.written ws).height.toNat := by
        rwa [hshape.width, hshape.height]
      have hlast : b.written (ws ++ [w]) = w.apply (b.written ws) := by
        rw [written, List.foldl_append]
        rfl
      rw [hlast, cell?_apply _ w hin, ih, hshape.transparent, lastColour?_append_singleton]
      cases w.colour? i j <;> rfl

structure Shows (b : FrameBuffer) (width height : UInt32) (layer : UInt8) (transparent : Bool)
    (colour : Nat → Nat → Color) : Prop where
  width_eq : b.width = width
  height_eq : b.height = height
  layer_eq : b.layer = layer
  transparent_eq : b.transparent = transparent
  cell_eq : ∀ i j, i < width.toNat ∧ j < height.toNat → b.grid.cell? i j = some (colour i j)

section Shows

variable {o : Origin} {width height : UInt32} {layer : UInt8} {transparent : Bool} {b : FrameBuffer}
  {colour : Nat → Nat → Color}

theorem shows_of_blank (h : blank width height layer transparent = .ok b) :
    b.Shows width height layer transparent (Origin.blank.colour width transparent) := by
  rw [blank] at h
  split at h
  · obtain rfl := Except.ok.inj h
    exact ⟨rfl, rfl, rfl, rfl, fun i j hin => Grid.cell?_uniform hin Color.black⟩
  · cases h

theorem getElem?_ofDump {bytes : List UInt8} {k : Nat} (h : 3 ∣ bytes.length)
    (hk : k < (Color.ofDump bytes).length) : (Color.ofDump bytes)[k]? =
      some ⟨bytes.getD (3 * k) 0, bytes.getD (3 * k + 1) 0, bytes.getD (3 * k + 2) 0⟩ := by
  obtain ⟨hr, hg, hb⟩ := Png.getD_dump (Color.ofDump bytes) k hk
  rw [Color.dump_ofDump h] at hr hg hb
  simp only [Array.getD_eq_getD_getElem?, List.getElem?_toArray,
    ← List.getD_eq_getElem?_getD] at hr hg hb
  rw [List.getElem?_eq_getElem hk, hr, hg, hb]

theorem shows_of_ofDump {bytes : List UInt8}
    (h : ofDump width height layer transparent bytes = .ok b) :
    b.Shows width height layer transparent ((Origin.dump bytes).colour width transparent) := by
  rw [ofDump] at h
  split at h
  · dsimp only at h
    split at h
    · rename_i hsides hsize
      obtain rfl := Except.ok.inj h
      refine ⟨rfl, rfl, rfl, rfl, fun i j hin => ?_⟩
      have hpixels : (Color.ofDump bytes).length = width.toNat * height.toNat := by
        simpa using hsize.1
      have hindex : j * width.toNat + i < (Color.ofDump bytes).length :=
        hpixels ▸ Grid.index_lt_area hin
      rw [Grid.cell?_eq_getElem? hin, List.getElem?_toArray, List.getElem?_map,
        getElem?_ofDump ⟨_, hsize.2⟩ hindex]
      rfl
    · cases h
  · cases h

theorem Origin.shows (h : o.make width height layer transparent = .ok b) :
    b.Shows width height layer transparent (o.colour width transparent) := by
  cases o with
  | blank => exact shows_of_blank h
  | dump bytes => exact shows_of_ofDump h

namespace Shows

theorem written (h : b.Shows width height layer transparent (o.colour width transparent))
    (ws : List Write) : (b.written ws).Shows width height layer transparent
      (o.colourAfter width transparent ws) := by
  have hshape := b.sameShape_written ws
  refine ⟨hshape.width.trans h.width_eq, hshape.height.trans h.height_eq,
    hshape.layer.trans h.layer_eq, hshape.transparent.trans h.transparent_eq, fun i j hin => ?_⟩
  have hin' : i < b.width.toNat ∧ j < b.height.toNat := by rwa [h.width_eq, h.height_eq]
  rw [cell?_written b ws hin', h.cell_eq i j hin, h.transparent_eq, Origin.colourAfter]
  cases lastColour? ws i j <;> rfl

theorem length_pixels (h : b.Shows width height layer transparent colour) :
    b.pixels.length = width.toNat * height.toNat := by
  rw [FrameBuffer.length_pixels, h.width_eq, h.height_eq]

theorem getElem?_pixels (h : b.Shows width height layer transparent colour) {i j : Nat}
    (hin : i < width.toNat ∧ j < height.toNat) :
    b.pixels[j * width.toNat + i]? = some (colour i j) := by
  have hpixel := b.getElem?_pixels_eq_cell? (x := i) (y := j) (by rwa [h.width_eq, h.height_eq])
  rwa [h.width_eq, h.cell_eq i j hin] at hpixel

theorem get?_eq (h : b.Shows width height layer transparent colour) (x y : Int32) :
    b.get? x y =
      if (0 ≤ x.toInt ∧ x.toInt < width.toNat) ∧ 0 ≤ y.toInt ∧ y.toInt < height.toNat then
        some (colour x.toInt.toNat y.toInt.toNat)
      else none := by
  have hholds : b.grid.Holds x y ↔
      (0 ≤ x.toInt ∧ x.toInt < width.toNat) ∧ 0 ≤ y.toInt ∧ y.toInt < height.toNat := by
    rw [← h.width_eq, ← h.height_eq]
    rfl
  rw [get?]
  by_cases hin : b.grid.Holds x y
  · have hplace := hholds.mp hin
    rw [if_pos hplace, Grid.get?_of_holds hin]
    exact h.cell_eq _ _ (by omega)
  · rw [if_neg (mt hholds.mpr hin), Grid.get?_of_not_holds hin]

end Shows

theorem Origin.untouched_of_black {ws : List Write} {i j : Nat}
    (h : o.colourAfter width false ws i j = .black) : o = .blank ∧ lastColour? ws i j = none := by
  rw [colourAfter] at h
  cases hlast : lastColour? ws i j with
  | some c =>
      rw [hlast] at h
      exact absurd h c.stored_opaque_ne_black
  | none =>
      rw [hlast] at h
      cases o with
      | blank => exact ⟨rfl, rfl⟩
      | dump bytes => exact absurd h (Color.stored_opaque_ne_black _)

end Shows

theorem encodePlain_pixels (b : FrameBuffer) :
    Frame.encodePlain b.width b.height b.layer b.pixels = .ok b.encode := by
  rw [Frame.encodePlain, Frame.checkCount_eq_ok b.length_pixels]
  rfl

theorem encodeTiles_ne_pixelCount (b : FrameBuffer) (place : Offset) (maxDatagram : Nat)
    (width height : UInt32) (count : Nat) :
    b.encodeTiles place maxDatagram ≠ .error (.pixelCount width height count) := by
  rw [encodeTiles, Frame.encodeTiles_eq b.length_pixels b.pixels_ne_nil]
  split
  · intro h
    cases h
  · intro h
    cases h

theorem encodeImage_ne_pixelCount [Png.Codec] (b : FrameBuffer) (width height : UInt32)
    (count : Nat) : b.encodeImage ≠ .error (.pixelCount width height count) := by
  rw [encodeImage, Frame.encodeImage, Frame.checkCount_eq_ok b.length_pixels]
  dsimp only [bind, Except.bind]
  split
  · intro h
    cases h
  · intro h
    cases h

/-- However a buffer was made and whatever was drawn, its shape stays, and each of its pixels is the
last colour written there, under the rule for black, or else the one that it began with. Reading
gives these pixels inside the buffer and nothing outside. Pure black in an opaque buffer means that
it was made blank and never written there. Such a buffer always has as many pixels as a frame of its
sides, so writing the frame without counting is the same as counting first. -/
theorem written_shows_last {o : Origin} {width height : UInt32} {layer : UInt8}
    {transparent : Bool} {b : FrameBuffer} (h : o.make width height layer transparent = .ok b)
    (ws : List Write) :
    let now := b.written ws
    (now.width = width ∧ now.height = height ∧ now.layer = layer ∧
      now.transparent = transparent ∧ now.pixels.length = width.toNat * height.toNat) ∧
    (∀ i < width.toNat, ∀ j < height.toNat, now.pixels[j * width.toNat + i]? =
      some (o.colourAfter width transparent ws i j)) ∧
    (∀ x y : Int32, now.get? x y =
      if (0 ≤ x.toInt ∧ x.toInt < width.toNat) ∧ 0 ≤ y.toInt ∧ y.toInt < height.toNat then
        some (o.colourAfter width transparent ws x.toInt.toNat y.toInt.toNat)
      else none) ∧
    (transparent = false → ∀ i < width.toNat, ∀ j < height.toNat,
      now.pixels[j * width.toNat + i]? = some .black → o = .blank ∧ lastColour? ws i j = none) ∧
    Frame.encodePlain width height layer now.pixels = .ok now.encode ∧
    (∀ place maxDatagram w h n, now.encodeTiles place maxDatagram ≠ .error (.pixelCount w h n)) ∧
    ∀ (codec : Png.Codec) (w h : UInt32) (n : Nat),
      @encodeImage codec now ≠ .error (.pixelCount w h n) := by
  intro now
  have hnow : now.Shows width height layer transparent (o.colourAfter width transparent ws) :=
    (Origin.shows h).written ws
  refine ⟨⟨hnow.width_eq, hnow.height_eq, hnow.layer_eq, hnow.transparent_eq, hnow.length_pixels⟩,
    fun i hi j hj => hnow.getElem?_pixels ⟨hi, hj⟩, hnow.get?_eq, ?_, ?_,
    now.encodeTiles_ne_pixelCount, fun codec => @encodeImage_ne_pixelCount codec now⟩
  · rintro rfl i hi j hj hblack
    rw [hnow.getElem?_pixels ⟨hi, hj⟩] at hblack
    exact Origin.untouched_of_black (Option.some.inj hblack)
  · have hencode := now.encodePlain_pixels
    rwa [hnow.width_eq, hnow.height_eq, hnow.layer_eq] at hencode

def restlessWrites : List Write :=
  [.set 0 0 .red, .set (-1) 0 .white, .clear, .set 1 0 .blue, .set 2147483647 0 .white,
    .set 1 0 .black, .set 0 0 .green]

theorem written_shows_last_restless : ∃ b : FrameBuffer,
    (Origin.dump [9, 9, 9, 0, 0, 0]).make 2 1 5 false = .ok b ∧
      (b.written restlessWrites).get? 0 0 = some .green ∧
      (b.written restlessWrites).get? 1 0 = some .nearBlack ∧
      (b.written restlessWrites).get? (-2147483648) 0 = none ∧
      Frame.encodePlain 2 1 5 (b.written restlessWrites).pixels =
        .ok (b.written restlessWrites).encode := by
  obtain ⟨b, hb⟩ : ∃ b, (Origin.dump [9, 9, 9, 0, 0, 0]).make 2 1 5 false = .ok b := ⟨_, rfl⟩
  obtain ⟨-, -, hget, -, hencode, -⟩ := written_shows_last hb restlessWrites
  refine ⟨b, hb, ?_, ?_, ?_, hencode⟩
  · rw [hget]
    rfl
  · rw [hget]
    rfl
  · rw [hget]
    rfl

end FrameBuffer

end LedWall
