import LedWall.Proofs.Canvas.Served

/-!
# What the datagrams of a panel show

Each datagram of a panel reads back as a frame of some rows of its picture, at the place where these
rows belong. A plain panel has one datagram, with all its rows.
-/

namespace LedWall

def FrameBuffer.pixelBytes (b : FrameBuffer) : Nat := 3 * (b.width.toNat * b.height.toNat)

namespace Panel

variable {τ : Type}

/-- A frame shows the rows of a panel from row `top` on, at their place. The colours are those that
are found at a column and a row of the panel. -/
structure ShownBy (p : Panel τ) (look : Nat → Nat → Option Color) (f : Frame) (top : Nat) :
    Prop where
  width : f.width = p.buffer.width
  rows : top + f.height.toNat ≤ p.buffer.height.toNat
  whole : p.mode = .plain → f.height = p.buffer.height
  place : f.offset = { p.place with y := p.place.y + Int32.ofNat top }
  count : f.pixels.length = f.width.toNat * f.height.toNat
  pixels : ∀ x y, x < f.width.toNat → y < f.height.toNat →
    f.pixels[y * f.width.toNat + x]? = look x (top + y)

variable {p : Panel τ}

theorem shownBy_of_plain (hmode : p.mode = .plain) (kind : FrameKind) :
    p.ShownBy p.buffer.grid.cell?
      ⟨kind, p.buffer.width, p.buffer.height, ⟨0, 0, p.buffer.layer⟩, p.buffer.pixels⟩ 0 where
  width := rfl
  rows := Nat.le_of_eq (Nat.zero_add _)
  whole := fun _ => rfl
  place := by
    rw [Panel.place, hmode]
    rfl
  count := p.buffer.length_pixels
  pixels := by
    intro x y hx hy
    rw [Nat.zero_add]
    exact p.buffer.getElem?_pixels_eq_cell? ⟨hx, hy⟩

theorem shownBy_tileFrame {place : Offset} (hmode : p.mode = .offset place) {rows i : Nat}
    (hi : i * rows < p.buffer.height.toNat) :
    p.ShownBy p.buffer.grid.cell? (Frame.tileFrame (p.buffer.frameAt place) rows i)
      (i * rows) where
  width := rfl
  rows := by
    rw [Frame.toNat_height_tileFrame]
    show i * rows + min rows (p.buffer.height.toNat - i * rows) ≤ p.buffer.height.toNat
    omega
  whole := by
    rw [hmode]
    intro hplain
    cases hplain
  place := by
    rw [Panel.place, hmode]
    rfl
  count := by
    rw [Frame.length_pixels_tileFrame p.buffer.length_pixels, Frame.toNat_height_tileFrame]
    rfl
  pixels := by
    intro x y hx hy
    rw [Frame.toNat_height_tileFrame] at hy
    have hwidth : x < p.buffer.width.toNat := hx
    have hrow : y < min rows (p.buffer.height.toNat - i * rows) := hy
    have hindex : y * p.buffer.width.toNat + x < rows * p.buffer.width.toNat :=
      calc y * p.buffer.width.toNat + x
        _ < y * p.buffer.width.toNat + p.buffer.width.toNat := Nat.add_lt_add_left hwidth _
        _ = (y + 1) * p.buffer.width.toNat := (Nat.succ_mul _ _).symm
        _ ≤ rows * p.buffer.width.toNat := Nat.mul_le_mul_right _ (by omega)
    have hplace : i * (rows * p.buffer.width.toNat) + (y * p.buffer.width.toNat + x) =
        (i * rows + y) * p.buffer.width.toNat + x := by ring
    show ((p.buffer.pixels.drop (i * (rows * p.buffer.width.toNat))).take
      (rows * p.buffer.width.toNat))[y * p.buffer.width.toNat + x]? = _
    rw [List.getElem?_take_of_lt hindex, List.getElem?_drop, hplace]
    exact p.buffer.getElem?_pixels_eq_cell? ⟨hwidth, by omega⟩

theorem datagrams_cases {datagrams : List (List UInt8)} (h : p.datagrams = .ok datagrams) :
    (p.mode = .plain ∧ datagrams = [p.buffer.encode]) ∨
      ∃ place rows, p.mode = .offset place ∧ 0 < rows ∧ datagrams =
        (Frame.tileFrames (p.buffer.frameAt place) rows).map fun f =>
          Frame.offsetBytes f.width f.height f.offset f.pixels := by
  rw [Panel.datagrams] at h
  cases hmode : p.mode with
  | plain =>
      rw [hmode] at h
      exact .inl ⟨rfl, (Except.ok.inj h).symm⟩
  | offset place =>
      rw [hmode] at h
      dsimp only at h
      rw [FrameBuffer.encodeTiles,
        Frame.encodeTiles_eq p.buffer.length_pixels p.buffer.pixels_ne_nil] at h
      split at h
      · cases h
      · exact .inr ⟨place, _, rfl, Nat.pos_of_ne_zero ‹_›, (Except.ok.inj h).symm⟩

section Read

variable (hsize : p.buffer.pixelBytes < 2 ^ 64)

include hsize

theorem parse_encode_buffer [Png.Codec] : ∃ kind, Frame.parse p.buffer.encode =
    .ok ⟨kind, p.buffer.width, p.buffer.height, ⟨0, 0, p.buffer.layer⟩, p.buffer.pixels⟩ :=
  ⟨_, Frame.parse_plainBytes _ p.buffer.length_pixels hsize⟩

theorem parse_tile [Png.Codec] (place : Offset) (rows i : Nat) :
    let f := Frame.tileFrame (p.buffer.frameAt place) rows i
    Frame.parse (Frame.offsetBytes f.width f.height f.offset f.pixels) = .ok f := by
  have hband := Nat.mul_le_mul_left p.buffer.width.toNat
    (Frame.tileHeight_le p.buffer.height.toNat rows i)
  exact @Frame.parse_band _ (p.buffer.frameAt place) rows p.buffer.length_pixels i
    (Nat.lt_of_le_of_lt (Nat.mul_le_mul_left 3 hband) hsize)

variable {datagrams : List (List UInt8)} (h : p.datagrams = .ok datagrams)

include h

theorem exists_shownBy [Png.Codec] {datagram : List UInt8} (hmem : datagram ∈ datagrams) :
    ∃ f top, Frame.parse datagram = .ok f ∧ p.ShownBy p.buffer.grid.cell? f top := by
  rcases datagrams_cases h with ⟨hmode, rfl⟩ | ⟨place, rows, hmode, hrows, rfl⟩
  · obtain rfl := List.mem_singleton.mp hmem
    obtain ⟨kind, hparse⟩ := parse_encode_buffer hsize
    exact ⟨_, 0, hparse, shownBy_of_plain hmode kind⟩
  · obtain ⟨f, hf, rfl⟩ := List.mem_map.mp hmem
    obtain ⟨i, hi, rfl⟩ := List.mem_map.mp hf
    have hrow := (Frame.lt_tileCount hrows i).mp (List.mem_range.mp hi)
    exact ⟨_, i * rows, parse_tile hsize place rows i, shownBy_tileFrame hmode hrow⟩

/-- Every row of the picture is in one of the datagrams. -/
theorem exists_datagram_of_row [Png.Codec] {row : Nat} (hrow : row < p.buffer.height.toNat) :
    ∃ datagram ∈ datagrams, ∃ f top, Frame.parse datagram = .ok f ∧
      p.ShownBy p.buffer.grid.cell? f top ∧ top ≤ row ∧ row < top + f.height.toNat := by
  rcases datagrams_cases h with ⟨hmode, rfl⟩ | ⟨place, rows, hmode, hrows, rfl⟩
  · obtain ⟨kind, hparse⟩ := parse_encode_buffer hsize
    refine ⟨_, List.mem_singleton_self _, _, 0, hparse, shownBy_of_plain hmode kind,
      Nat.zero_le row, ?_⟩
    rwa [Nat.zero_add]
  · have hle : row / rows * rows ≤ row := Nat.div_mul_le_self row rows
    have hlt : row < row / rows * rows + rows := Nat.lt_div_mul_add hrows
    have htile : Frame.tileFrame (p.buffer.frameAt place) rows (row / rows) ∈
        Frame.tileFrames (p.buffer.frameAt place) rows := by
      apply List.mem_map_of_mem
      rw [List.mem_range, Frame.lt_tileCount hrows]
      exact Nat.lt_of_le_of_lt hle hrow
    refine ⟨_, List.mem_map_of_mem htile, _, _, parse_tile hsize place rows (row / rows),
      shownBy_tileFrame hmode (Nat.lt_of_le_of_lt hle hrow), hle, ?_⟩
    rw [Frame.toNat_height_tileFrame]
    show row < row / rows * rows + min rows (p.buffer.height.toNat - row / rows * rows)
    omega

end Read

end Panel

end LedWall
