import LedWall.Proofs.Png.Chunks

/-!
# Rows read back

Rows that were written without a prediction are restored as they are, and putting them in their
places one after the other fills the image from the first pixel to the last.
-/

namespace LedWall.Png

theorem Filter.restore_plain (distance : Nat) (upper raw : Array UInt8) :
    Filter.plain.restore distance upper raw = raw := by
  have hpart : ∀ n, n ≤ raw.size → (List.range n).foldl (fun row i =>
      let a := if distance ≤ i then row.getD (i - distance) 0 else 0
      let c := if distance ≤ i then upper.getD (i - distance) 0 else 0
      row.push (raw.getD i 0 + Filter.plain.predict a (upper.getD i 0) c)) #[] =
        raw.extract 0 n := by
    intro n hn
    induction n with
    | zero => simp
    | succ n ih =>
        rw [List.range_succ, List.foldl_append, ih (by omega)]
        simp [Filter.predict, Array.getElem?_eq_getElem hn]
  rw [restore, hpart _ (Nat.le_refl _)]
  simp

def unpredicted (rows : List (List UInt8)) : List UInt8 := rows.flatMap (0 :: ·)

theorem length_unpredicted {size : Nat} {rows : List (List UInt8)}
    (h : ∀ row ∈ rows, row.length = size) :
    (unpredicted rows).length = rows.length * (1 + size) := by
  induction rows with
  | nil => simp [unpredicted]
  | cons row more ih =>
      have hmore := ih (fun row hrow => h row (List.mem_cons_of_mem _ hrow))
      simp only [unpredicted, List.flatMap_cons, List.length_append, List.length_cons,
        h row (by simp)] at hmore ⊢
      rw [hmore, Nat.succ_mul]
      omega

theorem restoreRows_unpredicted (l : Layout) {size : Nat} {rows : List (List UInt8)}
    (h : ∀ row ∈ rows, row.length = size) (before : List UInt8) (upper : Array UInt8)
    (seen : Array (Array UInt8)) :
    restoreRows l (before ++ unpredicted rows).toArray size rows.length before.length upper seen =
      .ok (seen ++ (rows.map List.toArray).toArray) := by
  induction rows generalizing before upper seen with
  | nil => simp [restoreRows]
  | cons row more ih =>
      have hrow : row.length = size := h row (by simp)
      have hdata : before ++ unpredicted (row :: more) = (before ++ 0 :: row) ++ unpredicted more := by
        simp [unpredicted]
      have hfilter : (before ++ unpredicted (row :: more)).toArray.getD before.length 255 = 0 := by
        simp [unpredicted]
      have hraw : (before ++ unpredicted (row :: more)).toArray.extract (before.length + 1)
          (before.length + 1 + size) = row.toArray := by
        simp [unpredicted, hrow]
      have hoffset : before.length + 1 + size = (before ++ 0 :: row).length := by
        simp only [List.length_append, List.length_cons, hrow]
        omega
      have hmore := ih (fun row hrow => h row (List.mem_cons_of_mem _ hrow)) (before ++ 0 :: row)
        row.toArray (seen.push row.toArray)
      rw [List.length_cons, restoreRows, hfilter]
      simp only [Filter.ofByte?, ↓reduceIte, hraw, Filter.restore_plain]
      rw [hoffset, hdata, hmore]
      simp

def Pass.whole : Pass := ⟨0, 0, 1, 1⟩

theorem getD_dump (row : List Color) (i : Nat) (hi : i < row.length) :
    (Color.dump row).toArray.getD (3 * i) 0 = row[i].r ∧
    (Color.dump row).toArray.getD (3 * i + 1) 0 = row[i].g ∧
    (Color.dump row).toArray.getD (3 * i + 2) 0 = row[i].b := by
  induction row generalizing i with
  | nil => simp at hi
  | cons c more ih =>
      cases i with
      | zero => simp [Color.dump, Color.bytes]
      | succ i =>
          have hmore := ih i (by simpa using hi)
          simpa [Color.dump, Color.bytes, Nat.mul_succ] using hmore

theorem Layout.color_rgb (width height : UInt32) (palette : Array UInt8) {row : List Color} {i : Nat}
    (hi : i < row.length) :
    (Layout.rgb width height).color palette (Color.dump row).toArray i = row[i] := by
  obtain ⟨hr, hg, hb⟩ := getD_dump row i hi
  simp only [rgb, color, brightness, sample]
  simp [hr, hg, hb]

theorem foldl_setIfInBounds {α : Type} (f : Nat → α) (before old after : List α) :
    (List.range old.length).foldl (fun cells i => cells.setIfInBounds (before.length + i) (f i))
      (before ++ (old ++ after)).toArray =
        (before ++ ((List.range old.length).map f ++ after)).toArray := by
  induction old using List.reverseRecOn generalizing after with
  | nil => simp
  | append_singleton old last ih =>
      have hold := ih (last :: after)
      rw [List.length_append, List.length_singleton, List.range_succ, List.foldl_append,
        List.append_assoc, List.singleton_append, hold]
      simp

section Places

variable {width : UInt32} (height : UInt32) (palette : Array UInt8)

theorem placeRow_rgb {row : List Color} (hrow : row.length = width.toNat) {y : Nat}
    {before : List Color} (hbefore : before.length = y * width.toNat) (after : List Color) :
    placeRow (.rgb width height) palette .whole width.toNat y (Color.dump row).toArray
      (before ++ (List.replicate width.toNat Color.black ++ after)).toArray =
        (before ++ (row ++ after)).toArray := by
  have hfold := foldl_setIfInBounds
    (fun i => (Layout.rgb width height).color palette (Color.dump row).toArray i) before
    (List.replicate width.toNat Color.black) after
  have hrange : (List.range row.length).map
      (fun i => (Layout.rgb width height).color palette (Color.dump row).toArray i) = row := by
    apply List.ext_getElem (by simp)
    intro i hi hi'
    rw [List.getElem_map, List.getElem_range, Layout.color_rgb _ _ _ hi']
  rw [List.length_replicate, ← hrow, hrange, hrow, hbefore] at hfold
  rw [placeRow, ← hfold]
  simp [Layout.rgb, Pass.whole]

theorem foldl_placeRow_rgb {rows : List (List Color)} (h : ∀ row ∈ rows, row.length = width.toNat)
    {before : List Color} {y : Nat} (hbefore : before.length = y * width.toNat) :
    ((rows.map fun row => (Color.dump row).toArray).zipIdx y).foldl (fun pixels (row, i) =>
      placeRow (.rgb width height) palette .whole width.toNat (Pass.whole.top + i * Pass.whole.down)
        row pixels)
      (before ++ List.replicate (rows.length * width.toNat) Color.black).toArray =
        (before ++ rows.flatten).toArray := by
  induction rows generalizing before y with
  | nil => simp
  | cons row more ih =>
      have hrow : row.length = width.toNat := h row (by simp)
      have hnext : (before ++ row).length = (y + 1) * width.toNat := by
        rw [List.length_append, hbefore, hrow, Nat.succ_mul]
      have hblank : List.replicate ((row :: more).length * width.toNat) Color.black =
          List.replicate width.toNat .black ++ List.replicate (more.length * width.toNat) .black := by
        rw [← List.replicate_add, List.length_cons, Nat.succ_mul, Nat.add_comm]
      have hplace := placeRow_rgb height palette hrow hbefore
        (List.replicate (more.length * width.toNat) .black)
      rw [List.map_cons, List.zipIdx_cons, List.foldl_cons, hblank]
      simp only [Pass.whole, Nat.zero_add, Nat.mul_one] at hplace ih ⊢
      rw [hplace, ← List.append_assoc, ih (fun row hrow => h row (List.mem_cons_of_mem _ hrow)) hnext]
      simp

end Places

theorem length_of_mem_bands {α : Type} {size : Nat} {xs piece : List α} (h : piece ∈ bands size xs)
    (hdvd : size ∣ xs.length) : piece.length = size := by
  fun_induction bands size xs with
  | case1 xs hnone => simp at h
  | case2 xs hsome ih =>
      rw [not_or] at hsome
      have hle : size ≤ xs.length := Nat.le_of_dvd (List.length_pos_iff.mpr hsome.1) hdvd
      rcases List.mem_cons.mp h with rfl | h
      · simp [hle]
      · apply ih h
        rw [List.length_drop]
        exact Nat.dvd_sub hdvd (Nat.dvd_refl size)

theorem length_bands {α : Type} {size count : Nat} (hsize : size ≠ 0) {xs : List α}
    (h : xs.length = size * count) : (bands size xs).length = count := by
  have hrows : ∀ row ∈ bands size xs, row.length = size := by
    intro row hrow
    exact length_of_mem_bands hrow ⟨count, h⟩
  have hpos : 0 < size := Nat.pos_of_ne_zero hsize
  have hflat : (bands size xs).flatten.length = (bands size xs).length * size := by
    rw [List.length_flatten, List.map_congr_left hrows]
    simp
  rw [flatten_bands hpos, h, Nat.mul_comm] at hflat
  exact (Nat.eq_of_mul_eq_mul_right hpos hflat).symm

section Written

variable {width height : UInt32}

@[simp] theorem Layout.rgb_width : (Layout.rgb width height).width = width := rfl

@[simp] theorem Layout.rgb_height : (Layout.rgb width height).height = height := rfl

theorem Layout.rgb_passes : (Layout.rgb width height).passes = [.whole] := rfl

@[simp] theorem Pass.columns_whole (n : Nat) : Pass.whole.columns n = n := by simp [whole, columns]

@[simp] theorem Pass.rows_whole (n : Nat) : Pass.whole.rows n = n := by simp [whole, rows]

@[simp] theorem Layout.rgb_rowBytes (n : Nat) : (Layout.rgb width height).rowBytes n = 3 * n := by
  simp only [rowBytes, rgb, Samples.count]
  omega

theorem placeRows_rgb {rows : List (List Color)} (h : ∀ row ∈ rows, row.length = width.toNat)
    (hcount : rows.length = height.toNat) (palette : Array UInt8) :
    placeRows (.rgb width height) palette .whole width.toNat (rows.map fun row => (Color.dump row).toArray)
      (Array.replicate (width.toNat * height.toNat) .black) = rows.flatten.toArray := by
  have hstart : ([] : List Color).length = 0 * width.toNat := by simp
  have hfold := foldl_placeRow_rgb height palette h hstart
  rw [placeRows, Nat.mul_comm, ← hcount, ← List.toArray_replicate]
  exact hfold

/-- Rows that were written are read back as the pixels they were made of. -/
theorem readPixels_plainRows (hw : width ≠ 0) {pixels : List Color}
    (hp : pixels.length = width.toNat * height.toNat) (palette : Array UInt8) :
    readPixels (.rgb width height) palette (plainRows width pixels).toArray = .ok pixels := by
  have hcolumns : width.toNat ≠ 0 := by
    intro h
    exact hw (UInt32.toNat_inj.mp h)
  have hrows : ∀ row ∈ bands width.toNat pixels, row.length = width.toNat := by
    intro row hrow
    exact length_of_mem_bands hrow ⟨_, hp⟩
  have hcount := length_bands hcolumns hp
  have hdump : ∀ row ∈ (bands width.toNat pixels).map Color.dump, row.length = 3 * width.toNat := by
    intro dumped hdumped
    obtain ⟨row, hrow, rfl⟩ := List.mem_map.mp hdumped
    rw [Color.length_dump, hrows row hrow]
  have hplain : plainRows width pixels = unpredicted ((bands width.toNat pixels).map Color.dump) := by
    simp [plainRows, unpredicted, List.flatMap_map]
  have hsize : ¬ (plainRows width pixels).toArray.size < (Layout.rgb width height).dataBytes := by
    simp [hplain, length_unpredicted hdump, hcount, Layout.dataBytes, Layout.rgb_passes,
      Layout.passBytes, hcolumns]
  have hrestored := restoreRows_unpredicted (.rgb width height) hdump [] #[] #[]
  rw [List.length_map, hcount, ← hplain, List.nil_append, List.length_nil, List.map_map] at hrestored
  have hplaced := placeRows_rgb hrows hcount palette
  rw [flatten_bands (Nat.pos_of_ne_zero hcolumns)] at hplaced
  rw [readPixels, if_neg hsize, Layout.rgb_passes]
  simp only [readPasses, Pass.columns_whole, Pass.rows_whole, Layout.rgb_width, Layout.rgb_height,
    Layout.rgb_rowBytes, hcolumns, ↓reduceIte, hrestored]
  simp [bind, Except.bind, Except.map, Function.comp_def, hplaced]

end Written

end LedWall.Png
