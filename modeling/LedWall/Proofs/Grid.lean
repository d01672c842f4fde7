import LedWall.Grid
import Mathlib.Tactic

/-!
# Grids cell by cell

A grid is known by its cells. Growing copies rows into storage with longer rows and painting writes a
rectangle; both are described here by what they leave in each cell.
-/

namespace LedWall

theorem toNat_pos_iff {n : UInt32} : 0 < n.toNat ↔ n ≠ 0 := by
  rw [← UInt32.pos_iff_ne_zero, UInt32.lt_iff_toNat_lt, UInt32.toNat_zero]

theorem toNat_max (a b : UInt32) : (max a b).toNat = max a.toNat b.toNat := by
  by_cases h : a ≤ b
  · rw [show max a b = b from if_pos h]
    exact (Nat.max_eq_right h).symm
  · rw [show max a b = a from if_neg h]
    exact (Nat.max_eq_left (Nat.le_of_not_le h)).symm

namespace Grid

variable {α : Type}

theorem cell?_eq_none {g : Grid α} {x y : Nat} (h : ¬ (x < g.width.toNat ∧ y < g.height.toNat)) :
    g.cell? x y = none := by
  rw [cell?, if_neg h]

theorem cell?_eq_getElem? {g : Grid α} {x y : Nat} (h : x < g.width.toNat ∧ y < g.height.toNat) :
    g.cell? x y = g.cells[y * g.width.toNat + x]? := by
  rw [cell?, if_pos h]

theorem exists_cell? {g : Grid α} {x y : Nat} (h : x < g.width.toNat ∧ y < g.height.toNat) :
    ∃ v, g.cell? x y = some v :=
  Option.isSome_iff_exists.mp ((g.isSome_cell? x y).mpr h)

theorem index_lt_area {width height : UInt32} {x y : Nat}
    (h : x < width.toNat ∧ y < height.toNat) :
    y * width.toNat + x < width.toNat * height.toNat := by
  have hlt := index_lt (g := uniform width height ()) h
  rwa [size_cells] at hlt

theorem cell?_uniform {width height : UInt32} {x y : Nat}
    (h : x < width.toNat ∧ y < height.toNat) (v : α) :
    (uniform width height v).cell? x y = some v :=
  (cell?_eq_getElem? h).trans (Array.getElem?_replicate.trans (if_pos (index_lt_area h)))

theorem exists_place_of_mem {g : Grid α} {v : α} (h : v ∈ g.cells) :
    ∃ x y, g.cell? x y = some v := by
  obtain ⟨k, hk, rfl⟩ := Array.getElem_of_mem h
  have hlt : k < g.width.toNat * g.height.toNat := by rwa [← g.size_cells]
  have hw : 0 < g.width.toNat := Nat.pos_of_mul_pos_right (Nat.zero_lt_of_lt hlt)
  have hin : k % g.width.toNat < g.width.toNat ∧ k / g.width.toNat < g.height.toNat :=
    ⟨Nat.mod_lt k hw, Nat.div_lt_of_lt_mul hlt⟩
  refine ⟨k % g.width.toNat, k / g.width.toNat, ?_⟩
  rw [cell?_eq_getElem? hin, Nat.div_add_mod', Array.getElem?_eq_getElem hk]

theorem setCell_eq_self {g : Grid α} {x y : Nat} {v : α} (h : g.cell? x y = some v) :
    g.setCell x y v = g := by
  have hin := (g.isSome_cell? x y).mp (Option.isSome_of_mem h)
  rw [cell?_eq_getElem? hin] at h
  obtain ⟨hlt, hv⟩ := Array.getElem?_eq_some_iff.mp h
  have hcells : g.cells.setIfInBounds (y * g.width.toNat + x) v = g.cells := by
    rw [Array.setIfInBounds_def, dif_pos hlt, ← hv, Array.set_getElem_self]
  simp only [setCell, hin, and_self, ↓reduceIte, hcells]

private theorem getElem?_copyCells (g : Grid α) {width y : Nat} (hw : g.width.toNat ≤ width)
    (hy : y < g.height.toNat) (cells : Array α) {n : Nat} (hn : n ≤ g.width.toNat) {i j : Nat}
    (hi : i < width) (hin : j * width + i < cells.size) :
    ((List.range n).foldl (g.copyCell width y) cells)[j * width + i]? =
      if j = y ∧ i < n then g.cell? i j else cells[j * width + i]? := by
  induction n with
  | zero => simp
  | succ n ih =>
      obtain ⟨v, hv⟩ := exists_cell? (g := g) (x := n) (y := y) ⟨by omega, hy⟩
      rw [List.range_succ, List.foldl_append, List.foldl_cons, List.foldl_nil, copyCell, hv]
      rw [Array.getElem?_setIfInBounds, size_copyCells, ih (by omega)]
      by_cases he : y * width + n = j * width + i
      · obtain ⟨rfl, rfl⟩ := index_inj (by omega) hi he
        rw [if_pos he, if_pos (by omega), if_pos ⟨rfl, by omega⟩, hv]
      · have hsame : j = y ∧ i < n + 1 ↔ j = y ∧ i < n := by
          constructor
          · rintro ⟨rfl, h⟩
            exact ⟨rfl, by omega⟩
          · rintro ⟨rfl, h⟩
            exact ⟨rfl, by omega⟩
        rw [if_neg he]
        simp only [hsame]

private theorem getElem?_copyRows (g : Grid α) {width : Nat} (hw : g.width.toNat ≤ width)
    (cells : Array α) {m : Nat} (hm : m ≤ g.height.toNat) {i j : Nat} (hi : i < width)
    (hin : j * width + i < cells.size) :
    ((List.range m).foldl (g.copyRow width) cells)[j * width + i]? =
      if j < m ∧ i < g.width.toNat then g.cell? i j else cells[j * width + i]? := by
  induction m with
  | zero => simp
  | succ m ih =>
      rw [List.range_succ, List.foldl_append, List.foldl_cons, List.foldl_nil, copyRow,
        getElem?_copyCells g hw (by omega) _ le_rfl hi (by rwa [size_copyRows]), ih (by omega)]
      by_cases hj : j = m
      · subst hj
        by_cases hi' : i < g.width.toNat <;> simp [hi']
      · have hlt : j < m + 1 ↔ j < m := by omega
        simp only [hj, hlt, false_and, ↓reduceIte]

/-- Growing keeps every cell at its place and fills the rest. -/
theorem cell?_grow (g : Grid α) {width height : UInt32} (hw : g.width.toNat ≤ width.toNat)
    (v : α) (x y : Nat) :
    (g.grow width height v).cell? x y =
      if x < width.toNat ∧ y < height.toNat then some ((g.cell? x y).getD v) else none := by
  by_cases h : x < width.toNat ∧ y < height.toNat
  · have hrep : y * width.toNat + x < (Array.replicate (width.toNat * height.toNat) v).size := by
      rw [Array.size_replicate]
      exact index_lt_area h
    have hcopy := getElem?_copyRows g hw (Array.replicate (width.toNat * height.toNat) v) le_rfl
      h.1 hrep
    rw [cell?_eq_getElem? h, if_pos h]
    refine hcopy.trans ?_
    by_cases hold : x < g.width.toNat ∧ y < g.height.toNat
    · obtain ⟨u, hu⟩ := exists_cell? hold
      rw [if_pos hold.symm, hu]
      rfl
    · rw [if_neg (mt And.symm hold), cell?_eq_none hold, Array.getElem?_replicate,
        if_pos (index_lt_area h)]
      rfl
  · rw [if_neg h]
    exact cell?_eq_none h

private theorem foldl_keeps {β : Type} {f : Grid α → Nat → Grid α} {p : Grid α → β}
    (h : ∀ g k, p (f g k) = p g) (g : Grid α) (ks : List Nat) : p (ks.foldl f g) = p g := by
  induction ks generalizing g with
  | nil => rfl
  | cons k ks ih => rw [List.foldl_cons, ih, h]

private theorem cell?_foldl {f : Grid α → Nat → Grid α} {reaches : Nat → Prop}
    [DecidablePred reaches] {i j : Nat} {v : α} (hw : ∀ g k, (f g k).width = g.width)
    (hh : ∀ g k, (f g k).height = g.height)
    (hf : ∀ g k, (f g k).cell? i j =
      if reaches k ∧ i < g.width.toNat ∧ j < g.height.toNat then some v else g.cell? i j)
    (g : Grid α) (ks : List Nat) : (ks.foldl f g).cell? i j =
      if (∃ k ∈ ks, reaches k) ∧ i < g.width.toNat ∧ j < g.height.toNat then some v
      else g.cell? i j := by
  induction ks generalizing g with
  | nil => simp
  | cons k ks ih =>
      rw [List.foldl_cons, ih, hw, hh, hf]
      by_cases hin : i < g.width.toNat ∧ j < g.height.toNat
      · by_cases hk : reaches k <;> simp [hin, hk]
      · simp [hin]

@[simp] theorem width_paintRow (g : Grid α) (left right y : Nat) (v : α) :
    (g.paintRow left right y v).width = g.width :=
  foldl_keeps (fun g x => g.width_setCell x y v) g _

@[simp] theorem height_paintRow (g : Grid α) (left right y : Nat) (v : α) :
    (g.paintRow left right y v).height = g.height :=
  foldl_keeps (fun g x => g.height_setCell x y v) g _

@[simp] theorem width_paint (g : Grid α) (left right top bottom : Nat) (v : α) :
    (g.paint left right top bottom v).width = g.width :=
  foldl_keeps (fun g y => g.width_paintRow left right y v) g _

@[simp] theorem height_paint (g : Grid α) (left right top bottom : Nat) (v : α) :
    (g.paint left right top bottom v).height = g.height :=
  foldl_keeps (fun g y => g.height_paintRow left right y v) g _

private theorem exists_mem_range' {start stop i : Nat} :
    (∃ k ∈ List.range' start (stop - start), k = i) ↔ start ≤ i ∧ i < stop := by
  simp only [exists_eq_right, List.mem_range'_1]
  omega

theorem cell?_paintRow (g : Grid α) (left right y : Nat) (v : α) (i j : Nat) :
    (g.paintRow left right y v).cell? i j =
      if (y = j ∧ left ≤ i ∧ i < right) ∧ i < g.width.toNat ∧ j < g.height.toNat then some v
      else g.cell? i j := by
  have hwrite : ∀ (g : Grid α) (x : Nat), (g.setCell x y v).cell? i j =
      if (y = j ∧ x = i) ∧ i < g.width.toNat ∧ j < g.height.toNat then some v
      else g.cell? i j := by
    intro g x
    have hsame : (x = i ∧ y = j ∧ i < g.width.toNat ∧ j < g.height.toNat) ↔
        (y = j ∧ x = i) ∧ i < g.width.toNat ∧ j < g.height.toNat := by tauto
    simp only [cell?_setCell, hsame]
  rw [paintRow, cell?_foldl (fun g x => g.width_setCell x y v) (fun g x => g.height_setCell x y v)
    hwrite]
  have hreach : (∃ x ∈ List.range' left (right - left), y = j ∧ x = i) ↔
      y = j ∧ left ≤ i ∧ i < right := by
    rw [← exists_mem_range']
    tauto
  simp only [hreach]

/-- Painting changes the places of the rectangle that lie in the grid, and no others. -/
theorem cell?_paint (g : Grid α) (left right top bottom : Nat) (v : α) (i j : Nat) :
    (g.paint left right top bottom v).cell? i j =
      if ((left ≤ i ∧ i < right) ∧ top ≤ j ∧ j < bottom) ∧
        i < g.width.toNat ∧ j < g.height.toNat then some v
      else g.cell? i j := by
  rw [paint, cell?_foldl (fun g y => g.width_paintRow left right y v)
    (fun g y => g.height_paintRow left right y v) fun g y => g.cell?_paintRow left right y v i j]
  have hreach : (∃ y ∈ List.range' top (bottom - top), y = j ∧ left ≤ i ∧ i < right) ↔
      (left ≤ i ∧ i < right) ∧ top ≤ j ∧ j < bottom := by
    rw [← @exists_mem_range' top]
    tauto
  simp only [hreach]

theorem mem_places_iff {g : Grid α} {place : Nat × Nat} :
    place ∈ g.places ↔ place.1 < g.width.toNat ∧ place.2 < g.height.toNat := by
  obtain ⟨x, y⟩ := place
  simp [places, and_comm]

theorem nodup_places (g : Grid α) : g.places.Nodup := by
  rw [places, List.nodup_flatMap]
  refine ⟨fun y _ => List.nodup_range.map fun x x' h => congrArg Prod.fst h, ?_⟩
  refine List.nodup_range.imp fun {y y'} hne => ?_
  intro place h h'
  obtain ⟨x, -, rfl⟩ := List.mem_map.mp h
  obtain ⟨x', -, heq⟩ := List.mem_map.mp h'
  exact hne (congrArg Prod.snd heq).symm

private theorem map_range_mul {β : Type} (f : Nat → β) (w h : Nat) :
    (List.range (h * w)).map f =
      (List.range h).flatMap fun y => (List.range w).map fun x => f (y * w + x) := by
  induction h with
  | zero => simp
  | succ h ih =>
      rw [Nat.succ_mul, List.range_add, List.map_append, ih, List.map_map, List.range_succ,
        List.flatMap_append, List.flatMap_singleton]
      rfl

theorem map_cell?_places (g : Grid α) :
    g.places.map (fun place => g.cell? place.1 place.2) = g.cells.toList.map some := by
  have hcells : g.cells.toList.map some =
      (List.range (g.height.toNat * g.width.toNat)).map fun k => g.cells[k]? := by
    apply List.ext_getElem?
    intro k
    rw [List.getElem?_map, List.getElem?_map, Nat.mul_comm, ← g.size_cells, Array.getElem?_toList]
    by_cases hk : k < g.cells.size
    · rw [List.getElem?_range hk, Option.map_some, Array.getElem?_eq_getElem hk, Option.map_some]
    · have hsize : g.cells.size ≤ k := Nat.le_of_not_lt hk
      rw [Array.getElem?_eq_none hsize, List.getElem?_eq_none (by rwa [List.length_range])]
      rfl
  rw [hcells, map_range_mul, places, List.map_flatMap]
  apply List.flatMap_congr
  intro y hy
  rw [List.map_map]
  apply List.map_congr_left
  intro x hx
  exact cell?_eq_getElem? ⟨List.mem_range.mp hx, List.mem_range.mp hy⟩

theorem countP_cells (g : Grid α) (p : α → Bool) : g.cells.countP p =
    (g.places.filter fun place => (g.cell? place.1 place.2).any p).length := by
  have hplaces := congrArg (List.countP (Option.any p)) g.map_cell?_places
  rw [List.countP_map, List.countP_map] at hplaces
  rw [← Array.countP_toList, ← List.countP_eq_length_filter]
  exact hplaces.symm

/-- A place of the grid, in signed coordinates. -/
def Holds (g : Grid α) (x y : Int32) : Prop :=
  (0 ≤ x.toInt ∧ x.toInt < g.width.toNat) ∧ 0 ≤ y.toInt ∧ y.toInt < g.height.toNat

instance (g : Grid α) (x y : Int32) : Decidable (g.Holds x y) := by
  unfold Holds
  infer_instance

theorem Holds.inside {g : Grid α} {x y : Int32} (h : g.Holds x y) :
    x.toInt.toNat < g.width.toNat ∧ y.toInt.toNat < g.height.toNat := by
  obtain ⟨⟨hx, hx'⟩, hy, hy'⟩ := h
  omega

theorem get?_of_holds {g : Grid α} {x y : Int32} (h : g.Holds x y) :
    g.get? x y = g.cell? x.toInt.toNat y.toInt.toNat := by
  rw [get?, if_pos ⟨h.1.1, h.2.1⟩]

theorem get?_of_not_holds {g : Grid α} {x y : Int32} (h : ¬ g.Holds x y) : g.get? x y = none := by
  rw [get?]
  split
  · rename_i hpos
    apply cell?_eq_none
    intro hin
    exact h ⟨⟨hpos.1, by omega⟩, hpos.2, by omega⟩
  · rfl

theorem set_of_holds {g : Grid α} {x y : Int32} (h : g.Holds x y) (v : α) :
    g.set x y v = g.setCell x.toInt.toNat y.toInt.toNat v := by
  rw [set, if_pos ⟨h.1.1, h.2.1⟩]

theorem set_of_not_holds {g : Grid α} {x y : Int32} (h : ¬ g.Holds x y) (v : α) :
    g.set x y v = g := by
  rw [set]
  split
  · rename_i hpos
    rw [setCell, if_neg]
    intro hin
    exact h ⟨⟨hpos.1, by omega⟩, hpos.2, by omega⟩
  · rfl

theorem isSome_get? (g : Grid α) (x y : Int32) : (g.get? x y).isSome ↔ g.Holds x y := by
  by_cases h : g.Holds x y
  · rw [get?_of_holds h, isSome_cell?]
    exact iff_of_true h.inside h
  · rw [get?_of_not_holds h]
    exact iff_of_false Bool.false_ne_true h

end Grid

end LedWall
