import LedWall.Color

/-!
# Grids

A rectangle of cells stored row by row, addressed from the top left corner. Drawing code may point
anywhere, so the public coordinates are signed words and a place outside the rectangle is no place:
reading gives nothing and writing changes nothing.
-/

namespace LedWall

/-- A `width` by `height` rectangle of cells in row-major order. -/
structure Grid (α : Type) where
  width : UInt32
  height : UInt32
  cells : Array α
  size_cells : cells.size = width.toNat * height.toNat

namespace Grid

variable {α β : Type}

def cell? (g : Grid α) (x y : Nat) : Option α :=
  if x < g.width.toNat ∧ y < g.height.toNat then g.cells[y * g.width.toNat + x]? else none

def setCell (g : Grid α) (x y : Nat) (v : α) : Grid α :=
  if x < g.width.toNat ∧ y < g.height.toNat then
    { g with
      cells := g.cells.setIfInBounds (y * g.width.toNat + x) v
      size_cells := by rw [Array.size_setIfInBounds]; exact g.size_cells }
  else g

def get? (g : Grid α) (x y : Int32) : Option α :=
  if 0 ≤ x.toInt ∧ 0 ≤ y.toInt then g.cell? x.toInt.toNat y.toInt.toNat else none

def set (g : Grid α) (x y : Int32) (v : α) : Grid α :=
  if 0 ≤ x.toInt ∧ 0 ≤ y.toInt then g.setCell x.toInt.toNat y.toInt.toNat v else g

/-- The grid whose every cell is `v`, whatever its size. There is no limit of storage here, where the
program would have to give up. -/
def uniform (width height : UInt32) (v : α) : Grid α where
  width := width
  height := height
  cells := Array.replicate (width.toNat * height.toNat) v
  size_cells := Array.size_replicate

def fill (g : Grid α) (v : α) : Grid α := uniform g.width g.height v

def copyCell (g : Grid α) (width y : Nat) (cells : Array α) (x : Nat) : Array α :=
  match g.cell? x y with
  | some v => cells.setIfInBounds (y * width + x) v
  | none => cells

def copyRow (g : Grid α) (width : Nat) (cells : Array α) (y : Nat) : Array α :=
  (List.range g.width.toNat).foldl (g.copyCell width y) cells

theorem size_copyCells (g : Grid α) (width y : Nat) (cells : Array α) (xs : List Nat) :
    (xs.foldl (g.copyCell width y) cells).size = cells.size := by
  induction xs generalizing cells with
  | nil => rfl
  | cons x xs ih =>
      rw [List.foldl_cons, ih, copyCell]
      split
      · exact Array.size_setIfInBounds
      · rfl

theorem size_copyRows (g : Grid α) (width : Nat) (cells : Array α) (ys : List Nat) :
    (ys.foldl (g.copyRow width) cells).size = cells.size := by
  induction ys generalizing cells with
  | nil => rfl
  | cons y ys ih => rw [List.foldl_cons, ih, copyRow, size_copyCells]

/-- Moves the grid to larger storage, row by row; cells keep their place and new ones hold `v`. -/
def grow (g : Grid α) (width height : UInt32) (v : α) : Grid α where
  width := width
  height := height
  cells := (List.range g.height.toNat).foldl (g.copyRow width.toNat)
    (Array.replicate (width.toNat * height.toNat) v)
  size_cells := by rw [size_copyRows, Array.size_replicate]

def paintRow (g : Grid α) (left right y : Nat) (v : α) : Grid α :=
  (List.range' left (right - left)).foldl (fun g x => g.setCell x y v) g

def paint (g : Grid α) (left right top bottom : Nat) (v : α) : Grid α :=
  (List.range' top (bottom - top)).foldl (fun g y => g.paintRow left right y v) g

def rows (g : Grid α) : List (List α) :=
  (List.range g.height.toNat).map fun y =>
    (g.cells.extract (y * g.width.toNat) ((y + 1) * g.width.toNat)).toList

def places (g : Grid α) : List (Nat × Nat) :=
  (List.range g.height.toNat).flatMap fun y => (List.range g.width.toNat).map fun x => (x, y)

@[simp] theorem width_setCell (g : Grid α) (x y : Nat) (v : α) :
    (g.setCell x y v).width = g.width := by
  unfold setCell; split <;> rfl

@[simp] theorem height_setCell (g : Grid α) (x y : Nat) (v : α) :
    (g.setCell x y v).height = g.height := by
  unfold setCell; split <;> rfl

@[simp] theorem width_set (g : Grid α) (x y : Int32) (v : α) : (g.set x y v).width = g.width := by
  unfold set; split <;> simp

@[simp] theorem height_set (g : Grid α) (x y : Int32) (v : α) :
    (g.set x y v).height = g.height := by
  unfold set; split <;> simp

theorem index_lt {g : Grid α} {x y : Nat}
    (h : x < g.width.toNat ∧ y < g.height.toNat) : y * g.width.toNat + x < g.cells.size := by
  rw [g.size_cells]
  calc y * g.width.toNat + x < y * g.width.toNat + g.width.toNat := by omega
    _ = (y + 1) * g.width.toNat := by rw [Nat.add_mul, Nat.one_mul]
    _ ≤ g.height.toNat * g.width.toNat := Nat.mul_le_mul_right _ h.2
    _ = g.width.toNat * g.height.toNat := Nat.mul_comm _ _

theorem isSome_cell? (g : Grid α) (x y : Nat) :
    (g.cell? x y).isSome ↔ x < g.width.toNat ∧ y < g.height.toNat := by
  unfold cell?
  split
  · rename_i h
    simp [Array.getElem?_eq_getElem (index_lt h), h]
  · simp_all

theorem index_inj {w x y x' y' : Nat} (hx : x < w) (hx' : x' < w)
    (h : y * w + x = y' * w + x') : x = x' ∧ y = y' := by
  have hw : 0 < w := by omega
  have e1 : (y * w + x) / w = y := by
    rw [Nat.mul_comm, Nat.mul_add_div hw, Nat.div_eq_of_lt hx, Nat.add_zero]
  have e2 : (y' * w + x') / w = y' := by
    rw [Nat.mul_comm, Nat.mul_add_div hw, Nat.div_eq_of_lt hx', Nat.add_zero]
  have hy : y = y' := by rw [← e1, ← e2, h]
  subst hy
  exact ⟨by omega, rfl⟩

theorem cell?_setCell (g : Grid α) (x y x' y' : Nat) (v : α) :
    (g.setCell x y v).cell? x' y' =
      if x = x' ∧ y = y' ∧ x' < g.width.toNat ∧ y' < g.height.toNat then some v
      else g.cell? x' y' := by
  unfold setCell
  by_cases h : x < g.width.toNat ∧ y < g.height.toNat
  · simp only [h, and_self, ↓reduceIte, cell?]
    by_cases h' : x' < g.width.toNat ∧ y' < g.height.toNat
    · simp only [h', and_self, ↓reduceIte, and_true]
      rw [Array.getElem?_setIfInBounds]
      by_cases e : x = x' ∧ y = y'
      · obtain ⟨rfl, rfl⟩ := e
        simp [index_lt h]
      · have : y * g.width.toNat + x ≠ y' * g.width.toNat + x' :=
          fun c => e (index_inj h.1 h'.1 c)
        simp [this, e]
    · have : ¬ (x = x' ∧ y = y' ∧ x' < g.width.toNat ∧ y' < g.height.toNat) := by
        rintro ⟨_, _, h1, h2⟩; exact h' ⟨h1, h2⟩
      simp [h']
  · have : ¬ (x = x' ∧ y = y' ∧ x' < g.width.toNat ∧ y' < g.height.toNat) := by
      rintro ⟨rfl, rfl, h1, h2⟩; exact h ⟨h1, h2⟩
    simp [h, this]

end Grid

end LedWall
