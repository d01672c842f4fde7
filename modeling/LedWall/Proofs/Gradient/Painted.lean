import LedWall.Proofs.Surface.Painting
import LedWall.Proofs.Sweep.Frames

/-!
# The test picture

The test picture is painted by writing the coordinates of a surface one after another, row by row.
Where several of them lead to one pixel, the pixel keeps the colour of the last. A pixel that no
coordinate leads to keeps what it had.
-/

namespace LedWall

namespace Gradient

/-- The colour that the painter computes for a place: red by column and green by row. -/
def colour (width height : UInt32) (p : Nat × Nat) : Color :=
  ⟨(UInt32.ofNat p.1 * 255 / width).toUInt8, (UInt32.ofNat p.2 * 255 / height).toUInt8, 128⟩

theorem colour_ne_black (width height : UInt32) (p : Nat × Nat) :
    colour width height p ≠ .black := by
  intro h
  have hblue : (128 : UInt8) = 0 := congrArg Color.b h
  exact absurd hblue (by decide)

/-- For every place of a side, no word of 32 bits is too short for the product, and no channel for
the quotient. -/
def FitsWords (side : UInt32) : Prop :=
  ∀ n < side, (n * 255).toNat = 255 * n.toNat ∧ (n * 255 / side).toNat < 256

section Side

variable {side : UInt32} (hside : side.toNat ≤ 2 ^ 24)

include hside

theorem toNat_product {n : UInt32} (hn : n < side) : (n * 255).toNat = 255 * n.toNat := by
  have hlt := UInt32.lt_iff_toNat_lt.mp hn
  have hbyte : (255 : UInt32).toNat = 255 := rfl
  rw [UInt32.toNat_mul, hbyte, Nat.mul_comm]
  apply Nat.mod_eq_of_lt
  omega

theorem toNat_quotient {n : UInt32} (hn : n < side) :
    (n * 255 / side).toNat = 255 * n.toNat / side.toNat := by
  rw [UInt32.toNat_div, toNat_product hside hn]

theorem toNat_quotient_lt {n : UInt32} (hn : n < side) : (n * 255 / side).toNat < 255 := by
  have hlt := UInt32.lt_iff_toNat_lt.mp hn
  rw [toNat_quotient hside hn, Nat.div_lt_iff_lt_mul (Nat.zero_lt_of_lt hlt)]
  exact Nat.mul_lt_mul_of_pos_left hlt (by decide)

theorem fitsWords : FitsWords side := by
  intro n hn
  have hlt := toNat_quotient_lt hside hn
  exact ⟨toNat_product hside hn, by omega⟩

theorem toNat_channel {n : Nat} (hn : n < side.toNat) :
    (UInt32.ofNat n * 255 / side).toUInt8.toNat = 255 * n / side.toNat := by
  have htoNat : (UInt32.ofNat n).toNat = n :=
    UInt32.toNat_ofNat_of_lt' (Nat.lt_trans hn side.toNat_lt)
  have hlt : UInt32.ofNat n < side := by
    rwa [UInt32.lt_iff_toNat_lt, htoNat]
  have hbyte := toNat_quotient_lt hside hlt
  rw [UInt32.toNat_toUInt8, Nat.mod_eq_of_lt (by omega), toNat_quotient hside hlt, htoNat]

end Side

def places (width height : Nat) : List (Nat × Nat) :=
  (List.range height).flatMap fun y => (List.range width).map fun x => (x, y)

def Before (p q : Nat × Nat) : Prop := p.2 < q.2 ∨ (p.2 = q.2 ∧ p.1 < q.1)

theorem mem_places_iff {width height : Nat} {p : Nat × Nat} :
    p ∈ places width height ↔ p.1 < width ∧ p.2 < height := by
  obtain ⟨x, y⟩ := p
  simp [places, and_comm]

theorem pairwise_places (width height : Nat) : (places width height).Pairwise Before := by
  rw [places, List.pairwise_flatMap]
  constructor
  · intro y _
    rw [List.pairwise_map]
    exact List.pairwise_lt_range.imp fun hlt => .inr ⟨rfl, hlt⟩
  · refine List.pairwise_lt_range.imp fun hlt p hp q hq => ?_
    obtain ⟨x, -, rfl⟩ := List.mem_map.mp hp
    obtain ⟨x', -, rfl⟩ := List.mem_map.mp hq
    exact .inl hlt

end Gradient

namespace Surface

variable {τ : Type}

theorem pixel?_paintAll_of_ne_black (s : Surface τ) {colour : Nat × Nat → Color}
    (hcolour : ∀ p, colour p ≠ .black) (ps : List (Nat × Nat)) (spot : Spot) :
    (s.paintAll colour ps).pixel? spot =
      ((s.lastTo? spot ps).map colour).or (s.pixel? spot) := by
  rw [pixel?_paintAll]
  cases hlast : s.lastTo? spot ps with
  | none => rfl
  | some p =>
      obtain ⟨panel, hpanel⟩ := exists_panelAt?_of_route (route_of_lastTo? hlast)
      rw [Option.bind_some, stored?, hpanel, Option.map_some, Color.stored_of_ne_black (hcolour p)]
      rfl

def Leads (s : Surface τ) (spot : Spot) (x y : Nat) : Prop :=
  (x < s.width.toNat ∧ y < s.height.toNat) ∧ s.route (.ofNat x) (.ofNat y) = some spot

/-- Row by row, no coordinate that leads to the pixel comes later than this one. -/
def LeadsLast (s : Surface τ) (spot : Spot) (x y : Nat) : Prop :=
  s.Leads spot x y ∧ ∀ i j, s.Leads spot i j → j < y ∨ (j = y ∧ i ≤ x)

theorem LeadsLast.unique {s : Surface τ} {spot : Spot} {x y x' y' : Nat} (h : s.LeadsLast spot x y)
    (h' : s.LeadsLast spot x' y') : x = x' ∧ y = y' := by
  have hle := h.2 x' y' h'.1
  have hle' := h'.2 x y h.1
  omega

structure Painted (s painted : Surface τ) : Prop where
  lit : ∀ spot x y, s.LeadsLast spot x y → ∃ c, painted.pixel? spot = some c ∧
    c.r.toNat = 255 * x / s.width.toNat ∧ c.g.toNat = 255 * y / s.height.toNat ∧ c.b = 128
  last : ∀ spot x y, s.Leads spot x y → ∃ i j, s.LeadsLast spot i j
  kept : ∀ spot, (∀ x y, ¬ s.Leads spot x y) → painted.pixel? spot = s.pixel? spot
  alike : s.Alike painted

/-- The places that are written. Where a surface has no places, the painter tries one row or column
all the same. -/
def tried (s : Surface τ) : List (Nat × Nat) :=
  Gradient.places (max s.width 1).toNat (max s.height 1).toNat

theorem paintGradient_eq (s : Surface τ) : s.paintGradient =
    s.paintAll (Gradient.colour (max s.width 1) (max s.height 1)) s.tried := by
  rw [paintAll, tried, Gradient.places, List.foldl_flatMap, paintGradient]
  simp only [List.foldl_map, UInt32.toInt32_ofNat']
  rfl

section Sides

variable {s : Surface τ} (hw : s.width.toNat ≤ 2 ^ 24) (hh : s.height.toNat ≤ 2 ^ 24)

include hw hh

theorem leads_iff {spot : Spot} {x y : Nat} : s.Leads spot x y ↔
    (x, y) ∈ s.tried ∧ s.route (.ofNat x) (.ofNat y) = some spot := by
  rw [Leads, tried, Gradient.mem_places_iff, toNat_max, toNat_max]
  constructor
  · rintro ⟨⟨hx, hy⟩, hroute⟩
    exact ⟨⟨lt_max_of_lt_left hx, lt_max_of_lt_left hy⟩, hroute⟩
  · rintro ⟨⟨hx, hy⟩, hroute⟩
    have hone : (1 : UInt32).toNat = 1 := rfl
    obtain ⟨⟨-, hx'⟩, -, hy'⟩ := holds_of_route hroute
    rw [Int32.toInt_ofNat_of_lt (by omega)] at hx' hy'
    exact ⟨⟨Int.ofNat_lt.mp hx', Int.ofNat_lt.mp hy'⟩, hroute⟩

theorem mem_filter_tried_iff {spot : Spot} {p : Nat × Nat} :
    p ∈ s.tried.filter (fun p => s.route (.ofNat p.1) (.ofNat p.2) = some spot) ↔
      s.Leads spot p.1 p.2 := by
  rw [List.mem_filter, leads_iff hw hh, decide_eq_true_eq]

theorem leadsLast_of_lastTo? {spot : Spot} {p : Nat × Nat} (h : s.lastTo? spot s.tried = some p) :
    s.LeadsLast spot p.1 p.2 := by
  have hsorted := (Gradient.pairwise_places (max s.width 1).toNat (max s.height 1).toNat).filter
    fun p => s.route (.ofNat p.1) (.ofNat p.2) = some spot
  obtain ⟨front, hfront⟩ := List.getLast?_eq_some_iff.mp h
  have hmem : ∀ q, q ∈ front ++ [p] ↔ s.Leads spot q.1 q.2 := by
    intro q
    rw [← hfront]
    exact mem_filter_tried_iff hw hh
  rw [← tried, hfront, List.pairwise_append] at hsorted
  refine ⟨(hmem p).mp (List.mem_append_right _ (List.mem_singleton_self p)), ?_⟩
  intro i j hleads
  rcases List.mem_append.mp ((hmem (i, j)).mpr hleads) with hmem | hmem
  · rcases hsorted.2.2 (i, j) hmem p (List.mem_singleton_self p) with hlt | ⟨heq, hlt⟩
    · exact .inl hlt
    · exact .inr ⟨heq, Nat.le_of_lt hlt⟩
  · obtain rfl := List.mem_singleton.mp hmem
    exact .inr ⟨rfl, Nat.le_refl i⟩

theorem exists_lastTo? {spot : Spot} {x y : Nat} (h : s.Leads spot x y) :
    ∃ p, s.lastTo? spot s.tried = some p := by
  have hmem := (mem_filter_tried_iff hw hh (p := (x, y))).mpr h
  exact ⟨_, List.getLast?_eq_some_getLast (List.ne_nil_of_mem hmem)⟩

theorem lastTo?_of_leadsLast {spot : Spot} {x y : Nat} (h : s.LeadsLast spot x y) :
    s.lastTo? spot s.tried = some (x, y) := by
  obtain ⟨p, hp⟩ := exists_lastTo? hw hh h.1
  obtain ⟨rfl, rfl⟩ := h.unique (leadsLast_of_lastTo? hw hh hp)
  exact hp

/-- Painting the test picture lights every pixel that can be reached with the colour of the last
place that leads to it, and leaves all other pixels alone. -/
theorem painted_paintGradient : s.Painted s.paintGradient := by
  have hpixel : ∀ spot, s.paintGradient.pixel? spot =
      ((s.lastTo? spot s.tried).map (Gradient.colour (max s.width 1) (max s.height 1))).or
        (s.pixel? spot) := by
    intro spot
    rw [paintGradient_eq]
    exact pixel?_paintAll_of_ne_black s (Gradient.colour_ne_black _ _) _ spot
  constructor
  case lit =>
    intro spot x y hlast
    obtain ⟨⟨hx, hy⟩, -⟩ := hlast.1
    have hside {side : UInt32} {n : Nat} (hn : n < side.toNat) : max side 1 = side := by
      apply UInt32.toNat_inj.mp
      rw [toNat_max, show (1 : UInt32).toNat = 1 from rfl]
      omega
    rw [hpixel, lastTo?_of_leadsLast hw hh hlast, hside hx, hside hy]
    exact ⟨_, rfl, Gradient.toNat_channel hw hx, Gradient.toNat_channel hh hy, rfl⟩
  case last =>
    intro spot x y hleads
    obtain ⟨p, hp⟩ := exists_lastTo? hw hh hleads
    exact ⟨_, _, leadsLast_of_lastTo? hw hh hp⟩
  case kept =>
    intro spot hnone
    rw [hpixel]
    cases hlast : s.lastTo? spot s.tried with
    | none => rfl
    | some p => exact absurd (leadsLast_of_lastTo? hw hh hlast).1 (hnone _ _)
  case alike =>
    rw [paintGradient_eq]
    exact alike_paintAll s _

end Sides

end Surface

end LedWall
