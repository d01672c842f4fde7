import LedWall.Proofs.Canvas.Ownership
import LedWall.Proofs.Surface.Painting

/-!
# Filled canvases

Filling goes through the places of a canvas row by row, and members may overlap, leave gaps and show
one light at several places. All the same it is one update at once: what is visible takes the
colour, and what is not stays as it was.
-/

namespace LedWall

/-- A tree has become another one by giving all that it shows one colour. -/
structure Surface.Filled {τ : Type} (s filled : Surface τ) (c : Color) : Prop where
  shown : ∀ x y, s.get? x y ≠ none → ∃ spot p, s.route x y = some spot ∧
    s.panelAt? spot.path = some p ∧ filled.get? x y = some (c.stored p.buffer.transparent)
  empty : ∀ x y, s.get? x y = none → filled.get? x y = none
  hidden : ∀ spot, (∀ x y, s.route x y ≠ some spot) → filled.pixel? spot = s.pixel? spot
  routes : ∀ x y, filled.route x y = s.route x y
  alike : s.Alike filled

theorem Surface.filled_paintAll {τ : Type} (s : Surface τ) (c : Color) {ps : List (Nat × Nat)}
    (hall : ∀ x y spot, s.route x y = some spot → s.Touches ps spot) :
    s.Filled (s.paintAll (fun _ => c) ps) c where
  shown := by
    intro x y hsome
    obtain ⟨spot, hroute⟩ := Option.ne_none_iff_exists'.mp (mt (s.get?_eq_none_iff x y).mpr hsome)
    obtain ⟨p, hp⟩ := exists_panelAt?_of_route hroute
    refine ⟨spot, p, hroute, hp, ?_⟩
    rw [get?_eq, route_paintAll, hroute, Option.bind_some,
      pixel?_paintAll_of_touches (hall x y spot hroute), stored?, hp, Option.map_some]
  empty := by
    intro x y hnone
    rw [get?_eq_none_iff] at hnone ⊢
    rw [route_paintAll, hnone]
  hidden := by
    intro spot hno
    apply pixel?_paintAll_of_not_touches
    rintro ⟨p, -, hroute⟩
    exact hno _ _ hroute
  routes := s.route_paintAll ps
  alike := s.alike_paintAll ps

namespace Canvas

variable {τ : Type}

@[simp] theorem owners_set (c : Canvas τ) (x y : Int32) (color : Color) :
    (c.set x y color).owners = c.owners := by
  rw [set]
  split <;> rfl

theorem toSurface_inj {c c' : Canvas τ} (h : c.toSurface = c'.toSurface) : c = c' := by
  obtain ⟨hmembers, howners⟩ := Surface.canvas.inj h
  cases c
  cases c'
  exact congrArg₂ Canvas.mk hmembers howners

def setAll (c : Canvas τ) (color : Color) (ps : List (Nat × Nat)) : Canvas τ :=
  ps.foldl (fun c p => c.set (.ofNat p.1) (.ofNat p.2) color) c

theorem owners_setAll (c : Canvas τ) (color : Color) (ps : List (Nat × Nat)) :
    (c.setAll color ps).owners = c.owners := by
  rw [setAll]
  induction ps generalizing c with
  | nil => rfl
  | cons p ps ih => rw [List.foldl_cons, ih, owners_set]

theorem toSurface_setAll (c : Canvas τ) (color : Color) (ps : List (Nat × Nat)) :
    (c.setAll color ps).toSurface = c.toSurface.paintAll (fun _ => color) ps :=
  (List.foldl_hom toSurface fun d _ => (toSurface_set d _ _ color).symm).symm

theorem touches_places {c : Canvas τ} {x y : Int32} {spot : Surface.Spot}
    (h : c.toSurface.route x y = some spot) : c.toSurface.Touches c.owners.places spot := by
  obtain ⟨⟨hx, hx'⟩, hy, hy'⟩ := Surface.holds_of_route h
  have hcoordinate : ∀ {n : Int32}, 0 ≤ n.toInt → Int32.ofNat n.toInt.toNat = n := by
    intro n hn
    apply Int32.toInt_inj.mp
    have hlt := n.toInt_lt
    rw [Int32.toInt_ofNat_of_lt (by omega), Int.toNat_of_nonneg hn]
  refine ⟨(x.toInt.toNat, y.toInt.toNat), Grid.mem_places_iff.mpr ?_, ?_⟩
  · exact ⟨(Int.toNat_lt hx).mpr hx', (Int.toNat_lt hy).mpr hy'⟩
  · rw [hcoordinate hx, hcoordinate hy, h]

theorem setAll_append (c : Canvas τ) (color : Color) (ps qs : List (Nat × Nat)) :
    c.setAll color (ps ++ qs) = (c.setAll color ps).setAll color qs :=
  List.foldl_append

section Sides

variable {c : Canvas τ} (hw : c.width.toNat ≤ 2 ^ 31 - 1) (hh : c.height.toNat ≤ 2 ^ 31 - 1)

include hw

theorem fillRow_eq (color : Color) (y : Nat) :
    (List.range c.width.toInt32.toInt.toNat).foldl
      (fun c x => c.set (.ofNat x) (.ofNat y) color) c =
    c.setAll color ((List.range c.owners.width.toNat).map fun x => (x, y)) := by
  rw [setAll, List.foldl_map, toInt_toInt32 (by omega), Int.toNat_natCast, width]

theorem fillRows_eq (color : Color) (ys : List Nat) :
    ys.foldl (fun c y => (List.range c.width.toInt32.toInt.toNat).foldl
      (fun c x => c.set (.ofNat x) (.ofNat y) color) c) c =
    c.setAll color (ys.flatMap fun y => (List.range c.owners.width.toNat).map fun x => (x, y)) := by
  induction ys generalizing c with
  | nil => rfl
  | cons y ys ih =>
      rw [List.foldl_cons, fillRow_eq hw, ih (by rwa [width, owners_setAll]), owners_setAll,
        List.flatMap_cons, setAll_append]

include hh

/-- Filling writes the places of the canvas, none of which has a number too large for a coordinate. -/
theorem fill_eq (color : Color) : c.fill color = c.setAll color c.owners.places := by
  rw [fill, toInt_toInt32 (by omega), Int.toNat_natCast, fillRows_eq hw, height, Grid.places]

theorem toSurface_fill (color : Color) : (c.fill color).toSurface =
    c.toSurface.paintAll (fun _ => color) c.owners.places := by
  rw [fill_eq hw hh, toSurface_setAll]

/-- Filling paints exactly what a canvas shows. Every place that has a light reads the colour, as the
panel of that light stores it, and every other place still reads as nothing. A pixel that no place
leads to keeps what it had, be it covered by a later member or without a place, and nothing but
pixels changes. Filling with the colour again changes nothing. -/
theorem fill_paints_visible (color : Color) :
    c.toSurface.Filled (c.fill color).toSurface color ∧ (c.fill color).owners = c.owners ∧
      (c.fill color).fill color = c.fill color := by
  have howners : (c.fill color).owners = c.owners := by
    rw [fill_eq hw hh, owners_setAll]
  refine ⟨?_, howners, ?_⟩
  · rw [toSurface_fill hw hh]
    exact c.toSurface.filled_paintAll color fun _ _ _ => touches_places
  · have hw' : (c.fill color).width.toNat ≤ 2 ^ 31 - 1 := by rwa [width, howners]
    have hh' : (c.fill color).height.toNat ≤ 2 ^ 31 - 1 := by rwa [height, howners]
    apply toSurface_inj
    rw [toSurface_fill hw' hh', howners, toSurface_fill hw hh, Surface.paintAll_paintAll]

end Sides

/-- A green square with a chain over a corner of it, one light of which has two places. -/
def overlappedChain : Canvas Unit := build
  [.add (.panel (.ofBuffer ⟨.uniform 2 2 ⟨0, 200, 0⟩, 0, true, by decide, by decide⟩ ())) 0 0,
    .add (.remapped (.panel Surface.rowPanel) Surface.doubledTable) 1 0]

theorem fill_paints_visible_overlapped :
    overlappedChain.width.toNat ≤ 2 ^ 31 - 1 ∧ overlappedChain.height.toNat ≤ 2 ^ 31 - 1 ∧
      (overlappedChain.fill .black).toSurface.get? 0 0 = some .black ∧
      (overlappedChain.fill .black).toSurface.get? 1 0 = some .nearBlack ∧
      (overlappedChain.fill .black).toSurface.get? 2 1 = none ∧
      (overlappedChain.fill .black).toSurface.pixel? ⟨[0], 1, 0⟩ = some ⟨0, 200, 0⟩ := by
  have hw : overlappedChain.width.toNat ≤ 2 ^ 31 - 1 := by decide +kernel
  have hh : overlappedChain.height.toNat ≤ 2 ^ 31 - 1 := by decide +kernel
  obtain ⟨hfilled, -, -⟩ := fill_paints_visible hw hh .black
  have hshown : ∀ {x y : Int32} (spot : Surface.Spot) {p : Panel Unit},
      overlappedChain.toSurface.route x y = some spot →
      overlappedChain.toSurface.panelAt? spot.path = some p →
      (overlappedChain.fill .black).toSurface.get? x y =
        some (Color.black.stored p.buffer.transparent) := by
    intro x y spot p hroute hp
    have hsome : overlappedChain.toSurface.get? x y ≠ none := by
      rw [ne_eq, Surface.get?_eq_none_iff, hroute]
      exact Option.some_ne_none spot
    obtain ⟨spot', p', hroute', hp', hread⟩ := hfilled.shown x y hsome
    obtain rfl := Option.some.inj (hroute.symm.trans hroute')
    obtain rfl := Option.some.inj (hp.symm.trans hp')
    exact hread
  have hcovered : ¬ overlappedChain.toSurface.Touches overlappedChain.owners.places ⟨[0], 1, 0⟩ := by
    unfold Surface.Touches
    decide +kernel
  refine ⟨hw, hh, ?_, ?_, ?_, ?_⟩
  · exact hshown ⟨[0], 0, 0⟩ (by decide +kernel) rfl
  · exact hshown ⟨[1], 0, 0⟩ (by decide +kernel) rfl
  · exact hfilled.empty 2 1 (by decide +kernel)
  · rw [hfilled.hidden ⟨[0], 1, 0⟩ fun x y hroute => hcovered (touches_places hroute)]
    decide +kernel

end Canvas

end LedWall
