import LedWall.Proofs.Surface.Way

/-!
# Independent pixels

A tree whose tables keep their lights apart leads different coordinates to different pixels: a member
is found by its number, inside a member coordinates are only shifted, and a chain gives each light to
one place. So drawing at one coordinate does not show at another, and the order does not matter.
-/

namespace LedWall

namespace Grid

variable {α : Type}

theorem Holds.ext {g : Grid α} {x y x' y' : Int32} (h : g.Holds x y) (h' : g.Holds x' y')
    (hx : x.toInt.toNat = x'.toInt.toNat) (hy : y.toInt.toNat = y'.toInt.toNat) :
    (x, y) = (x', y') := by
  obtain ⟨⟨hx₀, -⟩, hy₀, -⟩ := h
  obtain ⟨⟨hx₀', -⟩, hy₀', -⟩ := h'
  have hxs : x = x' := Int32.toInt_inj.mp (by omega)
  have hys : y = y' := Int32.toInt_inj.mp (by omega)
  rw [hxs, hys]

theorem setCell_comm (g : Grid α) {x y x' y' : Nat} (hne : (x, y) ≠ (x', y')) (v v' : α) :
    (g.setCell x y v).setCell x' y' v' = (g.setCell x' y' v').setCell x y v := by
  by_cases h : x < g.width.toNat ∧ y < g.height.toNat
  · by_cases h' : x' < g.width.toNat ∧ y' < g.height.toNat
    · have hindex : y * g.width.toNat + x ≠ y' * g.width.toNat + x' := by
        intro he
        obtain ⟨rfl, rfl⟩ := index_inj h.1 h'.1 he
        exact hne rfl
      simp only [setCell, h, h', and_self, ↓reduceIte, Array.setIfInBounds_comm v v' hindex]
    · simp only [setCell, h, h', and_self, ↓reduceIte]
  · by_cases h' : x' < g.width.toNat ∧ y' < g.height.toNat
    · simp only [setCell, h, h', and_self, ↓reduceIte]
    · simp only [setCell, h, h', ↓reduceIte]

theorem set_comm (g : Grid α) {x y x' y' : Int32} (hne : (x, y) ≠ (x', y')) (v v' : α) :
    (g.set x y v).set x' y' v' = (g.set x' y' v').set x y v := by
  have hkeep : ∀ (a b : Int32) (u : α) (a' b' : Int32),
      (g.set a b u).Holds a' b' ↔ g.Holds a' b' := by
    intro a b u a' b'
    simp only [Holds, width_set, height_set]
  by_cases h : g.Holds x y
  · by_cases h' : g.Holds x' y'
    · rw [set_of_holds ((hkeep _ _ _ _ _).mpr h'), set_of_holds ((hkeep _ _ _ _ _).mpr h),
        set_of_holds h, set_of_holds h']
      apply setCell_comm
      intro he
      obtain ⟨hx, hy⟩ := Prod.mk.inj he
      exact hne (h.ext h' hx hy)
    · rw [set_of_not_holds (mt (hkeep _ _ _ _ _).mp h'), set_of_not_holds h']
  · rw [set_of_not_holds h, set_of_not_holds (mt (hkeep _ _ _ _ _).mp h)]

end Grid

/-- No light of the chain is at two places, and the number of each is a coordinate. -/
structure CoordinateTable.Separates (t : CoordinateTable) : Prop where
  lookup_inj : ∀ {x y x' y' : Int32} {i : Nat}, t.lookup x y = some i → t.lookup x' y' = some i →
    (x, y) = (x', y')
  lookup_lt : ∀ {x y : Int32} {i : Nat}, t.lookup x y = some i → i < 2 ^ 31

namespace CoordinateTable

theorem getElem?_of_lookup {t : CoordinateTable} {x y : Int32} {i : Nat}
    (h : t.lookup x y = some i) : t.grid.Holds x y ∧
      t.grid.cells[y.toInt.toNat * t.grid.width.toNat + x.toInt.toNat]? = some (some i) := by
  rw [lookup, Option.join_eq_some_iff] at h
  have hin := (t.grid.isSome_get? x y).mp (Option.isSome_of_mem h)
  rw [Grid.get?_of_holds hin, Grid.cell?_eq_getElem? hin.inside] at h
  exact ⟨hin, h⟩

theorem separates_of_nodup {t : CoordinateTable} (hnodup : (t.grid.cells.toList.filterMap id).Nodup)
    (hlt : ∀ i ∈ t.grid.cells.toList.filterMap id, i < 2 ^ 31) : t.Separates where
  lookup_inj := by
    intro x y x' y' i h h'
    obtain ⟨hin, hcell⟩ := getElem?_of_lookup h
    obtain ⟨hin', hcell'⟩ := getElem?_of_lookup h'
    by_contra hne
    have hindex : y.toInt.toNat * t.grid.width.toNat + x.toInt.toNat ≠
        y'.toInt.toNat * t.grid.width.toNat + x'.toInt.toNat := by
      intro he
      obtain ⟨hx, hy⟩ := Grid.index_inj hin.inside.1 hin'.inside.1 he
      exact hne (hin.ext hin' hx hy)
    rw [← Array.getElem?_toList] at hcell hcell'
    obtain ⟨hlt, hcell⟩ := List.getElem?_eq_some_iff.mp hcell
    obtain ⟨hlt', hcell'⟩ := List.getElem?_eq_some_iff.mp hcell'
    have hpairs := List.pairwise_iff_getElem.mp (List.pairwise_filterMap.mp hnodup)
    rcases Nat.lt_or_gt_of_ne hindex with hbefore | hafter
    · exact hpairs _ _ hlt hlt' hbefore i hcell i hcell' rfl
    · exact hpairs _ _ hlt' hlt hafter i hcell' i hcell rfl
  lookup_lt := by
    intro x y i h
    obtain ⟨-, hcell⟩ := getElem?_of_lookup h
    refine hlt i (List.mem_filterMap.mpr ⟨some i, ?_, rfl⟩)
    exact Array.mem_toList_iff.mpr (Array.mem_of_getElem? hcell)

end CoordinateTable

namespace Surface

variable {τ : Type}

/-- A tree all of whose tables keep their lights apart. -/
inductive Separates : Surface τ → Prop where
  | panel (p : Panel τ) : Separates (.panel p)
  | remapped {inner : Surface τ} {table : CoordinateTable} (htable : table.Separates)
      (hinner : Separates inner) : Separates (.remapped inner table)
  | canvas {members : List (Placement (Surface τ))} {owners : Grid (Option Nat)}
      (hmembers : ∀ p ∈ members, Separates p.surface) : Separates (.canvas members owners)

theorem shift_inj {x y x' y' : Int32} (left top : Int32)
    (h : (x - left, y - top) = (x' - left, y' - top)) : (x, y) = (x', y') := by
  obtain ⟨hx, hy⟩ := Prod.mk.inj h
  rw [(Int32.sub_left_inj left).mp hx, (Int32.sub_left_inj top).mp hy]

theorem position_inj {i j : Nat} (hi : i < 2 ^ 31) (hj : j < 2 ^ 31)
    (h : (Int32.ofNat i, (0 : Int32)) = (Int32.ofNat j, 0)) : i = j := by
  have hint := congrArg Int32.toInt (Prod.mk.inj h).1
  rw [Int32.toInt_ofNat_of_lt hi, Int32.toInt_ofNat_of_lt hj] at hint
  exact Int.ofNat.inj hint

theorem Separates.route_inj {s : Surface τ} (h : s.Separates) {x y x' y' : Int32} {spot : Spot}
    (hroute : s.route x y = some spot) (hroute' : s.route x' y' = some spot) :
    (x, y) = (x', y') := by
  induction h generalizing x y x' y' spot with
  | panel p =>
      rw [route] at hroute hroute'
      by_cases hin : p.buffer.grid.Holds x y
      · by_cases hin' : p.buffer.grid.Holds x' y'
        · rw [if_pos hin, ← hroute', if_pos hin', Option.some_inj, Spot.mk.injEq] at hroute
          exact hin.ext hin' hroute.2.1 hroute.2.2
        · rw [if_neg hin'] at hroute'
          cases hroute'
      · rw [if_neg hin] at hroute
        cases hroute
  | remapped htable hinner ih =>
      rw [route_remapped, Option.bind_eq_some_iff] at hroute hroute'
      obtain ⟨i, hi, hroute⟩ := hroute
      obtain ⟨j, hj, hroute'⟩ := hroute'
      obtain rfl := position_inj (htable.lookup_lt hi) (htable.lookup_lt hj) (ih hroute hroute')
      exact htable.lookup_inj hi hj
  | canvas hmembers ih =>
      rw [route_canvas, Option.bind_eq_some_iff] at hroute hroute'
      obtain ⟨m, -, hroute⟩ := hroute
      obtain ⟨n, -, hroute'⟩ := hroute'
      obtain ⟨below, hbelow, rfl⟩ := Option.map_eq_some_iff.mp hroute
      obtain ⟨below', hbelow', heq⟩ := Option.map_eq_some_iff.mp hroute'
      obtain ⟨rfl, rfl⟩ : n = m ∧ below' = below := by
        simp only [Spot.below, Spot.mk.injEq, List.cons.injEq] at heq
        exact ⟨heq.1.1, Spot.ext heq.1.2 heq.2.1 heq.2.2⟩
      obtain ⟨p, hp, hroute⟩ := Option.bind_eq_some_iff.mp hbelow
      obtain ⟨q, hq, hroute'⟩ := Option.bind_eq_some_iff.mp hbelow'
      obtain rfl := Option.some.inj (hp.symm.trans hq)
      exact shift_inj _ _ (ih p (List.mem_of_getElem? hp) hroute hroute')

theorem Separates.set_comm {s : Surface τ} (h : s.Separates) {x y x' y' : Int32}
    (hne : (x, y) ≠ (x', y')) (c c' : Color) :
    (s.set x y c).set x' y' c' = (s.set x' y' c').set x y c := by
  induction h generalizing x y x' y' with
  | panel p =>
      simp only [set, Panel.set, FrameBuffer.set, p.buffer.grid.set_comm hne]
  | @remapped inner table htable hinner ih =>
      rw [set_remapped, set_remapped, set_remapped, set_remapped]
      cases hi : table.lookup x y with
      | none => rfl
      | some i =>
          cases hj : table.lookup x' y' with
          | none => rfl
          | some j =>
              have hij : (Int32.ofNat i, (0 : Int32)) ≠ (Int32.ofNat j, 0) := by
                intro he
                obtain rfl := position_inj (htable.lookup_lt hi) (htable.lookup_lt hj) he
                exact hne (htable.lookup_inj hi hj)
              exact congrArg (Surface.remapped · table) (ih hij)
  | @canvas members owners hmembers ih =>
      rw [set_canvas, set_canvas, set_canvas, set_canvas]
      cases (owners.get? x y).join with
      | none => rfl
      | some m =>
          cases (owners.get? x' y').join with
          | none => rfl
          | some n =>
              refine congrArg (Surface.canvas · owners) (List.ext_getElem? fun k => ?_)
              simp only [Option.map_some, Option.getD_some, getElem?_setMembers, Option.map_map]
              cases hk : members[k]? with
              | none => rfl
              | some p =>
                  have hshift := mt (shift_inj p.x.toInt32 p.y.toInt32) hne
                  have hp := ih p (List.mem_of_getElem? hk) hshift
                  by_cases hm : m = k <;> by_cases hn : n = k <;> simp [hm, hn, hp]

/-- The pixels of a tree whose tables keep their lights apart are independent: different coordinates
that have a pixel have different ones, a colour written at one of them does not show at another, and
colours may be written in any order. -/
theorem independent_pixels {s : Surface τ} (h : s.Separates) {x y x' y' : Int32}
    (hne : (x, y) ≠ (x', y')) :
    (s.get? x y ≠ none → s.get? x' y' ≠ none → ∃ spot spot', s.route x y = some spot ∧
      s.route x' y' = some spot' ∧ spot ≠ spot' ∧
      s.get? x y = s.pixel? spot ∧ s.get? x' y' = s.pixel? spot') ∧
    (∀ c, (s.set x y c).get? x' y' = s.get? x' y') ∧
    ∀ c c', (s.set x y c).set x' y' c' = (s.set x' y' c').set x y c := by
  have hapart : ∀ {spot}, s.route x y = some spot → s.route x' y' ≠ some spot :=
    fun hroute hroute' => hne (h.route_inj hroute hroute')
  refine ⟨?_, ?_, fun c c' => h.set_comm hne c c'⟩
  · intro hsome hsome'
    rw [Ne, get?_eq_none_iff, ← Ne, Option.ne_none_iff_exists'] at hsome hsome'
    obtain ⟨spot, hroute⟩ := hsome
    obtain ⟨spot', hroute'⟩ := hsome'
    refine ⟨spot, spot', hroute, hroute', ?_, ?_, ?_⟩
    · rintro rfl
      exact hapart hroute hroute'
    · rw [get?_eq, hroute, Option.bind_some]
    · rw [get?_eq, hroute', Option.bind_some]
  · intro c
    cases hroute : s.route x y with
    | none =>
        rw [get?_eq, get?_eq, route_set]
        cases s.route x' y' with
        | none => rfl
        | some other =>
            rw [Option.bind_some, Option.bind_some, pixel?, pixel?, panelAt?_set_of_none hroute]
    | some spot =>
        obtain ⟨p, hp⟩ := exists_panelAt?_of_route hroute
        rw [get?_set hroute hp, if_neg (hapart hroute)]

def reversedTable : CoordinateTable := ⟨⟨[1, 1]⟩, ⟨3, 1, #[some 1, none, some 0], rfl⟩⟩

def crossedWall : Surface Unit :=
  let group := Canvas.build
    [.add (.panel squarePanel) 0 0, .add (.remapped (.panel rowPanel) reversedTable) 1 0]
  (Canvas.build [.add group.toSurface 1 1]).toSurface

theorem separates_crossedWall : crossedWall.Separates := by
  have htable : reversedTable.Separates :=
    CoordinateTable.separates_of_nodup (by decide) (by decide)
  refine .canvas fun p hp => ?_
  rw [List.mem_singleton.mp hp]
  refine .canvas fun p hp => ?_
  rcases List.mem_pair.mp hp with rfl | rfl
  · exact .panel squarePanel
  · exact .remapped htable (.panel rowPanel)

theorem independent_pixels_crossedWall : crossedWall.get? 2 1 ≠ none ∧
    crossedWall.get? 4 1 ≠ none ∧ crossedWall.route 2 1 ≠ crossedWall.route 4 1 ∧
    (crossedWall.set 2 1 .black).get? 4 1 = crossedWall.get? 4 1 ∧
    (crossedWall.set 2 1 .black).set 4 1 .nearBlack =
      (crossedWall.set 4 1 .nearBlack).set 2 1 .black := by
  have hne : ((2 : Int32), (1 : Int32)) ≠ (4, 1) := by decide
  have hsome : crossedWall.get? 2 1 ≠ none := by decide +kernel
  have hsome' : crossedWall.get? 4 1 ≠ none := by decide +kernel
  obtain ⟨hapart, hkeep, hcomm⟩ := independent_pixels separates_crossedWall hne
  obtain ⟨spot, spot', hroute, hroute', hspots, -⟩ := hapart hsome hsome'
  refine ⟨hsome, hsome', ?_, hkeep .black, hcomm .black .nearBlack⟩
  rw [hroute, hroute']
  exact mt Option.some.inj hspots

end Surface

end LedWall
