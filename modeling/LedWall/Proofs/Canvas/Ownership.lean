import LedWall.Proofs.Grid
import LedWall.Surface.Canvas

/-!
# Who owns a place

Every surface placed on a canvas is remembered here as the plot that it was given: its corner and
the size it had then. However the canvas came about, the owner of a place is the last member whose
plot covers the place, and the canvas reaches exactly as far as its plots do.
-/

namespace LedWall

/-- The rectangle that a surface was given on a canvas. -/
structure Plot where
  left : UInt32
  top : UInt32
  width : UInt32
  height : UInt32
deriving DecidableEq

namespace Plot

def right (r : Plot) : Nat := min (r.left.toNat + r.width.toNat) 4294967295

def bottom (r : Plot) : Nat := min (r.top.toNat + r.height.toNat) 4294967295

def Covers (r : Plot) (x y : Int) : Prop :=
  ((r.left.toNat : Int) ≤ x ∧ x < r.right) ∧ (r.top.toNat : Int) ≤ y ∧ y < r.bottom

instance (r : Plot) (x y : Int) : Decidable (r.Covers x y) := by
  unfold Covers
  infer_instance

end Plot

/-- Plot number `m` covers a place and no later plot does. -/
def Topmost (plots : List Plot) (x y : Int) (m : Nat) : Prop :=
  (∃ r, plots[m]? = some r ∧ r.Covers x y) ∧
    ∀ k r, plots[k]? = some r → r.Covers x y → k ≤ m

theorem topmost_unique {plots : List Plot} {x y : Int} {m n : Nat} (hm : Topmost plots x y m)
    (hn : Topmost plots x y n) : m = n := by
  obtain ⟨⟨r, hr, hrc⟩, hmax⟩ := hm
  obtain ⟨⟨t, ht, htc⟩, hnax⟩ := hn
  exact Nat.le_antisymm (hnax m r hr hrc) (hmax n t ht htc)

theorem not_topmost_nil (x y : Int) (m : Nat) : ¬ Topmost [] x y m := by
  rintro ⟨⟨r, hr, _⟩, _⟩
  simp at hr

theorem topmost_append_of_covers {plots : List Plot} {r : Plot} {x y : Int} (h : r.Covers x y)
    (m : Nat) : Topmost (plots ++ [r]) x y m ↔ m = plots.length := by
  have hlast : Topmost (plots ++ [r]) x y plots.length := by
    refine ⟨⟨r, by simp, h⟩, ?_⟩
    intro k t hk _
    have hlt := (List.getElem?_eq_some_iff.mp hk).1
    rw [List.length_append, List.length_singleton] at hlt
    omega
  constructor
  · intro hm
    exact topmost_unique hm hlast
  · rintro rfl
    exact hlast

theorem topmost_append_of_not_covers {plots : List Plot} {r : Plot} {x y : Int}
    (h : ¬ r.Covers x y) (m : Nat) : Topmost (plots ++ [r]) x y m ↔ Topmost plots x y m := by
  -- Among the plots that cover the place, the new one is not to be found.
  have hcovers : ∀ (k : Nat) (t : Plot), t.Covers x y →
      ((plots ++ [r])[k]? = some t ↔ plots[k]? = some t) := by
    intro k t ht
    by_cases hk : k < plots.length
    · rw [List.getElem?_append_left hk]
    · rw [List.getElem?_append_right (Nat.le_of_not_lt hk),
        List.getElem?_eq_none (Nat.le_of_not_lt hk), List.getElem?_singleton]
      have hne : r ≠ t := fun he => h (he ▸ ht)
      split <;> simp [hne]
  constructor
  · rintro ⟨⟨t, ht, htc⟩, hmax⟩
    exact ⟨⟨t, (hcovers m t htc).mp ht, htc⟩,
      fun k u hu huc => hmax k u ((hcovers k u huc).mpr hu) huc⟩
  · rintro ⟨⟨t, ht, htc⟩, hmax⟩
    exact ⟨⟨t, (hcovers m t htc).mpr ht, htc⟩,
      fun k u hu huc => hmax k u ((hcovers k u huc).mp hu) huc⟩

namespace Canvas

variable {τ : Type}

/-- What can happen to a canvas: a surface is placed on it, or a member becomes another surface in
its old place, be it by drawing, clearing, sending or exchange. -/
inductive Edit (τ : Type) where
  | add (surface : Surface τ) (x y : UInt32)
  | put (member : Nat) (surface : Surface τ)

namespace Edit

def apply (c : Canvas τ) : Edit τ → Canvas τ
  | add s x y => c.add s x y
  | put member s => c.modifyMember member fun _ => s

def plot? : Edit τ → Option Plot
  | add s x y => some ⟨x, y, s.width, s.height⟩
  | put _ _ => none

end Edit

def build (edits : List (Edit τ)) : Canvas τ := edits.foldl Edit.apply empty

def plots (edits : List (Edit τ)) : List Plot := edits.filterMap Edit.plot?

theorem build_append (edits : List (Edit τ)) (e : Edit τ) :
    build (edits ++ [e]) = e.apply (build edits) := by
  rw [build, List.foldl_append]
  rfl

theorem plots_append_add (edits : List (Edit τ)) (s : Surface τ) (x y : UInt32) :
    plots (edits ++ [.add s x y]) = plots edits ++ [⟨x, y, s.width, s.height⟩] := by
  rw [plots, List.filterMap_append]
  rfl

theorem plots_append_put (edits : List (Edit τ)) (member : Nat) (s : Surface τ) :
    plots (edits ++ [.put member s]) = plots edits := by
  rw [plots, List.filterMap_append]
  exact List.append_nil _

/-- The index of a canvas tells who owns each place, and reaches as far as the plots. -/
structure Indexed (plots : List Plot) (c : Canvas τ) : Prop where
  corners : c.members.map (fun p => (p.x, p.y)) = plots.map fun r => (r.left, r.top)
  owner : ∀ x y m, (c.owners.cell? x y).join = some m ↔ Topmost plots x y m
  width : c.width.toNat = (plots.map Plot.right).foldl max 0
  height : c.height.toNat = (plots.map Plot.bottom).foldl max 0

theorem indexed_empty : Indexed [] (empty : Canvas τ) where
  corners := rfl
  owner := by
    intro x y m
    have hnone : (empty : Canvas τ).owners.cell? x y = none := by
      apply Grid.cell?_eq_none
      rintro ⟨hx, _⟩
      exact Nat.not_lt_zero x hx
    rw [hnone]
    simp [not_topmost_nil]
  width := rfl
  height := rfl

theorem Indexed.length_members {plots : List Plot} {c : Canvas τ} (h : Indexed plots c) :
    c.members.length = plots.length := by
  simpa using congrArg List.length h.corners

theorem toNat_right (s : Surface τ) (x y : UInt32) :
    (Placement.right ⟨s, x, y⟩).toNat = (Plot.mk x y s.width s.height).right := by
  have hlt : (Plot.mk x y s.width s.height).right < UInt32.size :=
    Nat.lt_of_le_of_lt (Nat.min_le_right _ _) (by decide)
  exact UInt32.toNat_ofNat_of_lt' hlt

theorem toNat_bottom (s : Surface τ) (x y : UInt32) :
    (Placement.bottom ⟨s, x, y⟩).toNat = (Plot.mk x y s.width s.height).bottom := by
  have hlt : (Plot.mk x y s.width s.height).bottom < UInt32.size :=
    Nat.lt_of_le_of_lt (Nat.min_le_right _ _) (by decide)
  exact UInt32.toNat_ofNat_of_lt' hlt

theorem toNat_width_add (c : Canvas τ) (s : Surface τ) (x y : UInt32) :
    (c.add s x y).width.toNat = max c.width.toNat (Plot.mk x y s.width s.height).right := by
  rw [← toNat_right, ← toNat_max]
  exact congrArg UInt32.toNat (Grid.width_paint _ _ _ _ _ _)

theorem toNat_height_add (c : Canvas τ) (s : Surface τ) (x y : UInt32) :
    (c.add s x y).height.toNat = max c.height.toNat (Plot.mk x y s.width s.height).bottom := by
  rw [← toNat_bottom, ← toNat_max]
  exact congrArg UInt32.toNat (Grid.height_paint _ _ _ _ _ _)

theorem owner_add (c : Canvas τ) (s : Surface τ) (x y : UInt32) (i j : Nat) :
    ((c.add s x y).owners.cell? i j).join =
      if (Plot.mk x y s.width s.height).Covers i j then some c.members.length
      else (c.owners.cell? i j).join := by
  let p : Placement (Surface τ) := ⟨s, x, y⟩
  let grown := c.owners.grow (max c.width p.right) (max c.height p.bottom) none
  have hw : grown.width.toNat = max c.width.toNat p.right.toNat := toNat_max _ _
  have hh : grown.height.toNat = max c.height.toNat p.bottom.toNat := toNat_max _ _
  have hright : p.right.toNat = (Plot.mk x y s.width s.height).right := toNat_right s x y
  have hbottom : p.bottom.toNat = (Plot.mk x y s.width s.height).bottom := toNat_bottom s x y
  have howners : (c.add s x y).owners = grown.paint x.toNat p.right.toNat y.toNat p.bottom.toNat
      (some c.members.length) := rfl
  rw [howners, Grid.cell?_paint]
  by_cases hc : (Plot.mk x y s.width s.height).Covers i j
  · have hin := hc
    simp only [Plot.Covers, Nat.cast_le, Nat.cast_lt, ← hright, ← hbottom] at hin
    rw [if_pos hc, if_pos ⟨hin, by omega, by omega⟩]
    rfl
  · have hout : ¬ ((x.toNat ≤ i ∧ i < p.right.toNat) ∧ y.toNat ≤ j ∧ j < p.bottom.toNat) := by
      simpa only [Plot.Covers, Nat.cast_le, Nat.cast_lt, ← hright, ← hbottom] using hc
    have hcw : c.owners.width.toNat ≤ (max c.width p.right).toNat := by
      rw [toNat_max]
      exact Nat.le_max_left _ _
    rw [if_neg hc, if_neg fun h => hout h.1, Grid.cell?_grow _ hcw]
    by_cases hin : i < (max c.width p.right).toNat ∧ j < (max c.height p.bottom).toNat
    · rw [if_pos hin]
      cases c.owners.cell? i j <;> rfl
    · have hnone : c.owners.cell? i j = none := by
        apply Grid.cell?_eq_none
        intro hold
        rw [toNat_max, toNat_max] at hin
        exact hin ⟨Nat.lt_of_lt_of_le hold.1 (Nat.le_max_left _ _),
          Nat.lt_of_lt_of_le hold.2 (Nat.le_max_left _ _)⟩
      rw [if_neg hin, hnone]

theorem Indexed.add {plots : List Plot} {c : Canvas τ} (h : Indexed plots c) (s : Surface τ)
    (x y : UInt32) : Indexed (plots ++ [⟨x, y, s.width, s.height⟩]) (c.add s x y) where
  corners := by
    rw [List.map_append, ← h.corners]
    exact List.map_append
  owner := by
    intro i j m
    rw [owner_add, h.length_members]
    by_cases hc : (Plot.mk x y s.width s.height).Covers i j
    · rw [if_pos hc, topmost_append_of_covers hc, Option.some_inj, eq_comm]
    · rw [if_neg hc, topmost_append_of_not_covers hc]
      exact h.owner i j m
  width := by
    rw [toNat_width_add, h.width, List.map_append, List.foldl_append]
    rfl
  height := by
    rw [toNat_height_add, h.height, List.map_append, List.foldl_append]
    rfl

theorem corners_modifyMember (c : Canvas τ) (member : Nat) (f : Surface τ → Surface τ) :
    (c.modifyMember member f).members.map (fun p => (p.x, p.y)) =
      c.members.map fun p => (p.x, p.y) := by
  apply List.ext_getElem?
  intro i
  rw [modifyMember, List.getElem?_map, List.getElem?_map, List.getElem?_modify]
  cases c.members[i]? with
  | none => rfl
  | some p => by_cases hi : member = i <;> simp [hi]

theorem Indexed.put {plots : List Plot} {c : Canvas τ} (h : Indexed plots c) (member : Nat)
    (s : Surface τ) : Indexed plots (c.modifyMember member fun _ => s) where
  corners := (corners_modifyMember c member _).trans h.corners
  owner := h.owner
  width := h.width
  height := h.height

theorem indexed_build (edits : List (Edit τ)) : Indexed (plots edits) (build edits) := by
  induction edits using List.reverseRecOn with
  | nil => exact indexed_empty
  | append_singleton edits e ih =>
      rw [build_append]
      cases e with
      | add s x y =>
          rw [plots_append_add]
          exact ih.add s x y
      | put member s =>
          rw [plots_append_put]
          exact ih.put member s

theorem toInt_toInt32 {n : UInt32} (h : n.toNat < 2 ^ 31) : n.toInt32.toInt = n.toNat := by
  rw [← Int32.toInt_ofNat_of_lt h, ← UInt32.toInt32_ofNat', UInt32.ofNat_toNat]

theorem toInt_sub_toInt32 {x : Int32} {n : UInt32} (h : (n.toNat : Int) ≤ x.toInt) :
    (x - n.toInt32).toInt = x.toInt - n.toNat := by
  have hlt := x.toInt_lt
  rw [Int32.toInt_sub, toInt_toInt32 (by omega)]
  exact Int.bmod_eq_of_le (by omega) (by omega)

theorem topmost_nonneg {plots : List Plot} {x y : Int} {m : Nat} (h : Topmost plots x y m) :
    0 ≤ x ∧ 0 ≤ y := by
  obtain ⟨⟨r, _, hx, hy⟩, _⟩ := h
  omega

theorem Indexed.join_get? {plots : List Plot} {c : Canvas τ} (h : Indexed plots c) (x y : Int32)
    (m : Nat) : (c.owners.get? x y).join = some m ↔ Topmost plots x.toInt y.toInt m := by
  by_cases hpos : 0 ≤ x.toInt ∧ 0 ≤ y.toInt
  · have hi := h.owner x.toInt.toNat y.toInt.toNat m
    rw [Int.toNat_of_nonneg hpos.1, Int.toNat_of_nonneg hpos.2] at hi
    rw [Grid.get?, if_pos hpos]
    exact hi
  · rw [Grid.get?, if_neg hpos]
    constructor
    · intro hm
      cases hm
    · intro hm
      exact absurd (topmost_nonneg hm) hpos

theorem Indexed.member_of_topmost {plots : List Plot} {c : Canvas τ} (h : Indexed plots c)
    {x y : Int} {m : Nat} (hm : Topmost plots x y m) :
    ∃ p r, c.members[m]? = some p ∧ plots[m]? = some r ∧ p.x = r.left ∧ p.y = r.top ∧
      r.Covers x y := by
  obtain ⟨⟨r, hr, hrc⟩, _⟩ := hm
  have hcorner := congrArg (·[m]?) h.corners
  simp only [List.getElem?_map, hr, Option.map_some, Option.map_eq_some_iff, Prod.mk.injEq]
    at hcorner
  obtain ⟨p, hp, hx, hy⟩ := hcorner
  exact ⟨p, r, hp, hr, hx, hy, hrc⟩

theorem Indexed.owner?_eq_some_iff {plots : List Plot} {c : Canvas τ} (h : Indexed plots c)
    (x y : Int32) (o : Owner) : c.owner? x y = some o ↔
      Topmost plots x.toInt y.toInt o.member ∧ ∃ p, c.members[o.member]? = some p ∧
        o.x = x - p.x.toInt32 ∧ o.y = y - p.y.toInt32 := by
  have hdo : c.owner? x y = some o ↔ ∃ m, (c.owners.get? x y).join = some m ∧
      ∃ p, c.members[m]? = some p ∧ (⟨m, x - p.x.toInt32, y - p.y.toInt32⟩ : Owner) = o := by
    simp only [owner?, bind, Option.bind_eq_some_iff, pure, Option.some_inj]
  rw [hdo]
  constructor
  · rintro ⟨m, hm, p, hp, rfl⟩
    exact ⟨(h.join_get? x y m).mp hm, p, hp, rfl, rfl⟩
  · rintro ⟨hm, p, hp, hx, hy⟩
    refine ⟨o.member, (h.join_get? x y _).mpr hm, p, hp, ?_⟩
    rw [← hx, ← hy]

theorem Indexed.owner?_eq_none_iff {plots : List Plot} {c : Canvas τ} (h : Indexed plots c)
    (x y : Int32) : c.owner? x y = none ↔ ∀ m, ¬ Topmost plots x.toInt y.toInt m := by
  constructor
  · intro hnone m hm
    obtain ⟨p, r, hp, -⟩ := h.member_of_topmost hm
    have hsome := (h.owner?_eq_some_iff x y ⟨m, x - p.x.toInt32, y - p.y.toInt32⟩).mpr
      ⟨hm, p, hp, rfl, rfl⟩
    rw [hnone] at hsome
    cases hsome
  · intro hall
    cases ho : c.owner? x y with
    | none => rfl
    | some o => exact absurd ((h.owner?_eq_some_iff x y o).mp ho).1 (hall o.member)

theorem exists_topmost {plots : List Plot} {r : Plot} {x y : Int} (hr : r ∈ plots)
    (hc : r.Covers x y) : ∃ m, Topmost plots x y m := by
  induction plots using List.reverseRecOn with
  | nil => cases hr
  | append_singleton plots t ih =>
      by_cases ht : t.Covers x y
      · exact ⟨plots.length, (topmost_append_of_covers ht _).mpr rfl⟩
      · have hmem : r ∈ plots := by
          rcases List.mem_append.mp hr with h | h
          · exact h
          · rw [List.mem_singleton.mp h] at hc
            exact absurd hc ht
        obtain ⟨m, hm⟩ := ih hmem
        exact ⟨m, (topmost_append_of_not_covers ht m).mpr hm⟩

/-- A place as the member with that plot sees it: the corner is subtracted without overflow, and the
result lies inside the size that the member had. -/
structure Seen (r : Plot) (x y : Int32) (o : Owner) : Prop where
  left : r.left.toInt32.toInt = r.left.toNat
  top : r.top.toInt32.toInt = r.top.toNat
  x_eq : o.x.toInt = x.toInt - r.left.toNat
  y_eq : o.y.toInt = y.toInt - r.top.toNat
  x_mem : 0 ≤ o.x.toInt ∧ o.x.toInt < r.width.toNat
  y_mem : 0 ≤ o.y.toInt ∧ o.y.toInt < r.height.toNat

theorem seen_of_covers {r : Plot} {x y : Int32} (h : r.Covers x.toInt y.toInt) (m : Nat) :
    Seen r x y ⟨m, x - r.left.toInt32, y - r.top.toInt32⟩ := by
  obtain ⟨⟨hx, hx'⟩, hy, hy'⟩ := h
  have hxlt := x.toInt_lt
  have hylt := y.toInt_lt
  have hx2 := toInt_sub_toInt32 hx
  have hy2 := toInt_sub_toInt32 hy
  rw [Plot.right] at hx'
  rw [Plot.bottom] at hy'
  exact ⟨toInt_toInt32 (by omega), toInt_toInt32 (by omega), hx2, hy2,
    by simp only [hx2]; omega, by simp only [hy2]; omega⟩

/-- However a canvas came about, a place belongs to the last member whose plot covers it, and to
nobody if there is none; that member sees the place inside the size it had when it was placed. The
canvas reaches as far as its plots, and its index has one entry for each place. -/
theorem owner?_build (edits : List (Edit τ)) (x y : Int32) :
    (∀ m, (∃ o, (build edits).owner? x y = some o ∧ o.member = m) ↔
      Topmost (plots edits) x.toInt y.toInt m) ∧
    ((build edits).owner? x y = none ↔ ∀ r ∈ plots edits, ¬ r.Covers x.toInt y.toInt) ∧
    (∀ o, (build edits).owner? x y = some o → ∃ p r, (build edits).members[o.member]? = some p ∧
      (plots edits)[o.member]? = some r ∧ p.x = r.left ∧ p.y = r.top ∧ Seen r x y o) ∧
    (build edits).width.toNat = ((plots edits).map Plot.right).foldl max 0 ∧
    (build edits).height.toNat = ((plots edits).map Plot.bottom).foldl max 0 ∧
    (build edits).owners.cells.size = (build edits).width.toNat * (build edits).height.toNat ∧
    ∀ m, some m ∈ (build edits).owners.cells → m < (build edits).members.length := by
  have h := indexed_build edits
  refine ⟨?_, ?_, ?_, h.width, h.height, (build edits).owners.size_cells, ?_⟩
  · intro m
    constructor
    · rintro ⟨o, ho, rfl⟩
      exact ((h.owner?_eq_some_iff x y o).mp ho).1
    · intro hm
      obtain ⟨p, r, hp, -⟩ := h.member_of_topmost hm
      exact ⟨⟨m, x - p.x.toInt32, y - p.y.toInt32⟩,
        (h.owner?_eq_some_iff x y _).mpr ⟨hm, p, hp, rfl, rfl⟩, rfl⟩
  · rw [h.owner?_eq_none_iff]
    constructor
    · intro hnone r hr hc
      obtain ⟨m, hm⟩ := exists_topmost hr hc
      exact hnone m hm
    · intro hall m hm
      obtain ⟨⟨r, hr, hc⟩, -⟩ := hm
      exact hall r (List.mem_of_getElem? hr) hc
  · intro o ho
    obtain ⟨hm, p, hp, hox, hoy⟩ := (h.owner?_eq_some_iff x y o).mp ho
    obtain ⟨p', r, hp', hr, hx, hy, hc⟩ := h.member_of_topmost hm
    obtain rfl : p = p' := Option.some_inj.mp (hp.symm.trans hp')
    refine ⟨p, r, hp, hr, hx, hy, ?_⟩
    have hseen := seen_of_covers hc o.member
    rw [← hx, ← hy, ← hox, ← hoy] at hseen
    exact hseen
  · intro m hm
    obtain ⟨i, j, hcell⟩ := Grid.exists_place_of_mem hm
    have htop := (h.owner i j m).mp (by rw [hcell]; rfl)
    obtain ⟨p, r, hp, -⟩ := h.member_of_topmost htop
    exact (List.getElem?_eq_some_iff.mp hp).1

end Canvas

end LedWall
