import LedWall.Proofs.Canvas.Ownership
import LedWall.Proofs.Recorded

/-!
# How far a canvas reaches

The edges of a canvas move when a surface is placed on it, and then as far as that surface needs. A
member that grows where it stands, as a canvas does on which more is placed, moves no edge of the
canvas around it. After the next placement the canvas therefore reaches as far as its members do if
none of them has outgrown it, and less far otherwise.
-/

namespace LedWall

def Surface.GrowsTo {τ : Type} (s t : Surface τ) : Prop :=
  s.width.toNat ≤ t.width.toNat ∧ s.height.toNat ≤ t.height.toNat

namespace Canvas

variable {τ : Type}

/-- The furthest edge of the members, in the sizes that they have now. -/
def furthest (edge : Placement (Surface τ) → UInt32) (c : Canvas τ) : Nat :=
  (c.members.map fun p => (edge p).toNat).foldl max 0

private theorem foldl_max_le_iff (xs : List Nat) (a b : Nat) :
    xs.foldl max a ≤ b ↔ a ≤ b ∧ ∀ x ∈ xs, x ≤ b := by
  induction xs generalizing a with
  | nil => simp
  | cons x xs ih => simp [ih, and_assoc]

theorem furthest_le_iff (edge : Placement (Surface τ) → UInt32) (c : Canvas τ) (n : Nat) :
    c.furthest edge ≤ n ↔ ∀ p ∈ c.members, (edge p).toNat ≤ n := by
  simp [furthest, foldl_max_le_iff]

/-- No edit makes a member narrower or lower than it was. -/
def Growing (edits : List (Edit τ)) : Prop :=
  ∀ before member s after, edits = before ++ .put member s :: after →
    ∀ p, (build before).members[member]? = some p → p.surface.GrowsTo s

theorem Growing.of_append {edits more : List (Edit τ)} (h : Growing (edits ++ more)) :
    Growing edits := by
  intro before member s after hedits
  apply h before member s (after ++ more)
  simp [hedits]

theorem growsTo_add (c : Canvas τ) (s : Surface τ) (x y : UInt32) :
    c.toSurface.GrowsTo (c.add s x y).toSurface := by
  have hw : (c.add s x y).toSurface.width.toNat = _ := toNat_width_add c s x y
  have hh : (c.add s x y).toSurface.height.toNat = _ := toNat_height_add c s x y
  rw [Surface.GrowsTo, hw, hh]
  exact ⟨Nat.le_max_left _ _, Nat.le_max_left _ _⟩

/-- A member stands where its plot does, and is at least as large. -/
structure Outgrows (p : Placement (Surface τ)) (r : Plot) : Prop where
  left : p.x = r.left
  top : p.y = r.top
  width : r.width.toNat ≤ p.surface.width.toNat
  height : r.height.toNat ≤ p.surface.height.toNat

theorem Outgrows.right_le {p : Placement (Surface τ)} {r : Plot} (h : Outgrows p r) :
    r.right ≤ p.right.toNat := by
  have hwidth := h.width
  rw [toNat_right p.surface p.x p.y, Plot.right, Plot.right, h.left]
  dsimp only
  omega

theorem Outgrows.bottom_le {p : Placement (Surface τ)} {r : Plot} (h : Outgrows p r) :
    r.bottom ≤ p.bottom.toNat := by
  have hheight := h.height
  rw [toNat_bottom p.surface p.x p.y, Plot.bottom, Plot.bottom, h.top]
  dsimp only
  omega

theorem exists_outgrows {edits : List (Edit τ)} (h : Growing edits) {i : Nat} {r : Plot}
    (hr : (plots edits)[i]? = some r) :
    ∃ p, (build edits).members[i]? = some p ∧ Outgrows p r := by
  induction edits using List.reverseRecOn generalizing r with
  | nil => simp [plots] at hr
  | append_singleton edits e ih =>
      have hlength := (indexed_build edits).length_members
      rw [build_append]
      cases e with
      | add s x y =>
          rw [plots_append_add] at hr
          rcases getElem?_concat_eq_some_iff.mp hr with hold | ⟨rfl, rfl⟩
          · obtain ⟨p, hp, hpr⟩ := ih h.of_append hold
            exact ⟨p, getElem?_concat_eq_some_iff.mpr (.inl hp), hpr⟩
          · refine ⟨⟨s, x, y⟩, ?_, rfl, rfl, Nat.le_refl _, Nat.le_refl _⟩
            simp [Edit.apply, add, ← hlength]
      | put member s =>
          rw [plots_append_put] at hr
          obtain ⟨p, hp, hpr⟩ := ih h.of_append hr
          rw [Edit.apply, modifyMember, List.getElem?_modify, hp]
          by_cases hm : member = i
          · subst hm
            obtain ⟨hwidth, hheight⟩ := h edits member s [] rfl p hp
            refine ⟨{ p with surface := s }, by simp, hpr.left, hpr.top, ?_, ?_⟩
            · exact hpr.width.trans hwidth
            · exact hpr.height.trans hheight
          · exact ⟨p, by simp [hm], hpr⟩

theorem furthest_plot_le {edits : List (Edit τ)} (h : Growing edits) {plotEdge : Plot → Nat}
    {edge : Placement (Surface τ) → UInt32}
    (hedge : ∀ p r, Outgrows p r → plotEdge r ≤ (edge p).toNat) :
    ((plots edits).map plotEdge).foldl max 0 ≤ (build edits).furthest edge := by
  have hfurthest := ((build edits).furthest_le_iff edge _).mp (Nat.le_refl _)
  rw [foldl_max_le_iff]
  simp only [Nat.zero_le, true_and, List.forall_mem_map]
  intro r hr
  obtain ⟨i, hi⟩ := List.mem_iff_getElem?.mp hr
  obtain ⟨p, hp, hpr⟩ := exists_outgrows h hi
  exact (hedge p r hpr).trans (hfurthest p (List.mem_of_getElem? hp))

/-- At any time, and so right after a placement, a canvas reaches as far as the plots that it has
given out; if its members have only grown, that is as far as they reach now exactly if none of them
has outgrown the canvas. -/
theorem reach_of_history (edits : List (Edit τ)) :
    ((build edits).width.toNat = ((plots edits).map Plot.right).foldl max 0 ∧
      (build edits).height.toNat = ((plots edits).map Plot.bottom).foldl max 0) ∧
    (Growing edits →
      ((build edits).width.toNat = (build edits).furthest Placement.right ↔
        ∀ p ∈ (build edits).members, p.right ≤ (build edits).width) ∧
      ((build edits).height.toNat = (build edits).furthest Placement.bottom ↔
        ∀ p ∈ (build edits).members, p.bottom ≤ (build edits).height)) := by
  have hindexed := indexed_build edits
  refine ⟨⟨hindexed.width, hindexed.height⟩, fun hgrow => ⟨?_, ?_⟩⟩
  · have hle := furthest_plot_le hgrow fun p r => Outgrows.right_le
    rw [← hindexed.width] at hle
    simp only [UInt32.le_iff_toNat_le, ← furthest_le_iff]
    omega
  · have hle := furthest_plot_le hgrow fun p r => Outgrows.bottom_le
    rw [← hindexed.height] at hle
    simp only [UInt32.le_iff_toNat_le, ← furthest_le_iff]
    omega

def dot : Surface Unit := .panel (.ofBuffer ⟨.uniform 1 1 .black, 0, true, by decide, by decide⟩ ())

def pair : Canvas Unit := (empty.add dot 0 0).add dot 3 2

/-- A canvas of one dot is placed, gets its second dot there, and another dot is placed beside it. -/
def pairedWall (x y : UInt32) : List (Edit Unit) :=
  [.add (empty.add dot 0 0).toSurface 0 0, .put 0 pair.toSurface, .add dot x y]

theorem growing_pairedWall (x y : UInt32) : Growing (pairedWall x y) := by
  intro before member s after hedits p hp
  match before with
  | [] => cases hedits
  | [_] =>
      simp only [pairedWall, List.cons_append, List.nil_append, List.cons.injEq] at hedits
      obtain ⟨rfl, hput, -⟩ := hedits
      cases hput
      cases hp
      exact growsTo_add _ dot 3 2
  | [_, _] => cases hedits
  | _ :: _ :: _ :: _ => simp [pairedWall] at hedits

theorem reach_of_history_pairedWall : Growing (pairedWall 5 0) ∧
    (∀ p ∈ (build (pairedWall 5 0)).members, p.right ≤ (build (pairedWall 5 0)).width) ∧
    (build (pairedWall 5 0)).width.toNat = (build (pairedWall 5 0)).furthest Placement.right := by
  have hgrow := growing_pairedWall 5 0
  have hinside : ∀ p ∈ (build (pairedWall 5 0)).members,
      p.right ≤ (build (pairedWall 5 0)).width := by decide +kernel
  obtain ⟨-, hreach⟩ := reach_of_history (pairedWall 5 0)
  exact ⟨hgrow, hinside, (hreach hgrow).1.mpr hinside⟩

theorem edges_behind_grown_member :
    (build (pairedWall 0 0)).width = 1 ∧ (build (pairedWall 0 0)).height = 1 ∧
    (build (pairedWall 0 0)).furthest Placement.right = 4 ∧
    (build (pairedWall 0 0)).furthest Placement.bottom = 3 := by decide +kernel

end Canvas

end LedWall
