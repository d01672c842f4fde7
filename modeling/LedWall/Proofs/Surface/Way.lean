import LedWall.Proofs.Surface.Reach

/-!
# The way of a coordinate

On its way to a pixel a coordinate is handed from surface to surface. In every tree that can come
about no index and no coordinate goes astray on that way, and a write changes the one pixel that
reading the same place shows.
-/

namespace LedWall.Surface

variable {τ : Type}

structure Visit (τ : Type) where
  surface : Surface τ
  x : Int32
  y : Int32

mutual

/-- The surfaces that a coordinate is handed to, each with the coordinate as it sees it. -/
def way : Surface τ → Int32 → Int32 → List (Visit τ)
  | panel p, x, y => [⟨panel p, x, y⟩]
  | remapped inner table, x, y =>
      ⟨remapped inner table, x, y⟩ :: match table.lookup x y with
        | some position => inner.way (.ofNat position) 0
        | none => []
  | canvas members owners, x, y =>
      ⟨canvas members owners, x, y⟩ :: match (owners.get? x y).join with
        | some m => memberWay members m x y
        | none => []

def memberWay : List (Placement (Surface τ)) → Nat → Int32 → Int32 → List (Visit τ)
  | [], _, _, _ => []
  | ⟨s, left, top⟩ :: _, 0, x, y => s.way (x - left.toInt32) (y - top.toInt32)
  | _ :: members, m + 1, x, y => memberWay members m x y

end

def next? : Surface τ → Int32 → Int32 → Option (Visit τ)
  | panel _, _, _ => none
  | remapped inner table, x, y =>
      (table.lookup x y).map fun position => ⟨inner, .ofNat position, 0⟩
  | canvas members owners, x, y => (owners.get? x y).join.bind fun m => members[m]?.map fun p =>
      ⟨p.surface, x - p.x.toInt32, y - p.y.toInt32⟩

theorem exists_owner_of_next? {members : List (Placement (Surface τ))}
    {owners : Grid (Option Nat)} {x y : Int32} {v : Visit τ}
    (h : (canvas members owners).next? x y = some v) :
    ∃ m p, (owners.get? x y).join = some m ∧ members[m]? = some p ∧
      v = ⟨p.surface, x - p.x.toInt32, y - p.y.toInt32⟩ := by
  obtain ⟨m, hm, hmember⟩ := Option.bind_eq_some_iff.mp h
  obtain ⟨p, hp, rfl⟩ := Option.map_eq_some_iff.mp hmember
  exact ⟨m, p, hm, hp, rfl⟩

theorem memberWay_eq (members : List (Placement (Surface τ))) (m : Nat) (x y : Int32) :
    memberWay members m x y =
      (members[m]?.map fun p => p.surface.way (x - p.x.toInt32) (y - p.y.toInt32)).getD [] :=
  walk_eq (f := fun members m => memberWay members m x y) (fun _ => rfl) (fun _ _ => rfl)
    (fun _ _ _ => rfl) members m

theorem way_eq (s : Surface τ) (x y : Int32) : s.way x y =
    ⟨s, x, y⟩ :: ((s.next? x y).map fun v => v.surface.way v.x v.y).getD [] := by
  cases s with
  | panel p => rfl
  | remapped inner table =>
      rw [way, next?]
      cases table.lookup x y <;> rfl
  | canvas members owners =>
      rw [way, next?]
      cases (owners.get? x y).join with
      | none => rfl
      | some m =>
          simp only [memberWay_eq, Option.bind_some, Option.map_map]
          rfl

@[elab_as_elim]
theorem way_induction {motive : Surface τ → Int32 → Int32 → Prop}
    (step : ∀ s x y, (∀ v, s.next? x y = some v → motive v.surface v.x v.y) → motive s x y)
    (s : Surface τ) (x y : Int32) : motive s x y := by
  induction s using tree_induction generalizing x y with
  | panel p =>
      apply step
      intro v hv
      cases hv
  | remapped inner table ih =>
      apply step
      intro v hv
      obtain ⟨position, -, rfl⟩ := Option.map_eq_some_iff.mp hv
      exact ih (.ofNat position) 0
  | canvas members owners ih =>
      apply step
      intro v hv
      obtain ⟨m, p, -, hp, rfl⟩ := exists_owner_of_next? hv
      exact ih p (List.mem_of_getElem? hp) _ _

theorem forall_mem_way {P : Visit τ → Prop} {s : Surface τ} {x y : Int32} (h : P ⟨s, x, y⟩)
    (hnext : ∀ v, s.next? x y = some v → ∀ u ∈ v.surface.way v.x v.y, P u) :
    ∀ u ∈ s.way x y, P u := by
  rw [way_eq]
  intro u hu
  rcases List.mem_cons.mp hu with rfl | hu
  · exact h
  · cases hv : s.next? x y with
    | none =>
        rw [hv] at hu
        cases hu
    | some v =>
        rw [hv] at hu
        exact hnext v hv u hu

def Visit.Inside (v : Visit τ) : Prop :=
  (0 ≤ v.x.toInt ∧ v.x.toInt < v.surface.width.toNat) ∧
    0 ≤ v.y.toInt ∧ v.y.toInt < v.surface.height.toNat

theorem holds_of_join {α : Type} {g : Grid (Option α)} {x y : Int32} {v : α}
    (h : (g.get? x y).join = some v) : g.Holds x y := by
  rw [← g.isSome_get?]
  cases hg : g.get? x y with
  | none =>
      rw [hg] at h
      cases h
  | some _ => rfl

/-- A surface hands on only coordinates that lie inside it. -/
theorem inside_of_next? {s : Surface τ} {x y : Int32} {v : Visit τ} (h : s.next? x y = some v) :
    Visit.Inside ⟨s, x, y⟩ := by
  cases s with
  | panel p => cases h
  | remapped inner table =>
      obtain ⟨position, hl, -⟩ := Option.map_eq_some_iff.mp h
      exact holds_of_join hl
  | canvas members owners =>
      obtain ⟨m, p, hm, -⟩ := exists_owner_of_next? h
      exact holds_of_join hm

theorem get?_of_next? {s : Surface τ} {x y : Int32} {v : Visit τ} (h : s.next? x y = some v) :
    s.get? x y = v.surface.get? v.x v.y := by
  cases s with
  | panel p => cases h
  | remapped inner table =>
      obtain ⟨position, hl, rfl⟩ := Option.map_eq_some_iff.mp h
      rw [get?_remapped, hl, Option.bind_some]
  | canvas members owners =>
      obtain ⟨m, p, hm, hp, rfl⟩ := exists_owner_of_next? h
      rw [get?_canvas, hm, Option.bind_some, hp, Option.bind_some]

theorem inside_of_next?_eq_none {s : Surface τ} {x y : Int32} (h : s.next? x y = none)
    (hget : s.get? x y ≠ none) : Visit.Inside ⟨s, x, y⟩ := by
  cases s with
  | panel p => exact (p.buffer.grid.isSome_get? x y).mp (Option.isSome_iff_ne_none.mpr hget)
  | remapped inner table =>
      have hl : table.lookup x y = none := Option.map_eq_none_iff.mp h
      rw [get?_remapped, hl] at hget
      exact absurd rfl hget
  | canvas members owners =>
      rw [next?] at h
      rw [get?_canvas] at hget
      cases hm : (owners.get? x y).join with
      | none =>
          rw [hm] at hget
          exact absurd rfl hget
      | some m =>
          rw [hm, Option.bind_some, Option.map_eq_none_iff] at h
          rw [hm, Option.bind_some, h] at hget
          exact absurd rfl hget

theorem inside_of_mem_dropLast (s : Surface τ) (x y : Int32) :
    ∀ v ∈ (s.way x y).dropLast, v.Inside := by
  induction s, x, y using way_induction with
  | step s x y ih =>
      rw [way_eq]
      cases hv : s.next? x y with
      | none =>
          intro u hu
          cases hu
      | some v =>
          have hne : v.surface.way v.x v.y ≠ [] := by
            rw [way_eq]
            exact List.cons_ne_nil _ _
          rw [Option.map_some, Option.getD_some, List.dropLast_cons_of_ne_nil hne]
          intro u hu
          rcases List.mem_cons.mp hu with rfl | hu
          · exact inside_of_next? hv
          · exact ih v hv u hu

theorem inside_of_get? {s : Surface τ} {x y : Int32} (h : s.get? x y ≠ none) :
    ∀ v ∈ s.way x y, v.Inside := by
  induction s, x, y using way_induction with
  | step s x y ih =>
      apply forall_mem_way
      · cases hv : s.next? x y with
        | none => exact inside_of_next?_eq_none hv h
        | some v => exact inside_of_next? hv
      · intro v hv
        rw [get?_of_next? hv] at h
        exact ih v hv h

/-- The bounds test lets through only places whose cell is in storage. -/
def IndexInRange {α : Type} (g : Grid α) (x y : Int32) : Prop :=
  g.Holds x y → y.toInt.toNat * g.width.toNat + x.toInt.toNat < g.cells.size

theorem indexInRange {α : Type} (g : Grid α) (x y : Int32) : IndexInRange g x y :=
  fun h => Grid.index_lt h.inside

/-- What a surface does with a coordinate stays in range: the index into its cells, and on a canvas
the number of the owner and the place as the owner sees it, which lies inside the size the owner had
when it was placed, whatever history led to the canvas. -/
def Visit.InRange : Visit τ → Prop
  | ⟨panel p, x, y⟩ => IndexInRange p.buffer.grid x y
  | ⟨remapped _ table, x, y⟩ => IndexInRange table.grid x y
  | ⟨canvas members owners, x, y⟩ => IndexInRange owners x y ∧
      ∀ m, (owners.get? x y).join = some m → m < members.length ∧
        ∀ edits, Canvas.build edits = ⟨members, owners⟩ → ∃ p r, members[m]? = some p ∧
          (Canvas.plots edits)[m]? = some r ∧ p.x = r.left ∧ p.y = r.top ∧
          Canvas.Seen r x y ⟨m, x - p.x.toInt32, y - p.y.toInt32⟩

theorem seen_of_build {edits : List (Canvas.Edit τ)} {members : List (Placement (Surface τ))}
    {owners : Grid (Option Nat)} (hbuild : Canvas.build edits = ⟨members, owners⟩) {x y : Int32}
    {m : Nat} (hm : (owners.get? x y).join = some m) : ∃ p r, members[m]? = some p ∧
      (Canvas.plots edits)[m]? = some r ∧ p.x = r.left ∧ p.y = r.top ∧
      Canvas.Seen r x y ⟨m, x - p.x.toInt32, y - p.y.toInt32⟩ := by
  have hindexed := Canvas.indexed_build edits
  rw [hbuild] at hindexed
  obtain ⟨p, r, hp, hr, hx, hy, hc⟩ :=
    hindexed.member_of_topmost ((hindexed.join_get? x y m).mp hm)
  refine ⟨p, r, hp, hr, hx, hy, ?_⟩
  rw [hx, hy]
  exact Canvas.seen_of_covers hc m

theorem Reachable.next {s : Surface τ} (h : Reachable s) {x y : Int32} {v : Visit τ}
    (hv : s.next? x y = some v) : Reachable v.surface := by
  cases s with
  | panel p => cases hv
  | remapped inner table =>
      obtain ⟨position, -, rfl⟩ := Option.map_eq_some_iff.mp hv
      exact h.inner
  | canvas members owners =>
      obtain ⟨m, p, -, hp, rfl⟩ := exists_owner_of_next? hv
      exact h.member (List.mem_of_getElem? hp)

theorem Reachable.inRange_here {s : Surface τ} (h : Reachable s) (x y : Int32) :
    Visit.InRange ⟨s, x, y⟩ := by
  cases s with
  | panel p => exact indexInRange p.buffer.grid x y
  | remapped inner table => exact indexInRange table.grid x y
  | canvas members owners =>
      obtain ⟨edits, -, hbuild⟩ := h.history
      refine ⟨indexInRange owners x y, fun m hm => ⟨?_, fun _ hother => seen_of_build hother hm⟩⟩
      obtain ⟨p, _, hp, -⟩ := seen_of_build hbuild hm
      exact (List.getElem?_eq_some_iff.mp hp).1

theorem Reachable.inRange {s : Surface τ} (h : Reachable s) (x y : Int32) :
    ∀ v ∈ s.way x y, v.InRange := by
  induction s, x, y using way_induction with
  | step s x y ih => exact forall_mem_way (h.inRange_here x y) fun v hv => ih v hv (h.next hv)

/-- In every tree that can come about, each coordinate leads to at most one pixel of one panel, which
is the pixel that reading shows. Where nothing is read, writing leaves every panel as it is.
Elsewhere it changes at most that one pixel, reading the same place gives what its panel stores for
the colour, and only places that lead to the same pixel read differently. Routes stay and no index
is out of range; only the last surface on the way may be asked for a place that it does not have,
and then nothing is read. -/
theorem write_follows_route {s : Surface τ} (h : Reachable s) (x y : Int32) (c : Color) :
    s.get? x y = (s.route x y).bind s.pixel? ∧
    (s.get? x y = none → ∀ path, (s.set x y c).panelAt? path = s.panelAt? path) ∧
    (s.get? x y ≠ none → ∃ spot p p', s.route x y = some spot ∧
      s.panelAt? spot.path = some p ∧ (s.set x y c).panelAt? spot.path = some p' ∧
      p.SameBut p' spot.x spot.y ∧
      (∀ path, path ≠ spot.path → (s.set x y c).panelAt? path = s.panelAt? path) ∧
      (s.set x y c).get? x y = some (c.stored p.buffer.transparent) ∧
      ∀ x' y', s.route x' y' ≠ some spot → (s.set x y c).get? x' y' = s.get? x' y') ∧
    (∀ x' y', (s.set x y c).route x' y' = s.route x' y') ∧
    (∀ v ∈ s.way x y, v.InRange) ∧
    (∀ v ∈ (s.way x y).dropLast, v.Inside) ∧
    (s.get? x y ≠ none → ∀ v ∈ s.way x y, v.Inside) := by
  refine ⟨s.get?_eq x y, ?_, ?_, s.route_set x y c, h.inRange x y, s.inside_of_mem_dropLast x y,
    inside_of_get?⟩
  · intro hnone path
    exact panelAt?_set_of_none ((s.get?_eq_none_iff x y).mp hnone) c path
  · intro hsome
    obtain ⟨spot, hroute⟩ := Option.ne_none_iff_exists'.mp (mt (s.get?_eq_none_iff x y).mpr hsome)
    obtain ⟨p, hp⟩ := exists_panelAt?_of_route hroute
    refine ⟨spot, p, p.dot spot.x spot.y c, hroute, hp, ?_, p.sameBut_dot _ _ _, ?_, ?_, ?_⟩
    · rw [panelAt?_set, hroute, hp]
      simp only [Option.map_some, ↓reduceIte]
    · intro path hpath
      rw [panelAt?_set, hroute]
      simp only [hpath, ↓reduceIte, Option.map_id']
    · rw [get?_set hroute hp, if_pos hroute]
    · intro x' y' hother
      rw [get?_set hroute hp, if_neg hother]

def doubledTable : CoordinateTable := ⟨⟨[2]⟩, ⟨3, 1, #[some 0, some 0, some 1], rfl⟩⟩

def squarePanel : Panel Unit := .ofBuffer ⟨.uniform 2 2 .black, 0, true, by decide, by decide⟩ ()

def rowPanel : Panel Unit := .ofBuffer ⟨.uniform 2 1 .nearBlack, 0, false, by decide, by decide⟩ ()

def nestedWall : Surface Unit :=
  let group := Canvas.build
    [.add (.panel squarePanel) 0 0, .add (.remapped (.panel rowPanel) doubledTable) 1 0]
  (Canvas.build [.add group.toSurface 1 1]).toSurface

theorem reachable_nestedWall : Reachable nestedWall := by
  have htable : CoordinateTable.build 3 1 [2]
      [⟨.horizontal, 0, 0, [0]⟩, ⟨.horizontal, 1, 0, [0]⟩] = .ok doubledTable := rfl
  have hstrip : Strip.make (.panel rowPanel) doubledTable =
      .ok ⟨.panel rowPanel, doubledTable⟩ := rfl
  refine .canvas fun e he => ?_
  rw [List.mem_singleton.mp he]
  refine .canvas fun e he => ?_
  rcases List.mem_pair.mp he with rfl | rfl
  · exact .panel squarePanel
  · exact .wire htable hstrip (.panel rowPanel)

theorem write_follows_route_nestedWall : Reachable nestedWall ∧ nestedWall.get? 2 1 ≠ none ∧
    (nestedWall.set 2 1 .black).get? 2 1 = some .nearBlack ∧
    (nestedWall.set 2 1 .black).get? 1 1 = nestedWall.get? 1 1 := by
  have hroute : nestedWall.route 2 1 = some ⟨[0, 1], 0, 0⟩ := by decide +kernel
  have hother : nestedWall.route 1 1 = some ⟨[0, 0], 0, 0⟩ := by decide +kernel
  have hsome : nestedWall.get? 2 1 ≠ none := by decide +kernel
  obtain ⟨-, -, hwrite, -⟩ := write_follows_route reachable_nestedWall 2 1 .black
  obtain ⟨spot, p, p', hspot, hp, -, -, -, hread, hkeep⟩ := hwrite hsome
  obtain rfl : ⟨[0, 1], 0, 0⟩ = spot := Option.some_inj.mp (hroute.symm.trans hspot)
  have hopaque : p.buffer.transparent = false := by
    cases hp
    rfl
  refine ⟨reachable_nestedWall, hsome, ?_, ?_⟩
  · rw [hread, hopaque]
    rfl
  · apply hkeep
    rw [hother]
    decide

end LedWall.Surface
