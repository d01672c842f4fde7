import LedWall.Proofs.Grid
import LedWall.Surface.Basic

/-!
# Where a coordinate leads

A tree of surfaces is a row of panels in order of depth, and each coordinate leads to at most one
pixel of one of them. Reading takes the colour of that pixel and writing changes that pixel alone.
-/

namespace LedWall

namespace Surface

variable {τ : Type}

@[elab_as_elim]
theorem tree_induction {motive : Surface τ → Prop} (panel : ∀ p, motive (.panel p))
    (remapped : ∀ inner table, motive inner → motive (.remapped inner table))
    (canvas : ∀ members owners, (∀ p ∈ members, motive p.surface) →
      motive (.canvas members owners))
    (s : Surface τ) : motive s := by
  match s with
  | .panel p => exact panel p
  | .remapped inner table =>
      exact remapped inner table (tree_induction panel remapped canvas inner)
  | .canvas members owners =>
      apply canvas
      intro p hp
      have hlt : sizeOf p.surface < 1 + sizeOf members + sizeOf owners := by
        have hm := List.sizeOf_lt_of_mem hp
        have hs : sizeOf p.surface < sizeOf p := by
          cases p
          simp only [Placement.mk.sizeOf_spec]
          omega
        omega
      exact tree_induction panel remapped canvas p.surface
termination_by sizeOf s

theorem walk_eq {α β : Type} {f : List α → Nat → β} {g : α → β} {d : β} (hnil : ∀ m, f [] m = d)
    (hzero : ∀ a as, f (a :: as) 0 = g a) (hsucc : ∀ a as m, f (a :: as) (m + 1) = f as m)
    (as : List α) (m : Nat) : f as m = (as[m]?.map g).getD d := by
  induction as generalizing m with
  | nil => exact hnil m
  | cons a as ih =>
      cases m with
      | zero => exact hzero a as
      | succ m =>
          rw [hsucc, ih]
          rfl

theorem walk_eq_bind {α β : Type} {f : List α → Nat → Option β} {g : α → Option β}
    (hnil : ∀ m, f [] m = none) (hzero : ∀ a as, f (a :: as) 0 = g a)
    (hsucc : ∀ a as m, f (a :: as) (m + 1) = f as m) (as : List α) (m : Nat) :
    f as m = as[m]?.bind g := by
  rw [walk_eq hnil hzero hsucc]
  cases as[m]? <;> rfl

theorem getMember?_eq (members : List (Placement (Surface τ))) (m : Nat) (x y : Int32) :
    getMember? members m x y =
      members[m]?.bind fun p => p.surface.get? (x - p.x.toInt32) (y - p.y.toInt32) :=
  walk_eq_bind (f := fun members m => getMember? members m x y) (fun _ => rfl) (fun _ _ => rfl)
    (fun _ _ _ => rfl) members m

theorem setMember_eq (members : List (Placement (Surface τ))) (m : Nat) (x y : Int32) (c : Color) :
    setMember members m x y c = members.modify m fun p =>
      { p with surface := p.surface.set (x - p.x.toInt32) (y - p.y.toInt32) c } := by
  induction members generalizing m with
  | nil =>
      rw [setMember, List.modify_nil]
  | cons p members ih =>
      cases m with
      | zero => rfl
      | succ m => rw [setMember, ih, List.modify_succ_cons]

theorem get?_remapped (inner : Surface τ) (table : CoordinateTable) (x y : Int32) :
    (remapped inner table).get? x y =
      (table.lookup x y).bind fun position => inner.get? (.ofNat position) 0 := by
  rw [get?]
  cases table.lookup x y <;> rfl

theorem get?_canvas (members : List (Placement (Surface τ))) (owners : Grid (Option Nat))
    (x y : Int32) : (canvas members owners).get? x y =
      (owners.get? x y).join.bind fun m => members[m]?.bind fun p =>
        p.surface.get? (x - p.x.toInt32) (y - p.y.toInt32) := by
  rw [get?]
  cases (owners.get? x y).join with
  | none => rfl
  | some m => exact getMember?_eq members m x y

theorem set_remapped (inner : Surface τ) (table : CoordinateTable) (x y : Int32) (c : Color) :
    (remapped inner table).set x y c = remapped
      (((table.lookup x y).map fun position => inner.set (.ofNat position) 0 c).getD inner)
      table := by
  rw [set]
  cases table.lookup x y <;> rfl

def setMembers (members : List (Placement (Surface τ))) (x y : Int32) (c : Color) (m : Nat) :
    List (Placement (Surface τ)) :=
  members.modify m fun p => { p with surface := p.surface.set (x - p.x.toInt32) (y - p.y.toInt32) c }

theorem set_canvas (members : List (Placement (Surface τ))) (owners : Grid (Option Nat))
    (x y : Int32) (c : Color) : (canvas members owners).set x y c =
      canvas (((owners.get? x y).join.map (setMembers members x y c)).getD members) owners := by
  rw [set]
  cases (owners.get? x y).join with
  | none => rfl
  | some m => exact congrArg (canvas · owners) (setMember_eq members m x y c)

mutual

/-- The panel at the end of a path, which names a member at each canvas. -/
def panelAt? : Surface τ → List Nat → Option (Panel τ)
  | panel p, [] => some p
  | panel _, _ :: _ => none
  | remapped inner _, path => inner.panelAt? path
  | canvas _ _, [] => none
  | canvas members _, m :: path => memberPanelAt? members m path

def memberPanelAt? : List (Placement (Surface τ)) → Nat → List Nat → Option (Panel τ)
  | [], _, _ => none
  | ⟨s, _, _⟩ :: _, 0, path => s.panelAt? path
  | _ :: members, m + 1, path => memberPanelAt? members m path

end

/-- A pixel of one panel of a tree. -/
@[ext] structure Spot where
  path : List Nat
  x : Nat
  y : Nat
deriving DecidableEq

def Spot.below (m : Nat) (spot : Spot) : Spot := { spot with path := m :: spot.path }

mutual

def route : Surface τ → Int32 → Int32 → Option Spot
  | panel p, x, y =>
      if p.buffer.grid.Holds x y then some ⟨[], x.toInt.toNat, y.toInt.toNat⟩ else none
  | remapped inner table, x, y =>
      match table.lookup x y with
      | some position => inner.route (.ofNat position) 0
      | none => none
  | canvas members owners, x, y =>
      match (owners.get? x y).join with
      | some m => (routeMember members m x y).map (Spot.below m)
      | none => none

def routeMember : List (Placement (Surface τ)) → Nat → Int32 → Int32 → Option Spot
  | [], _, _, _ => none
  | ⟨s, left, top⟩ :: _, 0, x, y => s.route (x - left.toInt32) (y - top.toInt32)
  | _ :: members, m + 1, x, y => routeMember members m x y

end

theorem memberPanelAt?_eq (members : List (Placement (Surface τ))) (m : Nat) (path : List Nat) :
    memberPanelAt? members m path = members[m]?.bind fun p => p.surface.panelAt? path :=
  walk_eq_bind (f := fun members m => memberPanelAt? members m path) (fun _ => rfl)
    (fun _ _ => rfl) (fun _ _ _ => rfl) members m

theorem panelAt?_canvas (members : List (Placement (Surface τ))) (owners : Grid (Option Nat))
    (m : Nat) (path : List Nat) : (canvas members owners).panelAt? (m :: path) =
      members[m]?.bind fun p => p.surface.panelAt? path := by
  rw [panelAt?, memberPanelAt?_eq]

theorem routeMember_eq (members : List (Placement (Surface τ))) (m : Nat) (x y : Int32) :
    routeMember members m x y =
      members[m]?.bind fun p => p.surface.route (x - p.x.toInt32) (y - p.y.toInt32) :=
  walk_eq_bind (f := fun members m => routeMember members m x y) (fun _ => rfl) (fun _ _ => rfl)
    (fun _ _ _ => rfl) members m

theorem route_remapped (inner : Surface τ) (table : CoordinateTable) (x y : Int32) :
    (remapped inner table).route x y =
      (table.lookup x y).bind fun position => inner.route (.ofNat position) 0 := by
  rw [route]
  cases table.lookup x y <;> rfl

theorem route_canvas (members : List (Placement (Surface τ))) (owners : Grid (Option Nat))
    (x y : Int32) : (canvas members owners).route x y =
      (owners.get? x y).join.bind fun m => (members[m]?.bind fun p =>
        p.surface.route (x - p.x.toInt32) (y - p.y.toInt32)).map (Spot.below m) := by
  rw [route]
  cases (owners.get? x y).join with
  | none => rfl
  | some m => exact congrArg (Option.map (Spot.below m)) (routeMember_eq members m x y)

def pixel? (s : Surface τ) (spot : Spot) : Option Color :=
  (s.panelAt? spot.path).bind fun p => p.buffer.grid.cell? spot.x spot.y

theorem pixel?_below (members : List (Placement (Surface τ))) (owners : Grid (Option Nat))
    (m : Nat) (spot : Spot) : (canvas members owners).pixel? (spot.below m) =
      members[m]?.bind fun p => p.surface.pixel? spot := by
  rw [pixel?, Spot.below, panelAt?_canvas]
  cases members[m]? <;> rfl

/-- Reading takes the colour of the pixel that the coordinate leads to. -/
theorem get?_eq (s : Surface τ) (x y : Int32) : s.get? x y = (s.route x y).bind s.pixel? := by
  induction s using tree_induction generalizing x y with
  | panel p =>
      rw [get?, route, FrameBuffer.get?]
      by_cases h : p.buffer.grid.Holds x y
      · rw [if_pos h, Grid.get?_of_holds h]
        rfl
      · rw [if_neg h, Grid.get?_of_not_holds h]
        rfl
  | remapped inner table ih =>
      rw [get?_remapped, route_remapped]
      cases table.lookup x y with
      | none => rfl
      | some position => exact ih (.ofNat position) 0
  | canvas members owners ih =>
      rw [get?_canvas, route_canvas]
      cases (owners.get? x y).join with
      | none => rfl
      | some m =>
          simp only [Option.bind_some]
          cases hp : members[m]? with
          | none => rfl
          | some p =>
              have hmem := List.mem_of_getElem? hp
              simp only [Option.bind_some, ih p hmem]
              cases p.surface.route (x - p.x.toInt32) (y - p.y.toInt32) with
              | none => rfl
              | some spot =>
                  simp only [Option.map_some, Option.bind_some, pixel?_below, hp]

theorem isSome_pixel?_of_route {s : Surface τ} {x y : Int32} {spot : Spot}
    (h : s.route x y = some spot) : (s.pixel? spot).isSome := by
  induction s using tree_induction generalizing x y spot with
  | panel p =>
      rw [route] at h
      by_cases hin : p.buffer.grid.Holds x y
      · rw [if_pos hin] at h
        obtain rfl := Option.some.inj h
        exact (p.buffer.grid.isSome_cell? _ _).mpr hin.inside
      · rw [if_neg hin] at h
        cases h
  | remapped inner table ih =>
      rw [route_remapped, Option.bind_eq_some_iff] at h
      obtain ⟨position, -, hroute⟩ := h
      exact ih hroute
  | canvas members owners ih =>
      rw [route_canvas, Option.bind_eq_some_iff] at h
      obtain ⟨m, -, hroute⟩ := h
      obtain ⟨below, hbelow, rfl⟩ := Option.map_eq_some_iff.mp hroute
      obtain ⟨p, hp, hroute⟩ := Option.bind_eq_some_iff.mp hbelow
      rw [pixel?_below, hp]
      exact ih p (List.mem_of_getElem? hp) hroute

theorem get?_eq_none_iff (s : Surface τ) (x y : Int32) :
    s.get? x y = none ↔ s.route x y = none := by
  rw [get?_eq]
  cases h : s.route x y with
  | none => simp
  | some spot =>
      have hsome := isSome_pixel?_of_route h
      rw [Option.bind_some]
      constructor
      · intro hnone
        rw [hnone] at hsome
        cases hsome
      · intro hfalse
        cases hfalse

end Surface

def Panel.dot {τ : Type} (p : Panel τ) (x y : Nat) (c : Color) : Panel τ :=
  { p with
    buffer := { p.buffer with
      grid := p.buffer.grid.setCell x y (c.stored p.buffer.transparent)
      width_pos := by rw [Grid.width_setCell]; exact p.buffer.width_pos
      height_pos := by rw [Grid.height_setCell]; exact p.buffer.height_pos } }

/-- Two panels that differ in the colour of one pixel at most. -/
structure Panel.SameBut {τ : Type} (p p' : Panel τ) (x y : Nat) : Prop where
  transport : p'.transport = p.transport
  mode : p'.mode = p.mode
  maxDatagram : p'.maxDatagram = p.maxDatagram
  layer : p'.buffer.layer = p.buffer.layer
  transparent : p'.buffer.transparent = p.buffer.transparent
  width : p'.buffer.width = p.buffer.width
  height : p'.buffer.height = p.buffer.height
  pixels : ∀ i j, (i, j) ≠ (x, y) → p'.buffer.grid.cell? i j = p.buffer.grid.cell? i j

theorem Panel.sameBut_dot {τ : Type} (p : Panel τ) (x y : Nat) (c : Color) :
    p.SameBut (p.dot x y c) x y where
  transport := rfl
  mode := rfl
  maxDatagram := rfl
  layer := rfl
  transparent := rfl
  width := Grid.width_setCell _ _ _ _
  height := Grid.height_setCell _ _ _ _
  pixels := by
    intro i j hne
    rw [dot, Grid.cell?_setCell, if_neg]
    rintro ⟨rfl, rfl, -⟩
    exact hne rfl

namespace Surface

variable {τ : Type}

theorem set_panel_of_holds {p : Panel τ} {x y : Int32} (h : p.buffer.grid.Holds x y) (c : Color) :
    p.set x y c = p.dot x.toInt.toNat y.toInt.toNat c := by
  simp only [Panel.set, FrameBuffer.set, Panel.dot, Grid.set_of_holds h]

theorem set_panel_of_not_holds {p : Panel τ} {x y : Int32} (h : ¬ p.buffer.grid.Holds x y)
    (c : Color) : p.set x y c = p := by
  simp only [Panel.set, FrameBuffer.set, Grid.set_of_not_holds h]

theorem getElem?_setMembers (members : List (Placement (Surface τ))) (x y : Int32) (c : Color)
    (m n : Nat) : (setMembers members x y c m)[n]? = members[n]?.map fun p =>
      if m = n then { p with surface := p.surface.set (x - p.x.toInt32) (y - p.y.toInt32) c }
      else p := by
  rw [setMembers, List.getElem?_modify]
  by_cases hn : m = n
  · simp only [hn, ↓reduceIte]
    cases members[n]? <;> rfl
  · simp only [hn, ↓reduceIte]
    cases members[n]? <;> rfl

theorem panelAt?_set (s : Surface τ) (x y : Int32) (c : Color) (path : List Nat) :
    (s.set x y c).panelAt? path = match s.route x y with
      | some spot => (s.panelAt? path).map fun p =>
          if path = spot.path then p.dot spot.x spot.y c else p
      | none => s.panelAt? path := by
  induction s using tree_induction generalizing x y path with
  | panel p =>
      rw [set, route]
      by_cases h : p.buffer.grid.Holds x y
      · rw [if_pos h, set_panel_of_holds h]
        cases path with
        | nil => rfl
        | cons m path => rfl
      · rw [if_neg h, set_panel_of_not_holds h]
  | remapped inner table ih =>
      rw [set_remapped, route_remapped]
      cases table.lookup x y with
      | none => rfl
      | some position => exact ih (.ofNat position) 0 path
  | canvas members owners ih =>
      rw [set_canvas, route_canvas]
      cases (owners.get? x y).join with
      | none => rfl
      | some m =>
          simp only [Option.map_some, Option.getD_some, Option.bind_some]
          cases path with
          | nil => cases members[m]?.bind _ <;> rfl
          | cons n path =>
              rw [panelAt?_canvas, panelAt?_canvas, getElem?_setMembers]
              cases hn : members[n]? with
              | none => cases members[m]?.bind _ <;> rfl
              | some p =>
                  simp only [Option.map_some, Option.bind_some]
                  by_cases hmn : m = n
                  · subst hmn
                    rw [if_pos rfl, hn, ih p (List.mem_of_getElem? hn), Option.bind_some]
                    cases p.surface.route (x - p.x.toInt32) (y - p.y.toInt32) with
                    | none => rfl
                    | some spot => simp [Spot.below]
                  · rw [if_neg hmn]
                    cases members[m]?.bind _ with
                    | none => rfl
                    | some spot => simp [Spot.below, Ne.symm hmn]

theorem route_set (s : Surface τ) (x y : Int32) (c : Color) (u v : Int32) :
    (s.set x y c).route u v = s.route u v := by
  induction s using tree_induction generalizing x y u v with
  | panel p =>
      have hgrid : (p.set x y c).buffer.grid.Holds u v ↔ p.buffer.grid.Holds u v := by
        simp only [Grid.Holds, Panel.set, FrameBuffer.set, Grid.width_set, Grid.height_set]
      rw [set, route, route]
      simp only [hgrid]
  | remapped inner table ih =>
      rw [set_remapped, route_remapped, route_remapped]
      cases table.lookup x y with
      | none => rfl
      | some position => simp only [Option.map_some, Option.getD_some, ih]
  | canvas members owners ih =>
      rw [set_canvas, route_canvas, route_canvas]
      cases (owners.get? x y).join with
      | none => rfl
      | some m =>
          simp only [Option.map_some, Option.getD_some, getElem?_setMembers]
          cases (owners.get? u v).join with
          | none => rfl
          | some n =>
              simp only [Option.bind_some]
              cases hn : members[n]? with
              | none => rfl
              | some p =>
                  by_cases hmn : m = n
                  · simp only [Option.map_some, Option.bind_some, hmn, ↓reduceIte,
                      ih p (List.mem_of_getElem? hn)]
                  · simp only [Option.map_some, Option.bind_some, hmn, ↓reduceIte]

theorem panelAt?_set_of_none {s : Surface τ} {x y : Int32} (h : s.route x y = none) (c : Color)
    (path : List Nat) : (s.set x y c).panelAt? path = s.panelAt? path := by
  rw [panelAt?_set, h]

/-- A write shows at the pixel it leads to and at no other. -/
theorem pixel?_set {s : Surface τ} {x y : Int32} {spot : Spot} (h : s.route x y = some spot)
    {p : Panel τ} (hp : s.panelAt? spot.path = some p) (c : Color) (other : Spot) :
    (s.set x y c).pixel? other =
      if other = spot then some (c.stored p.buffer.transparent) else s.pixel? other := by
  have hin : (p.buffer.grid.cell? spot.x spot.y).isSome := by
    have hsome := isSome_pixel?_of_route h
    rwa [pixel?, hp] at hsome
  rw [pixel?, panelAt?_set, h, pixel?]
  by_cases hpath : other.path = spot.path
  · have hdot : ∀ i j, (p.dot spot.x spot.y c).buffer.grid.cell? i j =
        if spot.x = i ∧ spot.y = j ∧ i < p.buffer.grid.width.toNat ∧ j < p.buffer.grid.height.toNat
        then some (c.stored p.buffer.transparent) else p.buffer.grid.cell? i j :=
      fun i j => Grid.cell?_setCell _ _ _ _ _ _
    have hplace : (spot.x = other.x ∧ spot.y = other.y ∧
        other.x < p.buffer.grid.width.toNat ∧ other.y < p.buffer.grid.height.toNat) ↔
        other = spot := by
      constructor
      · rintro ⟨hx, hy, -⟩
        exact Spot.ext hpath hx.symm hy.symm
      · rintro rfl
        exact ⟨rfl, rfl, (p.buffer.grid.isSome_cell? _ _).mp hin⟩
    rw [hpath, hp]
    simp only [Option.map_some, Option.bind_some, ↓reduceIte, hdot, hplace]
  · have hne : other ≠ spot := fun he => hpath (congrArg Spot.path he)
    simp only [hpath, hne, ↓reduceIte, Option.map_id']

theorem exists_panelAt?_of_route {s : Surface τ} {x y : Int32} {spot : Spot}
    (h : s.route x y = some spot) : ∃ p, s.panelAt? spot.path = some p := by
  have hsome := isSome_pixel?_of_route h
  rw [pixel?] at hsome
  cases hp : s.panelAt? spot.path with
  | none =>
      rw [hp] at hsome
      cases hsome
  | some p => exact ⟨p, rfl⟩

theorem get?_set {s : Surface τ} {x y : Int32} {spot : Spot} (h : s.route x y = some spot)
    {p : Panel τ} (hp : s.panelAt? spot.path = some p) (c : Color) (x' y' : Int32) :
    (s.set x y c).get? x' y' =
      if s.route x' y' = some spot then some (c.stored p.buffer.transparent)
      else s.get? x' y' := by
  rw [get?_eq, get?_eq, route_set]
  cases s.route x' y' with
  | none => rfl
  | some other =>
      rw [Option.bind_some, Option.bind_some, pixel?_set h hp]
      simp only [Option.some_inj]

end Surface

end LedWall
