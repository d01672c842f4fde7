import LedWall.Proofs.Surface.Way

/-!
# One write after another

Drawings write places one after another. Where several of them lead to one pixel, the pixel keeps
what the last of them has written, as its panel stores it; a pixel that none of them leads to keeps
what it had. Nothing else of a tree changes, and a write that does not show changes nothing at all.
-/

namespace LedWall

structure Panel.Alike {τ : Type} (p p' : Panel τ) : Prop where
  transport : p'.transport = p.transport
  mode : p'.mode = p.mode
  maxDatagram : p'.maxDatagram = p.maxDatagram
  layer : p'.buffer.layer = p.buffer.layer
  transparent : p'.buffer.transparent = p.buffer.transparent
  width : p'.buffer.width = p.buffer.width
  height : p'.buffer.height = p.buffer.height

namespace Panel.Alike

variable {τ : Type} {p p' p'' : Panel τ}

theorem refl (p : Panel τ) : p.Alike p := ⟨rfl, rfl, rfl, rfl, rfl, rfl, rfl⟩

theorem trans (h : p.Alike p') (h' : p'.Alike p'') : p.Alike p'' where
  transport := h'.transport.trans h.transport
  mode := h'.mode.trans h.mode
  maxDatagram := h'.maxDatagram.trans h.maxDatagram
  layer := h'.layer.trans h.layer
  transparent := h'.transparent.trans h.transparent
  width := h'.width.trans h.width
  height := h'.height.trans h.height

theorem dot (p : Panel τ) (x y : Nat) (c : Color) : p.Alike (p.dot x y c) :=
  have h := p.sameBut_dot x y c
  ⟨h.transport, h.mode, h.maxDatagram, h.layer, h.transparent, h.width, h.height⟩

end Panel.Alike

namespace Surface

variable {τ : Type}

def Alike (s s' : Surface τ) : Prop :=
  ∀ path, Option.Rel Panel.Alike (s.panelAt? path) (s'.panelAt? path)

theorem Alike.refl (s : Surface τ) : s.Alike s := by
  intro path
  cases s.panelAt? path with
  | none => exact .none
  | some p => exact .some (.refl p)

theorem Alike.trans {s s' s'' : Surface τ} (h : s.Alike s') (h' : s'.Alike s'') : s.Alike s'' := by
  intro path
  have hfirst := h path
  have hsecond := h' path
  generalize s.panelAt? path = p, s'.panelAt? path = p', s''.panelAt? path = p''
    at hfirst hsecond ⊢
  cases hfirst with
  | none => exact hsecond
  | some hlike =>
      cases hsecond with
      | some hlike' => exact .some (hlike.trans hlike')

theorem alike_set (s : Surface τ) (x y : Int32) (c : Color) : s.Alike (s.set x y c) := by
  intro path
  rw [panelAt?_set]
  cases s.route x y with
  | none => exact Alike.refl s path
  | some spot =>
      cases s.panelAt? path with
      | none => exact .none
      | some p =>
          refine .some ?_
          split
          · exact .dot p _ _ _
          · exact .refl p

/-- What a pixel holds after a colour was written to it. -/
def stored? (s : Surface τ) (spot : Spot) (c : Color) : Option Color :=
  (s.panelAt? spot.path).map fun p => c.stored p.buffer.transparent

theorem Alike.stored?_eq {s s' : Surface τ} (h : s.Alike s') (spot : Spot) (c : Color) :
    s'.stored? spot c = s.stored? spot c := by
  have hpanel := h spot.path
  rw [stored?, stored?]
  generalize s.panelAt? spot.path = p, s'.panelAt? spot.path = p' at hpanel ⊢
  cases hpanel with
  | none => rfl
  | some hlike => exact congrArg (some ∘ c.stored) hlike.transparent

theorem exists_stored?_of_route {s : Surface τ} {x y : Int32} {spot : Spot}
    (h : s.route x y = some spot) (c : Color) : ∃ held, s.stored? spot c = some held := by
  obtain ⟨p, hp⟩ := exists_panelAt?_of_route h
  exact ⟨c.stored p.buffer.transparent, by rw [stored?, hp, Option.map_some]⟩

theorem pixel?_write (s : Surface τ) (x y : Int32) (c : Color) (spot : Spot) :
    (s.set x y c).pixel? spot =
      if s.route x y = some spot then s.stored? spot c else s.pixel? spot := by
  cases hroute : s.route x y with
  | none => rw [if_neg (by simp), pixel?, panelAt?_set_of_none hroute, pixel?]
  | some written =>
      obtain ⟨p, hp⟩ := exists_panelAt?_of_route hroute
      rw [pixel?_set hroute hp]
      by_cases hspot : spot = written
      · subst hspot
        rw [if_pos rfl, if_pos rfl, stored?, hp, Option.map_some]
      · rw [if_neg hspot, if_neg fun h => hspot (Option.some.inj h).symm]

theorem get?_write (s : Surface τ) (x y : Int32) (c : Color) :
    (s.set x y c).get? x y = (s.route x y).bind fun spot => s.stored? spot c := by
  rw [get?_eq, route_set]
  cases hroute : s.route x y with
  | none => rfl
  | some spot => rw [Option.bind_some, Option.bind_some, pixel?_write, if_pos hroute]

theorem set_eq_self {s : Surface τ} {x y : Int32} {c : Color}
    (h : (s.set x y c).get? x y = s.get? x y) : s.set x y c = s := by
  induction s using tree_induction generalizing x y with
  | panel p =>
      rw [set]
      by_cases hin : p.buffer.grid.Holds x y
      · have hcell : p.buffer.grid.cell? x.toInt.toNat y.toInt.toNat =
            some (c.stored p.buffer.transparent) := by
          rw [← Grid.get?_of_holds hin]
          refine h.symm.trans ?_
          rw [get?_write, route, if_pos hin]
          rfl
        rw [set_panel_of_holds hin]
        simp only [Panel.dot, Grid.setCell_eq_self hcell]
      · rw [set_panel_of_not_holds hin]
  | remapped inner table ih =>
      rw [set_remapped] at h ⊢
      cases hlookup : table.lookup x y with
      | none => rfl
      | some position =>
          rw [get?_remapped, get?_remapped, hlookup] at h
          exact congrArg (remapped · table) (ih h)
  | canvas members owners ih =>
      rw [set_canvas] at h ⊢
      cases hm : (owners.get? x y).join with
      | none => rfl
      | some m =>
          refine congrArg (canvas · owners) (List.ext_getElem? fun n => ?_)
          rw [Option.map_some, Option.getD_some, getElem?_setMembers]
          cases hn : members[n]? with
          | none => rfl
          | some p =>
              by_cases hmn : m = n
              · subst hmn
                simp only [get?_canvas, hm, Option.map_some, Option.getD_some, Option.bind_some,
                  getElem?_setMembers, hn, ↓reduceIte] at h
                rw [Option.map_some, if_pos rfl, ih p (List.mem_of_getElem? hn) h]
              · rw [Option.map_some, if_neg hmn]

theorem holds_of_route {s : Surface τ} {x y : Int32} {spot : Spot} (h : s.route x y = some spot) :
    Visit.Inside ⟨s, x, y⟩ := by
  have hget : s.get? x y ≠ none := by
    rw [ne_eq, get?_eq_none_iff, h]
    exact Option.some_ne_none spot
  apply inside_of_get? hget
  rw [way_eq]
  exact List.mem_cons_self

def paintAll (s : Surface τ) (colour : Nat × Nat → Color) (ps : List (Nat × Nat)) : Surface τ :=
  ps.foldl (fun s p => s.set (.ofNat p.1) (.ofNat p.2) (colour p)) s

/-- The last of some places that leads to a pixel. -/
def lastTo? (s : Surface τ) (spot : Spot) (ps : List (Nat × Nat)) : Option (Nat × Nat) :=
  (ps.filter fun p => s.route (.ofNat p.1) (.ofNat p.2) = some spot).getLast?

section PaintAll

variable {colour : Nat × Nat → Color}

theorem paintAll_append_singleton (s : Surface τ) (ps : List (Nat × Nat)) (p : Nat × Nat) :
    s.paintAll colour (ps ++ [p]) =
      (s.paintAll colour ps).set (.ofNat p.1) (.ofNat p.2) (colour p) := by
  rw [paintAll, List.foldl_append]
  rfl

theorem lastTo?_append_singleton (s : Surface τ) (spot : Spot) (ps : List (Nat × Nat))
    (p : Nat × Nat) : s.lastTo? spot (ps ++ [p]) =
      if s.route (.ofNat p.1) (.ofNat p.2) = some spot then some p else s.lastTo? spot ps := by
  rw [lastTo?, List.filter_append]
  split
  · simp [*]
  · simp [*, lastTo?]

theorem route_paintAll (s : Surface τ) (ps : List (Nat × Nat)) (x y : Int32) :
    (s.paintAll colour ps).route x y = s.route x y := by
  induction ps using List.reverseRecOn with
  | nil => rfl
  | append_singleton ps p ih => rw [paintAll_append_singleton, route_set, ih]

theorem alike_paintAll (s : Surface τ) (ps : List (Nat × Nat)) :
    s.Alike (s.paintAll colour ps) := by
  induction ps using List.reverseRecOn with
  | nil => exact .refl s
  | append_singleton ps p ih =>
      rw [paintAll_append_singleton]
      exact ih.trans (alike_set _ _ _ _)

/-- A pixel has the colour of the last place that leads to it, and else what it had. -/
theorem pixel?_paintAll (s : Surface τ) (ps : List (Nat × Nat)) (spot : Spot) :
    (s.paintAll colour ps).pixel? spot =
      ((s.lastTo? spot ps).bind fun p => s.stored? spot (colour p)).or (s.pixel? spot) := by
  induction ps using List.reverseRecOn with
  | nil => rfl
  | append_singleton ps p ih =>
      rw [paintAll_append_singleton, pixel?_write, route_paintAll, ih, lastTo?_append_singleton,
        (alike_paintAll s ps).stored?_eq]
      split
      next hroute =>
        obtain ⟨held, hheld⟩ := exists_stored?_of_route hroute (colour p)
        rw [Option.bind_some, hheld, Option.some_or]
      next => rfl

theorem route_of_lastTo? {s : Surface τ} {spot : Spot} {ps : List (Nat × Nat)} {p : Nat × Nat}
    (h : s.lastTo? spot ps = some p) : s.route (.ofNat p.1) (.ofNat p.2) = some spot := by
  simpa using (List.mem_filter.mp (List.mem_of_getLast? h)).2

/-- Some of the places leads to the pixel. -/
def Touches (s : Surface τ) (ps : List (Nat × Nat)) (spot : Spot) : Prop :=
  ∃ p ∈ ps, s.route (.ofNat p.1) (.ofNat p.2) = some spot

theorem lastTo?_eq_none_iff {s : Surface τ} {spot : Spot} {ps : List (Nat × Nat)} :
    s.lastTo? spot ps = none ↔ ¬ s.Touches ps spot := by
  rw [lastTo?, List.getLast?_eq_none_iff, List.filter_eq_nil_iff, Touches]
  simp

theorem pixel?_paintAll_of_touches {s : Surface τ} {ps : List (Nat × Nat)} {spot : Spot}
    (h : s.Touches ps spot) (c : Color) :
    (s.paintAll (fun _ => c) ps).pixel? spot = s.stored? spot c := by
  obtain ⟨p, hp⟩ := Option.ne_none_iff_exists'.mp (mt lastTo?_eq_none_iff.mp (not_not.mpr h))
  obtain ⟨q, -, hroute⟩ := h
  obtain ⟨held, hheld⟩ := exists_stored?_of_route hroute c
  rw [pixel?_paintAll, hp, Option.bind_some, hheld, Option.some_or]

theorem pixel?_paintAll_of_not_touches {s : Surface τ} {ps : List (Nat × Nat)} {spot : Spot}
    (h : ¬ s.Touches ps spot) : (s.paintAll colour ps).pixel? spot = s.pixel? spot := by
  rw [pixel?_paintAll, lastTo?_eq_none_iff.mpr h, Option.bind_none, Option.none_or]

theorem paintAll_paintAll (s : Surface τ) (c : Color) (ps : List (Nat × Nat)) :
    (s.paintAll (fun _ => c) ps).paintAll (fun _ => c) ps = s.paintAll (fun _ => c) ps := by
  have hshown : ∀ p ∈ ps, ((s.paintAll (fun _ => c) ps).set (.ofNat p.1) (.ofNat p.2) c) =
      s.paintAll (fun _ => c) ps := by
    intro p hp
    apply set_eq_self
    rw [get?_write, get?_eq, route_paintAll]
    cases hroute : s.route (.ofNat p.1) (.ofNat p.2) with
    | none => rfl
    | some spot =>
        rw [Option.bind_some, Option.bind_some, (alike_paintAll s ps).stored?_eq,
          pixel?_paintAll_of_touches ⟨p, hp, hroute⟩]
  exact List.foldlRecOn (motive := fun t => t = s.paintAll (fun _ => c) ps) ps _ rfl
    fun t ht p hp => ht ▸ hshown p hp

end PaintAll

end Surface

end LedWall
