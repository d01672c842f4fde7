import LedWall.Proofs.Canvas.Ownership
import LedWall.Proofs.Surface.Route
import LedWall.Surface.Strip
import Mathlib

/-!
# Trees that can come about

Trees grow from panels by wiring chains and by placing surfaces on canvases, and parts of them are
exchanged. Drawing, clearing and sending are such exchanges, so they lead from one of these trees to
another.
-/

namespace LedWall

def Canvas.Edit.surface {τ : Type} : Canvas.Edit τ → Surface τ
  | add s _ _ => s
  | put _ s => s

namespace Surface

variable {τ : Type}

/-- The trees that can be built. A chain is wired through a table once its row is long enough, and
the row may be exchanged afterwards; a canvas is known by its history. -/
inductive Reachable : Surface τ → Prop where
  | panel (p : Panel τ) : Reachable (.panel p)
  | wire {width height : UInt32} {lengths : List Nat} {runs : List Run} {table : CoordinateTable}
      {inner : Surface τ} {strip : Strip τ}
      (ht : CoordinateTable.build width height lengths runs = .ok table)
      (hs : Strip.make inner table = .ok strip) (h : Reachable inner) :
      Reachable strip.toSurface
  | rewire {inner inner' : Surface τ} {table : CoordinateTable}
      (h : Reachable (.remapped inner table)) (h' : Reachable inner') :
      Reachable (.remapped inner' table)
  | canvas {edits : List (Canvas.Edit τ)} (h : ∀ e ∈ edits, Reachable e.surface) :
      Reachable (Canvas.build edits).toSurface

theorem toSurface_of_make {inner : Surface τ} {table : CoordinateTable} {strip : Strip τ}
    (h : Strip.make inner table = .ok strip) : strip.toSurface = .remapped inner table := by
  by_cases hlt : inner.width.toNat < table.segments.total
  · rw [Strip.make, if_pos hlt] at h
    cases h
  · rw [Strip.make, if_neg hlt] at h
    cases h
    rfl

theorem Reachable.inner {inner : Surface τ} {table : CoordinateTable}
    (h : Reachable (remapped inner table)) : Reachable inner := by
  generalize hs : Surface.remapped inner table = s at h
  cases h with
  | panel p => cases hs
  | wire _ hmake h =>
      rw [toSurface_of_make hmake] at hs
      cases hs
      exact h
  | rewire _ h' =>
      cases hs
      exact h'
  | canvas _ => cases hs

theorem Reachable.history {members : List (Placement (Surface τ))} {owners : Grid (Option Nat)}
    (h : Reachable (.canvas members owners)) : ∃ edits : List (Canvas.Edit τ),
      (∀ e ∈ edits, Reachable e.surface) ∧ Canvas.build edits = ⟨members, owners⟩ := by
  generalize hs : Surface.canvas members owners = s at h
  cases h with
  | panel p => cases hs
  | wire _ hmake _ =>
      rw [toSurface_of_make hmake] at hs
      cases hs
  | rewire _ _ => cases hs
  | @canvas edits h =>
      obtain ⟨hmembers, howners⟩ := Surface.canvas.inj hs
      exact ⟨edits, h, by rw [hmembers, howners]⟩

theorem exists_edit_of_mem {edits : List (Canvas.Edit τ)} {p : Placement (Surface τ)}
    (hp : p ∈ (Canvas.build edits).members) : ∃ e ∈ edits, e.surface = p.surface := by
  induction edits using List.reverseRecOn generalizing p with
  | nil => cases hp
  | append_singleton edits e ih =>
      have hold : ∀ q ∈ (Canvas.build edits).members, q.surface = p.surface →
          ∃ e' ∈ edits ++ [e], e'.surface = p.surface := by
        intro q hq hqp
        obtain ⟨e', he', hs⟩ := ih hq
        exact ⟨e', List.mem_append_left _ he', hs.trans hqp⟩
      have hnew : e ∈ edits ++ [e] := List.mem_append_right _ (List.mem_singleton_self e)
      rw [Canvas.build_append] at hp
      cases e with
      | add s x y =>
          rcases List.mem_append.mp hp with hp | hp
          · exact hold p hp rfl
          · rw [List.mem_singleton.mp hp]
            exact ⟨_, hnew, rfl⟩
      | put m s =>
          obtain ⟨i, hi⟩ := List.mem_iff_getElem?.mp hp
          rw [Canvas.Edit.apply, Canvas.modifyMember, List.getElem?_modify] at hi
          obtain ⟨q, hq, rfl⟩ := Option.map_eq_some_iff.mp hi
          by_cases hm : m = i
          · exact ⟨_, hnew, by simp [hm, Canvas.Edit.surface]⟩
          · exact hold q (List.mem_of_getElem? hq) (by simp [hm])

theorem Reachable.member {members : List (Placement (Surface τ))} {owners : Grid (Option Nat)}
    (h : Reachable (.canvas members owners)) {p : Placement (Surface τ)} (hp : p ∈ members) :
    Reachable p.surface := by
  obtain ⟨edits, hedits, hbuild⟩ := h.history
  obtain ⟨e, he, hs⟩ := exists_edit_of_mem (show p ∈ (Canvas.build edits).members by rwa [hbuild])
  exact hs ▸ hedits e he

theorem Reachable.put {members : List (Placement (Surface τ))} {owners : Grid (Option Nat)}
    (h : Reachable (.canvas members owners)) (m : Nat) {s : Surface τ} (hs : Reachable s) :
    Reachable (.canvas (members.modify m fun p => { p with surface := s }) owners) := by
  obtain ⟨edits, hedits, hbuild⟩ := h.history
  have hput : ∀ e ∈ edits ++ [.put m s], Reachable e.surface := by
    intro e he
    rcases List.mem_append.mp he with he | he
    · exact hedits e he
    · rw [List.mem_singleton.mp he]
      exact hs
  have hcanvas := Reachable.canvas hput
  rwa [Canvas.build_append, hbuild] at hcanvas

private theorem modify_middle {α : Type} (front : List α) (a : α) (back : List α) (f : α → α) :
    (front ++ a :: back).modify front.length f = front ++ f a :: back := by
  rw [List.modify_eq_take_cons_drop (by simp)]
  simp

private theorem Reachable.exchange_back {owners : Grid (Option Nat)}
    {front back back' : List (Placement (Surface τ))}
    (h : Reachable (.canvas (front ++ back) owners))
    (hcorners : back'.map (fun p => (p.x, p.y)) = back.map fun p => (p.x, p.y))
    (hback : ∀ p ∈ back', Reachable p.surface) :
    Reachable (.canvas (front ++ back') owners) := by
  -- The front has been exchanged already; one edit moves the first member of the back over to it.
  induction back' generalizing front back with
  | nil =>
      obtain rfl : back = [] := List.map_eq_nil_iff.mp hcorners.symm
      exact h
  | cons q back' ih =>
      cases back with
      | nil => cases hcorners
      | cons p back =>
          simp only [List.map_cons, List.cons.injEq, Prod.mk.injEq] at hcorners
          obtain ⟨⟨hx, hy⟩, hrest⟩ := hcorners
          have hput := h.put front.length (hback q List.mem_cons_self)
          have hq : ({ p with surface := q.surface } : Placement (Surface τ)) = q := by
            rw [← hx, ← hy]
          rw [modify_middle, hq, List.append_cons] at hput
          have hall := ih hput hrest fun r hr => hback r (List.mem_cons_of_mem q hr)
          rwa [← List.append_cons] at hall

theorem Reachable.exchange {owners : Grid (Option Nat)}
    {members members' : List (Placement (Surface τ))} (h : Reachable (.canvas members owners))
    (hcorners : members'.map (fun p => (p.x, p.y)) = members.map fun p => (p.x, p.y))
    (hmembers : ∀ p ∈ members', Reachable p.surface) : Reachable (.canvas members' owners) := by
  have hback : Reachable (.canvas ([] ++ members) owners) := h
  exact hback.exchange_back hcorners hmembers

theorem corners_setMembers (members : List (Placement (Surface τ))) (x y : Int32) (c : Color)
    (m : Nat) : (setMembers members x y c m).map (fun p => (p.x, p.y)) =
      members.map fun p => (p.x, p.y) := by
  apply List.ext_getElem?
  intro i
  rw [List.getElem?_map, List.getElem?_map, getElem?_setMembers]
  cases members[i]? with
  | none => rfl
  | some p => by_cases hi : m = i <;> simp [hi]

theorem Reachable.set {s : Surface τ} (h : Reachable s) (x y : Int32) (c : Color) :
    Reachable (s.set x y c) := by
  induction s using tree_induction generalizing x y with
  | panel p => exact .panel _
  | remapped inner table ih =>
      rw [set_remapped]
      cases table.lookup x y with
      | none => exact h
      | some position => exact h.rewire (ih h.inner (.ofNat position) 0)
  | canvas members owners ih =>
      rw [set_canvas]
      cases (owners.get? x y).join with
      | none => exact h
      | some m =>
          apply h.exchange (corners_setMembers members x y c m)
          intro q hq
          obtain ⟨i, hi⟩ := List.mem_iff_getElem?.mp hq
          rw [getElem?_setMembers] at hi
          obtain ⟨p, hp, rfl⟩ := Option.map_eq_some_iff.mp hi
          have hmem := List.mem_of_getElem? hp
          by_cases hm : m = i
          · rw [if_pos hm]
            exact ih p hmem (h.member hmem) _ _
          · rw [if_neg hm]
            exact h.member hmem

theorem clearMembers_eq (members : List (Placement (Surface τ))) :
    clearMembers members = members.map fun p => { p with surface := p.surface.clear } := by
  induction members with
  | nil => rw [clearMembers, List.map_nil]
  | cons p members ih => rw [clearMembers, ih, List.map_cons]

theorem Reachable.clear {s : Surface τ} (h : Reachable s) : Reachable s.clear := by
  induction s using tree_induction with
  | panel p =>
      rw [Surface.clear]
      exact .panel _
  | remapped inner table ih =>
      rw [Surface.clear]
      exact h.rewire (ih h.inner)
  | canvas members owners ih =>
      rw [Surface.clear, clearMembers_eq]
      apply h.exchange
      · rw [List.map_map]
        rfl
      · intro q hq
        obtain ⟨p, hp, rfl⟩ := List.mem_map.mp hq
        exact ih p hp (h.member hp)

theorem Reachable.fill {c : Canvas τ} (h : Reachable c.toSurface) (color : Color) :
    Reachable (c.fill color).toSurface := by
  rw [Canvas.fill]
  refine List.foldlRecOn (motive := fun c : Canvas τ => Reachable c.toSurface) _ _ h ?_
  intro c hc y _
  refine List.foldlRecOn (motive := fun c : Canvas τ => Reachable c.toSurface) _ _ hc ?_
  intro c hc x _
  rw [Canvas.toSurface_set]
  exact hc.set (.ofNat x) (.ofNat y) color

theorem Reachable.fillSegment {strip strip' : Strip τ} {id : Nat} {c : Color}
    (h : Reachable strip.toSurface) (hfill : strip.fillSegment id c = .ok strip') :
    Reachable strip'.toSurface := by
  rw [Strip.fillSegment] at hfill
  cases hs : strip.table.segments.segment? id with
  | none =>
      rw [hs] at hfill
      cases hfill
  | some segment =>
      rw [hs] at hfill
      cases hfill
      refine h.rewire (List.foldlRecOn _ _ h.inner fun inner hinner position _ => ?_)
      exact hinner.set (.ofNat position) 0 c

variable {m : Type → Type} [Monad m] [LawfulMonad m] [Transport m τ]

private theorem satisfiesM_sendMembers (members : List (Placement (Surface τ)))
    (h : ∀ p ∈ members, SatisfiesM (fun r => Reachable r.2) (p.surface.send : m _)) (index : Nat) :
    SatisfiesM (fun r => r.2.map (fun p => (p.x, p.y)) = members.map (fun p => (p.x, p.y)) ∧
      ∀ p ∈ r.2, Reachable p.surface) (sendMembers index members : m _) := by
  induction members generalizing index with
  | nil =>
      rw [sendMembers]
      exact .pure ⟨rfl, List.forall_mem_nil _⟩
  | cons p members ih =>
      rw [sendMembers]
      refine (h p List.mem_cons_self).bind fun sent hsent => ?_
      refine (ih (fun q hq => h q (List.mem_cons_of_mem p hq)) (index + 1)).bind fun rest hrest => ?_
      refine .pure ⟨congrArg (List.cons (p.x, p.y)) hrest.1, ?_⟩
      exact List.forall_mem_cons.mpr ⟨hsent, hrest.2⟩

/-- Whatever the transports do, sending leads to a tree that can come about. -/
theorem Reachable.send {s : Surface τ} (h : Reachable s) :
    SatisfiesM (fun r => Reachable r.2) (s.send : m (Except SurfaceError Unit × Surface τ)) := by
  induction s using tree_induction with
  | panel p =>
      rw [Surface.send]
      exact SatisfiesM.trivial.bind fun sent _ => .pure (.panel sent.2)
  | remapped inner table ih =>
      rw [Surface.send]
      exact (ih h.inner).bind fun sent hsent => .pure (h.rewire hsent)
  | canvas members owners ih =>
      rw [Surface.send]
      have hmembers := satisfiesM_sendMembers members (fun p hp => ih p hp (h.member hp)) 0
      exact hmembers.bind fun sent hsent => .pure (h.exchange hsent.1 hsent.2)

end Surface

end LedWall
