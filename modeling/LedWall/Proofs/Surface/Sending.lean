import LedWall.Proofs.Recorded
import LedWall.Proofs.Surface.Route

/-!
# What a composed surface sends

A tree of surfaces sends its panels one after another in order of depth. What becomes of one panel
changes nothing for the others, and the failures that are reported mirror the tree.
-/

namespace LedWall

open Responsive

namespace Panel

variable {τ : Type} [Responsive τ]

def sent (p : Panel τ) : Except SurfaceError Unit × Panel τ := returned (p.send : Recorded τ _)

def calls (p : Panel τ) : List (Call τ) := made (p.send : Recorded τ _)

theorem yields_send_error {p : Panel τ} {e : FrameError} (h : p.datagrams = .error e) :
    Yields (p.send : Recorded τ _) (.error (.transmission (.encode e)), p) [] := by
  rw [send, h]
  exact .pure _

theorem yields_send_ok {p : Panel τ} {datagrams : List (List UInt8)}
    (h : p.datagrams = .ok datagrams) : ∃ t, Yields (p.send : Recorded τ _)
      ((verdict (dialogue p.transport datagrams)).mapError .transmission, { p with transport := t })
      ((upToFailure (dialogue p.transport datagrams)).map Exchange.toCall) := by
  obtain ⟨t, hall⟩ := yields_transmitAll p.transport datagrams
  rw [send, h]
  have hsend := hall.bind (f := fun answer => pure (answer.1.mapError SurfaceError.transmission,
    { p with transport := answer.2 })) (.pure _)
  rw [List.append_nil] at hsend
  exact ⟨t, hsend⟩

theorem yields_send (p : Panel τ) : Yields (p.send : Recorded τ _) p.sent p.calls := by
  apply Records.yields
  cases h : p.datagrams with
  | error e => exact ⟨_, _, yields_send_error h⟩
  | ok datagrams =>
      obtain ⟨t, hsend⟩ := yields_send_ok h
      exact ⟨_, _, hsend⟩

/-- A plain panel hands over its frame. An offset panel hands over its tiles up to the first that
fails, and nothing if it cannot be cut. -/
def Attempted (p : Panel τ) : Prop :=
  match p.mode with
  | .plain =>
      p.calls = [⟨p.transport, p.buffer.encode⟩] ∧
      p.sent.1 = (respond p.transport p.buffer.encode).1.mapError .transmission
  | .offset place =>
      match p.buffer.encodeTiles place p.maxDatagram with
      | .error e => p.calls = [] ∧ p.sent.1 = .error (.transmission (.encode e))
      | .ok tiles =>
          p.calls = (upToFailure (dialogue p.transport tiles)).map Exchange.toCall ∧
          p.sent.1 = (verdict (dialogue p.transport tiles)).mapError .transmission

theorem attempted (p : Panel τ) : p.Attempted := by
  have hok : ∀ datagrams, p.datagrams = .ok datagrams →
      p.calls = (upToFailure (dialogue p.transport datagrams)).map Exchange.toCall ∧
      p.sent.1 = (verdict (dialogue p.transport datagrams)).mapError .transmission := by
    intro datagrams h
    obtain ⟨t, hsend⟩ := yields_send_ok h
    exact ⟨hsend.made_eq, congrArg Prod.fst hsend.returned_eq⟩
  rw [Attempted]
  cases hmode : p.mode with
  | plain =>
      have hplain := hok [p.buffer.encode] (by rw [Panel.datagrams, hmode])
      rwa [dialogue, dialogue, upToFailure_singleton, verdict_singleton] at hplain
  | offset place =>
      have hdatagrams : p.datagrams = p.buffer.encodeTiles place p.maxDatagram := by
        rw [Panel.datagrams, hmode]
      dsimp only
      cases htiles : p.buffer.encodeTiles place p.maxDatagram with
      | error e =>
          have hsend := yields_send_error (hdatagrams.trans htiles)
          exact ⟨hsend.made_eq, congrArg Prod.fst hsend.returned_eq⟩
      | ok tiles => exact hok tiles (hdatagrams.trans htiles)

end Panel

namespace Surface

variable {τ : Type}

/-- A panel of a tree and the path to it. -/
structure Leaf (τ : Type) where
  path : List Nat
  panel : Panel τ

def Leaf.below (m : Nat) (leaf : Leaf τ) : Leaf τ := { leaf with path := m :: leaf.path }

mutual

def leaves : Surface τ → List (Leaf τ)
  | panel p => [⟨[], p⟩]
  | remapped inner _ => inner.leaves
  | canvas members _ => memberLeaves 0 members

def memberLeaves (index : Nat) : List (Placement (Surface τ)) → List (Leaf τ)
  | [] => []
  | ⟨s, _, _⟩ :: members => s.leaves.map (Leaf.below index) ++ memberLeaves (index + 1) members

end

theorem memberLeaves_eq (members : List (Placement (Surface τ))) (index : Nat) :
    memberLeaves index members =
      (members.zipIdx index).flatMap fun q => q.1.surface.leaves.map (Leaf.below q.2) := by
  induction members generalizing index with
  | nil => rw [memberLeaves, List.zipIdx_nil, List.flatMap_nil]
  | cons p members ih => rw [memberLeaves, ih, List.zipIdx_cons, List.flatMap_cons]

theorem leaves_canvas (members : List (Placement (Surface τ))) (owners : Grid (Option Nat)) :
    (canvas members owners).leaves =
      members.zipIdx.flatMap fun q => q.1.surface.leaves.map (Leaf.below q.2) := by
  rw [leaves, memberLeaves_eq]

theorem mem_leaves_iff {s : Surface τ} {leaf : Leaf τ} :
    leaf ∈ s.leaves ↔ s.panelAt? leaf.path = some leaf.panel := by
  obtain ⟨path, q⟩ := leaf
  induction s using tree_induction generalizing path with
  | panel p =>
      rw [leaves, List.mem_singleton]
      cases path with
      | nil => simp [panelAt?, eq_comm]
      | cons m path => simp [panelAt?]
  | remapped inner table ih =>
      rw [leaves, panelAt?]
      exact ih path
  | canvas members owners ih =>
      rw [leaves_canvas, List.mem_flatMap]
      constructor
      · rintro ⟨⟨p, m⟩, hp, hleaf⟩
        obtain ⟨⟨path', q'⟩, hmem, hbelow⟩ := List.mem_map.mp hleaf
        have hm : members[m]? = some p := List.mk_mem_zipIdx_iff_getElem?.mp hp
        obtain ⟨rfl, rfl⟩ := Leaf.mk.inj hbelow
        rw [panelAt?_canvas, hm]
        exact (ih p (List.mem_of_getElem? hm) path').mp hmem
      · intro hpanel
        cases path with
        | nil => cases hpanel
        | cons m path =>
            rw [panelAt?_canvas] at hpanel
            obtain ⟨p, hm, hpath⟩ := Option.bind_eq_some_iff.mp hpanel
            have hmem := (ih p (List.mem_of_getElem? hm) path).mpr hpath
            exact ⟨(p, m), List.mk_mem_zipIdx_iff_getElem?.mpr hm,
              List.mem_map.mpr ⟨_, hmem, rfl⟩⟩

private theorem pairwise_zipIdx {α : Type} (xs : List α) (index : Nat) :
    (xs.zipIdx index).Pairwise fun a b => a.2 < b.2 := by
  have hsorted := List.pairwise_lt_range' (s := index) (n := xs.length)
  rwa [← List.zipIdx_map_snd, List.pairwise_map] at hsorted

theorem leaves_sorted (s : Surface τ) : s.leaves.Pairwise fun a b => a.path < b.path := by
  induction s using tree_induction with
  | panel p => exact List.pairwise_singleton _ _
  | remapped inner table ih => rwa [leaves]
  | canvas members owners ih =>
      rw [leaves_canvas, List.pairwise_flatMap]
      constructor
      · intro q hq
        rw [List.pairwise_map]
        have hmem : q.1 ∈ members := List.mem_of_getElem? (List.mem_zipIdx_iff_getElem?.mp hq)
        exact (ih q.1 hmem).imp fun hlt => List.cons_lt_cons_iff.mpr (.inr ⟨rfl, hlt⟩)
      · refine (pairwise_zipIdx members 0).imp fun hlt x hx y hy => ?_
        obtain ⟨x, -, rfl⟩ := List.mem_map.mp hx
        obtain ⟨y, -, rfl⟩ := List.mem_map.mp hy
        exact List.cons_lt_cons_iff.mpr (.inl hlt)

variable [Responsive τ]

def sent (s : Surface τ) : Except SurfaceError Unit × Surface τ := returned (s.send : Recorded τ _)

def calls (s : Surface τ) : List (Call τ) := made (s.send : Recorded τ _)

def sentMembers (members : List (Placement (Surface τ))) : List (Placement (Surface τ)) :=
  members.map fun p => { p with surface := p.surface.sent.2 }

/-- The failure of member `m`, if it fails. -/
def failure? (p : Placement (Surface τ)) (m : Nat) : Option (Nat × SurfaceError) :=
  match p.surface.sent.1 with
  | .ok () => none
  | .error e => some (m, e)

def failures (index : Nat) (members : List (Placement (Surface τ))) : List (Nat × SurfaceError) :=
  (members.zipIdx index).filterMap fun q => failure? q.1 q.2

theorem failure?_eq_some_iff {p : Placement (Surface τ)} {m : Nat} {x : Nat × SurfaceError} :
    failure? p m = some x ↔ x.1 = m ∧ p.surface.sent.1 = .error x.2 := by
  obtain ⟨m', e'⟩ := x
  rw [failure?]
  cases p.surface.sent.1 with
  | ok _ => simp
  | error e => simp [eq_comm]

theorem mem_failures_iff {members : List (Placement (Surface τ))} {m : Nat} {e : SurfaceError} :
    (m, e) ∈ failures 0 members ↔ ∃ p, members[m]? = some p ∧ p.surface.sent.1 = .error e := by
  rw [failures, List.mem_filterMap]
  constructor
  · rintro ⟨⟨p, m'⟩, hp, hfailure⟩
    obtain ⟨rfl, hsent⟩ := failure?_eq_some_iff.mp hfailure
    exact ⟨p, List.mk_mem_zipIdx_iff_getElem?.mp hp, hsent⟩
  · rintro ⟨p, hm, hsent⟩
    exact ⟨(p, m), List.mk_mem_zipIdx_iff_getElem?.mpr hm, failure?_eq_some_iff.mpr ⟨rfl, hsent⟩⟩

theorem failures_sorted (index : Nat) (members : List (Placement (Surface τ))) :
    (failures index members).Pairwise fun a b => a.1 < b.1 := by
  rw [failures, List.pairwise_filterMap]
  refine (pairwise_zipIdx members index).imp fun hlt a ha b hb => ?_
  rwa [(failure?_eq_some_iff.mp ha).1, (failure?_eq_some_iff.mp hb).1]

def report (members : List (Placement (Surface τ))) : Except SurfaceError Unit :=
  if (failures 0 members).isEmpty then .ok ()
  else .error (.composite members.length (failures 0 members))

section Yields

theorem yields_panel (p : Panel τ) :
    Yields ((panel p).send : Recorded τ _) (p.sent.1, panel p.sent.2) p.calls := by
  rw [send]
  have hpanel := p.yields_send.bind (f := fun r => pure (r.1, panel r.2)) (.pure _)
  rwa [List.append_nil] at hpanel

theorem yields_remapped {inner : Surface τ}
    (h : Yields (inner.send : Recorded τ _) inner.sent inner.calls) (table : CoordinateTable) :
    Yields ((remapped inner table).send : Recorded τ _) (inner.sent.1, remapped inner.sent.2 table)
      inner.calls := by
  rw [send]
  have hinner := h.bind (f := fun r => pure (r.1, remapped r.2 table)) (.pure _)
  rwa [List.append_nil] at hinner

theorem yields_sendMembers {members : List (Placement (Surface τ))}
    (h : ∀ p ∈ members, Yields (p.surface.send : Recorded τ _) p.surface.sent p.surface.calls)
    (index : Nat) :
    Yields (sendMembers index members : Recorded τ _) (failures index members, sentMembers members)
      (members.flatMap fun p => p.surface.calls) := by
  induction members generalizing index with
  | nil => 
      rw [sendMembers]
      exact .pure _
  | cons p members ih =>
      rw [sendMembers, List.flatMap_cons]
      obtain ⟨hp, hmembers⟩ := List.forall_mem_cons.mp h
      rw [← List.append_nil (p.surface.calls ++ _), List.append_assoc]
      refine hp.bind ((ih hmembers (index + 1)).bind ?_)
      have hfailures : failures index (p :: members) = match p.surface.sent.1 with
          | .ok () => failures (index + 1) members
          | .error e => (index, e) :: failures (index + 1) members := by
        rw [failures, List.zipIdx_cons, List.filterMap_cons, failure?]
        cases p.surface.sent.1 <;> rfl
      rw [hfailures]
      exact .pure _

theorem yields_canvas {members : List (Placement (Surface τ))}
    (h : ∀ p ∈ members, Yields (p.surface.send : Recorded τ _) p.surface.sent p.surface.calls)
    (owners : Grid (Option Nat)) :
    Yields ((canvas members owners).send : Recorded τ _)
      (report members, canvas (sentMembers members) owners)
      (members.flatMap fun p => p.surface.calls) := by
  rw [send, ← List.append_nil (List.flatMap _ _)]
  exact (yields_sendMembers h 0).bind (.pure _)

theorem yields_send (s : Surface τ) : Yields (s.send : Recorded τ _) s.sent s.calls := by
  apply Records.yields
  induction s using tree_induction with
  | panel p => exact ⟨_, _, yields_panel p⟩
  | remapped inner table ih => exact ⟨_, _, yields_remapped ih.yields table⟩
  | canvas members owners ih => exact ⟨_, _, yields_canvas (fun p hp => (ih p hp).yields) owners⟩

end Yields

theorem sent_panel (p : Panel τ) : (panel p).sent = (p.sent.1, panel p.sent.2) :=
  (yields_panel p).returned_eq

theorem calls_panel (p : Panel τ) : (panel p).calls = p.calls := (yields_panel p).made_eq

theorem sent_remapped (inner : Surface τ) (table : CoordinateTable) :
    (remapped inner table).sent = (inner.sent.1, remapped inner.sent.2 table) :=
  (yields_remapped inner.yields_send table).returned_eq

theorem calls_remapped (inner : Surface τ) (table : CoordinateTable) :
    (remapped inner table).calls = inner.calls :=
  (yields_remapped inner.yields_send table).made_eq

theorem sent_canvas (members : List (Placement (Surface τ))) (owners : Grid (Option Nat)) :
    (canvas members owners).sent = (report members, canvas (sentMembers members) owners) :=
  (yields_canvas (fun p _ => p.surface.yields_send) owners).returned_eq

theorem calls_canvas (members : List (Placement (Surface τ))) (owners : Grid (Option Nat)) :
    (canvas members owners).calls = members.flatMap fun p => p.surface.calls :=
  (yields_canvas (fun p _ => p.surface.yields_send) owners).made_eq

def Leaf.sent (leaf : Leaf τ) : Leaf τ := { leaf with panel := leaf.panel.sent.2 }

/-- The calls of a tree are those that its panels make when each is sent alone. -/
theorem calls_eq (s : Surface τ) : s.calls = s.leaves.flatMap fun leaf => leaf.panel.calls := by
  induction s using tree_induction with
  | panel p => rw [calls_panel, leaves, List.flatMap_singleton]
  | remapped inner table ih => rw [calls_remapped, ih, leaves]
  | canvas members owners ih =>
      have hbelow : ∀ q ∈ members.zipIdx, (q.1.surface.leaves.map (Leaf.below q.2)).flatMap
          (fun leaf => leaf.panel.calls) = q.1.surface.calls := by
        intro q hq
        rw [ih q.1 (List.mem_of_getElem? (List.mem_zipIdx_iff_getElem?.mp hq)), List.flatMap_map]
        rfl
      rw [calls_canvas, leaves_canvas, List.flatMap_assoc, List.flatMap_congr hbelow,
        ← List.flatMap_map Prod.fst fun p : Placement (Surface τ) => p.surface.calls,
        List.zipIdx_map_fst]

theorem leaves_sent (s : Surface τ) : s.sent.2.leaves = s.leaves.map Leaf.sent := by
  induction s using tree_induction with
  | panel p =>
      rw [sent_panel]
      rfl
  | remapped inner table ih =>
      rw [sent_remapped, leaves, leaves]
      exact ih
  | canvas members owners ih =>
      rw [sent_canvas, leaves_canvas, leaves_canvas, List.map_flatMap, sentMembers,
        List.zipIdx_map, List.flatMap_map]
      refine List.flatMap_congr fun q hq => ?_
      have hsent := ih q.1 (List.mem_of_getElem? (List.mem_zipIdx_iff_getElem?.mp hq))
      rw [Prod.map_fst, hsent, List.map_map, List.map_map]
      rfl

theorem report_eq_ok_iff {members : List (Placement (Surface τ))} :
    report members = .ok () ↔ ∀ p ∈ members, p.surface.sent.1 = .ok () := by
  have hnone : failures 0 members = [] ↔ ∀ p ∈ members, p.surface.sent.1 = .ok () := by
    rw [List.eq_nil_iff_forall_not_mem]
    constructor
    · intro h p hp
      obtain ⟨m, hm⟩ := List.mem_iff_getElem?.mp hp
      cases hsent : p.surface.sent.1 with
      | ok _ => rfl
      | error e => exact absurd (mem_failures_iff.mpr ⟨p, hm, hsent⟩) (h (m, e))
    · rintro h ⟨m, e⟩ hmem
      obtain ⟨p, hm, hsent⟩ := mem_failures_iff.mp hmem
      rw [h p (List.mem_of_getElem? hm)] at hsent
      cases hsent
  rw [report, ← hnone, ← List.isEmpty_iff]
  cases (failures 0 members).isEmpty <;> simp

theorem sent_eq_ok_iff (s : Surface τ) :
    s.sent.1 = .ok () ↔ ∀ leaf ∈ s.leaves, leaf.panel.sent.1 = .ok () := by
  induction s using tree_induction with
  | panel p => simp [sent_panel, leaves]
  | remapped inner table ih => rw [sent_remapped, ih, leaves]
  | canvas members owners ih =>
      rw [sent_canvas, report_eq_ok_iff, leaves_canvas]
      constructor
      · intro h leaf hleaf
        obtain ⟨q, hq, hmap⟩ := List.mem_flatMap.mp hleaf
        obtain ⟨leaf, hmem, rfl⟩ := List.mem_map.mp hmap
        have hp := List.mem_of_getElem? (List.mem_zipIdx_iff_getElem?.mp hq)
        exact (ih q.1 hp).mp (h q.1 hp) leaf hmem
      · intro h p hp
        obtain ⟨m, hm⟩ := List.mem_iff_getElem?.mp hp
        refine (ih p hp).mpr fun leaf hleaf => ?_
        exact h (leaf.below m) (List.mem_flatMap.mpr ⟨(p, m),
          List.mk_mem_zipIdx_iff_getElem?.mpr hm, List.mem_map.mpr ⟨leaf, hleaf, rfl⟩⟩)

/-- A failure that mirrors the tree: at every canvas it names the members with a leaf that fails, in
ascending order, each with a failure that mirrors the member. -/
inductive Mirrored : Surface τ → SurfaceError → Prop where
  | panel {p : Panel τ} {e : SurfaceError} (h : p.sent.1 = .error e) : Mirrored (.panel p) e
  | remapped {inner : Surface τ} {e : SurfaceError} (h : Mirrored inner e)
      (table : CoordinateTable) : Mirrored (.remapped inner table) e
  | canvas {members : List (Placement (Surface τ))} {failures : List (Nat × SurfaceError)}
      (hsorted : failures.Pairwise fun a b => a.1 < b.1)
      (hnamed : ∀ m, (∃ e, (m, e) ∈ failures) ↔ ∃ p, members[m]? = some p ∧
        ∃ leaf ∈ p.surface.leaves, leaf.panel.sent.1 ≠ .ok ())
      (h : ∀ m e p, (m, e) ∈ failures → members[m]? = some p → Mirrored p.surface e)
      (owners : Grid (Option Nat)) :
      Mirrored (.canvas members owners) (.composite members.length failures)

theorem fails_iff (s : Surface τ) :
    (∃ e, s.sent.1 = .error e) ↔ ∃ leaf ∈ s.leaves, leaf.panel.sent.1 ≠ .ok () := by
  have hok := not_congr s.sent_eq_ok_iff
  push Not at hok
  rw [← hok]
  cases s.sent.1 <;> simp

theorem mirrored_of_sent {s : Surface τ} {e : SurfaceError} (h : s.sent.1 = .error e) :
    s.Mirrored e := by
  induction s using tree_induction generalizing e with
  | panel p =>
      rw [sent_panel] at h
      exact .panel h
  | remapped inner table ih =>
      rw [sent_remapped] at h
      exact (ih h).remapped table
  | canvas members owners ih =>
      rw [sent_canvas, report] at h
      by_cases hnone : (failures 0 members).isEmpty
      · rw [if_pos hnone] at h
        cases h
      · rw [if_neg hnone] at h
        obtain rfl := Except.error.inj h
        refine .canvas (failures_sorted 0 members) (fun m => ?_) (fun m e p hmem hm => ?_) owners
        · simp only [mem_failures_iff, ← fails_iff]
          exact ⟨fun ⟨e, p, hm, he⟩ => ⟨p, hm, e, he⟩, fun ⟨p, hm, e, he⟩ => ⟨e, p, hm, he⟩⟩
        · obtain ⟨p', hm', hsent⟩ := mem_failures_iff.mp hmem
          obtain rfl := Option.some.inj (hm.symm.trans hm')
          exact ih p (List.mem_of_getElem? hm) hsent

/-- Sending attempts every leaf of a tree once, in order of depth, and each as if it were alone. The
result is good exactly if it is for every leaf, and otherwise mirrors the tree. -/
theorem send_attempts_all (s : Surface τ) :
    s.leaves.Pairwise (fun a b => a.path < b.path) ∧
    (∀ path p, ⟨path, p⟩ ∈ s.leaves ↔ s.panelAt? path = some p) ∧
    s.calls = s.leaves.flatMap (fun leaf => leaf.panel.calls) ∧
    s.sent.2.leaves = s.leaves.map Leaf.sent ∧
    (∀ leaf ∈ s.leaves, leaf.panel.Attempted) ∧
    (s.sent.1 = .ok () ↔ ∀ leaf ∈ s.leaves, leaf.panel.sent.1 = .ok ()) ∧
    ∀ e, s.sent.1 = .error e → s.Mirrored e :=
  ⟨s.leaves_sorted, fun _ _ => mem_leaves_iff, s.calls_eq, s.leaves_sent,
    fun leaf _ => leaf.panel.attempted, s.sent_eq_ok_iff, fun _ => mirrored_of_sent⟩

end Surface

end LedWall
