import LedWall.Proofs.Surface.Sending

/-!
# Sending again

Sending a tree changes nothing of it but its transports, and what a tree has to send depends on all
the rest alone. So after a failure everything is sent again, whatever has gone out before.
-/

namespace LedWall

open Responsive

instance : Responsive Sink where
  respond sink _ := (.ok (), sink)

section CarriedBy

variable {τ τ' τ'' : Type}

def Panel.carriedBy (f : τ → τ') (p : Panel τ) : Panel τ' :=
  ⟨p.buffer, f p.transport, p.mode, p.maxDatagram⟩

namespace Surface

mutual

def carriedBy (f : τ → τ') : Surface τ → Surface τ'
  | panel p => panel (p.carriedBy f)
  | remapped inner table => remapped (inner.carriedBy f) table
  | canvas members owners => canvas (carriedMembers f members) owners

def carriedMembers (f : τ → τ') : List (Placement (Surface τ)) → List (Placement (Surface τ'))
  | [] => []
  | ⟨s, left, top⟩ :: members => ⟨s.carriedBy f, left, top⟩ :: carriedMembers f members

end

/-- All of a tree but its transports: the pixels, sizes, layers, transparency and wire forms of its
panels, the corners of its members, the owners of its canvases and the tables of its chains. -/
def stripped (s : Surface τ) : Surface Unit := s.carriedBy fun _ => ()

theorem carriedMembers_eq (f : τ → τ') (members : List (Placement (Surface τ))) :
    carriedMembers f members = members.map fun p => ⟨p.surface.carriedBy f, p.x, p.y⟩ := by
  induction members with
  | nil => rw [carriedMembers, List.map_nil]
  | cons p members ih => rw [carriedMembers, ih, List.map_cons]

theorem carriedBy_carriedBy (g : τ' → τ'') (f : τ → τ') (s : Surface τ) :
    (s.carriedBy f).carriedBy g = s.carriedBy fun t => g (f t) := by
  induction s using tree_induction with
  | panel p => rfl
  | remapped inner table ih => rw [carriedBy, carriedBy, carriedBy, ih]
  | canvas members owners ih =>
      simp only [carriedBy, carriedMembers_eq, List.map_map]
      congr 1
      apply List.map_congr_left
      intro p hp
      rw [Function.comp_apply, ih p hp]

theorem carriedBy_stripped (t : τ') (s : Surface τ) :
    s.stripped.carriedBy (fun _ => t) = s.carriedBy fun _ => t :=
  carriedBy_carriedBy (fun _ => t) (fun _ => ()) s

theorem get?_carriedBy (f : τ → τ') (s : Surface τ) (x y : Int32) :
    (s.carriedBy f).get? x y = s.get? x y := by
  induction s using tree_induction generalizing x y with
  | panel p => rfl
  | remapped inner table ih =>
      rw [carriedBy, get?_remapped, get?_remapped]
      simp only [ih]
  | canvas members owners ih =>
      rw [carriedBy, get?_canvas, get?_canvas, carriedMembers_eq]
      cases (owners.get? x y).join with
      | none => rfl
      | some m =>
          simp only [Option.bind_some, List.getElem?_map]
          cases hm : members[m]? with
          | none => rfl
          | some p => exact ih p (List.mem_of_getElem? hm) _ _

def Leaf.carriedBy (f : τ → τ') (leaf : Leaf τ) : Leaf τ' := ⟨leaf.path, leaf.panel.carriedBy f⟩

theorem leaves_carriedBy (f : τ → τ') (s : Surface τ) :
    (s.carriedBy f).leaves = s.leaves.map (Leaf.carriedBy f) := by
  induction s using tree_induction with
  | panel p => rfl
  | remapped inner table ih => rw [carriedBy, leaves, leaves, ih]
  | canvas members owners ih =>
      rw [carriedBy, leaves_canvas, leaves_canvas, carriedMembers_eq, List.zipIdx_map,
        List.flatMap_map, List.map_flatMap]
      apply List.flatMap_congr
      intro q hq
      have hmember : q.1 ∈ members := List.mem_of_getElem? (List.mem_zipIdx_iff_getElem?.mp hq)
      rw [Prod.map_fst, ih q.1 hmember, List.map_map, List.map_map]
      rfl

end Surface

end CarriedBy

variable {τ : Type} [Responsive τ]

theorem Panel.carriedBy_sent (t : τ') (p : Panel τ) :
    p.sent.2.carriedBy (fun _ => t) = p.carriedBy fun _ => t := by
  cases h : p.datagrams with
  | error e =>
      have hsent : p.sent = _ := (yields_send_error h).returned_eq
      rw [hsent]
  | ok datagrams =>
      obtain ⟨t', hsend⟩ := yields_send_ok h
      have hsent : p.sent = _ := hsend.returned_eq
      rw [hsent]
      rfl

theorem Surface.stripped_sent (s : Surface τ) : s.sent.2.stripped = s.stripped := by
  induction s using tree_induction with
  | panel p =>
      rw [sent_panel]
      exact congrArg panel (p.carriedBy_sent ())
  | remapped inner table ih =>
      rw [sent_remapped]
      exact congrArg (remapped · table) ih
  | canvas members owners ih =>
      rw [sent_canvas, stripped, stripped, carriedBy, carriedBy, carriedMembers_eq,
        carriedMembers_eq, sentMembers, List.map_map]
      congr 1
      apply List.map_congr_left
      intro p hp
      have hsent : p.surface.sent.2.stripped = p.surface.stripped := ih p hp
      rw [Function.comp_apply]
      exact congrArg (Placement.mk · p.x p.y) hsent

def Call.Accepted (call : Call τ) : Prop := (respond call.transport call.datagram).1 = .ok ()

theorem datagrams_of_accepted (t : τ) (datagrams : List (List UInt8))
    (h : ∀ x ∈ upToFailure (dialogue t datagrams), x.Accepted) :
    (upToFailure (dialogue t datagrams)).map (fun x => x.datagram) = datagrams := by
  induction datagrams generalizing t with
  | nil => rfl
  | cons datagram more ih =>
      rw [dialogue] at h ⊢
      cases hanswer : (respond t datagram).1 with
      | error e =>
          rw [hanswer, upToFailure_of_failed rfl] at h
          have hfirst := h _ (List.mem_singleton_self _)
          rw [Call.Accepted, hanswer] at hfirst
          cases hfirst
      | ok _ =>
          rw [hanswer, upToFailure_of_accepted rfl] at h
          rw [upToFailure_of_accepted rfl, List.map_cons]
          congr 1
          exact ih _ (List.forall_mem_cons.mp h).2

/-- The datagrams of a panel, none if its frame cannot be written. -/
def Panel.payload (p : Panel τ) : List (List UInt8) := p.datagrams.toOption.getD []

theorem Panel.calls_of_accepted {p : Panel τ} (h : ∀ call ∈ p.calls, call.Accepted) :
    p.calls.map Call.datagram = p.payload := by
  rw [payload]
  cases hd : p.datagrams with
  | error e =>
      have hcalls : p.calls = [] := (yields_send_error hd).made_eq
      rw [hcalls]
      rfl
  | ok datagrams =>
      obtain ⟨t, hsend⟩ := yields_send_ok hd
      have hcalls : p.calls = _ := hsend.made_eq
      rw [hcalls, List.forall_mem_map] at h
      rw [hcalls, List.map_map]
      exact datagrams_of_accepted p.transport datagrams h

namespace Surface

theorem calls_of_accepted {s : Surface τ} (h : ∀ call ∈ s.calls, call.Accepted) :
    s.calls.map Call.datagram = s.leaves.flatMap fun leaf => leaf.panel.payload := by
  rw [calls_eq] at h ⊢
  rw [List.map_flatMap]
  apply List.flatMap_congr
  intro leaf hleaf
  apply Panel.calls_of_accepted
  intro call hcall
  exact h call (List.mem_flatMap.mpr ⟨leaf, hleaf, hcall⟩)

/-- If nothing is refused, a tree hands over what it would hand over to transports that take
everything. -/
theorem calls_eq_sink {s : Surface τ} (h : ∀ call ∈ s.calls, call.Accepted) :
    s.calls.map Call.datagram = (s.carriedBy fun _ => (⟨⟩ : Sink)).calls.map Call.datagram := by
  have hsink : ∀ call ∈ (s.carriedBy fun _ => (⟨⟩ : Sink)).calls, call.Accepted := fun _ _ => rfl
  rw [calls_of_accepted h, calls_of_accepted hsink, leaves_carriedBy, List.flatMap_map]
  rfl

/-- Whatever becomes of its datagrams, a tree is the same after sending but for its transports. The
next send, if nothing of it is refused, hands over all that the tree would have handed over had
nothing been refused before. -/
theorem resend_repeats_all (s : Surface τ) :
    s.sent.2.stripped = s.stripped ∧
    (∀ x y, s.sent.2.get? x y = s.get? x y) ∧
    ((∀ call ∈ s.sent.2.calls, call.Accepted) → s.sent.2.calls.map Call.datagram =
      (s.carriedBy fun _ => (⟨⟩ : Sink)).calls.map Call.datagram) := by
  have hstripped := s.stripped_sent
  refine ⟨hstripped, fun x y => ?_, fun h => ?_⟩
  · calc s.sent.2.get? x y = s.sent.2.stripped.get? x y := (get?_carriedBy _ _ x y).symm
      _ = s.stripped.get? x y := by rw [hstripped]
      _ = s.get? x y := get?_carriedBy _ s x y
  · rw [calls_eq_sink h, ← carriedBy_stripped, hstripped, carriedBy_stripped]

end Surface

end LedWall
