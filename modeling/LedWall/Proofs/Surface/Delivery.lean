import LedWall.Proofs.Surface.Sending
import LedWall.Proofs.Watched

/-!
# What has been handed over

When sending a tree succeeds, its panels have been handed over in order of depth, each with all its
datagrams from the first to the last. The transports may have any effects beside that.
-/

namespace LedWall

section InOrder

variable {τ : Type}

/-- The datagrams of some panels, one panel after another. -/
inductive InOrder : List (Panel τ) → List (List UInt8) → Prop where
  | nil : InOrder [] []
  | cons {p : Panel τ} {datagrams : List (List UInt8)} (h : p.datagrams = .ok datagrams)
      {panels : List (Panel τ)} {more : List (List UInt8)} (hmore : InOrder panels more) :
      InOrder (p :: panels) (datagrams ++ more)

theorem InOrder.single {p : Panel τ} {datagrams : List (List UInt8)}
    (h : p.datagrams = .ok datagrams) : InOrder [p] datagrams := by
  have hone := InOrder.cons h .nil
  rwa [List.append_nil] at hone

theorem InOrder.append {panels : List (Panel τ)} {datagrams : List (List UInt8)}
    (h : InOrder panels datagrams) {others : List (Panel τ)} {more : List (List UInt8)}
    (hmore : InOrder others more) : InOrder (panels ++ others) (datagrams ++ more) := by
  induction h with
  | nil => exact hmore
  | cons hp _ ih =>
      rw [List.cons_append, List.append_assoc]
      exact .cons hp ih

end InOrder

def Transport.Keeps (m : Type → Type) [Monad m] {τ : Type} [Transport m τ] (Q : τ → Prop) : Prop :=
  ∀ t datagram, Q t → SatisfiesM (fun answer => Q answer.2) (Transport.transmit t datagram : m _)

/-- Calls of transports of one kind, which have carried all datagrams of some panels if the sending
was good. -/
structure Carried {τ : Type} (Q : τ → Prop) (panels : List (Panel τ)) (good : Prop)
    (calls : List (Call τ)) : Prop where
  kind : ∀ call ∈ calls, Q call.transport
  inOrder : good → InOrder panels (calls.map Call.datagram)

section Carried

variable {τ : Type} {Q : τ → Prop} {panels : List (Panel τ)} {good : Prop} {calls : List (Call τ)}

theorem Carried.of_not (h : ¬ good) : Carried Q panels good [] :=
  ⟨List.forall_mem_nil _, fun hgood => absurd hgood h⟩

theorem Carried.imp {good' : Prop} (h : Carried Q panels good calls) (hgood : good' → good) :
    Carried Q panels good' calls := ⟨h.kind, h.inOrder ∘ hgood⟩

theorem Carried.append {good' : Prop} {others : List (Panel τ)} {more : List (Call τ)}
    (h : Carried Q panels good calls) (hmore : Carried Q others good' more) :
    Carried Q (panels ++ others) (good ∧ good') (calls ++ more) where
  kind := List.forall_mem_append.mpr ⟨h.kind, hmore.kind⟩
  inOrder := by
    intro hgood
    rw [List.map_append]
    exact (h.inOrder hgood.1).append (hmore.inOrder hgood.2)

/-- What is known of the parts of a tree, with the calls made for them, is known of the whole. -/
structure Gathers {τ ρ : Type} (R : List (Panel τ) → Prop → List (Call ρ) → Prop) : Prop where
  nil : ∀ good, R [] good []
  imp : ∀ {panels good good' calls}, R panels good calls → (good' → good) → R panels good' calls
  append : ∀ {panels others good good' calls more}, R panels good calls → R others good' more →
    R (panels ++ others) (good ∧ good') (calls ++ more)

theorem Carried.gathers (Q : τ → Prop) : Gathers (Carried Q) where
  nil := fun _ => ⟨List.forall_mem_nil _, fun _ => .nil⟩
  imp := Carried.imp
  append := Carried.append

end Carried

variable {τ : Type} {m : Type → Type} [Monad m] [LawfulMonad m]

namespace Surface

def panels (s : Surface τ) : List (Panel τ) := s.leaves.map Leaf.panel

theorem panels_canvas (members : List (Placement (Surface τ))) (owners : Grid (Option Nat)) :
    (canvas members owners).panels = members.flatMap fun p => p.surface.panels := by
  have hbelow : ∀ q : Placement (Surface τ) × Nat,
      (q.1.surface.leaves.map (Leaf.below q.2)).map Leaf.panel = q.1.surface.panels := by
    intro q
    rw [List.map_map]
    rfl
  rw [panels, leaves_canvas, List.map_flatMap]
  simp only [hbelow]
  rw [← List.flatMap_map Prod.fst fun p : Placement (Surface τ) => p.surface.panels,
    List.zipIdx_map_fst]

section Gathers

variable {ρ : Type} [Transport (Watched ρ m) τ] {R : List (Panel τ) → Prop → List (Call ρ) → Prop}

theorem ensures_sendMembers (hR : Gathers R) {members : List (Placement (Surface τ))}
    (h : ∀ p ∈ members, Watched.Ensures (p.surface.send : Watched ρ m _) fun r calls =>
      R p.surface.panels (r.1 = .ok ()) calls) (index : Nat) :
    Watched.Ensures (sendMembers index members : Watched ρ m _) fun r calls =>
      R (members.flatMap fun p => p.surface.panels) (r.1 = []) calls := by
  induction members generalizing index with
  | nil =>
      rw [sendMembers]
      exact .pure (hR.nil _)
  | cons p members ih =>
      obtain ⟨hp, hmembers⟩ := List.forall_mem_cons.mp h
      rw [sendMembers, List.flatMap_cons]
      refine hp.bind fun first calls hfirst => ?_
      refine (ih hmembers (index + 1)).bind fun others more hothers => .pure ?_
      rw [List.append_nil]
      refine hR.imp (hR.append hfirst hothers) fun hnone => ?_
      obtain ⟨e | _, s⟩ := first
      · cases hnone
      · exact ⟨rfl, hnone⟩

/-- Sending a tree is sending its panels one after another, and it succeeds if each of them does. -/
theorem ensures_gathered (hR : Gathers R) {s : Surface τ}
    (h : ∀ p ∈ s.panels, Watched.Ensures (p.send : Watched ρ m _) fun r calls =>
      R [p] (r.1 = .ok ()) calls) :
    Watched.Ensures (s.send : Watched ρ m _) fun r calls => R s.panels (r.1 = .ok ()) calls := by
  induction s using tree_induction with
  | panel p =>
      rw [send]
      refine (h p (List.mem_singleton_self p)).bind fun r calls hr => .pure ?_
      rw [List.append_nil]
      exact hr
  | remapped inner table ih =>
      rw [send]
      refine (ih h).bind fun r calls hr => .pure ?_
      rw [List.append_nil]
      exact hr
  | canvas members owners ih =>
      rw [panels_canvas] at h ⊢
      have hmembers := ensures_sendMembers hR (fun p hp => ih p hp fun q hq =>
        h q (List.mem_flatMap.mpr ⟨p, hp, hq⟩)) 0
      rw [send]
      refine hmembers.bind fun r calls hr => .pure ?_
      rw [List.append_nil]
      refine hR.imp hr fun hok => ?_
      by_cases hnone : r.1 = []
      · exact hnone
      · rw [if_neg (mt List.isEmpty_iff.mp hnone)] at hok
        cases hok

end Gathers

end Surface

variable [Transport m τ] {Q : τ → Prop}

theorem Transport.ensures_transmitAll (hQ : Keeps m Q) {t : τ} (ht : Q t)
    (datagrams : List (List UInt8)) :
    Watched.Ensures (transmitAll t datagrams : Watched τ m _) fun r calls =>
      (∀ call ∈ calls, Q call.transport) ∧ (r.1 = .ok () → calls.map Call.datagram = datagrams) := by
  induction datagrams generalizing t with
  | nil =>
      rw [transmitAll]
      exact .pure ⟨List.forall_mem_nil _, fun _ => rfl⟩
  | cons datagram datagrams ih =>
      rw [transmitAll]
      refine (Watched.ensures_transmit (hQ t datagram ht)).bind fun answer calls hanswer => ?_
      obtain ⟨rfl, ht'⟩ := hanswer
      obtain ⟨e | _, t'⟩ := answer
      · refine .pure ⟨?_, fun hok => ?_⟩
        · rw [List.append_nil, List.forall_mem_singleton]
          exact ht
        · cases hok
      · refine (ih ht').imp fun r more hmore => ?_
        obtain ⟨hkind, hall⟩ := hmore
        refine ⟨List.forall_mem_cons.mpr ⟨ht, hkind⟩, fun hok => ?_⟩
        rw [List.singleton_append, List.map_cons, hall hok]

theorem Panel.ensures_send (hQ : Transport.Keeps m Q) {p : Panel τ} (hp : Q p.transport) :
    Watched.Ensures (p.send : Watched τ m _) fun r calls => Carried Q [p] (r.1 = .ok ()) calls := by
  rw [send]
  cases hd : p.datagrams with
  | error e => exact .pure (.of_not (by simp))
  | ok datagrams =>
      refine (Transport.ensures_transmitAll hQ hp datagrams).bind fun answer calls hanswer => ?_
      obtain ⟨hkind, hall⟩ := hanswer
      obtain ⟨e | _, t⟩ := answer
      · refine .pure ⟨?_, fun hok => ?_⟩
        · rwa [List.append_nil]
        · cases hok
      · refine .pure ⟨?_, fun _ => .single ?_⟩
        · rwa [List.append_nil]
        · rw [List.append_nil, hall rfl, hd]

theorem Surface.ensures_send (hQ : Transport.Keeps m Q) (s : Surface τ) (hs : ∀ p ∈ s.panels, Q p.transport) :
    Watched.Ensures (s.send : Watched τ m _) fun r calls =>
      Carried Q s.panels (r.1 = .ok ()) calls :=
  ensures_gathered (Carried.gathers Q) fun p hp => p.ensures_send hQ (hs p hp)

end LedWall
