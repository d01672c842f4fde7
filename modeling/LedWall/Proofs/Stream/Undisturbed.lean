import LedWall.Proofs.Stream.Turn
import LedWall.Proofs.Watched
import LedWall.Stream.Streamer

/-!
# Undisturbed runs

Nobody raises stop, and the transport takes every datagram and stays as it is. Such a run depends on
the readings of the clock alone, whatever effects the transport has beside.
-/

namespace LedWall

namespace Worker

variable {τ : Type} [Png.Codec]

/-- From step `k` on, with the readings of a clock, the worker has become `v` before step `l`. The
calls on the way were all accepted. -/
inductive Leads (clock : Nat → Nat) :
    Nat → Worker τ → Nat → Worker τ → List (Call τ) → Prop where
  | refl (k : Nat) (w : Worker τ) : Leads clock k w k w []
  | settle {k l : Nat} {w u v : Worker τ} {calls : List (Call τ)}
      (hturn : w.turn ⟨clock k, false⟩ = .settle (some u)) (hmore : Leads clock (k + 1) u l v calls) :
      Leads clock k w l v calls
  | hand {k l : Nat} {w u v : Worker τ} {datagram : List UInt8} {rest : List (List UInt8)}
      {calls : List (Call τ)} (hturn : w.turn ⟨clock k, false⟩ = .hand u datagram rest)
      (hmore : Leads clock (k + 1) { u with phase := .sending (some (.ok ())) rest } l v calls) :
      Leads clock k w l v (⟨u.target, datagram⟩ :: calls)

namespace Leads

variable {clock : Nat → Nat} {k j l : Nat} {w u v : Worker τ} {calls more : List (Call τ)}

theorem le (h : Leads clock k w l v calls) : k ≤ l := by
  induction h with
  | refl => exact Nat.le_refl _
  | settle hturn hmore ih => exact Nat.le_of_succ_le ih
  | hand hturn hmore ih => exact Nat.le_of_succ_le ih

theorem single (hturn : w.turn ⟨clock k, false⟩ = .settle (some u)) :
    Leads clock k w (k + 1) u [] :=
  .settle hturn (.refl _ _)

theorem trans (h : Leads clock k w j u calls) (h' : Leads clock j u l v more) :
    Leads clock k w l v (calls ++ more) := by
  induction h with
  | refl => exact h'
  | settle hturn hmore ih => exact .settle hturn (ih h')
  | hand hturn hmore ih => exact .hand hturn (ih h')

theorem split (h : Leads clock k w l v calls) (hkj : k ≤ j) (hjl : j ≤ l) :
    ∃ u front back, Leads clock k w j u front ∧ Leads clock j u l v back ∧ calls = front ++ back := by
  induction h with
  | refl k w =>
      obtain rfl := Nat.le_antisymm hkj hjl
      exact ⟨w, [], [], .refl _ _, .refl _ _, rfl⟩
  | @settle k l w u v calls hturn hmore ih =>
      rcases Nat.lt_or_eq_of_le hkj with hlt | rfl
      · obtain ⟨a, front, back, hfront, hback, rfl⟩ := ih hlt hjl
        exact ⟨a, front, back, .settle hturn hfront, hback, rfl⟩
      · exact ⟨w, [], calls, .refl _ _, .settle hturn hmore, rfl⟩
  | @hand k l w u v datagram rest calls hturn hmore ih =>
      rcases Nat.lt_or_eq_of_le hkj with hlt | rfl
      · obtain ⟨a, front, back, hfront, hback, rfl⟩ := ih hlt hjl
        exact ⟨a, _ :: front, back, .hand hturn hfront, hback, rfl⟩
      · exact ⟨w, [], _, .refl _ _, .hand hturn hmore, rfl⟩

theorem ended (h : w.isEnded) (hkl : k ≤ l) : Leads clock k w l w [] := by
  induction l, hkl using Nat.le_induction with
  | base => exact .refl _ _
  | succ l hkl ih => exact ih.trans (.single (turn_of_isEnded h _))

/-- Datagrams are handed over one at a step, and the frame is concluded at the step after the last. -/
theorem offer {datagrams : List (List UInt8)}
    (hturn : w.turn ⟨clock k, false⟩ = u.offer (clock k) datagrams) :
    Leads clock k w (k + datagrams.length + 1) (u.concluded (clock (k + datagrams.length)) true)
      (datagrams.map (Call.mk u.target)) := by
  induction datagrams generalizing k w u with
  | nil => exact .single hturn
  | cons datagram rest ih =>
      have hlength : k + (datagram :: rest).length = k + 1 + rest.length := by
        rw [List.length_cons, Nat.add_assoc, Nat.add_comm 1]
      rw [hlength]
      exact .hand hturn (ih (u := { u with phase := .sending (some (.ok ())) rest }) rfl)

theorem transmission {datagrams : List (List UInt8)}
    (hturn : w.turn ⟨clock k, false⟩ = u.begin (clock k) datagrams) :
    Leads clock k w (k + datagrams.length + 1)
      (concluded { u with lastStart := some (clock k) } (clock (k + datagrams.length)) true)
      (datagrams.map (Call.mk u.target)) :=
  .offer (u := { u with lastStart := some (clock k) }) hturn

end Leads

end Worker

section Effects

variable {τ : Type} {m : Type → Type} [Monad m] [LawfulMonad m] [Transport m τ]

theorem Worker.ensures_take_hand {w : Worker τ} {datagram : List UInt8} (rest : List (List UInt8))
    (haccept : SatisfiesM (· = (.ok (), w.target)) (Transport.transmit w.target datagram : m _)) :
    Watched.Ensures (take (.hand w datagram rest) : Watched τ m _) fun next calls =>
      next = some { w with phase := .sending (some (.ok ())) rest } ∧
        calls = [⟨w.target, datagram⟩] := by
  have hrun : (Transport.transmit w.target datagram : OptionT (Watched τ m) _).run =
      some <$> (Transport.transmit w.target datagram : Watched τ m _) := rfl
  rw [take, hrun, bind_map_left]
  refine (Watched.ensures_transmit haccept).bind fun answer calls hanswer => ?_
  obtain ⟨rfl, rfl⟩ := hanswer
  exact .pure ⟨rfl, rfl⟩

namespace Streamer

private theorem range'_of_lt {k l : Nat} (h : k < l) :
    List.range' k (l - k) = k :: List.range' (k + 1) (l - (k + 1)) := by
  have hlength : l - k = l - (k + 1) + 1 := by omega
  rw [hlength, List.range'_succ]

variable [Png.Codec]

theorem ensures_advance {w v : Worker τ} {now : Nat} {calls : List (Call τ)} (target : Option τ)
    (h : Watched.Ensures (Worker.take (w.turn ⟨now, false⟩) : Watched τ m _) fun next made =>
      next = some v ∧ made = calls) :
    Watched.Ensures (advance ⟨target, some (.working w false)⟩ now : Watched τ m _) fun s made =>
      s = ⟨target, some (.working v false)⟩ ∧ made = calls := by
  rw [advance]
  dsimp only
  rw [Worker.step_eq]
  refine h.bind fun next made hnext => ?_
  obtain ⟨rfl, rfl⟩ := hnext
  exact .pure ⟨rfl, List.append_nil _⟩

theorem ensures_advances {clock : Nat → Nat} {k l : Nat} {w v : Worker τ} {calls : List (Call τ)}
    (h : w.Leads clock k l v calls) (target : Option τ)
    (haccept : ∀ c ∈ calls, SatisfiesM (· = (.ok (), c.transport))
      (Transport.transmit c.transport c.datagram : m _)) :
    Watched.Ensures (((List.range' k (l - k)).map clock).foldlM advance
      ⟨target, some (.working w false)⟩ : Watched τ m _) fun s made =>
        s = ⟨target, some (.working v false)⟩ ∧ made = calls := by
  induction h with
  | refl k w =>
      rw [Nat.sub_self]
      exact .pure ⟨rfl, rfl⟩
  | @settle k l w u v calls hturn hmore ih =>
      rw [range'_of_lt hmore.le, List.map_cons, List.foldlM_cons]
      have hfirst : Watched.Ensures (Worker.take (w.turn ⟨clock k, false⟩) : Watched τ m _)
          fun next made => next = some u ∧ made = [] := by
        rw [hturn]
        exact .pure ⟨rfl, rfl⟩
      refine (ensures_advance target hfirst).bind fun s made hs => ?_
      obtain ⟨rfl, rfl⟩ := hs
      exact ih haccept
  | @hand k l w u v datagram rest calls hturn hmore ih =>
      obtain ⟨hdatagram, hcalls⟩ := List.forall_mem_cons.mp haccept
      rw [range'_of_lt hmore.le, List.map_cons, List.foldlM_cons]
      have hfirst := Worker.ensures_take_hand rest hdatagram
      rw [← hturn] at hfirst
      refine (ensures_advance target hfirst).bind fun s made hs => ?_
      obtain ⟨rfl, rfl⟩ := hs
      refine (ih hcalls).imp fun s made hs => ?_
      obtain ⟨rfl, rfl⟩ := hs
      exact ⟨rfl, rfl⟩

/-- A worker that ends undisturbed has handed over the first of its datagrams at any time, and all of
them once it has ended. -/
theorem ensures_course {clock : Nat → Nat} {l : Nat} {w v : Worker τ} {target : τ}
    {datagrams : List (List UInt8)} (h : w.Leads clock 0 l v (datagrams.map (Call.mk target)))
    (hended : v.isEnded) (haccept : ∀ datagram ∈ datagrams,
      SatisfiesM (· = (.ok (), target)) (Transport.transmit target datagram : m _)) (k : Nat) :
    Watched.Ensures (((List.range k).map clock).foldlM advance
      ⟨none, some (.working w false)⟩ : Watched τ m _) fun s made =>
        made.map Call.datagram <+: datagrams ∧ (l ≤ k →
          made.map Call.datagram = datagrams ∧ s = ⟨none, some (.working v false)⟩) := by
  have hfront : ∃ u front back, w.Leads clock 0 k u front ∧
      front ++ back = datagrams.map (Call.mk target) ∧ (l ≤ k → back = [] ∧ u = v) := by
    rcases Nat.lt_or_ge k l with hlt | hge
    · obtain ⟨u, front, back, hfront, -, hcalls⟩ := h.split (Nat.zero_le k) (Nat.le_of_lt hlt)
      exact ⟨u, front, back, hfront, hcalls.symm, fun hle => absurd hlt (Nat.not_lt.mpr hle)⟩
    · exact ⟨v, _, [], h.trans (.ended hended hge), by simp, fun _ => ⟨rfl, rfl⟩⟩
  obtain ⟨u, front, back, hleads, hcalls, hlast⟩ := hfront
  have hdatagrams : front.map Call.datagram ++ back.map Call.datagram = datagrams := by
    rw [← List.map_append, hcalls, List.map_map]
    exact List.map_id datagrams
  have haccepted : ∀ c ∈ front, SatisfiesM (· = (.ok (), c.transport))
      (Transport.transmit c.transport c.datagram : m _) := by
    intro c hc
    have hmem : c ∈ datagrams.map (Call.mk target) := hcalls ▸ List.mem_append_left back hc
    obtain ⟨datagram, hdatagram, rfl⟩ := List.mem_map.mp hmem
    exact haccept datagram hdatagram
  rw [List.range_eq_range', ← Nat.sub_zero k]
  refine (ensures_advances hleads none haccepted).imp fun s made hs => ?_
  obtain ⟨rfl, rfl⟩ := hs
  refine ⟨⟨_, hdatagrams⟩, fun hle => ?_⟩
  obtain ⟨rfl, rfl⟩ := hlast hle
  exact ⟨(List.append_nil _).symm.trans hdatagrams, rfl⟩

end Streamer

end Effects

end LedWall
