import LedWall.Proofs.Recorded
import Mathlib

/-!
# Watching programs

A program with effects of its own can be watched: every call of a transport is written down, and the
program goes on as it would otherwise. Whatever its effects do, rules for single steps tell what is
known of the result and the calls of the whole.
-/

namespace LedWall

/-- Programs in `m` beside which the calls are written down, the latest last. -/
def Watched (τ : Type) (m : Type → Type) (α : Type) : Type := StateT (List (Call τ)) m α

namespace Watched

variable {τ α β : Type} {m : Type → Type} [Monad m]

instance : Monad (Watched τ m) := inferInstanceAs (Monad (StateT (List (Call τ)) m))

instance [LawfulMonad m] : LawfulMonad (Watched τ m) :=
  inferInstanceAs (LawfulMonad (StateT (List (Call τ)) m))

def run (x : Watched τ m α) : m (α × List (Call τ)) := StateT.run x []

instance [Transport m τ] : Transport (Watched τ m) τ where
  transmit t datagram := fun record => do
    let answer ← Transport.transmit t datagram
    return (answer, record ++ [⟨t, datagram⟩])

/-- Whatever the program returns and whichever calls it makes, `P` holds of them. -/
def Ensures (x : Watched τ m α) (P : α → List (Call τ) → Prop) : Prop :=
  ∀ record, SatisfiesM (fun r => ∃ calls, r.2 = record ++ calls ∧ P r.1 calls) (StateT.run x record)

theorem Ensures.run {x : Watched τ m α} {P : α → List (Call τ) → Prop} [LawfulMonad m]
    (h : x.Ensures P) : SatisfiesM (fun r => P r.1 r.2) x.run := by
  refine (h []).imp fun hr => ?_
  obtain ⟨calls, hcalls, hP⟩ := hr
  rwa [hcalls]

variable [LawfulMonad m]

theorem Ensures.imp {x : Watched τ m α} {P Q : α → List (Call τ) → Prop} (h : x.Ensures P)
    (himp : ∀ a calls, P a calls → Q a calls) : x.Ensures Q := by
  intro record
  refine (h record).imp fun hr => ?_
  obtain ⟨calls, hcalls, hP⟩ := hr
  exact ⟨calls, hcalls, himp _ calls hP⟩

theorem Ensures.pure {P : α → List (Call τ) → Prop} {a : α} (h : P a []) :
    Ensures (pure a : Watched τ m α) P := by
  intro record
  exact .pure ⟨[], (List.append_nil record).symm, h⟩

theorem Ensures.bind {x : Watched τ m α} {f : α → Watched τ m β} {P : α → List (Call τ) → Prop}
    {Q : β → List (Call τ) → Prop} (hx : x.Ensures P)
    (hf : ∀ a calls, P a calls → (f a).Ensures fun b more => Q b (calls ++ more)) :
    (x >>= f).Ensures Q := by
  intro record
  refine (hx record).bind fun r hr => ?_
  obtain ⟨calls, hcalls, hP⟩ := hr
  refine (hf r.1 calls hP r.2).imp fun hs => ?_
  obtain ⟨more, hmore, hQ⟩ := hs
  exact ⟨calls ++ more, by rw [hmore, hcalls, List.append_assoc], hQ⟩

theorem ensures_transmit [Transport m τ] {t : τ} {datagram : List UInt8}
    {P : Except TransmissionError Unit × τ → Prop}
    (h : SatisfiesM P (Transport.transmit t datagram : m _)) :
    Ensures (Transport.transmit t datagram : Watched τ m _) fun answer calls =>
      calls = [⟨t, datagram⟩] ∧ P answer := by
  intro record
  exact h.bind fun answer hanswer => .pure ⟨_, rfl, rfl, hanswer⟩

end Watched

end LedWall
