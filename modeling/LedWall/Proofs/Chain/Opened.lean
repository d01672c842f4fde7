import LedWall.Proofs.Canvas.Slices
import LedWall.Proofs.Chain.OnChain
import LedWall.Proofs.Chain.Refusal

/-!
# Opening a chain

The row of lights behind a chain is made from the length of the chain, which is narrowed to 32 bits on
the way, and an empty chain gets a row of one light. A chain of 2 ^ 32 lights or more would get a row
that is too short; the strip compares the row with the length before it was narrowed, so such a chain
is refused and no strip is shorter than its chain.
-/

namespace LedWall

namespace Segments

variable {s : Segments}

end Segments

namespace Strip

variable {τ : Type} {p : Panel τ} {table : CoordinateTable}

end Strip

namespace CoordinateTable

variable {width height : UInt32} {lengths : List Nat} {runs : List Run} {table : CoordinateTable}

end CoordinateTable

section Opening

variable {σ : Type} {m : Type → Type} [Monad m] [LawfulMonad m] [Network m σ]

theorem Panel.satisfiesM_connect_reached {endpoint : Endpoint} (hreach : Reaches m σ endpoint)
    {width height : UInt32} (hwidth : width ≠ 0) (hheight : height ≠ 0) (layer : UInt8)
    (transparent : Bool) :
    SatisfiesM (fun opened => ∃ p, opened = .ok p ∧ p.transport.endpoint = endpoint ∧
        (p.buffer.width = width ∧ p.buffer.height = height) ∧
        p.buffer.layer = layer ∧ p.buffer.transparent = transparent)
      (connect endpoint width height layer transparent :
        m (Except SurfaceError (Panel (Link σ)))) := by
  have hblank : FrameBuffer.blank width height layer transparent =
      .ok ⟨.uniform width height .black, layer, transparent, hwidth, hheight⟩ :=
    dif_pos ⟨hwidth, hheight⟩
  rw [connect, hblank]
  refine (Link.satisfiesM_connect_reached hreach).bind fun opened hopened => ?_
  obtain ⟨link, socket, rfl, hendpoint, -⟩ := hopened
  exact .pure ⟨_, rfl, hendpoint, ⟨rfl, rfl⟩, rfl, rfl⟩

namespace ChainSettings

def table (s : ChainSettings) : Except ChainError CoordinateTable :=
  CoordinateTable.build s.width s.height s.segments s.runs

end ChainSettings

end Opening

end LedWall
