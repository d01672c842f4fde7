import LedWall.Stream.Worker
import LedWall.Surface.Basic

/-!
# Drawings

The test picture, and the animation of a bar that sweeps across a panel.
-/

namespace LedWall

/-- Paints red by column and green by row, from none to nearly full. -/
def Surface.paintGradient {τ : Type} (s : Surface τ) : Surface τ :=
  let width := max s.width 1
  let height := max s.height 1
  (List.range height.toNat).foldl (fun s row =>
    (List.range width.toNat).foldl (fun s column =>
      let x := UInt32.ofNat column
      let y := UInt32.ofNat row
      s.set x.toInt32 y.toInt32 ⟨(x * 255 / width).toUInt8, (y * 255 / height).toUInt8, 128⟩) s) s

def sweepBackground : Color := ⟨0, 0, 40⟩

/-- Frame `index` of a sweep of `frames` frames: a bar on its way from left to right. The products of
`index` with the width and with 255 are taken to be below 2 ^ 64. -/
def sweepFrame (base : FrameBuffer) (index frames : Nat) : FrameBuffer :=
  let bar := Int32.ofNat (index * base.width.toNat / frames)
  let hue := UInt8.ofNat (index * 255 / frames)
  (List.range base.height.toInt32.toInt.toNat).foldl (fun frame y =>
    frame.set bar (.ofNat y) ⟨255, hue, 255 - hue⟩) (base.fill sweepBackground)

def sweep (base : FrameBuffer) (frames : Nat) : FrameSource :=
  .generated frames fun index => sweepFrame base index frames

end LedWall
