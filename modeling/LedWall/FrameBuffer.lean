import LedWall.Frame.Writer
import LedWall.Grid
import LedWall.Surface.Error

/-!
# Frame buffers

The picture that one panel should show, with the layer it goes to. An opaque buffer keeps every
written pixel above pure black, so that nothing below shines through.
-/

namespace LedWall

/-- A grid of pixels with positive sides, and how they are meant. -/
structure FrameBuffer where
  grid : Grid Color
  layer : UInt8
  transparent : Bool
  width_pos : grid.width ≠ 0
  height_pos : grid.height ≠ 0

namespace FrameBuffer

def blank (width height : UInt32) (layer : UInt8) (transparent : Bool) :
    Except SurfaceError FrameBuffer :=
  if h : width ≠ 0 ∧ height ≠ 0 then
    .ok ⟨.uniform width height .black, layer, transparent, h.1, h.2⟩
  else .error (.invalidDimension width height)

/-- A buffer of the pixels in a dump, which has to be exactly as long as the buffer needs. -/
def ofDump (width height : UInt32) (layer : UInt8) (transparent : Bool) (dump : List UInt8) :
    Except SurfaceError FrameBuffer :=
  if h : width ≠ 0 ∧ height ≠ 0 then
    let cells := ((Color.ofDump dump).map (Color.stored · transparent)).toArray
    if hs : cells.size = width.toNat * height.toNat ∧ dump.length = 3 * cells.size then
      .ok ⟨⟨width, height, cells, hs.1⟩, layer, transparent, h.1, h.2⟩
    else .error (.invalidDimension width height)
  else .error (.invalidDimension width height)

def width (b : FrameBuffer) : UInt32 := b.grid.width

def height (b : FrameBuffer) : UInt32 := b.grid.height

def pixels (b : FrameBuffer) : List Color := b.grid.cells.toList

def set (b : FrameBuffer) (x y : Int32) (c : Color) : FrameBuffer :=
  { b with
    grid := b.grid.set x y (c.stored b.transparent)
    width_pos := by rw [Grid.width_set]; exact b.width_pos
    height_pos := by rw [Grid.height_set]; exact b.height_pos }

def get? (b : FrameBuffer) (x y : Int32) : Option Color := b.grid.get? x y

def fill (b : FrameBuffer) (c : Color) : FrameBuffer :=
  { b with grid := b.grid.fill (c.stored b.transparent) }

def clear (b : FrameBuffer) : FrameBuffer := b.fill .black

theorem length_pixels (b : FrameBuffer) :
    b.pixels.length = b.width.toNat * b.height.toNat := by
  simp [pixels, b.grid.size_cells, width, height]

def encode (b : FrameBuffer) : List UInt8 := Frame.plainBytes b.width b.height b.layer b.pixels

def encodeAt (b : FrameBuffer) (offset : Offset) : List UInt8 :=
  Frame.offsetBytes b.width b.height offset b.pixels

def encodeTiles (b : FrameBuffer) (offset : Offset) (maxDatagram : Nat) :
    Except FrameError (List (List UInt8)) :=
  Frame.encodeTiles b.width b.height offset b.pixels maxDatagram

variable [Png.Codec]

def encodeImage (b : FrameBuffer) : Except FrameError (List UInt8) :=
  Frame.encodeImage b.width b.height b.pixels

def encodeQ7 (b : FrameBuffer) (offset : Offset) : Except FrameError (List UInt8) := do
  let image ← b.encodeImage
  return Frame.q7Bytes b.width b.height offset image

end FrameBuffer

end LedWall
