import LedWall.Png.Image

/-!
# Codecs

Frames carry compressed images without looking into them. What they need is a way to write 8-bit RGB
pixels and to read them back; any codec will do that gives back the images it has written.
-/

namespace LedWall.Png

/-- A way to write and to read images. -/
class Codec where
  write : (width height : UInt32) → (pixels : List Color) → Except Fault (List UInt8)
  read : (bytes : List UInt8) → Except Fault Image

instance : Codec := ⟨encode, decode⟩

end LedWall.Png
