/-!
# Colours

A pixel is three channel bytes. A wall shows pure black as "look through to the layer below", so an
opaque buffer stores a barely lit pixel wherever black is asked for.
-/

namespace LedWall

structure Color where
  r : UInt8
  g : UInt8
  b : UInt8
deriving DecidableEq, Inhabited

namespace Color

/-- Pure black, which a wall shows as see-through. -/
def black : Color := ⟨0, 0, 0⟩

def nearBlack : Color := ⟨1, 1, 1⟩

def white : Color := ⟨255, 255, 255⟩

def red : Color := ⟨255, 0, 0⟩

def green : Color := ⟨0, 255, 0⟩

def blue : Color := ⟨0, 0, 255⟩

def isBlack (c : Color) : Bool := c = black

/-- What a buffer stores when `c` is written: an opaque buffer never holds pure black. -/
def stored (c : Color) (transparent : Bool) : Color :=
  if c.isBlack && !transparent then nearBlack else c

theorem stored_opaque_ne_black (c : Color) : c.stored false ≠ black := by
  unfold stored isBlack
  split
  · decide
  · simp_all

def bytes (c : Color) : List UInt8 := [c.r, c.g, c.b]

def dump (pixels : List Color) : List UInt8 := pixels.flatMap bytes

def collectThrees (seen : List Color) : List UInt8 → List Color
  | r :: g :: b :: rest => collectThrees (⟨r, g, b⟩ :: seen) rest
  | _ => seen.reverse

/-- Bytes taken in threes; one or two left over are dropped. -/
def ofDump (bytes : List UInt8) : List Color := collectThrees [] bytes

theorem collectThrees_dump (seen pixels : List Color) (rest : List UInt8) :
    collectThrees seen (dump pixels ++ rest) =
      collectThrees (pixels.reverse ++ seen) rest := by
  induction pixels generalizing seen with
  | nil => simp [dump]
  | cons c cs ih =>
      simp only [dump, List.flatMap_cons, bytes, List.cons_append, List.nil_append, collectThrees]
      have := ih (⟨c.r, c.g, c.b⟩ :: seen)
      simpa [dump] using this

theorem ofDump_dump (pixels : List Color) : ofDump (dump pixels) = pixels := by
  have h := collectThrees_dump [] pixels []
  simp only [List.append_nil] at h
  simp [ofDump, h, collectThrees]

theorem dump_collectThrees (seen : List Color) {bytes : List UInt8} (h : 3 ∣ bytes.length) :
    dump (collectThrees seen bytes) = dump seen.reverse ++ bytes := by
  fun_induction collectThrees seen bytes with
  | case1 seen r g b rest ih =>
      have hrest : 3 ∣ rest.length := by simp only [List.length_cons] at h; omega
      rw [ih hrest]
      simp [dump, Color.bytes]
  | case2 bytes seen hshort =>
      match bytes with
      | [] => simp
      | [_] => simp at h
      | [_, _] => simp at h
      | r :: g :: b :: rest => exact absurd rfl (hshort r g b rest)

theorem dump_ofDump {bytes : List UInt8} (h : 3 ∣ bytes.length) : dump (ofDump bytes) = bytes :=
  dump_collectThrees [] h

theorem length_dump (pixels : List Color) : (dump pixels).length = 3 * pixels.length := by
  induction pixels with
  | nil => rfl
  | cons c cs ih => simp only [dump, List.flatMap_cons, bytes, List.length_append,
      List.length_cons, List.length_nil] at ih ⊢; omega

end Color

end LedWall
