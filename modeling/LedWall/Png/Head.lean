import LedWall.Png.Chunk
import LedWall.Png.Layout

/-!
# What comes before the rows

The chunks ahead of the pixel rows tell the layout of the pixels, the palette, and remarks that do
not change the colours. A chunk without data tells nothing, whatever its kind. What a chunk tells
counts before its checksum is looked at.
-/

namespace LedWall.Png

/-- What the chunks have told so far; `once` holds the kinds that must not come again. -/
structure Head where
  layout : Option Layout
  palette : Option (List UInt8)
  once : List Kind

namespace Head

def empty : Head := ⟨none, none, []⟩

/-- Whether a transparency chunk fits: it has a value for each sample of a layout without alpha, and
comes after the palette if there has to be one. -/
def admitsTransparency (h : Head) (l : Layout) (data : List UInt8) : Bool :=
  match l.samples with
  | .grey => 2 ≤ data.length
  | .rgb => 6 ≤ data.length
  | .palette => h.palette.isSome
  | .greyAlpha | .rgbAlpha => false

/-- Whether a remark can be understood; kinds without rules are no remarks. -/
def remark? (kind : Kind) (data : List UInt8) : Option Bool :=
  if kind = Kind.gamma then some (4 ≤ data.length)
  else if kind = Kind.primaries then some (32 ≤ data.length)
  else if kind = Kind.intent then some (data.headD 0 ≤ 3)
  else if kind = Kind.density then some (9 ≤ data.length ∧ data.getD 8 0 ≤ 1)
  else none

def add (h : Head) (c : Chunk) : Except Fault Head :=
  if h.layout.isNone ∧ c.kind ≠ Kind.header then .error .header
  else if c.data = [] then .ok h
  else
    match h.layout with
    | none =>
        match Layout.read? c.data with
        | some l => .ok { h with layout := some l }
        | none => .error .header
    | some l =>
        if c.kind = Kind.header then .error .header
        else if c.kind = Kind.palette then
          if h.palette.isSome then .error .palette else .ok { h with palette := some c.data }
        else if c.kind = Kind.transparency then
          if h.once.contains c.kind || !h.admitsTransparency l c.data then .error .transparency
          else .ok { h with once := c.kind :: h.once }
        else
          match remark? c.kind c.data with
          | none => .ok h
          | some fits =>
              if h.once.contains c.kind || !fits then .error .remark
              else .ok { h with once := c.kind :: h.once }

end Head

end LedWall.Png
