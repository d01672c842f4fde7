import LedWall.Frame.Basic
import LedWall.Frame.Writer
import LedWall.Png.Codec
import LedWall.Text.Decimal

/-!
# Reading frames

A header is a row of numbers between gaps. A gap is any run of blanks and of comments, which reach
from `#` to the end of the line; a number is an optional sign and all the digits that follow, and a
number that does not fit 64 bits counts as missing. One blank ends the header.

The first comment marked `FT:` in a header gives a placement. Numbers behind the raw pixels override
it, field by field.
-/

namespace LedWall.Frame

def isBlank (b : UInt8) : Bool :=
  b = 0x20 || b = 0x09 || b = 0x0A || b = 0x0C || b = 0x0D

def comment (bs : List UInt8) : List UInt8 := bs.takeWhile (· ≠ 0x0A)

def afterComment (bs : List UInt8) : List UInt8 := bs.dropWhile (· ≠ 0x0A)

theorem length_afterComment_le (bs : List UInt8) : (afterComment bs).length ≤ bs.length :=
  (List.dropWhile_sublist _).length_le

def skipGap : List UInt8 → List UInt8
  | [] => []
  | b :: bs =>
      if isBlank b then skipGap bs
      else if b = 0x23 then skipGap (afterComment bs)
      else b :: bs
termination_by bs => bs.length
decreasing_by
  · simp
  · have := length_afterComment_le bs
    simp only [List.length_cons]
    omega

/-- The comments in the gap at the head of some bytes, each without its `#`. -/
def gapComments : List UInt8 → List (List UInt8)
  | [] => []
  | b :: bs =>
      if isBlank b then gapComments bs
      else if b = 0x23 then comment bs :: gapComments (afterComment bs)
      else []
termination_by bs => bs.length
decreasing_by
  · simp
  · have := length_afterComment_le bs
    simp only [List.length_cons]
    omega

def sign : List UInt8 → Bool × List UInt8
  | b :: bs => if b = 0x2D then (true, bs) else if b = 0x2B then (false, bs) else (false, b :: bs)
  | [] => (false, [])

def numeral? (bs : List UInt8) : Option (Int × List UInt8) :=
  let (negative, bs) := sign bs
  let digits := bs.takeWhile Decimal.isDigit
  if digits.isEmpty then none
  else
    let magnitude : Int := Decimal.ofBytes digits
    let value := if negative then -magnitude else magnitude
    if -9223372036854775808 ≤ value ∧ value ≤ 9223372036854775807 then
      some (value, bs.dropWhile Decimal.isDigit)
    else none

def number? (bs : List UInt8) : Option (Int × List UInt8) := numeral? (skipGap bs)

def numbers : Nat → List UInt8 → List Int
  | 0, _ => []
  | n + 1, bs =>
      match number? bs with
      | some (value, rest) => value :: numbers n rest
      | none => []

def layer? (value : Int) : Option UInt8 :=
  if 0 ≤ value ∧ value ≤ 255 then some (UInt8.ofNat value.toNat) else none

/-- The placement in a comment marked `FT:`. Fields that are missing, and a layer out of range, are
zero. -/
def placement? (comment : List UInt8) : Option Offset :=
  if placementMark.isPrefixOf comment then
    match numbers 3 (comment.drop placementMark.length) with
    | [] => some .zero
    | [x] => some ⟨.ofInt x, 0, 0⟩
    | [x, y] => some ⟨.ofInt x, .ofInt y, 0⟩
    | x :: y :: z :: _ => some ⟨.ofInt x, .ofInt y, (layer? z).getD 0⟩
  else none

structure Scan where
  rest : List UInt8
  comments : List (List UInt8)

namespace Scan

def field (name : Field) (s : Scan) : Except FrameError (Int × Scan) :=
  match number? s.rest with
  | some (value, rest) => .ok (value, ⟨rest, s.comments ++ gapComments s.rest⟩)
  | none => .error (.malformed (.missing name))

def side (name : Field) (s : Scan) : Except FrameError (UInt32 × Scan) := do
  let (value, s) ← s.field name
  if 0 ≤ value ∧ value < 4294967296 then return (UInt32.ofNat value.toNat, s)
  else throw (.malformed (.outOfRange name value))

/-- The largest channel value, of which only 255 is known. -/
def channelRange (s : Scan) : Except FrameError Scan := do
  let (value, s) ← s.field .channelRange
  if value = 255 then return s else throw (.malformed (.unsupportedChannelRange value))

/-- What follows the one blank that ends the header. -/
def data (s : Scan) : Except FrameError (List UInt8) :=
  match s.rest with
  | b :: rest => if isBlank b then .ok rest else .error (.malformed .missingSeparator)
  | [] => .error (.malformed .missingSeparator)

end Scan

def layer (value : Int) : Except FrameError UInt8 :=
  match layer? value with
  | some z => .ok z
  | none => .error (.malformed (.outOfRange .layer value))

/-- The placement after the numbers behind the pixels have overridden it. -/
def overridden (offset : Offset) : List Int → Except FrameError Offset
  | [] => .ok offset
  | [x] => .ok { offset with x := .ofInt x }
  | [x, y] => .ok { offset with x := .ofInt x, y := .ofInt y }
  | x :: y :: z :: _ => do
      let z ← layer z
      return ⟨.ofInt x, .ofInt y, z⟩

structure RawHeader where
  width : UInt32
  height : UInt32
  comments : List (List UInt8)
  data : List UInt8

namespace RawHeader

def read (bytes : List UInt8) : Except FrameError RawHeader := do
  let (width, s) ← Scan.side .width ⟨bytes, []⟩
  let (height, s) ← s.side .height
  let s ← s.channelRange
  let data ← s.data
  return ⟨width, height, s.comments, data⟩

def needed (h : RawHeader) : Nat := h.width.toNat * h.height.toNat * 3

def commented (h : RawHeader) : Option Offset := h.comments.findSome? placement?

def footer (h : RawHeader) : List Int := numbers 3 (h.data.drop h.needed)

def frame (h : RawHeader) : Except FrameError Frame :=
  if 18446744073709551616 ≤ h.needed then .error (.malformed (.tooLarge h.width h.height))
  else if h.data.length < h.needed then .error (.truncated h.needed h.data.length)
  else do
    let offset ← overridden (h.commented.getD .zero) h.footer
    let placed := h.commented.isSome || (!h.footer.isEmpty && offset ≠ .zero)
    return {
      kind := if placed then .offset else .plain
      width := h.width, height := h.height, offset
      pixels := Color.ofDump (h.data.take h.needed) }

end RawHeader

def parseRaw (bytes : List UInt8) : Except FrameError Frame := do
  let h ← RawHeader.read bytes
  h.frame

variable [Png.Codec]

def parseCompressed (bytes : List UInt8) : Except FrameError Frame := do
  let (width, s) ← Scan.side .width ⟨bytes, []⟩
  let (height, s) ← s.side .height
  let s ← s.channelRange
  let (x, s) ← s.field .x
  let (y, s) ← s.field .y
  let (z, s) ← s.field .layer
  let data ← s.data
  let image ← match Png.Codec.read data with
    | .ok image => pure image
    | .error fault => throw (.png fault)
  if image.width ≠ width ∨ image.height ≠ height then
    throw (.malformed (.sizeMismatch width height image.width image.height))
  let z ← layer z
  return { kind := .q7, width, height, offset := ⟨.ofInt x, .ofInt y, z⟩, pixels := image.pixels }

def parse (bytes : List UInt8) : Except FrameError Frame :=
  if rawMagic.isPrefixOf bytes then parseRaw (bytes.drop 2)
  else if compressedMagic.isPrefixOf bytes then parseCompressed (bytes.drop 2)
  else .error (.malformed .unknownMagic)

end LedWall.Frame
