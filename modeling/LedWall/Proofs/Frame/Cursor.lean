import LedWall.Frame.Reader

/-!
# Reading in place

A cursor reads a frame where it lies. It stands at a position and asks for single bytes and for
slices by their positions; outside of the bytes this is a fault. A marked comment is read by a cursor
of its own on the text behind the mark, and such a text may hold marked comments in its turn.

The rounds of each loop and the depth of cursors within cursors are limited, so that reading which
would not come to an end is a fault as well.
-/

namespace LedWall.Frame

inductive CursorFault where
  /-- A byte or a slice was asked for that is not there. -/
  | outOfRange
  /-- A loop was not over after its last round. -/
  | outOfRounds
  /-- A cursor was opened within too many others. -/
  | tooDeep
deriving DecidableEq

/-- A position in some bytes, and the placement in the first marked comment passed so far. -/
structure Cursor where
  bytes : List UInt8
  pos : Nat
  placement : Option Offset

namespace Cursor

def rest (c : Cursor) : List UInt8 := c.bytes.drop c.pos

def byteAt (bytes : List UInt8) (i : Nat) : Except CursorFault UInt8 :=
  match bytes[i]? with
  | some b => .ok b
  | none => .error .outOfRange

def slice (bytes : List UInt8) (start stop : Nat) : Except CursorFault (List UInt8) :=
  if start ≤ stop ∧ stop ≤ bytes.length then .ok ((bytes.take stop).drop start)
  else .error .outOfRange

def scan (kind : UInt8 → Bool) (bytes : List UInt8) : Nat → Nat → Except CursorFault Nat
  | 0, _ => .error .outOfRounds
  | rounds + 1, pos => do
      if pos < bytes.length then
        let b ← byteAt bytes pos
        if kind b then scan kind bytes rounds (pos + 1) else return pos
      else return pos

section Numbers

variable (readText : List UInt8 → Except CursorFault Offset)

/-- Looks at the comment in a slice, which starts with `#`. Only the first that is marked counts,
but the text of each is read, by `readText`. -/
def readComment (c : Cursor) (start stop : Nat) : Except CursorFault Cursor := do
  let line ← slice c.bytes start stop
  if (0x23 :: placementMark).isPrefixOf line then
    let offset ← readText (line.drop (placementMark.length + 1))
    return { c with placement := c.placement.or (some offset) }
  else return c

def skip : Nat → Cursor → Except CursorFault Cursor
  | 0, _ => .error .outOfRounds
  | rounds + 1, c => do
      let start ← scan isBlank c.bytes rounds c.pos
      if c.bytes[start]? = some 0x23 then
        let stop ← scan (· ≠ 0x0A) c.bytes rounds start
        let c ← readComment readText { c with pos := stop } start stop
        skip rounds c
      else return { c with pos := start }

def afterSign (c : Cursor) : Nat :=
  if c.bytes[c.pos]? = some 0x2D ∨ c.bytes[c.pos]? = some 0x2B then c.pos + 1 else c.pos

variable (rounds : Nat)

def numeral (c : Cursor) : Except CursorFault (Option Int × Cursor) := do
  let stop ← scan Decimal.isDigit c.bytes rounds c.afterSign
  if stop = c.afterSign then return (none, c)
  else
    let text ← slice c.bytes c.pos stop
    match numeral? text with
    | some (value, _) => return (some value, { c with pos := stop })
    | none => return (none, c)

/-- The next number. If it is missing, the cursor still goes to the end of the gap. -/
def number (c : Cursor) : Except CursorFault (Option Int × Cursor) := do
  let c ← skip readText rounds c
  numeral rounds c

def readPlacement (text : List UInt8) : Except CursorFault Offset := do
  let (x, c) ← number readText rounds ⟨text, 0, none⟩
  match x with
  | none => return .zero
  | some x =>
      let (y, c) ← number readText rounds c
      match y with
      | none => return ⟨.ofInt x, 0, 0⟩
      | some y =>
          let (z, _) ← number readText rounds c
          return ⟨.ofInt x, .ofInt y, (z.bind layer?).getD 0⟩

end Numbers

/-- Reads the text behind a mark, with at most `depth` cursors open at a time. -/
def nested (rounds : Nat) : Nat → List UInt8 → Except CursorFault Offset
  | 0, _ => .error .tooDeep
  | depth + 1, text => readPlacement (nested rounds depth) rounds text

abbrev Reading (α : Type) : Type := ExceptT FrameError (StateT Cursor (Except CursorFault)) α

/-- What there is to see from where the cursor stands. -/
def here {α : Type} (look : Cursor → Except CursorFault α) : Reading α := fun c => do
  let a ← look c
  return (.ok a, c)

def settled {α : Type} (result : Except FrameError α) : Reading α := fun c => .ok (result, c)

def remaining : Reading (List UInt8) := here fun c => slice c.bytes c.pos c.bytes.length

def separator : Reading Unit := fun c =>
  match c.bytes[c.pos]? with
  | some b =>
      if isBlank b then return (.ok (), { c with pos := c.pos + 1 })
      else return (.error (.malformed .missingSeparator), c)
  | none => return (.error (.malformed .missingSeparator), c)

section Headers

variable (readText : List UInt8 → Except CursorFault Offset) (rounds : Nat)

def field (name : Field) : Reading Int := fun c => do
  let (value, c) ← number readText rounds c
  match value with
  | some value => return (.ok value, c)
  | none => return (.error (.malformed (.missing name)), c)

def side (name : Field) : Reading UInt32 := do
  let value ← field readText rounds name
  if 0 ≤ value ∧ value < 4294967296 then return UInt32.ofNat value.toNat
  else throw (.malformed (.outOfRange name value))

def channelRange : Reading Unit := do
  let value ← field readText rounds .channelRange
  if value = 255 then return () else throw (.malformed (.unsupportedChannelRange value))

def rawHeader : Reading (UInt32 × UInt32) := do
  let width ← side readText rounds .width
  let height ← side readText rounds .height
  channelRange readText rounds
  separator
  return (width, height)

/-- The numbers behind the pixels. All three are asked for, and the first that is missing ends the
row. -/
def footer (data : List UInt8) : Except CursorFault (List Int) := do
  let (x, c) ← number readText rounds ⟨data, 0, none⟩
  let (y, c) ← number readText rounds c
  let (z, _) ← number readText rounds c
  return ([x, y, z].takeWhile Option.isSome).reduceOption

def rawBody (width height : UInt32) : Reading Frame := do
  let placement ← here fun c => return c.placement
  let data ← remaining
  let needed := width.toNat * height.toNat * 3
  if 18446744073709551616 ≤ needed then throw (.malformed (.tooLarge width height))
  else if data.length < needed then throw (.truncated needed data.length)
  else
    let row ← here fun _ => do footer readText rounds (← slice data needed data.length)
    let offset ← settled (overridden (placement.getD .zero) row)
    let pixels ← here fun _ => slice data 0 needed
    let placed := placement.isSome || (!row.isEmpty && offset ≠ .zero)
    return {
      kind := if placed then .offset else .plain
      width, height, offset, pixels := Color.ofDump pixels }

def rawFrame : Reading Frame := do
  let sides ← rawHeader readText rounds
  rawBody readText rounds sides.1 sides.2

variable [Png.Codec]

def compressedBody (width height : UInt32) (x y z : Int) (data : List UInt8) :
    Except FrameError Frame := do
  let image ← match Png.Codec.read data with
    | .ok image => pure image
    | .error fault => throw (.png fault)
  if image.width ≠ width ∨ image.height ≠ height then
    throw (.malformed (.sizeMismatch width height image.width image.height))
  let z ← layer z
  return { kind := .q7, width, height, offset := ⟨.ofInt x, .ofInt y, z⟩, pixels := image.pixels }

def compressedFrame : Reading Frame := do
  let width ← side readText rounds .width
  let height ← side readText rounds .height
  channelRange readText rounds
  let x ← field readText rounds .x
  let y ← field readText rounds .y
  let z ← field readText rounds .layer
  separator
  let data ← remaining
  settled (compressedBody width height x y z data)

end Headers

/-- Reads one datagram in place, in any of the three wire forms. -/
def parse [Png.Codec] (rounds depth : Nat) (bytes : List UInt8) :
    Except CursorFault (Except FrameError Frame) :=
  if rawMagic.isPrefixOf bytes then
    Prod.fst <$> rawFrame (nested rounds depth) rounds ⟨bytes, 2, none⟩
  else if compressedMagic.isPrefixOf bytes then
    Prod.fst <$> compressedFrame (nested rounds depth) rounds ⟨bytes, 2, none⟩
  else return .error (.malformed .unknownMagic)

end Cursor

end LedWall.Frame
