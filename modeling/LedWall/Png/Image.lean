import LedWall.Bands
import LedWall.Flate.Zlib
import LedWall.Png.Chunk
import LedWall.Png.Filter
import LedWall.Png.Head

/-!
# Images

Reading an image of any pixel layout as 8-bit RGB, and writing 8-bit RGB pixels as an image.
-/

namespace LedWall.Png

open Flate

structure Image where
  width : UInt32
  height : UInt32
  pixels : List Color
  length_pixels : pixels.length = width.toNat * height.toNat

/-- The data of the consecutive data chunks at the head of some bytes; `fuel` bounds their number. A
chunk of another kind has to follow. -/
def joinData : Nat → List UInt8 → Except Fault (List UInt8)
  | 0, _ => .error .truncatedChunk
  | fuel + 1, bytes =>
      match Chunk.kind? bytes with
      | none => .error .truncatedChunk
      | some kind =>
          if kind = Kind.data then
            match Chunk.read? bytes with
            | none => .error .truncatedChunk
            | some r =>
                if r.sound then (joinData fuel r.rest).map (r.chunk.data ++ ·)
                else .error .checksum
          else .ok []

/-- Walks over the chunks up to the pixel rows, and gives what they tell together with the compressed
rows; `fuel` bounds their number. -/
def gather (h : Head) : Nat → List UInt8 → Except Fault (Head × List UInt8)
  | 0, _ => .error .truncatedChunk
  | fuel + 1, bytes =>
      if Chunk.kind? bytes = some Kind.data ∧ h.layout.isSome then
        (joinData (fuel + 1) bytes).map (h, ·)
      else
        match Chunk.read? bytes with
        | none => .error .truncatedChunk
        | some r =>
            match h.add r.chunk with
            | .error e => .error e
            | .ok h =>
                if !r.sound ∧ !Kind.isOptional r.chunk.kind then .error .checksum
                else if r.chunk.kind = Kind.finish then .error .missingData
                else gather h fuel r.rest

def restoreRows (l : Layout) (data : Array UInt8) (size : Nat) :
    Nat → Nat → Array UInt8 → Array (Array UInt8) → Except Fault (Array (Array UInt8))
  | 0, _, _, seen => .ok seen
  | count + 1, offset, upper, seen =>
      match Filter.ofByte? (data.getD offset 255) with
      | none => .error .data
      | some f =>
          let raw := data.extract (offset + 1) (offset + 1 + size)
          let row := f.restore l.neighbourDistance upper raw
          restoreRows l data size count (offset + 1 + size) row (seen.push row)

def placeRow (l : Layout) (palette : Array UInt8) (p : Pass) (columns y : Nat)
    (row : Array UInt8) (pixels : Array Color) : Array Color :=
  (List.range columns).foldl (fun pixels i =>
    pixels.setIfInBounds (y * l.width.toNat + p.left + i * p.across) (l.color palette row i)) pixels

def placeRows (l : Layout) (palette : Array UInt8) (p : Pass) (columns : Nat)
    (rows : List (Array UInt8)) (pixels : Array Color) : Array Color :=
  rows.zipIdx.foldl (fun pixels (row, i) =>
    placeRow l palette p columns (p.top + i * p.down) row pixels) pixels

def readPasses (l : Layout) (palette data : Array UInt8) :
    List Pass → Nat → Array Color → Except Fault (Array Color)
  | [], _, pixels => .ok pixels
  | p :: ps, offset, pixels => do
      let columns := p.columns l.width.toNat
      let count := if columns = 0 then 0 else p.rows l.height.toNat
      let rows ← restoreRows l data (l.rowBytes columns) count offset #[] #[]
      let pixels := placeRows l palette p columns rows.toList pixels
      readPasses l palette data ps (offset + l.passBytes p) pixels

theorem size_placeRow (l : Layout) (palette : Array UInt8) (p : Pass) (columns y : Nat)
    (row : Array UInt8) (pixels : Array Color) :
    (placeRow l palette p columns y row pixels).size = pixels.size := by
  rw [placeRow]
  induction columns with
  | zero => rfl
  | succ columns ih => simp [List.range_succ, ih]

theorem size_placeRows (l : Layout) (palette : Array UInt8) (p : Pass) (columns : Nat)
    (rows : List (Array UInt8)) (pixels : Array Color) :
    (placeRows l palette p columns rows pixels).size = pixels.size := by
  rw [placeRows]
  generalize rows.zipIdx = numbered
  induction numbered generalizing pixels with
  | nil => rfl
  | cons numberedRow more ih => rw [List.foldl_cons, ih, size_placeRow]

theorem size_readPasses (l : Layout) (palette data : Array UInt8) (passes : List Pass)
    (offset : Nat) (pixels : Array Color) {out : Array Color}
    (h : readPasses l palette data passes offset pixels = .ok out) : out.size = pixels.size := by
  induction passes generalizing offset pixels with
  | nil =>
      cases h
      rfl
  | cons p ps ih =>
      rw [readPasses] at h
      dsimp only at h
      generalize restoreRows l data _ _ offset #[] #[] = rows at h
      cases rows with
      | error e => cases h
      | ok rows => rw [ih _ _ h, size_placeRows]

def readPixels (l : Layout) (palette data : Array UInt8) : Except Fault (List Color) :=
  if data.size < l.dataBytes then .error .data
  else
    let blank := Array.replicate (l.width.toNat * l.height.toNat) Color.black
    (readPasses l palette data l.passes 0 blank).map Array.toList

theorem length_readPixels {l : Layout} {palette data : Array UInt8} {pixels : List Color}
    (h : readPixels l palette data = .ok pixels) :
    pixels.length = l.width.toNat * l.height.toNat := by
  rw [readPixels] at h
  split at h
  next => cases h
  next =>
    dsimp only at h
    cases hread : readPasses l palette data l.passes 0
        (Array.replicate (l.width.toNat * l.height.toNat) .black) with
    | error e =>
        rw [hread] at h
        cases h
    | ok out =>
        rw [hread] at h
        cases h
        simpa using size_readPasses _ _ _ _ _ _ hread

def ofParts (h : Head) (compressed : List UInt8) : Except Fault Image :=
  match h.layout with
  | none => .error .header
  | some l =>
      if l.samples = .palette ∧ h.palette.isNone then .error .palette
      else
        match Zlib.unwrap? compressed with
        | none => .error .data
        | some data =>
            match hread : readPixels l (h.palette.getD []).toArray data with
            | .error e => .error e
            | .ok pixels => .ok ⟨l.width, l.height, pixels, length_readPixels hread⟩

def decode (bytes : List UInt8) : Except Fault Image :=
  if bytes.take 8 = signature then do
    let bytes := bytes.drop 8
    let (h, compressed) ← gather .empty (bytes.length + 1) bytes
    ofParts h compressed
  else .error .signature

def plainRows (width : UInt32) (pixels : List Color) : List UInt8 :=
  (bands width.toNat pixels).flatMap fun row => 0 :: Color.dump row

def dataLimit : Nat := 2147483647

def dataChunks (compressed : List UInt8) : List UInt8 :=
  (bands dataLimit compressed).flatMap fun piece => Chunk.bytes ⟨Kind.data, piece⟩

def encode (width height : UInt32) (pixels : List Color) : Except Fault (List UInt8) :=
  if width = 0 ∨ height = 0 then .error .emptyImage
  else
    .ok <| signature ++ Chunk.bytes ⟨Kind.header, Layout.rgbBytes width height⟩ ++
      dataChunks (Zlib.wrap (plainRows width pixels)) ++ Chunk.bytes ⟨Kind.finish, []⟩

end LedWall.Png
