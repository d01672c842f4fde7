import LedWall.Bands
import LedWall.Frame.Basic
import LedWall.Png.Codec
import LedWall.Text.Decimal

/-!
# Writing frames

The three wire forms. All numbers are decimal:

    plain   P6 <width> <height> 255 <pixels> 0 0 <layer>
    offset  P6 <width> <height> #FT: <x> <y> <z> 255 <pixels>
    Q7      Q7 <width> <height> 255 <x> <y> <z> <compressed image>

Pixels are channel bytes, row by row. A frame that is too long for one datagram is cut into bands of
rows, each an offset frame at its own `y`.
-/

namespace LedWall.Frame

open Decimal

def space : List UInt8 := [0x20]

def newline : List UInt8 := [0x0A]

def rawMagic : List UInt8 := [0x50, 0x36]

def compressedMagic : List UInt8 := [0x51, 0x37]

def placementMark : List UInt8 := [0x46, 0x54, 0x3A]

def sizeLine (width height : UInt32) : List UInt8 :=
  bytes width.toNat ++ space ++ bytes height.toNat ++ newline

def channelLine : List UInt8 := bytes 255 ++ newline

def plainHeader (width height : UInt32) : List UInt8 :=
  rawMagic ++ newline ++ sizeLine width height ++ channelLine

def plainFooter (layer : UInt8) : List UInt8 :=
  bytes 0 ++ newline ++ bytes 0 ++ newline ++ bytes layer.toNat ++ newline

def offsetHeader (width height : UInt32) (offset : Offset) : List UInt8 :=
  rawMagic ++ newline ++ sizeLine width height ++
    [0x23] ++ placementMark ++ space ++ signedBytes offset.x.toInt ++ space ++
    signedBytes offset.y.toInt ++ space ++ bytes offset.z.toNat ++ newline ++ channelLine

def q7Header (width height : UInt32) (offset : Offset) : List UInt8 :=
  compressedMagic ++ newline ++ sizeLine width height ++ channelLine ++
    signedBytes offset.x.toInt ++ newline ++ space ++ signedBytes offset.y.toInt ++ newline ++
    space ++ bytes offset.z.toNat ++ newline

/-- A plain frame, whatever the number of pixels. -/
def plainBytes (width height : UInt32) (layer : UInt8) (pixels : List Color) : List UInt8 :=
  plainHeader width height ++ Color.dump pixels ++ plainFooter layer

def offsetBytes (width height : UInt32) (offset : Offset) (pixels : List Color) : List UInt8 :=
  offsetHeader width height offset ++ Color.dump pixels

def q7Bytes (width height : UInt32) (offset : Offset) (image : List UInt8) : List UInt8 :=
  q7Header width height offset ++ image

def checkCount (width height : UInt32) (pixels : List Color) : Except FrameError Unit :=
  if pixels.length = width.toNat * height.toNat then .ok ()
  else .error (.pixelCount width height pixels.length)

def encodePlain (width height : UInt32) (layer : UInt8) (pixels : List Color) :
    Except FrameError (List UInt8) := do
  checkCount width height pixels
  return plainBytes width height layer pixels

def encodeOffset (width height : UInt32) (offset : Offset) (pixels : List Color) :
    Except FrameError (List UInt8) := do
  checkCount width height pixels
  return offsetBytes width height offset pixels

def rowsPerTile (rowBytes maxDatagram : Nat) : Nat := (maxDatagram - headerReserve) / rowBytes

def tile (width : UInt32) (offset : Offset) (rows : Nat) (band : List Color) (i : Nat) :
    List UInt8 :=
  offsetBytes width (UInt32.ofNat (band.length / width.toNat))
    { offset with y := offset.y + Int32.ofNat (i * rows) } band

/-- Cuts a frame into bands of rows that each fit a datagram. A frame without pixels is one tile. -/
def encodeTiles (width height : UInt32) (offset : Offset) (pixels : List Color)
    (maxDatagram : Nat) : Except FrameError (List (List UInt8)) := do
  checkCount width height pixels
  let rowBytes := width.toNat * 3
  if rowBytes = 0 ∨ pixels.isEmpty then
    return [offsetBytes width height offset pixels]
  let rows := rowsPerTile rowBytes maxDatagram
  if rows = 0 then
    throw (.rowTooWide rowBytes maxDatagram)
  return (bands (rows * width.toNat) pixels).zipIdx.map fun (band, i) =>
    tile width offset rows band i

def encodeImage [Png.Codec] (width height : UInt32) (pixels : List Color) :
    Except FrameError (List UInt8) := do
  checkCount width height pixels
  match Png.Codec.write width height pixels with
  | .ok image => return image
  | .error fault => throw (.png fault)

end LedWall.Frame
