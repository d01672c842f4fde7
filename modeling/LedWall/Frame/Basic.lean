import LedWall.Color
import LedWall.Png.Fault

/-!
# Frames

A frame is one datagram: an image with a placement on the wall. This module holds the value that all
wire forms stand for, the limits of the wire, and what can be wrong with a frame.
-/

namespace LedWall

/-- Where the top left corner of an image goes; `z` is the layer. -/
structure Offset where
  x : Int32
  y : Int32
  z : UInt8
deriving DecidableEq, Inhabited

def Offset.zero : Offset := ⟨0, 0, 0⟩

/-- The largest datagram that fits an IPv4 packet. -/
def maxDatagramSize : Nat := 65507

/-- The bytes of a datagram that tiling keeps free for the header. -/
def headerReserve : Nat := 64

def defaultPort : UInt16 := 1337

inductive FrameKind where
  | plain
  | offset
  | q7
deriving DecidableEq

structure Frame where
  kind : FrameKind
  width : UInt32
  height : UInt32
  /-- All zero when the frame says nothing of its place. -/
  offset : Offset
  pixels : List Color
deriving DecidableEq

inductive Field where
  | width
  | height
  | channelRange
  | x
  | y
  | layer
deriving DecidableEq

def Field.name : Field → String
  | width => "width"
  | height => "height"
  | channelRange => "channel range"
  | x => "x offset"
  | y => "y offset"
  | layer => "layer"

inductive Malformation where
  | unknownMagic
  | missing (field : Field)
  | outOfRange (field : Field) (value : Int)
  | unsupportedChannelRange (value : Int)
  | missingSeparator
  | tooLarge (width height : UInt32)
  | sizeMismatch (width height imageWidth imageHeight : UInt32)
  | other (text : String)
deriving DecidableEq

def Malformation.message : Malformation → String
  | unknownMagic => "unknown magic"
  | missing field => "missing " ++ field.name
  | outOfRange field value => field.name ++ s!" {value} out of range"
  | unsupportedChannelRange value => s!"unsupported channel range {value}"
  | missingSeparator => "missing separator before data"
  | tooLarge width height => s!"dimensions {width}x{height} too large"
  | sizeMismatch width height imageWidth imageHeight =>
      s!"header declares {width}x{height} but png is {imageWidth}x{imageHeight}"
  | other text => text

inductive FrameError where
  | rowTooWide (rowBytes maxDatagram : Nat)
  | pixelCount (width height : UInt32) (actual : Nat)
  | png (fault : Png.Fault)
  | malformed (cause : Malformation)
  | truncated (needed available : Nat)
deriving DecidableEq

def FrameError.message : FrameError → String
  | rowTooWide rowBytes maxDatagram =>
      s!"a {rowBytes}-byte row does not fit a {maxDatagram}-byte datagram"
  | pixelCount width height actual => s!"{actual} pixels supplied for a {width}x{height} frame"
  | png fault => "png codec error: " ++ fault.message
  | malformed cause => "malformed frame: " ++ cause.message
  | truncated needed available =>
      s!"truncated frame: need {needed} bytes of pixel data, got {available}"

end LedWall
