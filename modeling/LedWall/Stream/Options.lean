import LedWall.FrameBuffer

/-!
# Streaming options

How fast, how long, in which wire form and at which place a session sends its frames.
-/

namespace LedWall

inductive StreamFormat where
  | q7
  | raw
deriving DecidableEq

/-- The nanoseconds in so many milliseconds. -/
def nanoseconds (milliseconds : Nat) : Nat := milliseconds * 1000000

def usualInterval : Nat := nanoseconds 100

structure StreamOptions where
  /-- Nanoseconds between the starts of consecutive transmissions; zero stands for the usual. -/
  interval : Nat := usualInterval
  /-- Nanoseconds for which frames are sent again. -/
  timeout : Nat := 0
  format : StreamFormat := .q7
  offset : Offset := .zero
  maxDatagram : Nat := maxDatagramSize
deriving DecidableEq

namespace StreamOptions

def effectiveInterval (o : StreamOptions) : Nat :=
  if o.interval = 0 then usualInterval else o.interval

def datagrams [Png.Codec] (o : StreamOptions) (frame : FrameBuffer) :
    Except FrameError (List (List UInt8)) :=
  match o.format with
  | .q7 => (frame.encodeQ7 o.offset).map fun datagram => [datagram]
  | .raw => frame.encodeTiles o.offset (min o.maxDatagram maxDatagramSize)

end StreamOptions

end LedWall
