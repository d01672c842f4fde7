import LedWall.FrameBuffer

/-!
# Panels

One panel of a wall: its picture, the transport that carries it, and the wire form in which it goes.
-/

namespace LedWall

inductive FrameMode where
  | plain
  | offset (place : Offset)
deriving DecidableEq

structure Panel (τ : Type) where
  buffer : FrameBuffer
  transport : τ
  mode : FrameMode
  maxDatagram : Nat

namespace Panel

variable {τ : Type}

def ofBuffer (buffer : FrameBuffer) (transport : τ) : Panel τ :=
  ⟨buffer, transport, .plain, maxDatagramSize⟩

def withMode (p : Panel τ) (mode : FrameMode) : Panel τ := { p with mode }

/-- Limits the tiles of offset frames, never beyond what a datagram can hold. -/
def withMaxDatagram (p : Panel τ) (maxDatagram : Nat) : Panel τ :=
  { p with maxDatagram := min maxDatagram maxDatagramSize }

def set (p : Panel τ) (x y : Int32) (c : Color) : Panel τ :=
  { p with buffer := p.buffer.set x y c }

def clear (p : Panel τ) : Panel τ := { p with buffer := p.buffer.clear }

def datagrams (p : Panel τ) : Except FrameError (List (List UInt8)) :=
  match p.mode with
  | .plain => .ok [p.buffer.encode]
  | .offset place => p.buffer.encodeTiles place p.maxDatagram

variable {m : Type → Type} [Monad m] [Transport m τ]

/-- Sends the picture up to the first datagram that fails. The picture stays as it is. -/
def send (p : Panel τ) : m (Except SurfaceError Unit × Panel τ) := do
  match p.datagrams with
  | .error e => return (.error (.transmission (.encode e)), p)
  | .ok datagrams =>
      let (result, transport) ← Transport.transmitAll p.transport datagrams
      return (result.mapError .transmission, { p with transport })

end Panel

end LedWall
