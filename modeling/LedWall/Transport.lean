import LedWall.Frame.Basic

/-!
# Transports

Whatever delivers datagrams, one per call. A delivery can fail for reasons that leave the pixels as
they are, so that the frame can be sent again.
-/

namespace LedWall

inductive TransmissionError where
  | oversize (size max : Nat)
  | closed
  | shortWrite (sent expected : Nat)
  | io (reason : String)
  | encode (cause : FrameError)
deriving DecidableEq

def TransmissionError.message : TransmissionError → String
  | oversize size max => s!"frame of {size} bytes exceeds the {max}-byte datagram limit"
  | closed => "link is closed"
  | shortWrite sent expected => s!"short write: sent {sent} of {expected} bytes"
  | io reason => "send failed: " ++ reason
  | encode cause => "could not encode frame: " ++ cause.message

/-- Delivery of datagrams with effects in `m` by a transport whose state is a value of `τ`. -/
class Transport (m : Type → Type) (τ : Type) where
  transmit : τ → List UInt8 → m (Except TransmissionError Unit × τ)

namespace Transport

variable {m : Type → Type} [Monad m] {τ : Type} [Transport m τ]

def transmitAll (t : τ) : List (List UInt8) → m (Except TransmissionError Unit × τ)
  | [] => pure (.ok (), t)
  | datagram :: more => do
      match ← transmit t datagram with
      | (.ok (), t) => transmitAll t more
      | (.error e, t) => pure (.error e, t)

end Transport

end LedWall
