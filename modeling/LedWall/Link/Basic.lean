import LedWall.SocketAddress
import LedWall.Surface.Error

/-!
# Links

A link carries datagrams to one wall until it is closed. Opening one takes a network, which finds the
address of the endpoint and gives a socket; that somebody listens there is not promised.
-/

namespace LedWall

/-- Datagram sockets of type `σ`, with effects in `m`. Failures come with a reason in words. -/
class Network (m : Type → Type) (σ : Type) where
  connect : Endpoint → m (Except String (SocketAddress × σ))
  write : σ → List UInt8 → m (Except String Nat)

/-- A link to one wall; a closed link has no socket. -/
structure Link (σ : Type) where
  endpoint : Endpoint
  peer : SocketAddress
  socket : Option σ

namespace Link

variable {σ : Type}

def isClosed (l : Link σ) : Bool := l.socket.isNone

def close (l : Link σ) : Link σ := { l with socket := none }

variable {m : Type → Type} [Monad m] [Network m σ]

def connect (endpoint : Endpoint) : m (Except SurfaceError (Link σ)) := do
  match ← Network.connect (σ := σ) endpoint with
  | .ok (peer, socket) => return .ok ⟨endpoint, peer, some socket⟩
  | .error reason => return .error (.connection endpoint.text reason)

/-- Sends one datagram. Its length is looked at first, then whether the link is open. -/
def transmit (l : Link σ) (datagram : List UInt8) : m (Except TransmissionError Unit) := do
  if maxDatagramSize < datagram.length then
    return .error (.oversize datagram.length maxDatagramSize)
  match l.socket with
  | none => return .error .closed
  | some socket =>
      match ← Network.write socket datagram with
      | .error reason => return .error (.io reason)
      | .ok sent =>
          if sent = datagram.length then return .ok ()
          else return .error (.shortWrite sent datagram.length)

instance : Transport m (Link σ) where
  transmit l datagram := do
    let result ← l.transmit datagram
    return (result, l)

end Link

end LedWall
