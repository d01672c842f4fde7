import LedWall.Link.Basic

/-!
# Loopback

A network inside the program: endpoints are reachable or not, and whatever is written arrives in
order.
-/

namespace LedWall

/-- Which endpoints can be reached, and the datagrams that arrived, the latest first. -/
structure Loopback where
  address? : Endpoint → Option SocketAddress
  arrived : List (List UInt8)

namespace Loopback

structure Socket where
  peer : SocketAddress

def quiet (address? : Endpoint → Option SocketAddress) : Loopback := ⟨address?, []⟩

def received (n : Loopback) : List (List UInt8) := n.arrived.reverse

instance : Network (StateM Loopback) Socket where
  connect endpoint := do
    match (← get).address? endpoint with
    | some peer => return .ok (peer, ⟨peer⟩)
    | none => return .error "unreachable"
  write _ datagram := do
    modify fun n => { n with arrived := datagram :: n.arrived }
    return .ok datagram.length

end Loopback

end LedWall
