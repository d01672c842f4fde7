import LedWall.Command.Arguments
import LedWall.Command.Run
import LedWall.Command.Usage
import Std.Async.DNS
import Std.Async.Signal
import Std.Async.UDP

/-!
# The program

Files, sockets, the clock and the interrupt key of this machine, and the program that uses them.
-/

namespace LedWall.Machine

open Std.Async
open Std.Net (IPAddr IPv4Addr IPv6Addr)

instance : Files IO where
  read path := do
    try
      match String.fromUTF8? (← IO.FS.readBinFile path) with
      | some text => return .ok text
      | none => return .error (.other "not valid UTF-8")
    catch
      | .noFileOrDirectory .. => return .error .missing
      | e => return .error (.other (toString e))
  makeDirectory path := do
    try
      if path ≠ "" then IO.FS.createDirAll path
      return .ok ()
    catch e => return .error (toString e)
  write path text := do
    try
      IO.FS.writeFile path text
      return .ok ()
    catch e => return .error (toString e)

private def systemAddress : SocketAddress → Std.Net.SocketAddress
  | ⟨.v4 a b c d, port⟩ => .v4 ⟨⟨#v[a, b, c, d]⟩, port⟩
  | ⟨.v6 groups, port⟩ => .v6 ⟨⟨Vector.ofFn fun i => groups.getD i.val 0⟩, port⟩

private def ofSystem : IPAddr → IpAddress
  | .v4 a => .v4 a.octets[0] a.octets[1] a.octets[2] a.octets[3]
  | .v6 a => .v6 a.segments.toList

private def anyPort : IpAddress → SocketAddress
  | .v4 .. => ⟨.v4 0 0 0 0, 0⟩
  | .v6 _ => ⟨.v6 (List.replicate 8 0), 0⟩

private def isShort : IpAddress → Bool
  | .v4 .. => true
  | .v6 _ => false

/-- The address of an endpoint. Of several, the first short one is taken. -/
private def resolve (endpoint : Endpoint) : IO SocketAddress := do
  if let some address := endpoint.numeric? then return address
  if endpoint.host.contains '\x00' then throw (IO.userError "unfit host name")
  let found ← (DNS.getAddrInfo endpoint.host "").block
  let addresses := found.toList.map ofSystem
  match (addresses.find? isShort).or addresses.head? with
  | some address => return ⟨address, endpoint.port⟩
  | none => throw (IO.userError ("no addresses found for " ++ endpoint.text))

instance : Network IO UDP.Socket where
  connect endpoint := do
    try
      let peer ← resolve endpoint
      let socket ← UDP.Socket.mk
      socket.bind (systemAddress (anyPort peer.address))
      socket.connect (systemAddress peer)
      return .ok (peer, socket)
    catch e => return .error (toString e)
  write socket datagram := do
    try
      (socket.send ⟨datagram.toArray⟩).block
      return .ok datagram.length
    catch e => return .error (toString e)

private def variableNames : List String :=
  PanelSettings.environmentVariables.map Prod.fst ++ ["FT_CONFIG", "XDG_CONFIG_HOME", "HOME"]

private def environment : IO Environment := do
  let values ← variableNames.mapM fun name => return (name, ← IO.getEnv name)
  return fun name => (values.lookup name).join

/-- Lets a streamer work until its session is over, and stops it on an interrupt. -/
private partial def stream (interrupt : AsyncTask Int) (s : Streamer (Link UDP.Socket)) :
    IO (Streamer (Link UDP.Socket)) := do
  if !s.isRunning then return s
  let s := if ← IO.hasFinished interrupt then s.stop else s
  let s ← s.advance (← IO.monoNanosNow)
  match s.session with
  | some (.working w _) =>
      if let some due := w.dueAt? then
        let now ← IO.monoNanosNow
        IO.sleep (.ofNat (min 10 ((due - now) / 1000000)))
  | _ => pure ()
  stream interrupt s

private def execute (invocation : Invocation) (env : Environment) :
    IO (Except CommandError Unit) := do
  match ← invocation.run (σ := UDP.Socket) env (← IO.monoNanosNow) with
  | .error e => return .error e
  | .ok none => return .ok ()
  | .ok (some streamer) =>
      let waiter ← Signal.Waiter.mk .sigint false
      return (← stream (← waiter.wait) streamer).report.map fun _ => ()

def run (arguments : List String) : IO UInt32 := do
  let env ← environment
  match Arguments.parse env arguments with
  | .misuse =>
      IO.eprintln Usage.misuse
      return 2
  | .help =>
      IO.println Usage.text
      return 0
  | .version =>
      IO.println Usage.version
      return 0
  | .run invocation =>
      match ← execute invocation env with
      | .ok () => return 0
      | .error e =>
          IO.eprintln ("Error: " ++ e.message)
          if let some cause := e.cause? then
            IO.eprintln ("\nCaused by:\n    " ++ cause)
          return 1

end LedWall.Machine

def main (arguments : List String) : IO UInt32 := LedWall.Machine.run arguments
