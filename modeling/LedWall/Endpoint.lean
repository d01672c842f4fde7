import LedWall.Frame.Basic
import LedWall.Text.Decimal
import LedWall.Text.Quoted

/-!
# Endpoints

The address of a wall as people write it: a host and, after a colon, a port. Either part may be left
out.
-/

namespace LedWall

structure Endpoint where
  host : String
  port : UInt16
deriving DecidableEq

namespace Endpoint

def defaultHost : String := "ft.noise"

def standard : Endpoint := ⟨defaultHost, defaultPort⟩

structure InvalidPort where
  text : String
deriving DecidableEq

def InvalidPort.message (e : InvalidPort) : String :=
  "invalid port " ++ Text.quoted e.text ++ " in display address"

def port? (s : String) : Option UInt16 := (Decimal.ofText? 65535 s).map UInt16.ofNat

def orDefaultHost (host : String) : String := if host = "" then defaultHost else host

/-- Reads `host` or `host:port`; the first colon divides. -/
def parse (s : String) : Except InvalidPort Endpoint :=
  let host := String.ofList (s.toList.takeWhile (· ≠ ':'))
  match s.toList.dropWhile (· ≠ ':') with
  | [] => .ok ⟨orDefaultHost host, defaultPort⟩
  | _ :: port =>
      let port := String.ofList port
      match port? port with
      | some p => .ok ⟨orDefaultHost host, p⟩
      | none => .error ⟨port⟩

/-- The endpoint that an optional setting names; without a setting, or with an empty one, it is the
standard one. -/
def ofSetting (s : Option String) : Except InvalidPort Endpoint :=
  match s with
  | none => .ok standard
  | some s => if s = "" then .ok standard else parse s

def text (e : Endpoint) : String := e.host ++ ":" ++ Decimal.text e.port.toNat

end Endpoint

end LedWall
