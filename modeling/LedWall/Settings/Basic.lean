import LedWall.Chain
import LedWall.Endpoint
import LedWall.Stream.Options

/-!
# Settings

What the program knows of an installation: the panel it usually draws on, how it streams, the members
of a canvas, and a chain of lights.
-/

namespace LedWall

def settingsHost : String := "localhost"

def settingsLayer : UInt8 := 5

structure PanelSettings where
  host : String := settingsHost
  port : UInt16 := defaultPort
  width : UInt32 := 45
  height : UInt32 := 35
  layer : UInt8 := settingsLayer
  transparent : Bool := false
  datagram : Nat := maxDatagramSize
deriving DecidableEq

/-- How a session streams, with times in milliseconds. -/
structure StreamSettings where
  interval : Nat := 100
  timeout : Nat := 0
  format : StreamFormat := .q7
deriving DecidableEq

structure MemberSettings where
  host : String := settingsHost
  port : UInt16 := defaultPort
  width : UInt32
  height : UInt32
  layer : UInt8 := settingsLayer
  transparent : Bool := false
  x : UInt32 := 0
  y : UInt32 := 0
  /-- Whether the member's frames carry its place, for members on one server. -/
  placeOnServer : Bool := false
deriving DecidableEq

structure ChainSettings where
  host : String := settingsHost
  port : UInt16 := defaultPort
  layer : UInt8 := settingsLayer
  transparent : Bool := false
  width : UInt32
  height : UInt32
  segments : List Nat
  runs : List Run := []
deriving DecidableEq

structure Settings where
  panel : PanelSettings := {}
  stream : StreamSettings := {}
  members : List MemberSettings := []
  chain : Option ChainSettings := none
deriving DecidableEq

def PanelSettings.endpoint (p : PanelSettings) : Endpoint := ⟨p.host, p.port⟩

def MemberSettings.endpoint (m : MemberSettings) : Endpoint := ⟨m.host, m.port⟩

def ChainSettings.endpoint (c : ChainSettings) : Endpoint := ⟨c.host, c.port⟩

end LedWall
