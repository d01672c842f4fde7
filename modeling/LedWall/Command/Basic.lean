import LedWall.Endpoint
import LedWall.Stream.Options

/-!
# Commands

What the program is asked to do, and the settings that are given along with it.
-/

namespace LedWall

inductive PatternTarget where
  | panel
  | canvas
  | chain
deriving DecidableEq

/-- How the animation is streamed, as far as the settings should not tell; times in milliseconds. -/
structure StreamRequest where
  interval : Option Nat := none
  timeout : Option Nat := none
  format : Option StreamFormat := none
  frames : Nat := 45
deriving DecidableEq

inductive Command where
  | clear (layers : UInt8)
  | pattern (target : PatternTarget)
  | stream (request : StreamRequest)
  | saveSettings
deriving DecidableEq

structure Overrides where
  file : Option String := none
  display : Option Endpoint := none
  width : Option UInt32 := none
  height : Option UInt32 := none
  layer : Option UInt8 := none
deriving DecidableEq

structure Invocation where
  overrides : Overrides
  command : Command
deriving DecidableEq

inductive Request where
  | misuse
  | help
  | version
  | run (invocation : Invocation)
deriving DecidableEq

end LedWall
