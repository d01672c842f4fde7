import LedWall.Transport

/-!
# Failures of surfaces
-/

namespace LedWall

inductive SurfaceError where
  | invalidDimension (width height : UInt32)
  | connection (endpoint reason : String)
  | transmission (cause : TransmissionError)
  /-- Of a canvas whose members were all attempted, those that failed, with their places. -/
  | composite (attempted : Nat) (failures : List (Nat × SurfaceError))

namespace SurfaceError

def message : SurfaceError → String
  | invalidDimension width height =>
      s!"invalid display dimensions {width}x{height}: both must be positive"
  | connection endpoint reason => s!"failed to open link to {endpoint}: {reason}"
  | transmission cause => "transmission failed: " ++ cause.message
  | composite attempted failures => s!"{failures.length} of {attempted} displays failed to send"

def memberMessage (member : Nat) (e : SurfaceError) : String :=
  s!"display #{member} failed: " ++ e.message

end SurfaceError

end LedWall
