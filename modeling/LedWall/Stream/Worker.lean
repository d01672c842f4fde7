import LedWall.Stream.Options

/-!
# Workers

A worker owns a transport and sends the frames of a source at a steady pace: one frame again and again
until the timeout has passed, or whole passes of an animation. It moves in small steps, each of which
sees one reading of the clock and whether stop has been raised, so that whatever happens beside it can
come between any two steps.

The source and the transport may crash at any call. A crash ends the worker at the step after the
call, and the transport is lost with it.
-/

namespace LedWall

/-- Frames that are asked for one at a time. The answer may depend on how many requests came before,
and a request without an answer is a crash. -/
structure FrameSource where
  count : Nat
  frame : (request index : Nat) → Option FrameBuffer

namespace FrameSource

def still (frame : FrameBuffer) : FrameSource := ⟨1, fun _ _ => some frame⟩

def ofList (frames : List FrameBuffer) : FrameSource := ⟨frames.length, fun _ index => frames[index]?⟩

def generated (count : Nat) (make : Nat → FrameBuffer) : FrameSource :=
  ⟨count, fun _ index => some (make index)⟩

end FrameSource

structure StreamSummary where
  framesSent : Nat := 0
  sendFailures : Nat := 0
  stoppedEarly : Bool := false
deriving DecidableEq

inductive StreamError where
  | alreadyRunning
  | notStarted
  | emptySource
  | targetLost
  | workerCrashed
  | encode (index : Nat) (cause : FrameError)
deriving DecidableEq

def StreamError.message : StreamError → String
  | alreadyRunning => "a streaming session is already running"
  | notStarted => "no streaming session has been started"
  | emptySource => "frame source is empty"
  | targetLost => "stream target was lost by a failed session"
  | workerCrashed => "stream worker panicked"
  | encode index cause => s!"failed to encode frame {index}: " ++ cause.message

/-- What a worker sees when it takes a step: the clock in nanoseconds, and whether stop is raised. -/
structure Moment where
  now : Nat
  stop : Bool

inductive Phase where
  | boundary
  | requesting (index : Nat)
  | pacing (datagrams : List (List UInt8))
  /-- A datagram has been handed over; its outcome is a crash if there is none. -/
  | sending (outcome : Option (Except TransmissionError Unit)) (rest : List (List UInt8))
  | ended (result : Except StreamError StreamSummary)

structure Worker (τ : Type) where
  target : τ
  source : FrameSource
  options : StreamOptions
  phase : Phase := .boundary
  requests : Nat := 0
  index : Nat := 0
  /-- Whether another frame of the current pass is due whatever the time. -/
  animating : Bool
  startedAt : Nat
  /-- The time since the start, read after the last transmission. -/
  elapsed : Nat := 0
  lastStart : Option Nat := none
  summary : StreamSummary := {}

namespace Worker

variable {τ : Type}

def start (target : τ) (source : FrameSource) (options : StreamOptions) (now : Nat) : Worker τ :=
  { target, source, options, animating := 1 < source.count, startedAt := now }

def interval (w : Worker τ) : Nat := w.options.effectiveInterval

def timeout (w : Worker τ) : Nat := w.options.timeout

def isEnded (w : Worker τ) : Bool :=
  match w.phase with
  | .ended _ => true
  | _ => false

def dueAt? (w : Worker τ) : Option Nat :=
  match w.phase with
  | .pacing _ => w.lastStart.map (· + w.interval)
  | _ => none

def finish (w : Worker τ) : Worker τ := { w with phase := .ended (.ok w.summary) }

def stopEarly (w : Worker τ) : Worker τ :=
  finish { w with summary := { w.summary with stoppedEarly := true } }

/-- Asks for the next frame. After the last frame of a pass the first one follows, and the pass is the
last if the timeout has passed. -/
def request (w : Worker τ) : Worker τ :=
  let last := w.source.count - 1
  let w' := { w with phase := .requesting w.index, requests := w.requests + 1 }
  if 1 < w.source.count then
    if w.index = last then
      { w' with index := 0, animating := w.animating && decide (w.elapsed ≤ w.timeout) }
    else { w' with index := w.index + 1 }
  else w'

def concluded (w : Worker τ) (now : Nat) (accepted : Bool) : Worker τ :=
  { w with
    phase := .boundary
    elapsed := now - w.startedAt
    summary :=
      if accepted then { w.summary with framesSent := w.summary.framesSent + 1 }
      else { w.summary with sendFailures := w.summary.sendFailures + 1 } }

variable {m : Type → Type} [Monad m] [Transport (OptionT m) τ]

def handOver (w : Worker τ) (now : Nat) : List (List UInt8) → m (Worker τ)
  | [] => return w.concluded now true
  | datagram :: rest => do
      match ← (Transport.transmit w.target datagram : OptionT m _).run with
      | some (outcome, target) => return { w with target, phase := .sending (some outcome) rest }
      | none => return { w with phase := .sending none rest }

def step [Png.Codec] (w : Worker τ) (moment : Moment) : m (Option (Worker τ)) := do
  match w.phase with
  | .ended _ => return some w
  | .boundary =>
      if w.elapsed ≤ w.timeout ∨ w.animating then
        if moment.stop then return some w.stopEarly else return some w.request
      else return some w.finish
  | .requesting index =>
      match w.source.frame (w.requests - 1) index with
      | none => return none
      | some frame =>
          match w.options.datagrams frame with
          | .error e => return some { w with phase := .ended (.error (.encode index e)) }
          | .ok datagrams =>
              if w.lastStart.isNone then
                return some (← handOver { w with lastStart := some moment.now } moment.now datagrams)
              else return some { w with phase := .pacing datagrams }
  | .pacing datagrams =>
      if moment.stop then return some w.stopEarly
      else if w.interval ≤ moment.now - w.lastStart.getD 0 then
        return some (← handOver { w with lastStart := some moment.now } moment.now datagrams)
      else return some w
  | .sending outcome rest =>
      match outcome with
      | none => return none
      | some (.ok ()) => return some (← w.handOver moment.now rest)
      | some (.error _) => return some (w.concluded moment.now false)

end Worker

end LedWall
