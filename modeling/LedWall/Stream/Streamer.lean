import LedWall.Stream.Worker

/-!
# Streamers

A streamer owns a transport and lends it to one session at a time. While a session holds it nothing
else can send on it. The session gives it back when it has ended and is waited for, or when the next
session starts; a crash loses it.
-/

namespace LedWall

inductive Session (τ : Type) where
  | working (worker : Worker τ) (stop : Bool)
  | crashed

structure Streamer (τ : Type) where
  target : Option τ
  session : Option (Session τ)

namespace Streamer

variable {τ : Type}

def ofTarget (target : τ) : Streamer τ := ⟨some target, none⟩

def isRunning (s : Streamer τ) : Bool :=
  match s.session with
  | some (.working w _) => !w.isEnded
  | _ => false

/-- The result of a session that is over, and the streamer after it has been taken. There is none
while a worker is at work. -/
def wait? (s : Streamer τ) : Option (Except StreamError StreamSummary × Streamer τ) :=
  match s.session with
  | none => some (.error .notStarted, s)
  | some .crashed => some (.error .workerCrashed, { s with session := none })
  | some (.working w _) =>
      match w.phase with
      | .ended result => some (result, ⟨some w.target, none⟩)
      | _ => none

def reap (s : Streamer τ) : Streamer τ := (s.wait?.map Prod.snd).getD s

def start (s : Streamer τ) (source : FrameSource) (options : StreamOptions) (now : Nat) :
    Except StreamError Unit × Streamer τ :=
  if s.isRunning then (.error .alreadyRunning, s)
  else if source.count = 0 then (.error .emptySource, s)
  else
    let s := s.reap
    match s.target with
    | none => (.error .targetLost, s)
    | some target => (.ok (), ⟨none, some (.working (.start target source options now) false)⟩)

def stop (s : Streamer τ) : Streamer τ :=
  match s.session with
  | some (.working w _) => { s with session := some (.working w true) }
  | _ => s

/-- Gives the transport up, once the session is over. A session that ended in a frame that cannot be
written has kept it. -/
def intoTarget? (s : Streamer τ) : Option (Except StreamError τ) :=
  let taken (s : Streamer τ) : Except StreamError τ :=
    match s.target with
    | some target => .ok target
    | none => .error .targetLost
  match s.session with
  | none => some (taken s)
  | some _ =>
      match s.wait? with
      | none => none
      | some (.ok _, s) => some (taken s)
      | some (.error (.encode ..), s) => some (taken s)
      | some (.error e, _) => some (.error e)

variable {m : Type → Type} [Monad m] [Transport (OptionT m) τ]

def advance [Png.Codec] (s : Streamer τ) (now : Nat) : m (Streamer τ) := do
  match s.session with
  | some (.working w stop) =>
      match ← w.step ⟨now, stop⟩ with
      | some w => return { s with session := some (.working w stop) }
      | none => return { s with session := some .crashed }
  | _ => return s

end Streamer

/-- A transport that never crashes can be used where crashes are reckoned with. -/
instance (priority := low) {m : Type → Type} [Monad m] {τ : Type} [Transport m τ] :
    Transport (OptionT m) τ where
  transmit t datagram := OptionT.lift (Transport.transmit t datagram)

end LedWall
