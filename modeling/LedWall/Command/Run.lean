import LedWall.Assembly
import LedWall.Command.Basic
import LedWall.Drawing
import LedWall.Settings.Store
import LedWall.Stream.Streamer

/-!
# Running commands

Settings in force come from a file, then from the environment, then from the command line, each
overriding what was before. A command is carried out at once, but for streaming, which is only
started: its steps need a clock.
-/

namespace LedWall

inductive CommandError where
  | settingsNotRead (path : String) (cause : SettingsError)
  | unfitEnvironment (cause : SettingsError)
  | linkNotOpened (endpoint : Endpoint) (cause : SurfaceError)
  | panelNotOpened (cause : SurfaceError)
  | panelNotSent (cause : SurfaceError)
  | canvasNotBuilt (cause : AssemblyError)
  | canvasNotSent (cause : SurfaceError)
  | noChain
  | chainNotBuilt (cause : AssemblyError)
  | chainNotSent (cause : SurfaceError)
  | unfitPicture (cause : SurfaceError)
  | settingsNotWritten (path : String) (cause : SettingsError)
  | settingsNotKept (cause : SettingsError)
  | streaming (cause : StreamError)

namespace CommandError

def message : CommandError → String
  | settingsNotRead path _ => "failed to load config from " ++ path
  | unfitEnvironment _ => "invalid FT_* environment override"
  | linkNotOpened endpoint _ => "cannot open link to " ++ endpoint.text
  | panelNotOpened _ => "cannot open display"
  | panelNotSent _ => "send failed"
  | canvasNotBuilt _ => "cannot build canvas"
  | canvasNotSent _ => "canvas send failed"
  | noChain => "no [remap] section in config"
  | chainNotBuilt _ => "cannot build remapped display"
  | chainNotSent _ => "remapped send failed"
  | unfitPicture cause => cause.message
  | settingsNotWritten path _ => "failed to write config to " ++ path
  | settingsNotKept _ => "failed to write config"
  | streaming cause => cause.message

def cause? : CommandError → Option String
  | settingsNotRead _ cause | unfitEnvironment cause | settingsNotWritten _ cause
  | settingsNotKept cause => some cause.message
  | linkNotOpened _ cause | panelNotOpened cause | panelNotSent cause | canvasNotSent cause
  | chainNotSent cause => some cause.message
  | canvasNotBuilt cause | chainNotBuilt cause => some cause.message
  | noChain | unfitPicture _ | streaming _ => none

end CommandError

def Overrides.apply (o : Overrides) (p : PanelSettings) : PanelSettings where
  host := (o.display.map Endpoint.host).getD p.host
  port := (o.display.map Endpoint.port).getD p.port
  width := o.width.getD p.width
  height := o.height.getD p.height
  layer := o.layer.getD p.layer
  transparent := p.transparent
  datagram := p.datagram

section

variable {m : Type → Type} [Monad m] [Files m] [Toml.Format]

/-- The settings of the file. Without the name of a file, one that cannot be read does not matter. -/
def settingsOfFile (env : Environment) (o : Overrides) :
    m (Except CommandError Settings) := do
  match o.file with
  | some path => return (← Settings.loadFrom path).mapError (.settingsNotRead path)
  | none =>
      match ← Settings.load env with
      | .ok s => return .ok s
      | .error _ => return .ok {}

def Settings.inForce (env : Environment) (o : Overrides) : m (Except CommandError Settings) := do
  match ← settingsOfFile env o with
  | .error e => return .error e
  | .ok s =>
      match s.panel.override env with
      | (.error e, _) => return .error (.unfitEnvironment e)
      | (.ok (), panel) => return .ok { s with panel := o.apply panel }

def Settings.keep (s : Settings) (env : Environment) (file : Option String) :
    m (Except CommandError Unit) := do
  match file with
  | some path => return (← s.saveTo path).mapError (.settingsNotWritten path)
  | none => return (← s.save env).mapError .settingsNotKept

end

section

variable {m : Type → Type} [Monad m] {σ : Type} [Network m σ]

def openLink (p : PanelSettings) : m (Except CommandError (Link σ)) := do
  return (← Link.connect p.endpoint).mapError (.linkNotOpened p.endpoint)

def clearFrom (link : Link σ) (p : PanelSettings) :
    List Nat → m (Except CommandError Unit)
  | [] => return .ok ()
  | layer :: more => do
      match FrameBuffer.blank p.width p.height (.ofNat layer) true with
      | .error e => return .error (.unfitPicture e)
      | .ok blank =>
          let _ ← link.transmit blank.encode
          clearFrom link p more

/-- Sends a blank frame on each of the first layers, also when some cannot be sent. -/
def PanelSettings.clearLayers (σ : Type) [Network m σ] (p : PanelSettings) (layers : UInt8) :
    m (Except CommandError Unit) := do
  match ← openLink (σ := σ) p with
  | .error e => return .error e
  | .ok link => clearFrom link p (List.range layers.toNat)

def drawAndSend (s : Surface (Link σ)) (failed : SurfaceError → CommandError) :
    m (Except CommandError Unit) := do
  let (result, _) ← s.paintGradient.send
  return result.mapError failed

def Settings.sendPattern (σ : Type) [Network m σ] (s : Settings) (target : PatternTarget) :
    m (Except CommandError Unit) := do
  match target with
  | .canvas =>
      match ← s.connectCanvas (σ := σ) with
      | .error e => return .error (.canvasNotBuilt e)
      | .ok canvas => drawAndSend canvas.toSurface .canvasNotSent
  | .chain =>
      match s.chain with
      | none => return .error .noChain
      | some chain =>
          match ← chain.connect (σ := σ) with
          | .error e => return .error (.chainNotBuilt e)
          | .ok strip => drawAndSend strip.toSurface .chainNotSent
  | .panel =>
      match ← s.panel.connect (σ := σ) with
      | .error e => return .error (.panelNotOpened e)
      | .ok panel => drawAndSend (.panel panel) .panelNotSent

/-- How a session streams, by request and else by the settings, which count milliseconds. -/
def StreamRequest.options (r : StreamRequest) (s : Settings) : StreamOptions where
  interval := nanoseconds (r.interval.getD s.stream.interval)
  timeout := nanoseconds (r.timeout.getD s.stream.timeout)
  format := r.format.getD s.stream.format
  offset := ⟨0, 0, s.panel.layer⟩
  maxDatagram := s.panel.datagram

def StreamRequest.start (r : StreamRequest) (s : Settings) (now : Nat) :
    m (Except CommandError (Streamer (Link σ))) := do
  match ← openLink s.panel with
  | .error e => return .error e
  | .ok link =>
      let p := s.panel
      match FrameBuffer.blank p.width p.height p.layer p.transparent with
      | .error e => return .error (.unfitPicture e)
      | .ok base =>
          let frames := max r.frames 1
          match (Streamer.ofTarget link).start (sweep base frames) (r.options s) now with
          | (.ok (), streamer) => return .ok streamer
          | (.error e, _) => return .error (.streaming e)

end

section

variable {m : Type → Type} [Monad m] [Files m] [Toml.Format] {σ : Type} [Network m σ]

/-- Carries a command out. Where it streams, the answer is the streamer, at work. -/
def Invocation.run (i : Invocation) (env : Environment) (now : Nat) :
    m (Except CommandError (Option (Streamer (Link σ)))) := do
  match ← Settings.inForce env i.overrides with
  | .error e => return .error e
  | .ok s =>
      match i.command with
      | .clear layers => return (← s.panel.clearLayers σ layers).map fun _ => none
      | .pattern target => return (← s.sendPattern σ target).map fun _ => none
      | .stream request => return (← request.start s now).map some
      | .saveSettings => return (← s.keep env i.overrides.file).map fun _ => none

end

def Streamer.report {τ : Type} (s : Streamer τ) : Except CommandError StreamSummary :=
  match s.wait? with
  | some (.ok summary, _) => .ok summary
  | some (.error e, _) => .error (.streaming e)
  | none => .error (.streaming .alreadyRunning)

end LedWall
