import LedWall.Command.Basic
import LedWall.Settings.Environment

/-!
# Arguments

The arguments of the program: options, a command, and options of the command. An option is a name
behind two dashes; its value is the next argument, or follows an equals sign. Options that every
command has may also stand before the command; what stands behind it counts more. No option may be
given twice at the same place.

A value in an argument of its own is looked at only when the next option comes or the arguments of its
place are over. So the command, and what stands behind it, is looked at before the last such value in
front of it.
-/

namespace LedWall.Arguments

/-- What an option means for what has been gathered so far; refusals are for unfit values and for
options given before. -/
inductive Meaning (α : Type) where
  | flag (change : α → Option α)
  | value (change : String → α → Option α)
  | help
  | version

structure Level (α : Type) where
  option? : String → Option (Meaning α)
  letter? : Char → Option (Meaning α)
  commands : List String

inductive Pending (α : Type) where
  | nothing
  | awaiting (change : String → α → Option α)
  | ready (change : α → Option α)

def Pending.settle {α : Type} : Pending α → α → Option α
  | nothing, a => some a
  | awaiting _, _ => none
  | ready change, a => change a

inductive Stop (α : Type) where
  | misuse
  | help
  | version
  | finished (pending : Pending α) (gathered : α)
  | command (name : String) (rest : List String) (pending : Pending α) (gathered : α)

def long? (argument : String) : Option (String × Option String) :=
  match argument.toList with
  | '-' :: '-' :: c :: s =>
      let name := String.ofList ((c :: s).takeWhile (· ≠ '='))
      match (c :: s).dropWhile (· ≠ '=') with
      | [] => some (name, none)
      | _ :: value => some (name, some (String.ofList value))
  | _ => none

def letter? (argument : String) : Option Char :=
  match argument.toList with
  | '-' :: c :: _ => if c = '-' then none else some c
  | _ => none

def scan {α : Type} (level : Level α) : Pending α → α → List String → Stop α
  | pending, a, [] => .finished pending a
  | pending, a, argument :: rest =>
      let isValue := match pending with
        | .awaiting _ => true
        | _ => false
      if !isValue && level.commands.contains argument then .command argument rest pending a
      else if argument = "--" then
        if rest = [] then .finished pending a else .misuse
      else
        match long? argument with
        | some (name, attached) =>
            match level.option? name, attached with
            | some (.value change), some value =>
                match (pending.settle a).bind (change value) with
                | some a => scan level .nothing a rest
                | none => .misuse
            | some (.value change), none =>
                match pending.settle a with
                | some a => scan level (.awaiting change) a rest
                | none => .misuse
            | some (.flag change), none =>
                match (pending.settle a).bind change with
                | some a => scan level .nothing a rest
                | none => .misuse
            | some .help, none => if (pending.settle a).isSome then .help else .misuse
            | some .version, none => if (pending.settle a).isSome then .version else .misuse
            | _, _ => .misuse
        | none =>
            match letter? argument with
            | some c =>
                match level.letter? c with
                | some .help => if (pending.settle a).isSome then .help else .misuse
                | some .version => if (pending.settle a).isSome then .version else .misuse
                | _ => .misuse
            | none =>
                match pending with
                | .awaiting change => scan level (.ready (change argument)) a rest
                | _ => .misuse

def once {β : Type} (old : Option β) (value : Option β) : Option (Option β) :=
  if old.isSome then none else value.map some

/-- A number of a width that is read as a signed number first. -/
def small? (limit : Nat) (s : String) : Option Nat :=
  (Decimal.signedOfText? 0 limit s).map Int.toNat

def large? (s : String) : Option Nat := Decimal.ofText? 18446744073709551615 s

def text? (s : String) : Option String := if s = "" then none else some s

def Overrides.option? : String → Option (Meaning Overrides)
  | "config" => some <| .value fun s o => do return { o with file := ← once o.file (text? s) }
  | "display" => some <| .value fun s o => do
      return { o with display := ← once o.display (Endpoint.parse s).toOption }
  | "width" => some <| .value fun s o => do
      return { o with width := ← once o.width ((small? 4294967295 s).map .ofNat) }
  | "height" => some <| .value fun s o => do
      return { o with height := ← once o.height ((small? 4294967295 s).map .ofNat) }
  | "layer" => some <| .value fun s o => do
      return { o with layer := ← once o.layer ((small? 255 s).map .ofNat) }
  | "help" => some .help
  | _ => none

def Meaning.onFirst {α β : Type} : Meaning α → Meaning (α × β)
  | flag change => .flag fun (a, b) => (change a).map fun a => (a, b)
  | value change => .value fun s (a, b) => (change s a).map fun a => (a, b)
  | help => .help
  | version => .version

def Meaning.onSecond {α β : Type} : Meaning β → Meaning (α × β)
  | flag change => .flag fun (a, b) => (change b).map fun b => (a, b)
  | value change => .value fun s (a, b) => (change s b).map fun b => (a, b)
  | help => .help
  | version => .version

structure Gathered where
  layers : Option UInt8 := none
  canvas : Option Unit := none
  remap : Option Unit := none
  interval : Option Nat := none
  timeout : Option Nat := none
  q7 : Option Unit := none
  raw : Option Unit := none
  frames : Option Nat := none

def clearOption? : String → Option (Meaning Gathered)
  | "layers" => some <| .value fun s g => do
      return { g with layers := ← once g.layers ((small? 255 s).map .ofNat) }
  | _ => none

def patternOption? : String → Option (Meaning Gathered)
  | "canvas" => some <| .flag fun g => do return { g with canvas := ← once g.canvas (some ()) }
  | "remap" => some <| .flag fun g => do return { g with remap := ← once g.remap (some ()) }
  | _ => none

def streamOption? : String → Option (Meaning Gathered)
  | "interval-ms" => some <| .value fun s g => do
      return { g with interval := ← once g.interval (large? s) }
  | "timeout-ms" => some <| .value fun s g => do
      return { g with timeout := ← once g.timeout (large? s) }
  | "q7" => some <| .flag fun g => do return { g with q7 := ← once g.q7 (some ()) }
  | "raw" => some <| .flag fun g => do return { g with raw := ← once g.raw (some ()) }
  | "frames" => some <| .value fun s g => do
      return { g with frames := ← once g.frames (large? s) }
  | _ => none

/-- The commands with their own options and what is made of them. Options that exclude each other make
no command. -/
def commands : List (String × (String → Option (Meaning Gathered)) × (Gathered → Option Command)) :=
  [("clear", clearOption?, fun g => some (.clear (g.layers.getD 17))),
    ("pattern", patternOption?, fun g =>
      match g.canvas, g.remap with
      | some (), some () => none
      | some (), none => some (.pattern .canvas)
      | none, some () => some (.pattern .chain)
      | none, none => some (.pattern .panel)),
    ("stream", streamOption?, fun g =>
      let request : StreamRequest :=
        { interval := g.interval, timeout := g.timeout, frames := g.frames.getD 45 }
      match g.q7, g.raw with
      | some (), some () => none
      | some (), none => some (.stream { request with format := some .q7 })
      | none, some () => some (.stream { request with format := some .raw })
      | none, none => some (.stream request)),
    ("save-config", fun _ => none, fun _ => some .saveSettings)]

def commandNames : List String := commands.map Prod.fst ++ ["help"]

def outer : Level Overrides where
  option? name := if name = "version" then some .version else Overrides.option? name
  letter? c := if c = 'h' then some .help else if c = 'V' then some .version else none
  commands := commandNames

def inner (own? : String → Option (Meaning Gathered)) : Level (Overrides × Gathered) where
  option? name :=
    ((Overrides.option? name).map Meaning.onFirst).or ((own? name).map Meaning.onSecond)
  letter? c := if c = 'h' then some .help else none
  commands := []

/-- Whether a level knows its file: where the arguments name none, the environment must not name an
empty one. -/
def fileFits (env : Environment) (o : Overrides) : Bool :=
  o.file.isSome || env "FT_CONFIG" ≠ some ""

/-- What stands behind the command counts more, and arguments more than the environment. -/
def merge (front back : Overrides) (file : Option String) : Overrides where
  file := (back.file.or front.file).or file
  display := back.display.or front.display
  width := back.width.or front.width
  height := back.height.or front.height
  layer := back.layer.or front.layer

def askedAbout (rest : List String) : Request :=
  match rest with
  | [] => .help
  | [name] => if commandNames.contains name then .help else .misuse
  | _ => .misuse

def parse (env : Environment) (arguments : List String) : Request :=
  match scan outer .nothing {} arguments with
  | .misuse => .misuse
  | .help => .help
  | .version => .version
  | .finished .. => .misuse
  | .command name rest pending front =>
      if name = "help" then askedAbout rest
      else
        match commands.lookup name with
        | none => .misuse
        | some (own?, make) =>
            match scan (inner own?) .nothing ({}, {}) rest with
            | .misuse => .misuse
            | .help => .help
            | .version => .version
            | .command .. => .misuse
            | .finished innerPending gathered =>
                let invocation? : Option Invocation := do
                  let (back, own) ← innerPending.settle gathered
                  let command ← make own
                  let front ← pending.settle front
                  if fileFits env back && fileFits env front then
                    return ⟨merge front back (env "FT_CONFIG"), command⟩
                  else none
                match invocation? with
                | some invocation => .run invocation
                | none => .misuse

end LedWall.Arguments
