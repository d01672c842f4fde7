import LedWall.Command.Run
import LedWall.Proofs.Endpoint

/-!
# What sources say of the panel

The command line, each variable of the environment and the document of the settings say something of
some fields of the panel and nothing of the others.
-/

namespace LedWall

open Toml (Value Table)

/-- What one source says of the panel. -/
structure PanelSource where
  host : Option String := none
  port : Option UInt16 := none
  width : Option UInt32 := none
  height : Option UInt32 := none
  layer : Option UInt8 := none
  datagram : Option Nat := none

def PanelSource.applyTo (x : PanelSource) (p : PanelSettings) : PanelSettings where
  host := x.host.getD p.host
  port := x.port.getD p.port
  width := x.width.getD p.width
  height := x.height.getD p.height
  layer := x.layer.getD p.layer
  transparent := p.transparent
  datagram := x.datagram.getD p.datagram

namespace Endpoint

def Spelled (e : Endpoint) (text : String) : Prop :=
  ∃ host rest, text.toList = host ++ rest ∧ ':' ∉ host ∧
    e.host = (if host = [] then "ft.noise" else String.ofList host) ∧
    (rest = [] ∧ e.port = 1337 ∨
      ∃ port, rest = ':' :: port ∧ port? (String.ofList port) = some e.port)

theorem spelled_of_parse {text : String} {e : Endpoint} (h : parse text = .ok e) :
    e.Spelled text := by
  rcases divided_or text with htext | ⟨host, port, hdivided⟩
  · rw [parse_of_notMem htext] at h
    obtain rfl := Except.ok.inj h
    refine ⟨text.toList, [], (List.append_nil _).symm, htext, ?_, .inl ⟨rfl, rfl⟩⟩
    rw [← orDefaultHost_ofList, String.ofList_toList]
  · obtain ⟨hhost, hport⟩ := (parse_eq_ok_iff_of_divided hdivided).mp h
    refine ⟨host, _, hdivided.1, hdivided.2, ?_, .inr ⟨port, rfl, ?_⟩⟩
    · rw [hhost, orDefaultHost_ofList]
    · rwa [port?_eq_some_iff, String.toList_ofList]

theorem parse_of_spelled {text : String} {e : Endpoint} (h : e.Spelled text) :
    parse text = .ok e := by
  obtain ⟨host, rest, htext, hhost, hname, hrest⟩ := h
  rw [← orDefaultHost_ofList] at hname
  rcases hrest with ⟨rfl, hport⟩ | ⟨port, rfl, hport⟩
  · rw [List.append_nil] at htext
    rw [← htext] at hhost hname
    rw [parse_of_notMem hhost, ← hport, ← String.ofList_toList (s := text), ← hname]
  · rw [parse_eq_ok_iff_of_divided ⟨htext, hhost⟩]
    rw [port?_eq_some_iff, String.toList_ofList] at hport
    exact ⟨hname, hport⟩

theorem parse_eq_ok_iff {text : String} {e : Endpoint} : parse text = .ok e ↔ e.Spelled text :=
  ⟨spelled_of_parse, parse_of_spelled⟩

end Endpoint

/-- A variable and what its values say. An unfit value says nothing. -/
structure Variable where
  name : String
  meaning : String → Option PanelSource

namespace Variable

def change (x : Variable) : String × (String → PanelSettings → Option PanelSettings) :=
  (x.name, fun value p => (x.meaning value).map fun source => source.applyTo p)

/-- The name and the value of a variable that is unfit. -/
def unfit? (env : Environment) (x : Variable) : Option (String × String) :=
  (env.get? x.name).bind fun value =>
    if (x.meaning value).isNone then some (x.name, value) else none

def source (env : Environment) (x : Variable) : PanelSource :=
  ((env.get? x.name).bind x.meaning).getD {}

def verdict (env : Environment) (xs : List Variable) : Except SettingsError Unit :=
  match xs.findSome? (unfit? env) with
  | some (name, value) => .error (.invalidVariable name value)
  | none => .ok ()

theorem takeWhile_of_fit {env : Environment} {xs : List Variable}
    (h : xs.findSome? (unfit? env) = none) :
    xs.takeWhile (fun x => (x.unfit? env).isNone) = xs := by
  rw [List.takeWhile_eq_self_iff]
  intro x hx
  rw [List.findSome?_eq_none_iff.mp h x hx, Option.isNone_none]

theorem overrideBy_eq (env : Environment) (xs : List Variable) (p : PanelSettings) :
    PanelSettings.overrideBy env (xs.map change) p = (verdict env xs,
      (xs.takeWhile fun x => (x.unfit? env).isNone).foldl
        (fun p x => (x.source env).applyTo p) p) := by
  induction xs generalizing p with
  | nil => rfl
  | cons x more ih =>
      rw [List.map_cons, change, PanelSettings.overrideBy, verdict, List.findSome?_cons,
        List.takeWhile_cons]
      cases hget : env.get? x.name with
      | none =>
          have hfit : x.unfit? env = none := by rw [unfit?, hget, Option.bind_none]
          have hsilent : x.source env = {} := by
            rw [source, hget, Option.bind_none, Option.getD_none]
          rw [hfit, Option.isNone_none, if_pos rfl, List.foldl_cons, hsilent]
          exact ih p
      | some value =>
          dsimp only
          cases hmeaning : x.meaning value with
          | none =>
              have hunfit : x.unfit? env = some (x.name, value) := by
                simp [unfit?, hget, hmeaning]
              rw [hunfit]
              rfl
          | some told =>
              have hfit : x.unfit? env = none := by simp [unfit?, hget, hmeaning]
              have htold : x.source env = told := by simp [source, hget, hmeaning]
              rw [hfit, Option.isNone_none, if_pos rfl, List.foldl_cons, htold]
              exact ih (told.applyTo p)

end Variable

namespace PanelSettings

def numeral? {α : Type} (limit : Nat) (make : Nat → α) (value : String) : Option α :=
  (numberUpTo? limit value).map make

/-- The variables in the order in which they take effect. -/
def panelVariables : List Variable :=
  [⟨"FT_DISPLAY", fun value => (Endpoint.parse value).toOption.map fun e =>
      { host := some e.host, port := some e.port }⟩,
    ⟨"FT_HOST", fun value => some { host := some value }⟩,
    ⟨"FT_PORT", fun value => (numeral? 65535 UInt16.ofNat value).map fun n => { port := some n }⟩,
    ⟨"FT_WIDTH", fun value =>
      (numeral? 4294967295 UInt32.ofNat value).map fun n => { width := some n }⟩,
    ⟨"FT_HEIGHT", fun value =>
      (numeral? 4294967295 UInt32.ofNat value).map fun n => { height := some n }⟩,
    ⟨"FT_LAYER", fun value => (numeral? 255 UInt8.ofNat value).map fun n => { layer := some n }⟩,
    ⟨"FT_UDP_SIZE", fun value =>
      (numeral? 18446744073709551615 id value).map fun n => { datagram := some n }⟩]

theorem environmentVariables_eq : environmentVariables = panelVariables.map Variable.change := by
  have hnumber : ∀ {α : Type} (limit : Nat) (make : Nat → α) (meaning : α → PanelSource)
      (value : String) (p : PanelSettings),
      ((numeral? limit make value).map meaning).map (fun source => source.applyTo p) =
        (numberUpTo? limit value).map fun n => (meaning (make n)).applyTo p := by
    intro α limit make meaning value p
    rw [numeral?, Option.map_map, Option.map_map]
    rfl
  simp only [environmentVariables, panelVariables, List.map_cons, List.map_nil, Variable.change,
    hnumber]
  congr
  funext value p
  cases Endpoint.parse value <;> rfl

end PanelSettings

namespace Environment

def read? {α : Type} (env : Environment) (name : String) (read : String → Option α) : Option α :=
  (env.get? name).bind read

def number? {α : Type} (env : Environment) (name : String) (limit : Nat) (make : Nat → α) :
    Option α := env.read? name (PanelSettings.numeral? limit make)

def display? (env : Environment) : Option Endpoint :=
  env.read? "FT_DISPLAY" fun value => (Endpoint.parse value).toOption

def sources (env : Environment) : List PanelSource :=
  [{ host := env.display?.map Endpoint.host, port := env.display?.map Endpoint.port },
    { host := env.get? "FT_HOST" },
    { port := env.number? "FT_PORT" 65535 UInt16.ofNat },
    { width := env.number? "FT_WIDTH" 4294967295 UInt32.ofNat },
    { height := env.number? "FT_HEIGHT" 4294967295 UInt32.ofNat },
    { layer := env.number? "FT_LAYER" 255 UInt8.ofNat },
    { datagram := env.number? "FT_UDP_SIZE" 18446744073709551615 id }]

theorem source_eq {α : Type} (env : Environment) (name : String) (read : String → Option α)
    (make : Option α → PanelSource) (h : make none = {}) :
    Variable.source env ⟨name, fun value => (read value).map fun a => make (some a)⟩ =
      make (env.read? name read) := by
  rw [Variable.source, read?]
  dsimp only
  cases env.get? name with
  | none => exact h.symm
  | some value =>
      rw [Option.bind_some, Option.bind_some]
      cases read value with
      | none => exact h.symm
      | some a => rfl

theorem map_source_panelVariables (env : Environment) :
    PanelSettings.panelVariables.map (Variable.source env) = env.sources := by
  have hhost : env.read? "FT_HOST" some = env.get? "FT_HOST" := Option.bind_fun_some _
  rw [sources, ← hhost]
  refine List.cons_eq_cons.mpr ⟨env.source_eq _ _
    (fun x => { host := x.map Endpoint.host, port := x.map Endpoint.port }) rfl, ?_⟩
  refine List.cons_eq_cons.mpr ⟨env.source_eq _ some (fun x => { host := x }) rfl, ?_⟩
  refine List.cons_eq_cons.mpr ⟨env.source_eq _ _ (fun x => { port := x }) rfl, ?_⟩
  refine List.cons_eq_cons.mpr ⟨env.source_eq _ _ (fun x => { width := x }) rfl, ?_⟩
  refine List.cons_eq_cons.mpr ⟨env.source_eq _ _ (fun x => { height := x }) rfl, ?_⟩
  refine List.cons_eq_cons.mpr ⟨env.source_eq _ _ (fun x => { layer := x }) rfl, ?_⟩
  exact List.cons_eq_cons.mpr ⟨env.source_eq _ _ (fun x => { datagram := x }) rfl, rfl⟩

end Environment

def Toml.Table.panelField? {α : Type} (t : Table) (name : String) (read : Value → Option α) :
    Option α := do
  let v ← t.get? "display"
  let fields ← Settings.sectionOf? PanelSettings.fieldNames v
  (fields.get? name).bind read

namespace Settings

theorem eq_of_optional {α : Type} {t : Table} {name : String} {read : Value → Option α}
    {usual a : α} (h : optional t name read usual = some a) :
    a = ((t.get? name).bind read).getD usual := by
  rw [optional] at h
  cases hv : t.get? name with
  | none =>
      rw [hv] at h
      exact (Option.some.inj h).symm
  | some v =>
      rw [hv] at h
      have hread : read v = some a := h
      rw [Option.bind_some, hread, Option.getD_some]

theorem panel_of_ofTable? {t : Table} {s : Settings} (h : ofTable? t = some s) :
    optional t "display" PanelSettings.ofValue? {} = some s.panel := by
  simp only [ofTable?, Option.bind_eq_bind, Option.bind_eq_some_iff, Option.pure_def,
    Option.some.injEq] at h
  obtain ⟨panel, hpanel, stream, -, members, -, chain, -, rfl⟩ := h
  exact hpanel

/-- The panel of a document, field by field. -/
theorem panel_eq {t : Table} {s : Settings} (h : ofTable? t = some s) : s.panel =
    { host := (t.panelField? "host" Value.string?).getD settingsHost
      port := (t.panelField? "port" port?).getD defaultPort
      width := (t.panelField? "width" word?).getD 45
      height := (t.panelField? "height" word?).getD 35
      layer := (t.panelField? "layer" byte?).getD settingsLayer
      transparent := (t.panelField? "transparent" Value.boolean?).getD false
      datagram := (t.panelField? "udp_size" nat?).getD maxDatagramSize } := by
  have hpanel := panel_of_ofTable? h
  rw [optional] at hpanel
  cases hv : t.get? "display" with
  | none =>
      rw [hv] at hpanel
      simp only [Table.panelField?, hv]
      exact (Option.some.inj hpanel).symm
  | some v =>
      rw [hv] at hpanel
      simp only [PanelSettings.ofValue?, Option.bind_eq_bind, Option.bind_eq_some_iff,
        Option.pure_def, Option.some.injEq] at hpanel
      obtain ⟨fields, hfields, host, hhost, port, hport, width, hwidth, height, hheight, layer,
        hlayer, transparent, htransparent, datagram, hdatagram, hpanel⟩ := hpanel
      have hfield : ∀ {α : Type} (name : String) (read : Value → Option α),
          t.panelField? name read = (fields.get? name).bind read := by
        intro α name read
        simp only [Table.panelField?, hv, hfields, Option.bind_eq_bind, Option.bind_some]
      rw [← hpanel, eq_of_optional hhost, eq_of_optional hport, eq_of_optional hwidth,
        eq_of_optional hheight, eq_of_optional hlayer, eq_of_optional htransparent,
        eq_of_optional hdatagram]
      simp only [hfield]

end Settings

end LedWall
