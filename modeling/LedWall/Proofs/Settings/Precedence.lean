import LedWall.Files.Memory
import LedWall.Proofs.Settings.Sources

/-!
# Which source a setting comes from

For each field of the panel the first source that says something of it decides, and the usual value
if none does. What is unfit counts even where it would be overridden.
-/

namespace LedWall

open Toml (Value Table)

namespace Settings

variable [Toml.Format]

inductive Misread (path : String) : Except ReadFailure String → SettingsError → Prop where
  | unreadable (reason : String) : Misread path (.error (.other reason)) (.io path reason)
  | unparsable {text : String} (h : parse? text = none) : Misread path (.ok text) .parse

/-- The settings that are kept where they are looked for, and the document that holds them. It is
empty where nothing is found, and where something unfit is found, unless the place was named. -/
inductive Kept (o : Overrides) : Except ReadFailure String → Table → Settings → Prop where
  | document {text : String} {t : Table} {s : Settings} (ht : Toml.Format.read? text = some t)
      (hs : ofTable? t = some s) : Kept o (.ok text) t s
  | missing : Kept o (.error .missing) [] {}
  | ignored {path : String} {found : Except ReadFailure String} {cause : SettingsError}
      (hfile : o.file = none) (h : Misread path found cause) : Kept o found [] {}

theorem Kept.ofTable?_eq {o : Overrides} {found : Except ReadFailure String} {t : Table}
    {s : Settings} (h : Kept o found t s) : ofTable? t = some s := by
  cases h with
  | document _ hs => exact hs
  | missing | ignored => rfl

def loaded (path : String) : Except ReadFailure String → Except SettingsError Settings
  | .ok text =>
      match parse? text with
      | some s => .ok s
      | none => .error .parse
  | .error .missing => .ok {}
  | .error (.other reason) => .error (.io path reason)

def readable? : Except ReadFailure String → Option Settings
  | .ok text => parse? text
  | .error .missing => some {}
  | .error (.other _) => none

theorem toOption_loaded (path : String) (found : Except ReadFailure String) :
    (loaded path found).toOption = readable? found := by
  rcases found with (_ | reason) | text
  · rfl
  · rfl
  · rw [loaded, readable?]
    cases parse? text <;> rfl

def kept (o : Overrides) (found : Except ReadFailure String) : Except CommandError Settings :=
  match o.file with
  | some path => (loaded path found).mapError (.settingsNotRead path)
  | none => .ok ((readable? found).getD {})

/-- The settings in force, given what is found where they are kept. -/
def given (env : Environment) (o : Overrides) (found : Except ReadFailure String) :
    Except CommandError Settings :=
  match kept o found with
  | .error e => .error e
  | .ok s =>
      match s.panel.override env with
      | (.error e, _) => .error (.unfitEnvironment e)
      | (.ok (), panel) => .ok { s with panel := o.apply panel }

section Lawful

variable {m : Type → Type} [Monad m] [Files m]

def find (env : Environment) (o : Overrides) : m (Except ReadFailure String) :=
  match o.file.or (location? env) with
  | some path => Files.read path
  | none => return .error .missing

variable [LawfulMonad m]

theorem loadFrom_eq (path : String) :
    (loadFrom path : m _) = loaded path <$> Files.read path := by
  rw [loadFrom, map_eq_pure_bind]
  congr 1
  funext found
  rcases found with (_ | reason) | text
  · rfl
  · rfl
  · rw [loaded]
    dsimp only
    cases parse? text <;> rfl

theorem load_eq (env : Environment) : (load env : m _) = match location? env with
    | some path => loaded path <$> Files.read path
    | none => return .error .noLocation := by
  rw [load, location]
  cases location? env with
  | none => rfl
  | some path => exact loadFrom_eq path

theorem settingsOfFile_eq (env : Environment) (o : Overrides) :
    (settingsOfFile env o : m _) = kept o <$> find env o := by
  rw [settingsOfFile, find]
  cases hfile : o.file with
  | some path =>
      have hkept : kept o = fun found => (loaded path found).mapError (.settingsNotRead path) := by
        funext found
        rw [kept, hfile]
      rw [Option.some_or, hkept]
      dsimp only
      rw [loadFrom_eq, bind_map_left, map_eq_pure_bind]
  | none =>
      have hkept : ∀ found, kept o found = .ok ((readable? found).getD {}) := by
        intro found
        rw [kept, hfile]
      rw [Option.none_or]
      dsimp only
      rw [load_eq]
      cases location? env with
      | none => simp [hkept, readable?]
      | some path =>
          rw [bind_map_left, map_eq_pure_bind]
          congr 1
          funext found
          rw [hkept, ← toOption_loaded path found]
          cases loaded path found <;> rfl

theorem inForce_eq (env : Environment) (o : Overrides) :
    (inForce env o : m _) = given env o <$> find env o := by
  rw [inForce, settingsOfFile_eq, bind_map_left, map_eq_pure_bind]
  congr 1
  funext found
  rw [given]
  cases kept o found with
  | error e => rfl
  | ok s =>
      dsimp only
      obtain ⟨_ | _, panel⟩ := s.panel.override env <;> rfl

end Lawful

/-- The file was named, and what is found there is unfit. -/
def Refused (o : Overrides) (found : Except ReadFailure String) (e : CommandError) : Prop :=
  ∃ path cause, o.file = some path ∧ Misread path found cause ∧ e = .settingsNotRead path cause

theorem Misread.loaded_eq {path : String} {found : Except ReadFailure String}
    {cause : SettingsError} (h : Misread path found cause) : loaded path found = .error cause := by
  cases h with
  | unreadable => rfl
  | unparsable h => rw [loaded, h]

theorem loaded_cases (path : String) (found : Except ReadFailure String) :
    (∃ t s, loaded path found = .ok s ∧ ∀ o, Kept o found t s) ∨
      ∃ cause, loaded path found = .error cause ∧ Misread path found cause := by
  rcases found with (_ | reason) | text
  · exact .inl ⟨[], {}, rfl, fun _ => .missing⟩
  · exact .inr ⟨_, rfl, .unreadable reason⟩
  · cases hparse : parse? text with
    | none =>
        have hmisread : Misread path (.ok text) .parse := .unparsable hparse
        exact .inr ⟨.parse, hmisread.loaded_eq, hmisread⟩
    | some s =>
        have hload : loaded path (.ok text) = .ok s := by rw [loaded, hparse]
        rw [parse?] at hparse
        obtain ⟨t, ht, hs⟩ := Option.bind_eq_some_iff.mp hparse
        exact .inl ⟨t, s, hload, fun _ => .document ht hs⟩

theorem Refused.kept_eq {o : Overrides} {found : Except ReadFailure String} {e : CommandError}
    (h : Refused o found e) : kept o found = .error e := by
  obtain ⟨path, cause, hfile, hmisread, rfl⟩ := h
  rw [kept, hfile]
  dsimp only
  rw [hmisread.loaded_eq]
  rfl

theorem kept_cases (o : Overrides) (found : Except ReadFailure String) :
    (∃ t s, kept o found = .ok s ∧ Kept o found t s) ∨
      ∃ e, kept o found = .error e ∧ Refused o found e := by
  cases hfile : o.file with
  | some path =>
      rcases loaded_cases path found with ⟨t, s, hload, hkept⟩ | ⟨cause, -, hmisread⟩
      · refine .inl ⟨t, s, ?_, hkept o⟩
        rw [kept, hfile]
        dsimp only
        rw [hload]
        rfl
      · have hrefused : Refused o found _ := ⟨path, cause, hfile, hmisread, rfl⟩
        exact .inr ⟨_, hrefused.kept_eq, hrefused⟩
  | none =>
      left
      rw [kept, hfile]
      dsimp only
      rw [← toOption_loaded "" found]
      rcases loaded_cases "" found with ⟨t, s, hload, hkept⟩ | ⟨cause, hload, hmisread⟩
      · exact ⟨t, s, by rw [hload]; rfl, hkept o⟩
      · exact ⟨[], {}, by rw [hload]; rfl, .ignored hfile hmisread⟩

/-- The settings in force: each field of the panel is from the first source that says something of
it, and all else is as it is kept. -/
structure Resolved (env : Environment) (o : Overrides) (t : Table) (kept s : Settings) : Prop where
  host : s.panel.host = ((o.display.map Endpoint.host).or <| (env.get? "FT_HOST").or <|
    (env.display?.map Endpoint.host).or <| t.panelField? "host" Value.string?).getD "localhost"
  port : s.panel.port = ((o.display.map Endpoint.port).or <|
    (env.number? "FT_PORT" 65535 UInt16.ofNat).or <|
    (env.display?.map Endpoint.port).or <| t.panelField? "port" port?).getD 1337
  width : s.panel.width = (o.width.or <| (env.number? "FT_WIDTH" 4294967295 UInt32.ofNat).or <|
    t.panelField? "width" word?).getD 45
  height : s.panel.height = (o.height.or <| (env.number? "FT_HEIGHT" 4294967295 UInt32.ofNat).or <|
    t.panelField? "height" word?).getD 35
  layer : s.panel.layer = (o.layer.or <| (env.number? "FT_LAYER" 255 UInt8.ofNat).or <|
    t.panelField? "layer" byte?).getD 5
  datagram : s.panel.datagram = ((env.number? "FT_UDP_SIZE" 18446744073709551615 id).or <|
    t.panelField? "udp_size" nat?).getD 65507
  transparent : s.panel.transparent =
    (t.panelField? "transparent" Value.boolean?).getD false
  others : s = { kept with panel := s.panel }

structure Precedence (env : Environment) (o : Overrides) (found : Except ReadFailure String)
    (result : Except CommandError Settings) : Prop where
  resolved : ∀ s, result = .ok s → ∃ t kept, Kept o found t kept ∧ Resolved env o t kept s
  /-- The file comes before the variables, and these come in their order. -/
  fails : ∀ e, result = .error e ↔ Refused o found e ∨ (∀ e', ¬ Refused o found e') ∧
    ∃ name value,
      PanelSettings.panelVariables.findSome? (Variable.unfit? env) = some (name, value) ∧
      e = .unfitEnvironment (.invalidVariable name value)

theorem Resolved.of_kept {env : Environment} {o : Overrides} {found : Except ReadFailure String}
    {t : Table} {kept : Settings} (h : Kept o found t kept) {panel : PanelSettings}
    (hpanel : panel = env.sources.foldl (fun p source => source.applyTo p) kept.panel) :
    Resolved env o t kept { kept with panel := o.apply panel } := by
  rw [panel_eq h.ofTable?_eq] at hpanel
  simp only [Environment.sources, List.foldl_cons, List.foldl_nil, PanelSource.applyTo,
    Option.getD_none] at hpanel
  rw [hpanel]
  constructor
  case host | port | width | height | layer | datagram =>
    simp only [Option.getD_or]
    rfl
  case transparent | others => rfl

theorem precedence_given (env : Environment) (o : Overrides) (found : Except ReadFailure String) :
    Precedence env o found (given env o found) := by
  rw [given]
  rcases kept_cases o found with ⟨t, kept, hkept, ht⟩ | ⟨cause, hkept, hrefused⟩
  case inr =>
    rw [hkept]
    refine ⟨(by rintro _ ⟨⟩), fun e => ⟨fun h => ?_, fun h => ?_⟩⟩
    · cases h
      exact .inl hrefused
    · rcases h with h | ⟨hnone, -⟩
      · rw [← h.kept_eq, hkept]
      · exact absurd hrefused (hnone cause)
  case inl =>
    have hnone : ∀ e, ¬ Refused o found e := by
      intro e h
      rw [h.kept_eq] at hkept
      cases hkept
    rw [hkept]
    dsimp only
    rw [PanelSettings.override, PanelSettings.environmentVariables_eq, Variable.overrideBy_eq,
      Variable.verdict]
    cases hunfit : PanelSettings.panelVariables.findSome? (Variable.unfit? env) with
    | none =>
        rw [Variable.takeWhile_of_fit hunfit]
        refine ⟨fun s hs => ?_, fun e => ⟨(by rintro ⟨⟩), fun h => ?_⟩⟩
        · cases hs
          refine ⟨t, kept, ht, .of_kept ht ?_⟩
          rw [← env.map_source_panelVariables, List.foldl_map]
        · rcases h with h | ⟨-, name, value, h, -⟩
          · exact absurd h (hnone e)
          · cases hunfit.symm.trans h
    | some unfit =>
        obtain ⟨name, value⟩ := unfit
        refine ⟨(by rintro _ ⟨⟩), fun e => ⟨fun h => ?_, fun h => ?_⟩⟩
        · cases h
          exact .inr ⟨hnone, name, value, hunfit, rfl⟩
        · rcases h with h | ⟨-, name', value', h, rfl⟩
          · exact absurd h (hnone e)
          · cases hunfit.symm.trans h
            rfl

end Settings

/-- The settings in force depend on what is found where they are kept, and for each field on the
first source that says something of it. They fail for a named file that is unfit, or else for the
first variable that is, whether or not it would be overridden. -/
theorem settings_precedence [Toml.Format] {m : Type → Type} [Monad m] [LawfulMonad m] [Files m]
    (env : Environment) (o : Overrides) :
    (Settings.inForce env o : m (Except CommandError Settings)) =
      Settings.given env o <$> Settings.find env o ∧
    (∀ found, Settings.Precedence env o found (Settings.given env o found)) ∧
    ∀ text e, Endpoint.parse text = .ok e ↔ e.Spelled text :=
  ⟨Settings.inForce_eq env o, Settings.precedence_given env o, fun _ _ => Endpoint.parse_eq_ok_iff⟩

def stageText : String := "[display]\nhost = \"hall\"\nlayer = 3\n"

def stageFiles : MemoryFiles := ⟨[], [(["wall.toml"], .file stageText.toUTF8.toList)]⟩

def stageEnvironment : Environment := fun name =>
  if name = "FT_DISPLAY" then some ":9" else if name = "FT_HOST" then some "stage" else none

def stageOverrides : Overrides := { file := some "wall.toml", width := some 12 }

theorem settings_precedence_stage :
    LawfulMonad (StateM MemoryFiles) ∧ ∃ s : Settings,
      Settings.Precedence stageEnvironment stageOverrides (.ok stageText) (.ok s) ∧
      ((Settings.inForce stageEnvironment stageOverrides : StateM MemoryFiles _).run stageFiles).1 =
        .ok s ∧
      s.panel = { host := "stage", port := 9, width := 12, layer := 3 } := by
  have hfind : ((Settings.find stageEnvironment stageOverrides :
      StateM MemoryFiles _).run stageFiles).1 = .ok stageText := by decide +kernel
  have hparse : Settings.parse? stageText = some { panel := { host := "hall", layer := 3 } } := by
    decide +kernel
  have hgiven : Settings.given stageEnvironment stageOverrides (.ok stageText) =
      .ok { panel := { host := "stage", port := 9, width := 12, layer := 3 } } := by
    have hkept : Settings.kept stageOverrides (.ok stageText) =
        .ok { panel := { host := "hall", layer := 3 } } := by
      simp only [Settings.kept, stageOverrides, Settings.loaded, hparse]
      rfl
    rw [Settings.given, hkept]
    rfl
  obtain ⟨hforce, hprecedence, -⟩ :=
    settings_precedence (m := StateM MemoryFiles) stageEnvironment stageOverrides
  have hstage := hprecedence (.ok stageText)
  rw [hgiven] at hstage
  refine ⟨inferInstance, _, hstage, ?_, rfl⟩
  rw [hforce, ← hgiven, ← hfind]
  rfl

theorem unfit_path_refused :
    MemoryFiles.entry? ⟨[], [(["f"], .file [])]⟩ ["f", "x.toml"] = none ∧
    ((Settings.inForce (fun _ => none) { file := some "f/x.toml" } : StateM MemoryFiles _).run
        ⟨[], [(["f"], .file [])]⟩).1 =
      .error (.settingsNotRead "f/x.toml" (.io "f/x.toml" "not a directory")) :=
  ⟨rfl, rfl⟩

end LedWall
