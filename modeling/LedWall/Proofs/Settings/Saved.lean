import LedWall.Proofs.Files.Memory
import LedWall.Proofs.Settings.Written
import LedWall.Settings.Store

/-!
# Settings that are kept

Settings that were saved are loaded as they were, whatever the format, as long as it is lawful. Settings
that cannot be spelled are not saved, and no file is lost over it.
-/

namespace LedWall.Settings

theorem run_bind {σ α β : Type} (x : StateM σ α) (next : α → StateM σ β) (s : σ) :
    (x >>= next).run s = (next (x.run s).1).run (x.run s).2 := rfl

theorem run_pure {σ α : Type} (x : α) (s : σ) : (pure x : StateM σ α).run s = (x, s) := rfl

section

variable [Toml.Format] {f g : MemoryFiles} {path : String}

theorem saveTo_of_makeParent_error {reason : String} (s : Settings)
    (hmake : f.makeParent path = (.error reason, g)) : ∃ directory,
    (s.saveTo path : StateM MemoryFiles (Except SettingsError Unit)).run f =
      (.error (.io directory reason), g) := by
  unfold MemoryFiles.makeParent at hmake
  split at hmake
  next => cases hmake
  next directory hparent =>
    have hrun : (Files.makeDirectory directory : StateM MemoryFiles (Except String Unit)).run f =
        (.error reason, g) := hmake
    exact ⟨directory, by simp only [saveTo, hparent, run_bind, hrun, run_pure]⟩

theorem saveTo_of_makeParent_ok (s : Settings) (hmake : f.makeParent path = (.ok (), g)) :
    (s.saveTo path : StateM MemoryFiles (Except SettingsError Unit)).run f =
      (s.writeTo path : StateM MemoryFiles (Except SettingsError Unit)).run g := by
  unfold MemoryFiles.makeParent at hmake
  split at hmake
  next hparent =>
    cases hmake
    simp only [saveTo, hparent]
  next directory hparent =>
    have hrun : (Files.makeDirectory directory : StateM MemoryFiles (Except String Unit)).run f =
        (.ok (), g) := hmake
    simp only [saveTo, hparent, run_bind, hrun]

theorem writeTo_of_render?_none {s : Settings} (hrender : s.render? = none) :
    (s.writeTo path : StateM MemoryFiles (Except SettingsError Unit)).run f =
      (.error .serialize, f) := by
  simp only [writeTo, hrender, run_pure]

theorem writeTo_of_writeBytes {s : Settings} {text : String} (hrender : s.render? = some text)
    (hwrite : f.writeBytes path text.toUTF8.data.toList = .ok g) :
    (s.writeTo path : StateM MemoryFiles (Except SettingsError Unit)).run f = (.ok (), g) := by
  have hrun : (Files.write path text : StateM MemoryFiles (Except String Unit)).run f =
      (.ok (), g) := by
    show MemoryFiles.write path text f = _
    rw [MemoryFiles.write, hwrite]
  simp only [writeTo, hrender, run_bind, hrun, run_pure]

theorem loadFrom_of_readText {s : Settings} {text : String} (hread : f.readText path = .ok text)
    (hparse : parse? text = some s) :
    (loadFrom path : StateM MemoryFiles (Except SettingsError Settings)).run f = (.ok s, f) := by
  have hrun : (Files.read path : StateM MemoryFiles (Except ReadFailure String)).run f =
      (.ok text, f) := by
    show (f.readText path, f) = _
    rw [hread]
  simp only [loadFrom, run_bind, hrun, hparse, run_pure]

theorem loadFrom_saveTo (hformat : Toml.Format.Lawful) {s : Settings} (hs : s.Fits)
    (hpath : f.Writable path) : ∃ g,
    (s.saveTo path : StateM MemoryFiles (Except SettingsError Unit)).run f = (.ok (), g) ∧
    (loadFrom path : StateM MemoryFiles (Except SettingsError Settings)).run g = (.ok s, g) := by
  obtain ⟨text, hwritten, hread⟩ :=
    hformat.inverse s.toTable s.orderly_toTable (s.fieldsFit_toTable.mpr hs)
  obtain ⟨g, hg⟩ := hpath.2 text.toUTF8.data.toList
  have hmake : f.makeParent path = (.ok (), (f.makeParent path).2) := Prod.ext hpath.1 rfl
  obtain ⟨-, -, -, hname, -⟩ := MemoryFiles.writeBytes_eq_ok.mp hg
  refine ⟨g, ?_, ?_⟩
  · rw [saveTo_of_makeParent_ok s hmake]
    exact writeTo_of_writeBytes hwritten hg
  · apply loadFrom_of_readText
    · exact MemoryFiles.readText_of_holds (MemoryFiles.holds_writeBytes hg) hname
    · rw [parse?, hread, Option.bind_some, ofTable?_toTable hs]

theorem saveTo_of_not_fits (hformat : Toml.Format.Lawful) {s : Settings} (hs : ¬ s.Fits)
    (f : MemoryFiles) (path : String) : ∃ e g,
    (s.saveTo path : StateM MemoryFiles (Except SettingsError Unit)).run f = (.error e, g) ∧
    ((f.makeParent path).1 = .ok () → e = .serialize) ∧
    ∀ other bytes, f.Holds other bytes → g.Holds other bytes := by
  have hrender : s.render? = none := by
    apply hformat.limit
    rw [← Bool.not_eq_true, fieldsFit_toTable]
    exact hs
  have hkept := MemoryFiles.extends_makeParent f path
  cases hmake : f.makeParent path with
  | mk result g =>
      rw [hmake] at hkept
      cases result with
      | error reason =>
          obtain ⟨directory, hsave⟩ := saveTo_of_makeParent_error s hmake
          exact ⟨_, g, hsave, (fun h => by cases h), fun other bytes => hkept.holds⟩
      | ok _ =>
          refine ⟨.serialize, g, ?_, fun _ => rfl, fun other bytes => hkept.holds⟩
          rw [saveTo_of_makeParent_ok s hmake, writeTo_of_render?_none hrender]

/-- Settings whose integers fit are loaded as they were saved, from wherever a file can be made. Other
settings are not saved, and every file stays as it was. -/
theorem load_saved (hformat : Toml.Format.Lawful) (s : Settings) (f : MemoryFiles) (path : String) :
    (s.Fits → f.Writable path → ∃ g,
      (s.saveTo path : StateM MemoryFiles (Except SettingsError Unit)).run f = (.ok (), g) ∧
      (loadFrom path : StateM MemoryFiles (Except SettingsError Settings)).run g = (.ok s, g)) ∧
    (¬ s.Fits → ∃ e g,
      (s.saveTo path : StateM MemoryFiles (Except SettingsError Unit)).run f = (.error e, g) ∧
      ((f.makeParent path).1 = .ok () → e = .serialize) ∧
      ∀ other bytes, f.Holds other bytes → g.Holds other bytes) :=
  ⟨loadFrom_saveTo hformat, fun hs => saveTo_of_not_fits hformat hs f path⟩

end

def hall : Settings where
  panel := { host := "hall \"west\"\n\x01", layer := 7 }
  stream := { timeout := 9223372036854775807, format := .raw }
  members := [{ width := 9, height := 8, x := 45 }]
  chain := some {
    width := 2, height := 2, segments := [4],
    runs := [⟨.vertical, 1, 0, [2, 2]⟩] }

def endless : Settings := { stream := { timeout := 9223372036854775808 } }

def hallFiles : MemoryFiles := ⟨[], [(["ft.toml"], .file [35, 10])]⟩

theorem load_saved_hall :
    Toml.Format.Lawful ∧ hall.Fits ∧ hallFiles.Writable "/etc/hall/ft.toml" ∧
    (∃ g, (hall.saveTo "/etc/hall/ft.toml" : StateM MemoryFiles (Except SettingsError Unit)).run
        hallFiles = (.ok (), g) ∧
      (loadFrom "/etc/hall/ft.toml" : StateM MemoryFiles (Except SettingsError Settings)).run g =
        (.ok hall, g)) ∧
    ¬ endless.Fits ∧ hallFiles.Holds "/ft.toml" [35, 10] ∧
    ∃ g, (endless.saveTo "/ft.toml" : StateM MemoryFiles (Except SettingsError Unit)).run hallFiles =
        (.error .serialize, g) ∧ g.Holds "/ft.toml" [35, 10] := by
  have hfits : hall.Fits := by
    unfold Fits AllFit
    decide +kernel
  have hwritable : hallFiles.Writable "/etc/hall/ft.toml" := by
    have hplace : (hallFiles.makeParent "/etc/hall/ft.toml").2.reach "/etc/hall/ft.toml" =
        .ok ["etc", "hall", "ft.toml"] := rfl
    refine ⟨rfl, fun bytes => ⟨_, MemoryFiles.writeBytes_eq_ok.mpr ⟨_, hplace, ?_, rfl, rfl⟩⟩⟩
    decide +kernel
  have hlarge : ¬ endless.Fits := by
    unfold Fits AllFit
    decide +kernel
  have hholds : hallFiles.Holds "/ft.toml" [35, 10] := ⟨["ft.toml"], rfl, rfl⟩
  obtain ⟨e, g, hsave, he, hkept⟩ := (load_saved Toml.lawful endless hallFiles "/ft.toml").2 hlarge
  obtain rfl := he rfl
  exact ⟨Toml.lawful, hfits, hwritable,
    (load_saved Toml.lawful hall hallFiles "/etc/hall/ft.toml").1 hfits hwritable, hlarge, hholds,
    g, hsave, hkept _ _ hholds⟩

end LedWall.Settings
