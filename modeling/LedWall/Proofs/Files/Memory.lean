import LedWall.Files.Memory

/-!
# Files in memory keep what they hold

Making directories adds to what is there and changes nothing. A file that is made stands where its path
leads, before and after, since the way to it goes through directories alone.
-/

namespace LedWall.MemoryFiles

/-- A file with some content stands at a path. -/
def Holds (f : MemoryFiles) (path : String) (bytes : List UInt8) : Prop :=
  ∃ place, f.reach path = .ok place ∧ f.entry? place = some (.file bytes)

structure KeepsDirectories (f g : MemoryFiles) : Prop where
  working : g.working = f.working
  directory : ∀ place, f.entry? place = some .directory → g.entry? place = some .directory

structure Extends (f g : MemoryFiles) : Prop where
  working : g.working = f.working
  entry : ∀ place e, f.entry? place = some e → g.entry? place = some e

theorem Extends.refl (f : MemoryFiles) : Extends f f := ⟨rfl, fun _ _ h => h⟩

theorem Extends.trans {f g h : MemoryFiles} (hfg : Extends f g) (hgh : Extends g h) : Extends f h :=
  ⟨hgh.working.trans hfg.working, fun place e he => hgh.entry place e (hfg.entry place e he)⟩

theorem Extends.keepsDirectories {f g : MemoryFiles} (h : Extends f g) : KeepsDirectories f g :=
  ⟨h.working, fun place => h.entry place .directory⟩

theorem follow_of_keeps {f g : MemoryFiles} (h : KeepsDirectories f g) {place next : List String}
    {name : String} (hf : f.follow place name = .ok next) : g.follow place name = .ok next := by
  unfold follow at *
  split at hf
  · cases hf
  · cases hf
  next hdirectory => rw [h.directory place hdirectory]; exact hf

theorem foldlM_follow_of_keeps {f g : MemoryFiles} (h : KeepsDirectories f g) {names : List String}
    {origin place : List String} (hf : names.foldlM f.follow origin = .ok place) :
    names.foldlM g.follow origin = .ok place := by
  induction names generalizing origin with
  | nil => exact hf
  | cons name names ih =>
      rw [List.foldlM_cons] at hf ⊢
      cases hnext : f.follow origin name with
      | error failure =>
          rw [hnext] at hf
          cases hf
      | ok next =>
          rw [hnext] at hf
          rw [follow_of_keeps h hnext]
          exact ih hf

theorem reach_of_keeps {f g : MemoryFiles} (h : KeepsDirectories f g) {path : String}
    {place : List String} (hf : f.reach path = .ok place) : g.reach path = .ok place := by
  have hstart : g.start path = f.start path := by simp [start, h.working]
  unfold reach at *
  split at hf
  · cases hf
  · rw [hstart]
    exact foldlM_follow_of_keeps h hf

theorem Extends.holds {f g : MemoryFiles} (h : Extends f g) {path : String} {bytes : List UInt8}
    (hf : f.Holds path bytes) : g.Holds path bytes := by
  obtain ⟨place, hreach, hentry⟩ := hf
  exact ⟨place, reach_of_keeps h.keepsDirectories hreach, h.entry place _ hentry⟩

theorem lookup_filter {place other : List String} (h : other ≠ place)
    (entries : List (List String × FileEntry)) :
    (entries.filter fun e => e.1 ≠ place).lookup other = entries.lookup other := by
  induction entries with
  | nil => rfl
  | cons e entries ih =>
      obtain ⟨key, e⟩ := e
      by_cases hkey : key = place
      · have hother : (other == key) = false := by simpa [hkey] using h
        rw [List.filter_cons_of_neg (by simpa using hkey), ih, List.lookup_cons, hother]
      · rw [List.filter_cons_of_pos (by simpa using hkey), List.lookup_cons, List.lookup_cons, ih]

theorem entry?_put (f : MemoryFiles) (place other : List String) (e : FileEntry) :
    entry? (f.put place e) other =
      if other = [] then some .directory else if other = place then some e else f.entry? other := by
  unfold entry? put
  split
  · rfl
  split
  next h => simp [h]
  next h =>
    have hne : (other == place) = false := by simpa using h
    simp only [List.lookup_cons, hne, lookup_filter h]

theorem extends_put {f : MemoryFiles} {place : List String} (h : f.entry? place = none)
    (e : FileEntry) : Extends f (f.put place e) := by
  refine ⟨rfl, fun other old hold => ?_⟩
  rw [entry?_put]
  split
  next hroot => simpa [ entry?, hroot] using hold
  split
  next hother => simp [hother, h] at hold
  next => exact hold

theorem keepsDirectories_put {f : MemoryFiles} {place : List String}
    (h : f.entry? place ≠ some .directory) (e : FileEntry) : KeepsDirectories f (f.put place e) := by
  refine ⟨rfl, fun other hold => ?_⟩
  rw [entry?_put]
  split
  next => rfl
  split
  next hother => exact absurd (hother ▸ hold) h
  next => exact hold

theorem extends_makeAlong (f : MemoryFiles) (place names : List String) :
    Extends f (f.makeAlong place names).2 := by
  induction names generalizing f place with
  | nil => exact .refl f
  | cons name names ih =>
      rw [makeAlong]
      split
      · exact .refl f
      split
      · exact ih f _
      · exact .refl f
      next hnone => exact (extends_put hnone .directory).trans (ih _ _)

theorem extends_makeAll (f : MemoryFiles) (path : String) : Extends f (f.makeAll path).2 := by
  unfold makeAll
  split
  · exact .refl f
  · exact .refl f
  · exact extends_makeAlong f _ _

/-- Where a file can be made: at a place that is no directory, and under a name for a file. -/
theorem writeBytes_eq_ok {f g : MemoryFiles} {path : String} {bytes : List UInt8} :
    f.writeBytes path bytes = .ok g ↔ ∃ place, f.reach path = .ok place ∧
      f.entry? place ≠ some .directory ∧ namesDirectory path = false ∧
      f.put place (.file bytes) = g := by
  cases hreach : f.reach path with
  | error failure =>
      have hwrite : f.writeBytes path bytes = .error failure.reason := by
        rw [writeBytes, hreach]
        rfl
      simp [hwrite]
  | ok place =>
      have hwrite : f.writeBytes path bytes =
          if f.entry? place = some .directory ∨ namesDirectory path then .error "is a directory"
          else .ok (f.put place (.file bytes)) := by
        rw [writeBytes, hreach]
        rfl
      rw [hwrite]
      by_cases hfile : f.entry? place = some .directory ∨ namesDirectory path
      · have hno (hentry : f.entry? place ≠ some .directory) : namesDirectory path ≠ false := by
          simpa using hfile.resolve_left hentry
        simp only [if_pos hfile, reduceCtorEq, false_iff]
        rintro ⟨_, hplace, hentry, hpath, -⟩
        cases hplace
        exact hno hentry hpath
      · have hyes := not_or.mp hfile
        simp [hyes]

theorem holds_writeBytes {f g : MemoryFiles} {path : String} {bytes : List UInt8}
    (h : f.writeBytes path bytes = .ok g) : g.Holds path bytes := by
  obtain ⟨place, hreach, hdirectory, -, rfl⟩ := writeBytes_eq_ok.mp h
  refine ⟨place, reach_of_keeps (keepsDirectories_put hdirectory _) hreach, ?_⟩
  have hroot : place ≠ [] := by
    rintro rfl
    exact hdirectory rfl
  rw [entry?_put, if_neg hroot, if_pos rfl]

theorem fromUTF8?_toByteArray (text : String) :
    String.fromUTF8? ⟨text.toByteArray.data⟩ = some text :=
  dif_pos text.isValidUTF8

theorem readText_of_holds {f : MemoryFiles} {path text : String}
    (h : f.Holds path text.toUTF8.data.toList) (hpath : namesDirectory path = false) :
    f.readText path = .ok text := by
  obtain ⟨place, hreach, hentry⟩ := h
  simp [readText, hreach, hentry, hpath, bind, Except.bind, fromUTF8?_toByteArray]

def makeParent (f : MemoryFiles) (path : String) : Except String Unit × MemoryFiles :=
  match Files.parent? path with
  | none => (.ok (), f)
  | some directory => f.makeAll directory

/-- Whether a file can be made at a path, once its directory is made. -/
def Writable (f : MemoryFiles) (path : String) : Prop :=
  (f.makeParent path).1 = .ok () ∧ ∀ bytes, ∃ g, (f.makeParent path).2.writeBytes path bytes = .ok g

theorem extends_makeParent (f : MemoryFiles) (path : String) : Extends f (f.makeParent path).2 := by
  unfold makeParent
  split
  · exact .refl f
  · exact extends_makeAll f _

end LedWall.MemoryFiles
