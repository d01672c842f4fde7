import LedWall.Proofs.Toml.Lawful
import LedWall.Settings.Reader
import LedWall.Settings.Writer

/-!
# Settings as tables

The table of settings holds every field under its name, so that no usual value takes the place of one
that was set. It can be spelled if its integers fit.
-/

namespace LedWall

open Toml (Value Table)

def PanelSettings.integers (p : PanelSettings) : List Nat :=
  [p.port.toNat, p.width.toNat, p.height.toNat, p.layer.toNat, p.datagram]

def StreamSettings.integers (s : StreamSettings) : List Nat := [s.interval, s.timeout]

def MemberSettings.integers (m : MemberSettings) : List Nat :=
  [m.port.toNat, m.width.toNat, m.height.toNat, m.layer.toNat, m.x.toNat, m.y.toNat]

def Run.integers (r : Run) : List Nat := [r.x.toNat, r.y.toNat] ++ r.segments

def ChainSettings.integers (c : ChainSettings) : List Nat :=
  [c.port.toNat, c.layer.toNat, c.width.toNat, c.height.toNat] ++ c.segments ++
    c.runs.flatMap Run.integers

def Settings.integers (s : Settings) : List Nat :=
  s.panel.integers ++ s.stream.integers ++ s.members.flatMap MemberSettings.integers ++
    s.chain.toList.flatMap ChainSettings.integers

namespace Settings

def AllFit (ns : List Nat) : Prop := ∀ n ∈ ns, n ≤ 9223372036854775807

/-- Whether the integers of the settings fit. -/
def Fits (s : Settings) : Prop := AllFit s.integers

theorem natUpTo?_number {limit n : Nat} (h : n ≤ limit) :
    (number n).natUpTo? limit = some n :=
  if_pos h

theorem byte?_number (n : UInt8) : byte? (number n.toNat) = some n := by
  have := n.toNat_lt
  rw [byte?, natUpTo?_number (by omega), Option.map_some, UInt8.ofNat_toNat]

theorem port?_number (n : UInt16) : port? (number n.toNat) = some n := by
  have := n.toNat_lt
  rw [port?, natUpTo?_number (by omega), Option.map_some, UInt16.ofNat_toNat]

theorem word?_number (n : UInt32) : word? (number n.toNat) = some n := by
  have := n.toNat_lt
  rw [word?, natUpTo?_number (by omega), Option.map_some, UInt32.ofNat_toNat]

theorem nat?_number {n : Nat} (h : n ≤ 9223372036854775807) : nat? (number n) = some n :=
  natUpTo?_number (Nat.le_trans h (by decide))

theorem mapM_map {α : Type} {read : Value → Option α} {write : α → Value} {xs : List α}
    (h : ∀ x ∈ xs, read (write x) = some x) : (xs.map write).mapM read = some xs := by
  induction xs with
  | nil => rfl
  | cons x xs ih =>
      simp only [List.mem_cons, forall_eq_or_imp] at h
      simp [h.1, ih h.2]

theorem listOf?_numbers {ns : List Nat} (h : AllFit ns) : listOf? nat? (numbers ns) = some ns :=
  mapM_map fun n hn => nat?_number (h n hn)

theorem listOf?_tables {α : Type} {read : Value → Option α} {fields : α → Table} {xs : List α}
    (h : ∀ x ∈ xs, read (.table (fields x)) = some x) :
    listOf? read (tables fields xs) = some xs :=
  mapM_map h

end Settings

open Settings

theorem StreamFormat.lookup_name (f : StreamFormat) : names.lookup f.name = some f := by
  cases f <;> rfl

theorem Direction.lookup_name (d : Direction) : names.lookup d.name = some d := by
  cases d <;> rfl

theorem PanelSettings.ofValue?_toTable {p : PanelSettings}
    (h : AllFit p.integers) : ofValue? (.table p.toTable) = some p := by
  have hdatagram : p.datagram ≤ 9223372036854775807 := h _ (by simp [integers])
  simp [ofValue?, sectionOf?, Settings.optional, Table.get?, toTable, List.lookup_cons,
    port?_number, word?_number, byte?_number, nat?_number hdatagram, Value.string?, Value.boolean?]

theorem StreamSettings.ofValue?_toTable {s : StreamSettings}
    (h : AllFit s.integers) : ofValue? (.table s.toTable) = some s := by
  have hinterval : s.interval ≤ 9223372036854775807 := h _ (by simp [integers])
  have htimeout : s.timeout ≤ 9223372036854775807 := h _ (by simp [integers])
  simp [ofValue?, sectionOf?, Settings.optional, Table.get?, toTable, List.lookup_cons, choice?,
    nat?_number hinterval, nat?_number htimeout, StreamFormat.lookup_name]

theorem MemberSettings.ofValue?_toTable (m : MemberSettings) :
    ofValue? (.table m.toTable) = some m := by
  simp [ofValue?, sectionOf?, Settings.optional, required, Table.get?, toTable, List.lookup_cons,
    port?_number, word?_number, byte?_number, Value.string?, Value.boolean?]

theorem Run.ofValue?_toTable {r : Run} (h : AllFit r.integers) :
    ofValue? (.table r.toTable) = some r := by
  have hsegments : AllFit r.segments :=
    fun n hn => h n (by simp [integers, hn])
  simp [ofValue?, sectionOf?, required, Table.get?, toTable, List.lookup_cons, choice?,
    word?_number, listOf?_numbers hsegments, Direction.lookup_name]

theorem ChainSettings.ofValue?_toTable {c : ChainSettings}
    (h : AllFit c.integers) : ofValue? (.table c.toTable) = some c := by
  have hsegments : AllFit c.segments :=
    fun n hn => h n (by simp [integers, hn])
  have hruns : listOf? Run.ofValue? (tables Run.toTable c.runs) = some c.runs := by
    apply listOf?_tables
    intro r hr
    apply Run.ofValue?_toTable
    intro n hn
    exact h n (List.mem_append_right _ (List.mem_flatMap.mpr ⟨r, hr, hn⟩))
  simp [ofValue?, sectionOf?, Settings.optional, required, Table.get?, toTable, List.lookup_cons,
    port?_number, word?_number, byte?_number, listOf?_numbers hsegments, hruns, Value.string?,
    Value.boolean?]

namespace Settings

theorem membersOf?_toTable (ms : List MemberSettings) :
    membersOf? (.table [("members", tables MemberSettings.toTable ms)]) = some ms := by
  have hmembers : listOf? MemberSettings.ofValue? (tables MemberSettings.toTable ms) = some ms :=
    listOf?_tables fun m _ => m.ofValue?_toTable
  simp [membersOf?, sectionOf?, Settings.optional, Table.get?, hmembers]

/-- The table of settings reads as the settings. -/
theorem ofTable?_toTable {s : Settings} (h : s.Fits) : ofTable? s.toTable = some s := by
  obtain ⟨panel, stream, members, chain⟩ := s
  have hpanel : PanelSettings.ofValue? (.table panel.toTable) = some panel :=
    PanelSettings.ofValue?_toTable fun n hn => h n (by simp [integers, hn])
  have hstream : StreamSettings.ofValue? (.table stream.toTable) = some stream :=
    StreamSettings.ofValue?_toTable fun n hn => h n (by simp [integers, hn])
  cases chain with
  | none =>
      simp [ofTable?, toTable, Settings.optional, Table.get?, List.lookup_cons, hpanel, hstream,
        membersOf?_toTable]
  | some c =>
      have hchain : ChainSettings.ofValue? (.table c.toTable) = some c :=
        ChainSettings.ofValue?_toTable fun n hn => h n (by simp [integers, hn])
      simp [ofTable?, toTable, Settings.optional, Table.get?, List.lookup_cons, hpanel, hstream,
        membersOf?_toTable, hchain]

theorem arranged_of_isPlain {inside : Table → Prop} {t : Table} (hnames : (t.map Prod.fst).Nodup)
    (ht : ∀ field ∈ t, field.2.isPlain = true) : Toml.Arranged inside t :=
  ⟨hnames, t, [], by simp, ht, by simp⟩

theorem arranged_tables {α : Type} {inside : Table → Prop} {t : Table} {name : String}
    {fields : α → Table} {xs : List α} (hnames : ((t ++ [(name, tables fields xs)]).map Prod.fst).Nodup)
    (ht : ∀ field ∈ t, field.2.isPlain = true) (hinside : ∀ x ∈ xs, inside (fields x)) :
    Toml.Arranged inside (t ++ [(name, tables fields xs)]) := by
  by_cases hxs : xs = []
  · apply arranged_of_isPlain hnames
    intro field hfield
    rcases List.mem_append.mp hfield with hfield | hfield
    · exact ht field hfield
    · obtain rfl := List.mem_singleton.mp hfield
      rw [hxs]
      rfl
  · refine ⟨hnames, t, [(name, tables fields xs)], rfl, ht, fun field hfield => ?_⟩
    obtain rfl := List.mem_singleton.mp hfield
    refine ⟨by simpa using hxs, fun v hv => ?_⟩
    obtain ⟨x, hx, rfl⟩ := List.mem_map.mp hv
    exact ⟨fields x, rfl, hinside x hx⟩

theorem isPlain_string (text : String) : (Value.string text).isPlain = true := rfl

theorem isPlain_boolean (b : Bool) : (Value.boolean b).isPlain = true := rfl

theorem isPlain_number (n : Nat) : (number n).isPlain = true := rfl

theorem isPlain_numbers (ns : List Nat) : (numbers ns).isPlain = true := by
  simp [numbers, Value.isPlain, number, Value.isScalar]

theorem orderly_panel (p : PanelSettings) (depth : Nat) : Toml.Orderly (depth + 1) p.toTable :=
  arranged_of_isPlain (by simp [PanelSettings.toTable])
    (by simp [PanelSettings.toTable, isPlain_string, isPlain_boolean, isPlain_number])

theorem orderly_stream (s : StreamSettings) (depth : Nat) : Toml.Orderly (depth + 1) s.toTable :=
  arranged_of_isPlain (by simp [StreamSettings.toTable])
    (by simp [StreamSettings.toTable, isPlain_string, isPlain_number])

theorem orderly_member (m : MemberSettings) (depth : Nat) : Toml.Orderly (depth + 1) m.toTable :=
  arranged_of_isPlain (by simp [MemberSettings.toTable])
    (by simp [MemberSettings.toTable, isPlain_string, isPlain_boolean, isPlain_number])

theorem orderly_run (r : Run) (depth : Nat) : Toml.Orderly (depth + 1) r.toTable :=
  arranged_of_isPlain (by simp [Run.toTable])
    (by simp [Run.toTable, isPlain_string, isPlain_number, isPlain_numbers])

theorem orderly_canvas (ms : List MemberSettings) (depth : Nat) :
    Toml.Orderly (depth + 2) [("members", tables MemberSettings.toTable ms)] :=
  arranged_tables (t := []) (by simp) (by simp) (fun m _ => orderly_member m depth)

theorem orderly_chain (c : ChainSettings) (depth : Nat) : Toml.Orderly (depth + 2) c.toTable := by
  have hplain : ∀ field ∈ c.toTable.dropLast, field.2.isPlain = true := by
    simp [ChainSettings.toTable, isPlain_string, isPlain_boolean, isPlain_number, isPlain_numbers]
  have hnames : ((c.toTable.dropLast ++ [("runs", tables Run.toTable c.runs)]).map Prod.fst).Nodup := by
    simp [ChainSettings.toTable]
  exact arranged_tables hnames hplain fun r _ => orderly_run r depth

theorem orderly_toTable (s : Settings) : Toml.Orderly Toml.depthLimit s.toTable := by
  refine ⟨?_, [], s.toTable, rfl, fun _ h => (by cases h), fun field hfield => ?_⟩
  · cases hchain : s.chain <;> simp [toTable, hchain]
  simp only [toTable, List.mem_append, List.mem_cons, List.not_mem_nil, or_false, List.mem_map,
    Option.mem_toList] at hfield
  rcases hfield with (rfl | rfl | rfl) | ⟨c, -, rfl⟩
  · exact orderly_panel s.panel 78
  · exact orderly_stream s.stream 78
  · exact orderly_canvas s.members 77
  · exact orderly_chain c 77

theorem fits_number {n : Nat} : (number n).fits = true ↔ n ≤ 9223372036854775807 := by
  rw [number, Value.fits, Bool.and_eq_true, decide_eq_true_eq, decide_eq_true_eq, Toml.minInteger,
    Toml.maxInteger]
  omega

theorem elementsFit_map {α : Type} {write : α → Value} {xs : List α} :
    Toml.elementsFit (xs.map write) = true ↔ ∀ x ∈ xs, (write x).fits = true := by
  induction xs with
  | nil => simp [Toml.elementsFit]
  | cons x xs ih => simp [Toml.elementsFit, ih]

theorem fits_numbers {ns : List Nat} :
    (numbers ns).fits = true ↔ AllFit ns := by
  rw [numbers, Value.fits, elementsFit_map, AllFit]
  simp only [fits_number]

theorem fits_tables {α : Type} {fields : α → Table} {xs : List α} :
    (tables fields xs).fits = true ↔ ∀ x ∈ xs, Toml.fieldsFit (fields x) = true := by
  rw [tables, Value.fits, elementsFit_map]
  simp only [Value.fits]

theorem fits_string (text : String) : (Value.string text).fits = true := rfl

theorem fits_boolean (b : Bool) : (Value.boolean b).fits = true := rfl

theorem fieldsFit_panel (p : PanelSettings) : Toml.fieldsFit p.toTable = true ↔
    AllFit p.integers := by
  simp [PanelSettings.toTable, Toml.fieldsFit, PanelSettings.integers, AllFit, fits_number, fits_string,
    fits_boolean]

theorem fieldsFit_stream (s : StreamSettings) : Toml.fieldsFit s.toTable = true ↔
    AllFit s.integers := by
  simp [StreamSettings.toTable, Toml.fieldsFit, StreamSettings.integers, AllFit, fits_number, fits_string]

theorem fieldsFit_member (m : MemberSettings) : Toml.fieldsFit m.toTable = true ↔
    AllFit m.integers := by
  simp [MemberSettings.toTable, Toml.fieldsFit, MemberSettings.integers, AllFit, fits_number, fits_string,
    fits_boolean]

theorem fieldsFit_run (r : Run) : Toml.fieldsFit r.toTable = true ↔
    AllFit r.integers := by
  simp [Run.toTable, Toml.fieldsFit, Run.integers, AllFit, fits_number, fits_string, fits_numbers]

theorem fieldsFit_chain (c : ChainSettings) : Toml.fieldsFit c.toTable = true ↔
    AllFit c.integers := by
  simp [ChainSettings.toTable, Toml.fieldsFit, ChainSettings.integers, fits_number, fits_string,
    fits_boolean, fits_numbers, fits_tables, fieldsFit_run, or_imp, forall_and, AllFit, List.forall_mem_flatMap,
    -List.mem_flatMap]

theorem fieldsFit_toTable (s : Settings) : Toml.fieldsFit s.toTable = true ↔ s.Fits := by
  have hchain : Toml.fieldsFit (s.chain.toList.map fun c => ("remap", .table c.toTable)) = true ↔
      AllFit (s.chain.toList.flatMap ChainSettings.integers) := by
    cases s.chain <;> simp [Toml.fieldsFit, Value.fits, fieldsFit_chain, AllFit]
  simp [toTable, Toml.fieldsFit, Value.fits, Fits, integers, fieldsFit_panel, fieldsFit_stream,
    fits_tables, fieldsFit_member, hchain, or_imp, forall_and, AllFit, List.forall_mem_flatMap,
    -List.mem_flatMap]

end Settings

end LedWall
