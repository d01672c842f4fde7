import LedWall.Chain
import LedWall.Proofs.Grid

/-!
# What a coordinate table says

A run puts consecutive lights of the chain on consecutive places. A table that can be built shows at
each place the light that the last run over that place has put there.
-/

namespace LedWall

namespace Segments

def lengthOf (s : Segments) (id : Nat) : Nat := s.lengths[id]?.getD 0

theorem segment?_of_lt {s : Segments} {id : Nat} (h : id < s.count) :
    s.segment? id = some ⟨span (s.lengths.take id), s.lengthOf id⟩ := by
  simp [segment?, lengthOf, List.getElem?_eq_getElem h]

theorem segment?_eq_none {s : Segments} {id : Nat} (h : ¬ id < s.count) : s.segment? id = none := by
  simp [segment?, List.getElem?_eq_none (Nat.le_of_not_lt h)]

end Segments

namespace Run

/-- Where the first listed segment starts on the chain. -/
def start (s : Segments) (r : Run) : Nat := Segments.span (s.lengths.take (r.segments.headD 0))

def length (s : Segments) (r : Run) : Nat := (r.segments.map s.lengthOf).sum

/-- The run puts light number `i` of the chain on a place. -/
def Puts (s : Segments) (r : Run) (x y i : Nat) : Prop :=
  ∃ d < r.length s, r.place d = (x, y) ∧ r.start s + d = i

def Covers (s : Segments) (r : Run) (x y : Nat) : Prop := ∃ d < r.length s, r.place d = (x, y)

/-- The run lists segments, all of them known, and stays inside the grid. -/
structure Valid (s : Segments) (width height : UInt32) (r : Run) : Prop where
  ne_nil : r.segments ≠ []
  known : ∀ id ∈ r.segments, id < s.count
  fits : r.Fits (r.length s) width height

theorem place_injective (r : Run) {d e : Nat} (h : r.place d = r.place e) : d = e := by
  unfold place at h
  cases hd : r.direction <;> simp_all

theorem Puts.covers {s : Segments} {r : Run} {x y i : Nat} (h : r.Puts s x y i) :
    r.Covers s x y := by
  obtain ⟨d, hd, hplace, -⟩ := h
  exact ⟨d, hd, hplace⟩

theorem inside_of_fits {r : Run} {length : Nat} {width height : UInt32}
    (h : r.Fits length width height) {d x y : Nat} (hd : d < length) (hplace : r.place d = (x, y)) :
    x < width.toNat ∧ y < height.toNat := by
  obtain ⟨hx, hy, hend⟩ := h
  have hx' : r.x.toNat < width.toNat := UInt32.lt_iff_toNat_lt.mp hx
  have hy' : r.y.toNat < height.toNat := UInt32.lt_iff_toNat_lt.mp hy
  unfold place at hplace
  cases hdir : r.direction with
  | horizontal =>
      simp only [hdir, Prod.mk.injEq] at hplace hend
      omega
  | vertical =>
      simp only [hdir, Prod.mk.injEq] at hplace hend
      omega

theorem Valid.inside {s : Segments} {width height : UInt32} {r : Run} (h : r.Valid s width height)
    {x y : Nat} (hc : r.Covers s x y) : x < width.toNat ∧ y < height.toNat := by
  obtain ⟨d, hd, hplace⟩ := hc
  exact inside_of_fits h.fits hd hplace

end Run

namespace CoordinateTable

theorem segment_of_lt {s : Segments} {id : Nat} (h : id < s.count) :
    segment s id = .ok ⟨Segments.span (s.lengths.take id), s.lengthOf id⟩ := by
  rw [segment, Segments.segment?_of_lt h]

theorem segment_of_not_lt {s : Segments} {id : Nat} (h : ¬ id < s.count) :
    segment s id = .error (.unknownSegment id s.count) := by
  rw [segment, Segments.segment?_eq_none h]

theorem totalLength_eq_ok {s : Segments} {ids : List Nat} (h : ∀ id ∈ ids, id < s.count) :
    totalLength s ids = .ok (ids.map s.lengthOf).sum := by
  induction ids with
  | nil => rfl
  | cons id ids ih =>
      obtain ⟨hid, hids⟩ := List.forall_mem_cons.mp h
      rw [totalLength, segment_of_lt hid, ih hids]
      rfl

theorem totalLength_unknown {s : Segments} {known : List Nat} {id : Nat}
    (hknown : ∀ i ∈ known, i < s.count) (hid : ¬ id < s.count) (more : List Nat) :
    totalLength s (known ++ id :: more) = .error (.unknownSegment id s.count) := by
  induction known with
  | nil =>
      rw [List.nil_append, totalLength, segment_of_not_lt hid]
      rfl
  | cons i known ih =>
      obtain ⟨hi, hknown⟩ := List.forall_mem_cons.mp hknown
      rw [List.cons_append, totalLength, segment_of_lt hi, ih hknown]
      rfl

theorem known_or_first_unknown (s : Segments) (ids : List Nat) : (∀ id ∈ ids, id < s.count) ∨
    ∃ known id more, ids = known ++ id :: more ∧ (∀ i ∈ known, i < s.count) ∧ ¬ id < s.count := by
  induction ids with
  | nil => exact .inl (List.forall_mem_nil _)
  | cons i ids ih =>
      by_cases hi : i < s.count
      · rcases ih with hall | ⟨known, id, more, rfl, hknown, hid⟩
        · exact .inl (List.forall_mem_cons.mpr ⟨hi, hall⟩)
        · exact .inr ⟨i :: known, id, more, rfl, List.forall_mem_cons.mpr ⟨hi, hknown⟩, hid⟩
      · exact .inr ⟨[], i, ids, rfl, List.forall_mem_nil _, hi⟩

section Lay

variable (grid : Grid (Option Nat)) (r : Run) (start : Nat)

theorem lay_succ (n : Nat) : lay grid r start (n + 1) =
    (lay grid r start n).setCell (r.place n).1 (r.place n).2 (some (start + n)) := by
  rw [lay, lay, List.range_succ, List.foldl_append]
  rfl

theorem width_lay (n : Nat) : (lay grid r start n).width = grid.width := by
  induction n with
  | zero => rfl
  | succ n ih => rw [lay_succ, Grid.width_setCell, ih]

theorem height_lay (n : Nat) : (lay grid r start n).height = grid.height := by
  induction n with
  | zero => rfl
  | succ n ih => rw [lay_succ, Grid.height_setCell, ih]

theorem cell?_lay_of_not_covered {n x y : Nat} (h : ∀ d < n, r.place d ≠ (x, y)) :
    (lay grid r start n).cell? x y = grid.cell? x y := by
  induction n with
  | zero => rfl
  | succ n ih =>
      have hlast : ¬ ((r.place n).1 = x ∧ (r.place n).2 = y) := by
        rintro ⟨hx, hy⟩
        exact h n (Nat.lt_succ_self n) (Prod.ext hx hy)
      rw [lay_succ, Grid.cell?_setCell, if_neg fun hall => hlast ⟨hall.1, hall.2.1⟩]
      exact ih fun d hd => h d (Nat.lt_succ_of_lt hd)

theorem cell?_lay_of_place {n d x y : Nat} (hd : d < n) (hplace : r.place d = (x, y))
    (hin : x < grid.width.toNat ∧ y < grid.height.toNat) :
    (lay grid r start n).cell? x y = some (some (start + d)) := by
  induction n with
  | zero => exact absurd hd (Nat.not_lt_zero d)
  | succ n ih =>
      rw [lay_succ, Grid.cell?_setCell, width_lay, height_lay]
      by_cases hlast : d = n
      · subst hlast
        rw [hplace, if_pos ⟨rfl, rfl, hin⟩]
      · have hother : ¬ ((r.place n).1 = x ∧ (r.place n).2 = y) := by
          rintro ⟨hx, hy⟩
          exact hlast (r.place_injective (hplace.trans (Prod.ext hx hy).symm))
        rw [if_neg fun hall => hother ⟨hall.1, hall.2.1⟩]
        exact ih (by omega)

end Lay

section AddRun

variable {s : Segments} {grid : Grid (Option Nat)} {index : Nat} {r : Run}

theorem addRun_of_nil (h : r.segments = []) : addRun s grid index r = .error (.emptyRun index) := by
  rw [addRun, h]

theorem addRun_of_known (hne : r.segments ≠ []) (hknown : ∀ id ∈ r.segments, id < s.count) :
    addRun s grid index r = if r.Fits (r.length s) grid.width grid.height then
        .ok (lay grid r (r.start s) (r.length s))
      else .error (.runOutOfBounds index r.x r.y (r.length s) grid.width grid.height) := by
  obtain ⟨direction, x, y, ids⟩ := r
  cases ids with
  | nil => exact absurd rfl hne
  | cons id ids =>
      rw [addRun]
      simp only [segment_of_lt (hknown id List.mem_cons_self), totalLength_eq_ok hknown]
      rfl

theorem addRun_of_unknown {known : List Nat} {id : Nat} {more : List Nat}
    (h : r.segments = known ++ id :: more) (hknown : ∀ i ∈ known, i < s.count)
    (hid : ¬ id < s.count) : addRun s grid index r = .error (.unknownSegment id s.count) := by
  have htotal := totalLength_unknown hknown hid more
  cases known with
  | nil =>
      rw [List.nil_append] at h
      rw [addRun, h]
      simp only [segment_of_not_lt hid]
      rfl
  | cons first known =>
      rw [List.cons_append] at h htotal
      rw [addRun, h]
      simp only [segment_of_lt (hknown first List.mem_cons_self), htotal]
      rfl

theorem addRun_eq_ok_iff {g : Grid (Option Nat)} : addRun s grid index r = .ok g ↔
      r.Valid s grid.width grid.height ∧ g = lay grid r (r.start s) (r.length s) := by
  constructor
  · intro h
    by_cases hne : r.segments = []
    · rw [addRun_of_nil hne] at h
      cases h
    · rcases known_or_first_unknown s r.segments with hknown | ⟨known, id, more, hids, hknown, hid⟩
      · rw [addRun_of_known hne hknown] at h
        by_cases hfits : r.Fits (r.length s) grid.width grid.height
        · rw [if_pos hfits] at h
          exact ⟨⟨hne, hknown, hfits⟩, (Except.ok.inj h).symm⟩
        · rw [if_neg hfits] at h
          cases h
      · rw [addRun_of_unknown hids hknown hid] at h
        cases h
  · rintro ⟨hvalid, rfl⟩
    rw [addRun_of_known hvalid.ne_nil hvalid.known, if_pos hvalid.fits]

end AddRun

/-- The last of the runs over a place has put light `i` there. -/
def Lit (s : Segments) (runs : List Run) (x y i : Nat) : Prop :=
  ∃ front r back, runs = front ++ r :: back ∧ r.Puts s x y i ∧ ∀ t ∈ back, ¬ t.Covers s x y

theorem not_lit_nil (s : Segments) (x y i : Nat) : ¬ Lit s [] x y i := by
  rintro ⟨front, r, back, h, -⟩
  simp at h

theorem lit_cons_iff {s : Segments} {r : Run} {runs : List Run} {x y i : Nat} :
    Lit s (r :: runs) x y i ↔
      Lit s runs x y i ∨ r.Puts s x y i ∧ ∀ t ∈ runs, ¬ t.Covers s x y := by
  constructor
  · rintro ⟨front, t, back, hruns, hputs, hback⟩
    cases front with
    | nil =>
        obtain ⟨rfl, rfl⟩ := List.cons.inj hruns
        exact .inr ⟨hputs, hback⟩
    | cons u front =>
        obtain ⟨rfl, rfl⟩ := List.cons.inj hruns
        exact .inl ⟨front, t, back, rfl, hputs, hback⟩
  · rintro (⟨front, t, back, rfl, hputs, hback⟩ | ⟨hputs, hback⟩)
    · exact ⟨r :: front, t, back, rfl, hputs, hback⟩
    · exact ⟨[], r, runs, rfl, hputs, hback⟩

structure Laid (s : Segments) (runs : List Run) (before after : Grid (Option Nat)) : Prop where
  width : after.width = before.width
  height : after.height = before.height
  valid : ∀ r ∈ runs, r.Valid s before.width before.height
  lit : ∀ x y i, Lit s runs x y i → after.cell? x y = some (some i)
  dark : ∀ x y, (∀ t ∈ runs, ¬ t.Covers s x y) → after.cell? x y = before.cell? x y

theorem laid_cons {s : Segments} {r : Run} {runs : List Run} {before after : Grid (Option Nat)}
    (hr : r.Valid s before.width before.height)
    (h : Laid s runs (lay before r (r.start s) (r.length s)) after) :
    Laid s (r :: runs) before after where
  width := h.width.trans (width_lay _ _ _ _)
  height := h.height.trans (height_lay _ _ _ _)
  valid := by
    have hruns := h.valid
    rw [width_lay, height_lay] at hruns
    exact List.forall_mem_cons.mpr ⟨hr, hruns⟩
  lit := by
    intro x y i hlit
    rcases lit_cons_iff.mp hlit with hlater | ⟨hputs, hback⟩
    · exact h.lit x y i hlater
    · obtain ⟨d, hd, hplace, rfl⟩ := hputs
      rw [h.dark x y hback]
      exact cell?_lay_of_place _ _ _ hd hplace (hr.inside ⟨d, hd, hplace⟩)
  dark := by
    intro x y hdark
    obtain ⟨hfirst, hlater⟩ := List.forall_mem_cons.mp hdark
    rw [h.dark x y hlater]
    exact cell?_lay_of_not_covered _ _ _ fun d hd hplace => hfirst ⟨d, hd, hplace⟩

theorem laid_of_addRuns {s : Segments} {runs : List Run} {index : Nat}
    {before after : Grid (Option Nat)} (h : addRuns s runs index before = .ok after) :
    Laid s runs before after := by
  induction runs generalizing index before with
  | nil =>
      obtain rfl := Except.ok.inj h
      exact ⟨rfl, rfl, List.forall_mem_nil _, fun x y i hlit => absurd hlit (not_lit_nil s x y i),
        fun _ _ _ => rfl⟩
  | cons r runs ih =>
      rw [addRuns] at h
      cases hr : addRun s before index r with
      | error e =>
          rw [hr] at h
          cases h
      | ok grid =>
          obtain ⟨hvalid, rfl⟩ := addRun_eq_ok_iff.mp hr
          rw [hr] at h
          exact laid_cons hvalid (ih h)

theorem exists_lit {s : Segments} {runs : List Run} {x y : Nat}
    (h : ∃ t ∈ runs, t.Covers s x y) : ∃ i, Lit s runs x y i := by
  induction runs with
  | nil =>
      obtain ⟨t, ht, -⟩ := h
      cases ht
  | cons r runs ih =>
      by_cases hlater : ∃ t ∈ runs, t.Covers s x y
      · obtain ⟨i, hi⟩ := ih hlater
        exact ⟨i, lit_cons_iff.mpr (.inl hi)⟩
      · push Not at hlater
        obtain ⟨t, ht, d, hd, hplace⟩ := h
        rcases List.mem_cons.mp ht with rfl | ht
        · exact ⟨_, lit_cons_iff.mpr (.inr ⟨⟨d, hd, hplace, rfl⟩, hlater⟩)⟩
        · exact absurd ⟨d, hd, hplace⟩ (hlater t ht)

section Build

variable {width height : UInt32} {lengths : List Nat} {runs : List Run} {table : CoordinateTable}

theorem laid_of_build (h : build width height lengths runs = .ok table) :
    table.segments = ⟨lengths⟩ ∧ Laid ⟨lengths⟩ runs (.uniform width height none) table.grid := by
  rw [build] at h
  by_cases hsides : width = 0 ∨ height = 0
  · rw [if_pos hsides] at h
    cases h
  · rw [if_neg hsides] at h
    cases hruns : addRuns ⟨lengths⟩ runs 0 (.uniform width height none) with
    | error e =>
        simp only [hruns] at h
        cases h
    | ok grid =>
        simp only [hruns] at h
        obtain rfl := Except.ok.inj h
        exact ⟨rfl, laid_of_addRuns hruns⟩

theorem join_cell?_of_build (h : build width height lengths runs = .ok table) (x y i : Nat) :
    (table.grid.cell? x y).join = some i ↔ Lit table.segments runs x y i := by
  obtain ⟨hsegments, hlaid⟩ := laid_of_build h
  rw [hsegments]
  constructor
  · intro hcell
    by_cases hcovered : ∃ t ∈ runs, t.Covers ⟨lengths⟩ x y
    · obtain ⟨j, hj⟩ := exists_lit hcovered
      rw [hlaid.lit x y j hj] at hcell
      obtain rfl : j = i := Option.some.inj hcell
      exact hj
    · push Not at hcovered
      have hnone : ∀ v ∈ (Grid.uniform width height (none : Option Nat)).cell? x y, v = none := by
        intro v hv
        unfold Grid.cell? at hv
        split at hv
        · exact (Array.eq_of_mem_replicate (Array.mem_of_getElem? hv))
        · cases hv
      rw [hlaid.dark x y hcovered] at hcell
      cases hold : (Grid.uniform width height (none : Option Nat)).cell? x y with
      | none =>
          rw [hold] at hcell
          cases hcell
      | some v =>
          rw [hold, hnone v hold] at hcell
          cases hcell
  · intro hlit
    rw [hlaid.lit x y i hlit]
    rfl

/-- A table shows at each place the light that the last run over it has put there. -/
theorem lookup_eq_some_iff (h : build width height lengths runs = .ok table) (x y : Int32)
    (i : Nat) : table.lookup x y = some i ↔ (0 ≤ x.toInt ∧ 0 ≤ y.toInt) ∧
      Lit table.segments runs x.toInt.toNat y.toInt.toNat i := by
  rw [lookup, Grid.get?]
  by_cases hpos : 0 ≤ x.toInt ∧ 0 ≤ y.toInt
  · rw [if_pos hpos, join_cell?_of_build h]
    exact (and_iff_right hpos).symm
  · rw [if_neg hpos]
    constructor
    · intro hnone
      cases hnone
    · intro hlit
      exact absurd hlit.1 hpos

theorem valid_of_build (h : build width height lengths runs = .ok table) :
    ∀ r ∈ runs, r.Valid table.segments width height := by
  obtain ⟨hsegments, hlaid⟩ := laid_of_build h
  rw [hsegments]
  exact hlaid.valid

end Build

end CoordinateTable

end LedWall
