import LedWall.Proofs.Chain.Table
import LedWall.Proofs.Surface.Route
import LedWall.Surface.Strip

/-!
# Places that lead off the chain

A run takes as many lights as its segments have together, from the start of the first one on. It
keeps to the chain if the segments are listed in the order of the chain, but a run that lists them
in another order may go on beyond the last light, and nothing answers for such a place.
-/

namespace LedWall

namespace Segments

theorem span_eq_sum (lengths : List Nat) : span lengths = lengths.sum := rfl

theorem span_take_mono (lengths : List Nat) {m n : Nat} (h : m ≤ n) :
    span (lengths.take m) ≤ span (lengths.take n) := lengths.monotone_sum_take h

theorem span_take_le_total (s : Segments) (n : Nat) : span (s.lengths.take n) ≤ s.total :=
  (s.lengths.take_sublist n).sum_le_sum fun _ _ => Nat.zero_le _

theorem span_take_succ (s : Segments) {id : Nat} (h : id < s.count) :
    span (s.lengths.take (id + 1)) = span (s.lengths.take id) + s.lengthOf id := by
  have hget : s.lengthOf id = s.lengths[id] := by simp [lengthOf, List.getElem?_eq_getElem h]
  rw [span_eq_sum, span_eq_sum, hget]
  exact s.lengths.sum_take_succ id h

theorem span_take_add_sum_le (s : Segments) {ids : List Nat} (hsorted : ids.Pairwise (· < ·))
    (hknown : ∀ id ∈ ids, id < s.count) {first : Nat} (hfirst : ∀ id ∈ ids, first ≤ id) :
    span (s.lengths.take first) + (ids.map s.lengthOf).sum ≤ s.total := by
  induction ids generalizing first with
  | nil =>
      have hle := s.span_take_le_total first
      simpa using hle
  | cons id ids ih =>
      obtain ⟨hless, hsorted⟩ := List.pairwise_cons.mp hsorted
      obtain ⟨hid, hids⟩ := List.forall_mem_cons.mp hknown
      have hstart : span (s.lengths.take first) ≤ span (s.lengths.take id) :=
        span_take_mono s.lengths (hfirst id List.mem_cons_self)
      have hnext := span_take_succ s hid
      have hrest : span (s.lengths.take (id + 1)) + (ids.map s.lengthOf).sum ≤ s.total :=
        ih hsorted hids fun later hlater => hless later hlater
      simp only [List.map_cons, List.sum_cons]
      omega

end Segments

namespace Run

/-- The lights that the run takes are lights of the chain. -/
def KeepsToChain (s : Segments) (r : Run) : Prop := r.start s + r.length s ≤ s.total

theorem keepsToChain_of_ascending {s : Segments} {r : Run}
    (hknown : ∀ id ∈ r.segments, id < s.count) (hsorted : r.segments.Pairwise (· < ·)) :
    r.KeepsToChain s := by
  rw [KeepsToChain, start, length]
  apply s.span_take_add_sum_le hsorted hknown
  intro id hid
  cases hids : r.segments with
  | nil =>
      rw [hids] at hid
      cases hid
  | cons first ids =>
      rw [hids] at hid hsorted
      rcases List.mem_cons.mp hid with rfl | hid
      · exact le_refl _
      · exact Nat.le_of_lt ((List.pairwise_cons.mp hsorted).1 id hid)

theorem start_le_total (s : Segments) (r : Run) : r.start s ≤ s.total := s.span_take_le_total _

end Run

namespace Strip

variable {τ : Type} {p : Panel τ} {table : CoordinateTable} {strip : Strip τ}

theorem make_eq_ok {inner : Surface τ} (h : make inner table = .ok strip) :
    strip = ⟨inner, table⟩ ∧ table.segments.total ≤ inner.width.toNat := by
  rw [make] at h
  by_cases hshort : inner.width.toNat < table.segments.total
  · rw [if_pos hshort] at h
    cases h
  · rw [if_neg hshort] at h
    exact ⟨(Except.ok.inj h).symm, Nat.le_of_not_lt hshort⟩

theorem holds_first_row {i : Nat} (h : i < 2 ^ 31) :
    p.buffer.grid.Holds (.ofNat i) 0 ↔ i < p.buffer.width.toNat := by
  have hrow : 0 < p.buffer.grid.height.toNat := toNat_pos_iff.mpr p.buffer.height_pos
  have hzero : (0 : Int32).toInt = 0 := rfl
  rw [Grid.Holds, Int32.toInt_ofNat_of_lt h, hzero]
  constructor
  · rintro ⟨⟨-, hx⟩, -⟩
    exact_mod_cast hx
  · intro hx
    exact ⟨⟨Int.natCast_nonneg i, by exact_mod_cast hx⟩, le_refl _, by exact_mod_cast hrow⟩

theorem get?_ne_none_iff (hmake : make (.panel p) table = .ok strip) {x y : Int32} {i : Nat}
    (hi : i < 2 ^ 31) (hlookup : table.lookup x y = some i) :
    strip.toSurface.get? x y ≠ none ↔ i < p.buffer.width.toNat := by
  obtain ⟨rfl, -⟩ := make_eq_ok hmake
  rw [toSurface, Surface.get?_remapped, hlookup, Option.bind_some, Surface.get?,
    FrameBuffer.get?, ← Option.isSome_iff_ne_none, Grid.isSome_get?, holds_first_row hi]

theorem get?_set_same {x y : Int32} (h : strip.toSurface.get? x y ≠ none)
    (hmake : make (.panel p) table = .ok strip) (c : Color) :
    (strip.toSurface.set x y c).get? x y = some (c.stored p.buffer.transparent) := by
  obtain ⟨rfl, -⟩ := make_eq_ok hmake
  obtain ⟨spot, hroute⟩ :=
    Option.ne_none_iff_exists'.mp (mt (Surface.get?_eq_none_iff _ x y).mpr h)
  obtain ⟨q, hq⟩ := Surface.exists_panelAt?_of_route hroute
  have hpanel : q = p := by
    rw [toSurface, Surface.panelAt?] at hq
    cases hpath : spot.path with
    | nil =>
        rw [hpath] at hq
        exact (Option.some.inj hq).symm
    | cons m path =>
        rw [hpath] at hq
        cases hq
  rw [Surface.get?_set hroute hq, if_pos hroute, hpanel]

end Strip

namespace CoordinateTable

variable {τ : Type} {width height : UInt32} {lengths : List Nat} {runs : List Run}
  {table : CoordinateTable}

theorem lookup_lt_total (ht : build width height lengths runs = .ok table)
    (hkeep : ∀ r ∈ runs, r.KeepsToChain table.segments) {x y : Int32} {i : Nat}
    (hlookup : table.lookup x y = some i) : i < table.segments.total := by
  obtain ⟨-, front, r, back, rfl, hputs, -⟩ := (lookup_eq_some_iff ht x y i).mp hlookup
  obtain ⟨d, hd, -, rfl⟩ := hputs
  have hr : r.start table.segments + r.length table.segments ≤ table.segments.total :=
    hkeep r (by simp)
  omega

/-- What the last run puts beyond the chain stays in the table. -/
theorem exists_lookup_ge_total {front : List Run} {r : Run}
    (ht : build width height lengths (front ++ [r]) = .ok table)
    (hwidth : width.toNat ≤ 2 ^ 31) (hheight : height.toNat ≤ 2 ^ 31)
    (hpast : ¬ r.KeepsToChain table.segments) :
    ∃ x y i, table.lookup x y = some i ∧ table.segments.total ≤ i ∧
      i < table.segments.total + r.length table.segments := by
  have hstart := r.start_le_total table.segments
  have hvalid := valid_of_build ht r (by simp)
  rw [Run.KeepsToChain, Nat.not_le] at hpast
  obtain ⟨d, hd, hend⟩ : ∃ d < r.length table.segments,
      table.segments.total ≤ r.start table.segments + d :=
    ⟨r.length table.segments - 1, by omega, by omega⟩
  obtain ⟨⟨x, y⟩, hplace⟩ : ∃ place, r.place d = place := ⟨_, rfl⟩
  obtain ⟨hx, hy⟩ := Run.inside_of_fits hvalid.fits hd hplace
  have hx' : (Int32.ofNat x).toInt = x := Int32.toInt_ofNat_of_lt (by omega)
  have hy' : (Int32.ofNat y).toInt = y := Int32.toInt_ofNat_of_lt (by omega)
  refine ⟨.ofNat x, .ofNat y, r.start table.segments + d, ?_, hend, by omega⟩
  rw [lookup_eq_some_iff ht, hx', hy']
  refine ⟨⟨Int.natCast_nonneg _, Int.natCast_nonneg _⟩, front, r, [], rfl,
    ⟨d, hd, hplace, rfl⟩, ?_⟩
  exact List.forall_mem_nil _

/-- As long as no run goes beyond the chain, and none does that lists its segments in ascending
order, each mapped place leads to a light that can be written and read back through every row that
is long enough. If the last run goes beyond, some place leads to no light of the chain, and on a row
that ends with the chain it shows nothing. -/
theorem mapped_on_chain (ht : build width height lengths runs = .ok table)
    (htotal : table.segments.total < 2 ^ 31) :
    (∀ r ∈ runs, r.segments.Pairwise (· < ·) → r.KeepsToChain table.segments) ∧
    ((∀ r ∈ runs, r.KeepsToChain table.segments) → ∀ x y i, table.lookup x y = some i →
      i < table.segments.total ∧ ∀ (p : Panel τ) (strip : Strip τ) (c : Color),
        Strip.make (.panel p) table = .ok strip → strip.toSurface.get? x y ≠ none ∧
          (strip.toSurface.set x y c).get? x y = some (c.stored p.buffer.transparent)) ∧
    (∀ front r, runs = front ++ [r] → ¬ r.KeepsToChain table.segments →
      table.segments.total + r.length table.segments ≤ 2 ^ 31 →
      width.toNat ≤ 2 ^ 31 → height.toNat ≤ 2 ^ 31 →
      ∃ x y i, table.lookup x y = some i ∧ table.segments.total ≤ i ∧
        ∀ (p : Panel τ) (strip : Strip τ), p.buffer.width.toNat = table.segments.total →
          Strip.make (.panel p) table = .ok strip → strip.toSurface.get? x y = none) := by
  refine ⟨?_, ?_, ?_⟩
  · intro r hr hsorted
    exact Run.keepsToChain_of_ascending (valid_of_build ht r hr).known hsorted
  · intro hkeep x y i hlookup
    have hi := lookup_lt_total ht hkeep hlookup
    refine ⟨hi, ?_⟩
    intro p strip c hmake
    have hlong : table.segments.total ≤ p.buffer.width.toNat := (Strip.make_eq_ok hmake).2
    have hshown := (Strip.get?_ne_none_iff hmake (hi.trans htotal) hlookup).mpr (by omega)
    exact ⟨hshown, Strip.get?_set_same hshown hmake c⟩
  · intro front r hruns hpast hword hwidth hheight
    subst hruns
    obtain ⟨x, y, i, hlookup, hge, hlt⟩ := exists_lookup_ge_total ht hwidth hheight hpast
    refine ⟨x, y, i, hlookup, hge, ?_⟩
    intro p strip hexact hmake
    by_contra hshown
    have hon := (Strip.get?_ne_none_iff hmake (by omega) hlookup).mp hshown
    omega

def fiveLights : Panel Unit := .ofBuffer ⟨.uniform 5 1 .black, 0, true, by decide, by decide⟩ ()

theorem mapped_on_chain_ascending :
    ∃ table strip, build 5 1 [3, 2] [⟨.horizontal, 0, 0, [0, 1]⟩] = .ok table ∧
      table.segments.total < 2 ^ 31 ∧
      (∀ r ∈ [(⟨.horizontal, 0, 0, [0, 1]⟩ : Run)], r.KeepsToChain table.segments) ∧
      Strip.make (.panel fiveLights) table = .ok strip ∧ table.lookup 4 0 = some 4 ∧
      4 < table.segments.total ∧ strip.toSurface.get? 4 0 ≠ none := by
  have ht : build 5 1 [3, 2] [⟨.horizontal, 0, 0, [0, 1]⟩] =
      .ok ⟨⟨[3, 2]⟩, ⟨5, 1, #[some 0, some 1, some 2, some 3, some 4], rfl⟩⟩ := rfl
  have htotal : (⟨[3, 2]⟩ : Segments).total < 2 ^ 31 := by decide
  obtain ⟨hascending, hon, -⟩ := mapped_on_chain (τ := Unit) ht htotal
  have hkeep : ∀ r ∈ [(⟨.horizontal, 0, 0, [0, 1]⟩ : Run)], r.KeepsToChain ⟨[3, 2]⟩ := by
    intro r hr
    apply hascending r hr
    rw [List.mem_singleton.mp hr]
    decide
  obtain ⟨hlt, hshown⟩ := hon hkeep 4 0 4 rfl
  exact ⟨_, _, ht, htotal, hkeep, rfl, rfl, hlt, (hshown fiveLights _ .black rfl).1⟩

/-- The same lights listed the other way round: the last place leads two lights beyond the chain,
and on a row of all its lights nothing answers there. -/
theorem off_chain_of_reversed_run :
    ∃ table strip, build 5 1 [3, 2] [⟨.horizontal, 0, 0, [1, 0]⟩] = .ok table ∧
      table.segments.total = 5 ∧ table.lookup 4 0 = some 7 ∧
      Strip.make (.panel fiveLights) table = .ok strip ∧ strip.toSurface.get? 4 0 = none :=
  ⟨⟨⟨[3, 2]⟩, ⟨5, 1, #[some 3, some 4, some 5, some 6, some 7], rfl⟩⟩, _, rfl, rfl, rfl, rfl, rfl⟩

end CoordinateTable

end LedWall
