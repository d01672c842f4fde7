import LedWall.Proofs.Chain.OnChain
import LedWall.Proofs.Surface.Painting

/-!
# Filled segments

Filling a segment writes lights of the row one by one and does not look at the grid. A row that is
long enough for the chain has all these lights, so the grid shows the colour wherever it leads to one
of them. The segments lie end to end, so filling all of them lights the chain and nothing beyond it.
-/

namespace LedWall

theorem Grid.get?_first_row {α : Type} (g : Grid α) {i : Nat} (h : i < 2 ^ 32) :
    g.get? (.ofNat i) 0 = if i < 2 ^ 31 then g.cell? i 0 else none := by
  have hzero : (0 : Int32).toInt = 0 := rfl
  by_cases hi : i < 2 ^ 31
  · have hx : (Int32.ofNat i).toInt = i := Int32.toInt_ofNat_of_lt hi
    rw [get?, hx, hzero, if_pos ⟨Int.natCast_nonneg i, le_rfl⟩, if_pos hi]
    rfl
  -- The upper half of the positions turns into negative coordinates.
  · have hx : (Int32.ofNat i).toInt < 0 := by
      rw [Int32.toInt_ofNat', Int.bmod]
      simp only [Int32.size]
      omega
    rw [get?, if_neg fun hpos => absurd hpos.1 (by omega), if_neg hi]

theorem Run.distance_le {r : Run} {d x y : Nat} (h : r.place d = (x, y)) : d ≤ x ∨ d ≤ y := by
  unfold place at h
  cases hd : r.direction with
  | horizontal =>
      simp only [hd, Prod.mk.injEq] at h
      omega
  | vertical =>
      simp only [hd, Prod.mk.injEq] at h
      omega

structure Panel.RowLit {τ : Type} (p p' : Panel τ) (on : Nat → Prop) (c : Color) : Prop where
  lit : ∀ i, on i → p'.buffer.grid.cell? i 0 = some (c.stored p.buffer.transparent)
  kept : ∀ i j, ¬ (on i ∧ j = 0) → p'.buffer.grid.cell? i j = p.buffer.grid.cell? i j
  alike : p.Alike p'

namespace Panel.RowLit

variable {τ : Type} {p p' p'' : Panel τ} {on on' : Nat → Prop} {c : Color}

theorem nowhere (p : Panel τ) (hnone : ∀ i, ¬ on i) (c : Color) : p.RowLit p on c where
  lit i hi := absurd hi (hnone i)
  kept _ _ _ := rfl
  alike := .refl p

theorem trans (h : p.RowLit p' on c) (h' : p'.RowLit p'' on' c) :
    p.RowLit p'' (fun i => on i ∨ on' i) c where
  lit := by
    intro i hi
    by_cases hlater : on' i
    · rw [h'.lit i hlater, h.alike.transparent]
    · rw [h'.kept i 0 fun hboth => hlater hboth.1]
      exact h.lit i (hi.resolve_right hlater)
  kept := by
    intro i j hnot
    rw [h'.kept i j fun hboth => hnot ⟨.inr hboth.1, hboth.2⟩]
    exact h.kept i j fun hboth => hnot ⟨.inl hboth.1, hboth.2⟩
  alike := h.alike.trans h'.alike

theorem congr (h : p.RowLit p' on c) (hon : ∀ i, on i ↔ on' i) : p.RowLit p' on' c := by
  obtain rfl : on = on' := funext fun i => propext (hon i)
  exact h

theorem set {i : Nat} (hword : i < 2 ^ 31) (hrow : i < p.buffer.width.toNat) (c : Color) :
    p.RowLit (p.set (.ofNat i) 0 c) (· = i) c := by
  have hin : p.buffer.grid.Holds (.ofNat i) 0 := (Strip.holds_first_row hword).mpr hrow
  have hx : (Int32.ofNat i).toInt.toNat = i := by
    rw [Int32.toInt_ofNat_of_lt hword, Int.toNat_natCast]
  have hzero : (0 : Int32).toInt.toNat = 0 := rfl
  rw [Surface.set_panel_of_holds hin, hx, hzero]
  constructor
  case lit =>
    rintro _ rfl
    have hinside := hin.inside
    rw [hx, hzero] at hinside
    rw [dot, Grid.cell?_setCell, if_pos ⟨rfl, rfl, hinside⟩]
  case kept =>
    intro k j hnot
    apply (p.sameBut_dot i 0 c).pixels
    intro he
    obtain ⟨rfl, rfl⟩ := Prod.mk.inj he
    exact hnot ⟨rfl, rfl⟩
  case alike => exact .dot p i 0 c

theorem exists_foldl {is : List Nat} (his : ∀ i ∈ is, i < 2 ^ 31 ∧ i < p.buffer.width.toNat)
    (c : Color) : ∃ p', is.foldl (fun inner i => inner.set (.ofNat i) 0 c) (Surface.panel p) =
      .panel p' ∧ p.RowLit p' (· ∈ is) c := by
  induction is generalizing p with
  | nil => exact ⟨p, rfl, nowhere p (fun _ => List.not_mem_nil) c⟩
  | cons i is ih =>
      obtain ⟨⟨hword, hrow⟩, hrest⟩ := List.forall_mem_cons.mp his
      have hfirst := RowLit.set (p := p) hword hrow c
      have hwidth : (p.set (.ofNat i) 0 c).buffer.width = p.buffer.width := hfirst.alike.width
      obtain ⟨p', hp', hlit⟩ := ih (p := p.set (.ofNat i) 0 c) (by rwa [hwidth])
      exact ⟨p', hp', (hfirst.trans hlit).congr fun k => List.mem_cons.symm⟩

end Panel.RowLit

namespace Segments

/-- Light number `i` of the chain belongs to segment `id`. -/
def Has (s : Segments) (id i : Nat) : Prop :=
  span (s.lengths.take id) ≤ i ∧ i < span (s.lengths.take id) + s.lengthOf id

theorem lt_total_of_has {s : Segments} {id i : Nat} (hid : id < s.count) (h : s.Has id i) :
    i < s.total := by
  have hnext := s.span_take_succ hid
  have hle := s.span_take_le_total (id + 1)
  have hlt := h.2
  omega

theorem exists_has {s : Segments} {i : Nat} (h : i < s.total) : ∃ id < s.count, s.Has id i := by
  have hbefore : ∀ n ≤ s.count, i < span (s.lengths.take n) → ∃ id < n, s.Has id i := by
    intro n hn hi
    induction n with
    | zero => exact absurd hi (Nat.not_lt_zero i)
    | succ n ih =>
        by_cases hfirst : i < span (s.lengths.take n)
        · obtain ⟨id, hid, hhas⟩ := ih (by omega) hfirst
          exact ⟨id, by omega, hhas⟩
        · rw [s.span_take_succ (by omega)] at hi
          exact ⟨n, by omega, by omega, hi⟩
  apply hbefore s.count le_rfl
  rwa [count, List.take_length]

theorem has_iff_lt_total {s : Segments} {ids : List Nat} (h : ids.Perm (List.range s.count))
    (i : Nat) : (∃ id ∈ ids, s.Has id i) ↔ i < s.total := by
  have hmem : ∀ id, id ∈ ids ↔ id < s.count := fun id => h.mem_iff.trans List.mem_range
  simp only [hmem]
  constructor
  · rintro ⟨id, hid, hhas⟩
    exact lt_total_of_has hid hhas
  · exact exists_has

end Segments

namespace Strip

variable {τ : Type} {p : Panel τ} {table : CoordinateTable}

theorem fillSegment_unknown {strip : Strip τ} {id : Nat} (h : ¬ id < strip.table.segments.count)
    (c : Color) :
    strip.fillSegment id c = .error (.unknownSegment id strip.table.segments.count) := by
  rw [fillSegment, Segments.segment?_eq_none h]

def fillSegments (strip : Strip τ) (ids : List Nat) (c : Color) : Except ChainError (Strip τ) :=
  ids.foldlM (fun strip id => strip.fillSegment id c) strip

section Row

variable (hrow : table.segments.total ≤ p.buffer.width.toNat)
  (hword : table.segments.total < 2 ^ 31)

include hrow hword

theorem exists_fillSegment {id : Nat} (hid : id < table.segments.count) (c : Color) :
    ∃ p', (⟨.panel p, table⟩ : Strip τ).fillSegment id c = .ok ⟨.panel p', table⟩ ∧
      p.RowLit p' (table.segments.Has id) c := by
  have hmem : ∀ i, i ∈ List.range' (Segments.span (table.segments.lengths.take id))
      (table.segments.lengthOf id) ↔ table.segments.Has id i := fun i => List.mem_range'_1
  have his : ∀ i ∈ List.range' (Segments.span (table.segments.lengths.take id))
      (table.segments.lengthOf id), i < 2 ^ 31 ∧ i < p.buffer.width.toNat := by
    intro i hi
    have hlt := Segments.lt_total_of_has hid ((hmem i).mp hi)
    omega
  obtain ⟨p', hp', hlit⟩ := Panel.RowLit.exists_foldl his c
  refine ⟨p', ?_, hlit.congr hmem⟩
  rw [fillSegment, Segments.segment?_of_lt hid]
  simp only [hp']

theorem exists_fillSegments {ids : List Nat} (hids : ∀ id ∈ ids, id < table.segments.count)
    (c : Color) : ∃ p', (⟨.panel p, table⟩ : Strip τ).fillSegments ids c =
      .ok ⟨.panel p', table⟩ ∧ p.RowLit p' (fun i => ∃ id ∈ ids, table.segments.Has id i) c := by
  induction ids generalizing p with
  | nil => exact ⟨p, rfl, .nowhere p (by simp) c⟩
  | cons id ids ih =>
      obtain ⟨hid, hrest⟩ := List.forall_mem_cons.mp hids
      obtain ⟨first, hfirst, hlit⟩ := exists_fillSegment hrow hword hid c
      obtain ⟨p', hp', hlit'⟩ := ih (by rwa [hlit.alike.width]) hrest
      refine ⟨p', ?_, (hlit.trans hlit').congr fun i => ?_⟩
      · rw [fillSegments, List.foldlM_cons, hfirst]
        exact hp'
      · rw [List.exists_mem_cons_iff]

end Row

/-- A strip over a panel has become another one by giving some lights of the row one colour: the
places that lead to these lights show it, and all others show what they showed. -/
structure Lit (p : Panel τ) (table : CoordinateTable) (filled : Strip τ) (on : Nat → Prop)
    (c : Color) : Prop where
  row : ∃ p', filled = ⟨.panel p', table⟩ ∧ p.RowLit p' on c
  shown : ∀ x y i, table.lookup x y = some i → on i →
    filled.toSurface.get? x y = some (c.stored p.buffer.transparent)
  kept : ∀ x y, (∀ i, table.lookup x y = some i → ¬ on i) →
    filled.toSurface.get? x y = (Surface.remapped (.panel p) table).get? x y

theorem get?_of_lookup {x y : Int32} {i : Nat} (hi : i < 2 ^ 32)
    (hlookup : table.lookup x y = some i) : (Surface.remapped (.panel p) table).get? x y =
      if i < 2 ^ 31 then p.buffer.grid.cell? i 0 else none := by
  rw [Surface.get?_remapped, hlookup, Option.bind_some, Surface.get?, FrameBuffer.get?,
    Grid.get?_first_row _ hi]

theorem lit_of_rowLit {p' : Panel τ} {on : Nat → Prop} {c : Color}
    (hindex : ∀ x y i, table.lookup x y = some i → i < 2 ^ 32) (hword : ∀ i, on i → i < 2 ^ 31)
    (h : p.RowLit p' on c) : Lit p table ⟨.panel p', table⟩ on c where
  row := ⟨p', rfl, h⟩
  shown := by
    intro x y i hlookup hi
    rw [toSurface, get?_of_lookup (hindex x y i hlookup) hlookup, if_pos (hword i hi), h.lit i hi]
  kept := by
    intro x y hoff
    cases hlookup : table.lookup x y with
    | none => rw [toSurface, Surface.get?_remapped, Surface.get?_remapped, hlookup]; rfl
    | some i =>
        have hi := hindex x y i hlookup
        rw [toSurface, get?_of_lookup hi hlookup, get?_of_lookup hi hlookup,
          h.kept i 0 fun hboth => hoff i hlookup hboth.1]

end Strip

namespace CoordinateTable

variable {τ : Type} {width height : UInt32} {lengths : List Nat} {runs : List Run}
  {table : CoordinateTable} {p : Panel τ} {strip : Strip τ}

theorem lookup_lt (ht : build width height lengths runs = .ok table) {x y : Int32} {i : Nat}
    (hlookup : table.lookup x y = some i) : i < table.segments.total + 2 ^ 31 := by
  obtain ⟨hpos, front, r, back, -, ⟨d, -, hplace, rfl⟩, -⟩ :=
    (lookup_eq_some_iff ht x y i).mp hlookup
  have hstart := r.start_le_total table.segments
  have hx := x.toInt_lt
  have hy := y.toInt_lt
  rcases Run.distance_le hplace with hd | hd <;> omega

/-- Filling a segment agrees with the chain and with the grid. A segment that there is not is
refused. Any other segment gives its lights the colour, all of which are on the row, and no other
light; in the grid exactly the places that lead to one of these lights show it, also where a run has
taken places over or leads beyond the chain. Filling each segment once, in whatever order, gives the
colour to the whole chain and to nothing beyond it. -/
theorem filled_segment_shows (ht : build width height lengths runs = .ok table)
    (hmake : Strip.make (.panel p) table = .ok strip) (htotal : lengths.sum < 2 ^ 31) (c : Color) :
    (∀ id, lengths.length ≤ id →
      strip.fillSegment id c = .error (.unknownSegment id lengths.length)) ∧
    (∀ id length, lengths[id]? = some length →
      (lengths.take id).sum + length ≤ p.buffer.width.toNat ∧
      ∃ filled, strip.fillSegment id c = .ok filled ∧ Strip.Lit p table filled
        (fun i => (lengths.take id).sum ≤ i ∧ i < (lengths.take id).sum + length) c) ∧
    (∀ ids, ids.Perm (List.range lengths.length) → ∃ filled,
      strip.fillSegments ids c = .ok filled ∧ Strip.Lit p table filled (· < lengths.sum) c) := by
  obtain ⟨rfl, hwide⟩ := Strip.make_eq_ok hmake
  have hrow : table.segments.total ≤ p.buffer.width.toNat := hwide
  obtain ⟨hsegments, -⟩ := laid_of_build ht
  have hcount : table.segments.count = lengths.length := by rw [hsegments, Segments.count]
  have hsum : table.segments.total = lengths.sum := by rw [hsegments]; rfl
  have hword : table.segments.total < 2 ^ 31 := hsum ▸ htotal
  have hindex : ∀ x y i, table.lookup x y = some i → i < 2 ^ 32 := by
    intro x y i hlookup
    have hlt := lookup_lt ht hlookup
    omega
  refine ⟨?_, ?_, ?_⟩
  · intro id hid
    rw [← hcount] at hid ⊢
    exact Strip.fillSegment_unknown (Nat.not_lt.mpr hid) c
  · intro id length hlength
    have hid : id < table.segments.count := by
      rw [hcount]
      exact (List.getElem?_eq_some_iff.mp hlength).1
    have hhas : ∀ i, table.segments.Has id i ↔
        (lengths.take id).sum ≤ i ∧ i < (lengths.take id).sum + length := by
      intro i
      rw [Segments.Has, Segments.lengthOf, hsegments, hlength, Option.getD_some,
        Segments.span_eq_sum]
    obtain ⟨p', hp', hlit⟩ := Strip.exists_fillSegment hrow hword hid c
    have hend : (lengths.take id).sum + length ≤ lengths.sum := by
      obtain ⟨hid, rfl⟩ := List.getElem?_eq_some_iff.mp hlength
      rw [← lengths.sum_take_succ id hid]
      exact (lengths.take_sublist (id + 1)).sum_le_sum fun _ _ => Nat.zero_le _
    refine ⟨by omega, _, hp', Strip.lit_of_rowLit hindex ?_ (hlit.congr hhas)⟩
    intro i hi
    omega
  · intro ids hids
    rw [← hcount] at hids
    have hknown : ∀ id ∈ ids, id < table.segments.count :=
      fun id hid => List.mem_range.mp (hids.mem_iff.mp hid)
    obtain ⟨p', hp', hlit⟩ := Strip.exists_fillSegments hrow hword hknown c
    have hhas : ∀ i, (∃ id ∈ ids, table.segments.Has id i) ↔ i < lengths.sum := by
      rw [← hsum]
      exact Segments.has_iff_lt_total hids
    exact ⟨_, hp', Strip.lit_of_rowLit hindex (fun i hi => hi.trans htotal) (hlit.congr hhas)⟩

/-- Two lights downwards take a place over from three lights to the right; the segment between them
is empty. Filling the three shows at both their places and not at the one that was taken over. -/
theorem filled_segment_shows_crossing : ∃ table strip filled,
    build 3 3 [2, 0, 3] [⟨.horizontal, 0, 1, [2]⟩, ⟨.vertical, 1, 0, [0]⟩] = .ok table ∧
      Strip.make (.panel fiveLights) table = .ok strip ∧ [2, 0, 3].sum < 2 ^ 31 ∧
      strip.fillSegment 2 ⟨9, 9, 9⟩ = .ok filled ∧
      filled.toSurface.get? 0 1 = some ⟨9, 9, 9⟩ ∧ filled.toSurface.get? 1 1 = some .black ∧
      strip.fillSegment 3 ⟨9, 9, 9⟩ = .error (.unknownSegment 3 3) := by
  let table : CoordinateTable := ⟨⟨[2, 0, 3]⟩,
    ⟨3, 3, #[none, some 0, none, some 2, some 1, some 4, none, none, none], rfl⟩⟩
  have ht : build 3 3 [2, 0, 3] [⟨.horizontal, 0, 1, [2]⟩, ⟨.vertical, 1, 0, [0]⟩] = .ok table :=
    rfl
  have hmake : Strip.make (.panel fiveLights) table = .ok ⟨.panel fiveLights, table⟩ := rfl
  have htotal : [2, 0, 3].sum < 2 ^ 31 := by decide
  obtain ⟨hunknown, hfill, -⟩ := filled_segment_shows ht hmake htotal ⟨9, 9, 9⟩
  obtain ⟨-, filled, hfilled, hlit⟩ := hfill 2 3 rfl
  refine ⟨table, _, filled, ht, hmake, htotal, hfilled, hlit.shown 0 1 2 rfl (by decide), ?_,
    hunknown 3 (by decide)⟩
  refine (hlit.kept 1 1 fun i hlookup => ?_).trans rfl
  obtain rfl : 1 = i := Option.some.inj hlookup
  decide

end CoordinateTable

end LedWall
