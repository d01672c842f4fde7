import LedWall.Proofs.Chain.Table
import Mathlib.Data.Finset.Card
import Mathlib.Data.Finset.Dedup

/-!
# The places of a table's runs

A run covers as many places as its segments have lights, one after the other from its start on. The
places of all runs are those where the table has a light, however often the runs cross.
-/

namespace LedWall

namespace Run

/-- The places that a run covers, from its start on. -/
def places (s : Segments) (r : Run) : List (Nat × Nat) := (List.range (r.length s)).map r.place

theorem mem_places_iff {s : Segments} {r : Run} {place : Nat × Nat} :
    place ∈ r.places s ↔ r.Covers s place.1 place.2 := by
  simp [places, Covers]

instance (s : Segments) (r : Run) (x y : Nat) : Decidable (r.Covers s x y) :=
  decidable_of_iff ((x, y) ∈ r.places s) mem_places_iff

theorem nodup_places (s : Segments) (r : Run) : (r.places s).Nodup :=
  List.nodup_range.map fun _ _ h => r.place_injective h

theorem place_zero (r : Run) : r.place 0 = (r.x.toNat, r.y.toNat) := by
  unfold place
  cases r.direction <;> rfl

end Run

namespace CoordinateTable

variable {width height : UInt32} {lengths : List Nat} {runs : List Run} {table : CoordinateTable}

theorem lookup_eq_none_iff (h : build width height lengths runs = .ok table) (x y : Int32) :
    table.lookup x y = none ↔ ¬ ((0 ≤ x.toInt ∧ 0 ≤ y.toInt) ∧
      ∃ r ∈ runs, r.Covers ⟨lengths⟩ x.toInt.toNat y.toInt.toNat) := by
  obtain ⟨hsegments, -⟩ := laid_of_build h
  constructor
  · rintro hnone ⟨hpos, hcovered⟩
    obtain ⟨i, hi⟩ := exists_lit hcovered
    rw [← hsegments] at hi
    have hsome := (lookup_eq_some_iff h x y i).mpr ⟨hpos, hi⟩
    rw [hnone] at hsome
    cases hsome
  · intro hfree
    rw [Option.eq_none_iff_forall_ne_some]
    intro i hsome
    obtain ⟨hpos, front, r, back, rfl, hputs, -⟩ := (lookup_eq_some_iff h x y i).mp hsome
    rw [hsegments] at hputs
    exact hfree ⟨hpos, r, by simp, hputs.covers⟩

theorem any_cell?_iff (h : build width height lengths runs = .ok table) (x y : Nat) :
    (table.grid.cell? x y).any Option.isSome ↔ ∃ r ∈ runs, r.Covers ⟨lengths⟩ x y := by
  obtain ⟨hsegments, -⟩ := laid_of_build h
  have hjoin : (table.grid.cell? x y).any Option.isSome ↔
      ∃ i, (table.grid.cell? x y).join = some i := by
    rcases table.grid.cell? x y with _ | _ | i <;> simp
  rw [hjoin]
  constructor
  · rintro ⟨i, hi⟩
    obtain ⟨front, r, back, rfl, hputs, -⟩ := (join_cell?_of_build h x y i).mp hi
    rw [hsegments] at hputs
    exact ⟨r, by simp, hputs.covers⟩
  · intro hcovered
    obtain ⟨i, hi⟩ := exists_lit hcovered
    rw [← hsegments] at hi
    exact ⟨i, (join_cell?_of_build h x y i).mpr hi⟩

theorem mappedCount_eq (h : build width height lengths runs = .ok table) :
    table.mappedCount = (runs.flatMap (Run.places ⟨lengths⟩)).toFinset.card := by
  have hvalid := valid_of_build h
  obtain ⟨hsegments, hlaid⟩ := laid_of_build h
  rw [hsegments] at hvalid
  rw [mappedCount, Grid.countP_cells,
    ← List.toFinset_card_of_nodup (table.grid.nodup_places.filter _)]
  congr 1
  ext place
  rw [List.mem_toFinset, List.mem_toFinset, List.mem_filter, any_cell?_iff h, List.mem_flatMap,
    Grid.mem_places_iff, hlaid.width, hlaid.height]
  simp only [Run.mem_places_iff]
  refine and_iff_right_of_imp ?_
  rintro ⟨r, hr, hcovers⟩
  exact (hvalid r hr).inside hcovers

/-- A table shows at each place the light that the last run over the place has put there, and nothing
where no run goes. Each run takes as many places, from its start on, as its segments have lights
together, and the places with a light are those of all runs, each counted once. -/
theorem build_shows_runs (h : build width height lengths runs = .ok table) :
    (∀ (x y : Int32) (i : Nat), table.lookup x y = some i ↔
      (0 ≤ x.toInt ∧ 0 ≤ y.toInt) ∧ Lit ⟨lengths⟩ runs x.toInt.toNat y.toInt.toNat i) ∧
    (∀ x y : Int32, table.lookup x y = none ↔ ¬ ((0 ≤ x.toInt ∧ 0 ≤ y.toInt) ∧
      ∃ r ∈ runs, r.Covers ⟨lengths⟩ x.toInt.toNat y.toInt.toNat)) ∧
    (∀ x y : Int32, ¬ ((0 ≤ x.toInt ∧ x.toInt < width.toNat) ∧
      0 ≤ y.toInt ∧ y.toInt < height.toNat) → table.lookup x y = none) ∧
    (∀ r ∈ runs, ∃ first more, r.segments = first :: more ∧
      r.start ⟨lengths⟩ = (lengths.take first).sum ∧ r.place 0 = (r.x.toNat, r.y.toNat) ∧
      (∀ place, r.Covers ⟨lengths⟩ place.1 place.2 ↔ place ∈ r.places ⟨lengths⟩) ∧
      (r.places ⟨lengths⟩).Nodup ∧
      (r.places ⟨lengths⟩).length = ((first :: more).map (lengths.getD · 0)).sum) ∧
    table.mappedCount = (runs.flatMap (Run.places ⟨lengths⟩)).toFinset.card := by
  have hvalid := valid_of_build h
  obtain ⟨hsegments, -⟩ := laid_of_build h
  rw [hsegments] at hvalid
  refine ⟨hsegments ▸ lookup_eq_some_iff h, lookup_eq_none_iff h, ?_, ?_, mappedCount_eq h⟩
  · intro x y hout
    rw [lookup_eq_none_iff h]
    rintro ⟨hpos, r, hr, hcovers⟩
    have hin := (hvalid r hr).inside hcovers
    omega
  · intro r hr
    obtain ⟨first, more, hids⟩ := List.exists_cons_of_ne_nil (hvalid r hr).ne_nil
    refine ⟨first, more, hids, ?_, r.place_zero, fun place => Run.mem_places_iff.symm,
      r.nodup_places ⟨lengths⟩, ?_⟩
    · rw [Run.start, hids]
      rfl
    · rw [Run.places, List.length_map, List.length_range, Run.length, hids]
      rfl

theorem build_shows_runs_crossing : ∃ table,
    build 3 3 [2, 3, 1] [⟨.horizontal, 0, 1, [1]⟩, ⟨.vertical, 1, 0, [0, 2]⟩] = .ok table ∧
      table.lookup 1 1 = some 1 ∧ table.lookup 0 0 = none ∧ table.mappedCount = 5 := by
  have ht : build 3 3 [2, 3, 1] [⟨.horizontal, 0, 1, [1]⟩, ⟨.vertical, 1, 0, [0, 2]⟩] =
      .ok ⟨⟨[2, 3, 1]⟩,
        ⟨3, 3, #[none, some 0, none, some 2, some 1, some 4, none, some 2, none], rfl⟩⟩ := rfl
  obtain ⟨hsome, hnone, -, -, hcount⟩ := build_shows_runs ht
  refine ⟨_, ht, ?_, ?_, ?_⟩
  · rw [hsome]
    refine ⟨by decide, [⟨.horizontal, 0, 1, [1]⟩], _, [], rfl, ⟨1, by decide, rfl, rfl⟩, ?_⟩
    exact List.forall_mem_nil _
  · rw [hnone]
    decide
  · rw [hcount]
    decide

end CoordinateTable

end LedWall
