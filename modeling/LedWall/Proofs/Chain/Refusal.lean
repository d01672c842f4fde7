import LedWall.Proofs.Chain.Table

/-!
# Why a table cannot be built

Runs are checked one by one while they are laid, so a table fails with the defect of the first run
that has one. The checks of a run come in a fixed order: that it lists a segment, that each listed
segment exists, and that the run stays in the grid.
-/

namespace LedWall

namespace Run

/-- What is wrong with run number `index`, as the first of its checks that fails tells. -/
inductive Defect (s : Segments) (width height : UInt32) (index : Nat) (r : Run) :
    ChainError → Prop where
  | empty (h : r.segments = []) : Defect s width height index r (.emptyRun index)
  | unknown {known more : List Nat} {id : Nat} (h : r.segments = known ++ id :: more)
      (hknown : ∀ i ∈ known, i < s.count) (hid : ¬ id < s.count) :
      Defect s width height index r (.unknownSegment id s.count)
  | outside (h : r.segments ≠ []) (hknown : ∀ i ∈ r.segments, i < s.count)
      (hfits : ¬ r.Fits (r.length s) width height) :
      Defect s width height index r (.runOutOfBounds index r.x r.y (r.length s) width height)

theorem Valid.not_defect {s : Segments} {width height : UInt32} {index : Nat} {r : Run}
    {e : ChainError} (hvalid : r.Valid s width height) : ¬ r.Defect s width height index e := by
  rintro (hnil | ⟨hids, -, hid⟩ | ⟨-, -, hfits⟩)
  · exact hvalid.ne_nil hnil
  · exact hid (hvalid.known _ (hids ▸ List.mem_append_right _ List.mem_cons_self))
  · exact hfits hvalid.fits

end Run

namespace CoordinateTable

section AddRun

variable {s : Segments} {grid : Grid (Option Nat)} {index : Nat} {r : Run}

theorem addRun_eq_error_iff {e : ChainError} :
    addRun s grid index r = .error e ↔ r.Defect s grid.width grid.height index e := by
  constructor
  · intro h
    by_cases hne : r.segments = []
    · rw [addRun_of_nil hne] at h
      obtain rfl := Except.error.inj h
      exact .empty hne
    · rcases known_or_first_unknown s r.segments with hknown | ⟨known, id, more, hids, hknown, hid⟩
      · rw [addRun_of_known hne hknown] at h
        by_cases hfits : r.Fits (r.length s) grid.width grid.height
        · rw [if_pos hfits] at h
          cases h
        · rw [if_neg hfits] at h
          obtain rfl := Except.error.inj h
          exact .outside hne hknown hfits
      · rw [addRun_of_unknown hids hknown hid] at h
        obtain rfl := Except.error.inj h
        exact .unknown hids hknown hid
  · rintro (hnil | ⟨hids, hknown, hid⟩ | ⟨hne, hknown, hfits⟩)
    · exact addRun_of_nil hnil
    · exact addRun_of_unknown hids hknown hid
    · rw [addRun_of_known hne hknown, if_neg hfits]

end AddRun

theorem addRuns_eq_error_iff {s : Segments} {runs : List Run} {index : Nat}
    {grid : Grid (Option Nat)} {e : ChainError} : addRuns s runs index grid = .error e ↔
      ∃ front r back, runs = front ++ r :: back ∧
        (∀ t ∈ front, t.Valid s grid.width grid.height) ∧
        r.Defect s grid.width grid.height (index + front.length) e := by
  induction runs generalizing index grid with
  | nil => simp [addRuns]
  | cons r runs ih =>
      rw [addRuns]
      cases hr : addRun s grid index r with
      | error e' =>
          have hdefect := addRun_eq_error_iff.mp hr
          constructor
          · intro h
            obtain rfl := Except.error.inj h
            exact ⟨[], r, runs, rfl, List.forall_mem_nil _, hdefect⟩
          · rintro ⟨front, t, back, hruns, hfront, ht⟩
            cases front with
            | nil =>
                obtain ⟨rfl, rfl⟩ := List.cons.inj hruns
                exact hr.symm.trans (addRun_eq_error_iff.mpr ht)
            | cons u front =>
                obtain ⟨rfl, -⟩ := List.cons.inj hruns
                exact absurd hdefect (hfront r List.mem_cons_self).not_defect
      | ok laid =>
          obtain ⟨hvalid, rfl⟩ := addRun_eq_ok_iff.mp hr
          refine ih.trans ?_
          rw [width_lay, height_lay]
          constructor
          · rintro ⟨front, t, back, rfl, hfront, ht⟩
            refine ⟨r :: front, t, back, rfl, List.forall_mem_cons.mpr ⟨hvalid, hfront⟩, ?_⟩
            rwa [List.length_cons, Nat.add_comm front.length, ← Nat.add_assoc]
          · rintro ⟨front, t, back, hruns, hfront, ht⟩
            cases front with
            | nil =>
                obtain ⟨rfl, -⟩ := List.cons.inj hruns
                exact absurd ht hvalid.not_defect
            | cons u front =>
                obtain ⟨rfl, rfl⟩ := List.cons.inj hruns
                refine ⟨front, t, back, rfl, (List.forall_mem_cons.mp hfront).2, ?_⟩
                rwa [List.length_cons, Nat.add_comm front.length, ← Nat.add_assoc] at ht

section Build

variable {width height : UInt32} {lengths : List Nat} {runs : List Run}

theorem build_of_side_zero (h : width = 0 ∨ height = 0) :
    build width height lengths runs = .error (.invalidDimension width height) := by
  rw [build, if_pos h]
  rfl

theorem build_of_sides (h : ¬ (width = 0 ∨ height = 0)) : build width height lengths runs =
    (addRuns ⟨lengths⟩ runs 0 (.uniform width height none)).map (CoordinateTable.mk ⟨lengths⟩) := by
  rw [build, if_neg h]
  rfl

theorem build_eq_error_iff {e : ChainError} : build width height lengths runs = .error e ↔
    (width = 0 ∨ height = 0) ∧ e = .invalidDimension width height ∨
      ¬ (width = 0 ∨ height = 0) ∧ ∃ front r back, runs = front ++ r :: back ∧
        (∀ t ∈ front, t.Valid ⟨lengths⟩ width height) ∧
        r.Defect ⟨lengths⟩ width height front.length e := by
  by_cases hside : width = 0 ∨ height = 0
  · rw [build_of_side_zero hside]
    simp only [hside, not_true, true_and, false_and, or_false, Except.error.injEq, eq_comm]
  · simp only [hside, false_and, not_false_eq_true, true_and, false_or]
    have hruns : addRuns ⟨lengths⟩ runs 0 (.uniform width height none) = .error e ↔ _ :=
      addRuns_eq_error_iff
    simp only [Nat.zero_add] at hruns
    rw [build_of_sides hside]
    refine Iff.trans ?_ hruns
    cases addRuns ⟨lengths⟩ runs 0 (.uniform width height none) <;> simp [Except.map]

/-- A table is built exactly if the grid has places and every run is valid. Otherwise the error is
that of the grid, or else of the first run with a defect. No run of a table leaves the grid. -/
theorem build_first_defect :
    ((∃ w h, build width height lengths runs = .error (.invalidDimension w h)) ↔
      width = 0 ∨ height = 0) ∧
    ((∃ table, build width height lengths runs = .ok table) ↔
      ¬ (width = 0 ∨ height = 0) ∧ ∀ r ∈ runs, r.Valid ⟨lengths⟩ width height) ∧
    (∀ e, build width height lengths runs = .error e ↔
      (width = 0 ∨ height = 0) ∧ e = .invalidDimension width height ∨
        ¬ (width = 0 ∨ height = 0) ∧ ∃ front r back, runs = front ++ r :: back ∧
          (∀ t ∈ front, t.Valid ⟨lengths⟩ width height) ∧
          r.Defect ⟨lengths⟩ width height front.length e) ∧
    ∀ table, build width height lengths runs = .ok table →
      ∀ r ∈ runs, ∀ d < r.length ⟨lengths⟩, ∀ x y, r.place d = (x, y) →
        (x < width.toNat ∧ y < height.toNat) ∧ y * width.toNat + x < table.grid.cells.size := by
  refine ⟨⟨?_, ?_⟩, ⟨?_, ?_⟩, fun e => build_eq_error_iff, ?_⟩
  · rintro ⟨w, h, herror⟩
    obtain ⟨hside, -⟩ | ⟨-, front, r, back, -, -, hdefect⟩ := build_eq_error_iff.mp herror
    · exact hside
    · cases hdefect
  · intro hside
    exact ⟨width, height, build_of_side_zero hside⟩
  · rintro ⟨table, htable⟩
    have hvalid := valid_of_build htable
    rw [(laid_of_build htable).1] at hvalid
    refine ⟨fun hside => ?_, hvalid⟩
    rw [build_of_side_zero hside] at htable
    cases htable
  · rintro ⟨hsides, hvalid⟩
    cases htable : build width height lengths runs with
    | ok table => exact ⟨table, rfl⟩
    | error e =>
        obtain ⟨hside, -⟩ | ⟨-, front, r, back, rfl, -, hdefect⟩ := build_eq_error_iff.mp htable
        · exact absurd hside hsides
        · have hr := hvalid r (List.mem_append_right _ List.mem_cons_self)
          exact absurd hdefect hr.not_defect
  · intro table htable r hr d hd x y hplace
    obtain ⟨-, hlaid⟩ := laid_of_build htable
    have hin := (hlaid.valid r hr).inside ⟨d, hd, hplace⟩
    refine ⟨hin, ?_⟩
    have hindex := Grid.index_lt (g := table.grid) (x := x) (y := y)
    rw [hlaid.width, hlaid.height] at hindex
    exact hindex hin

end Build

end CoordinateTable

end LedWall
