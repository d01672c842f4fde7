import LedWall.Proofs.Frame.Header
import Mathlib.Data.List.TakeWhile

/-!
# The grammar of raw frames

What a frame of raw pixels looks like, said without the reader: two letters, three numbers behind
gaps, one blank, the pixels, and perhaps further numbers that override the placement. The reader
takes exactly these frames, and tells a frame whose pixels end too early from all other bytes.
-/

namespace LedWall.Frame

open Decimal

def blanks : List UInt8 := [0x20, 0x09, 0x0A, 0x0C, 0x0D]

/-- Some bytes start with a gap, after which `rest` is left. A gap is any row of blanks and comments,
and a comment reaches to the end of its line or of the bytes. -/
inductive Gap : List UInt8 → List UInt8 → Prop where
  | nil (bs : List UInt8) : Gap bs bs
  | blank {b : UInt8} {bs rest : List UInt8} (hb : b ∈ blanks) (h : Gap bs rest) :
      Gap (b :: bs) rest
  | comment {text bs rest : List UInt8} (ht : (0x0A : UInt8) ∉ text)
      (hend : ∀ b ∈ bs.head?, b = 0x0A) (h : Gap bs rest) : Gap (0x23 :: (text ++ bs)) rest

inductive Sign : List UInt8 → Int → Prop where
  | absent : Sign [] 1
  | plus : Sign [0x2B] 1
  | minus : Sign [0x2D] (-1)

/-- Some bytes start with a numeral, after which `rest` is left: an optional sign and all the digits
that follow, with a value of 64 bits. -/
def Numeral (bs : List UInt8) (value : Int) (rest : List UInt8) : Prop :=
  ∃ mark factor digits, bs = mark ++ (digits ++ rest) ∧ Sign mark factor ∧
    (digits ≠ [] ∧ ∀ b ∈ digits, isDigit b = true) ∧ NoDigitAhead rest ∧
    value = factor * ofBytes digits ∧ -2 ^ 63 ≤ value ∧ value < 2 ^ 63

def Number (bs : List UInt8) (value : Int) (rest : List UInt8) : Prop :=
  ∃ mid, Gap bs mid ∧ Numeral mid value rest

theorem isBlank_iff (b : UInt8) : isBlank b = true ↔ b ∈ blanks := by
  simp [isBlank, blanks, or_assoc]

private theorem not_isBlank_hash : ¬ isBlank 0x23 = true := by decide

theorem afterComment_of_end {text bs : List UInt8} (ht : (0x0A : UInt8) ∉ text)
    (hend : ∀ b ∈ bs.head?, b = 0x0A) : afterComment (text ++ bs) = bs := by
  cases bs with
  | nil =>
      rw [List.append_nil, afterComment, List.dropWhile_eq_nil_iff]
      intro b hb
      exact decide_eq_true fun he => ht (he ▸ hb)
  | cons b bs =>
      obtain rfl : b = 0x0A := hend b rfl
      exact afterComment_append ht bs

theorem head_afterComment (bs : List UInt8) : ∀ b ∈ (afterComment bs).head?, b = 0x0A := by
  intro b hhead
  have hne := List.head?_dropWhile_not (· ≠ (0x0A : UInt8)) bs
  rw [show bs.dropWhile (· ≠ (0x0A : UInt8)) = afterComment bs from rfl,
    Option.mem_def.mp hhead] at hne
  simpa using hne

theorem newline_notMem_comment (bs : List UInt8) : (0x0A : UInt8) ∉ comment bs := by
  intro h
  simpa using List.mem_takeWhile_imp h

theorem comment_append_afterComment (bs : List UInt8) : comment bs ++ afterComment bs = bs :=
  List.takeWhile_append_dropWhile

theorem gap_skipGap (bs : List UInt8) : Gap bs (skipGap bs) := by
  fun_induction skipGap bs with
  | case1 => exact .nil []
  | case2 b bs hb ih => exact .blank ((isBlank_iff b).mp hb) ih
  | case3 bs hb ih =>
      have hgap := Gap.comment (newline_notMem_comment bs) (head_afterComment bs) ih
      rwa [comment_append_afterComment] at hgap
  | case4 b bs hb hc => exact .nil (b :: bs)

theorem skipGap_of_gap {bs rest : List UInt8} (h : Gap bs rest)
    (hsolid : ∀ b ∈ rest.head?, IsSolid b) : skipGap bs = rest := by
  induction h with
  | nil bs =>
      cases bs with
      | nil => rw [skipGap]
      | cons b bs => exact skipGap_cons_of_isSolid (hsolid b rfl) bs
  | blank hb _ ih => rw [skipGap_cons_of_isBlank ((isBlank_iff _).mpr hb), ih hsolid]
  | comment ht hend _ ih =>
      rw [skipGap, if_neg not_isBlank_hash, if_pos rfl, afterComment_of_end ht hend, ih hsolid]

theorem sign_sound (bs : List UInt8) : ∃ mark, Sign mark (if (sign bs).1 then -1 else 1) ∧
    bs = mark ++ (sign bs).2 := by
  cases bs with
  | nil => exact ⟨[], .absent, rfl⟩
  | cons b bs =>
      by_cases hm : b = 0x2D
      · subst hm
        exact ⟨[0x2D], .minus, rfl⟩
      · by_cases hp : b = 0x2B
        · subst hp
          exact ⟨[0x2B], .plus, rfl⟩
        · refine ⟨[], ?_, ?_⟩
          · rw [sign, if_neg hm, if_neg hp]
            exact .absent
          · rw [sign, if_neg hm, if_neg hp]
            rfl

theorem sign_complete {mark : List UInt8} {factor : Int} (h : Sign mark factor) {bs : List UInt8}
    (hbs : ∃ b ∈ bs.head?, isDigit b = true) :
    sign (mark ++ bs) = (decide (factor = -1), bs) := by
  cases h with
  | absent =>
      obtain ⟨b, hb, hd⟩ := hbs
      obtain ⟨bs, rfl⟩ : ∃ tail, bs = b :: tail := by
        cases bs with
        | nil => cases hb
        | cons c bs =>
            obtain rfl : c = b := Option.some.inj hb
            exact ⟨bs, rfl⟩
      have hm : b ≠ 0x2D := by
        rintro rfl
        exact absurd hd (by decide)
      have hp : b ≠ 0x2B := by
        rintro rfl
        exact absurd hd (by decide)
      rw [List.nil_append, sign, if_neg hm, if_neg hp]
      rfl
  | plus => rfl
  | minus => rfl

theorem noDigitAhead_dropWhile (bs : List UInt8) : NoDigitAhead (bs.dropWhile isDigit) := by
  intro b hhead
  have hne := List.head?_dropWhile_not isDigit bs
  rw [Option.mem_def.mp hhead] at hne
  simpa using hne

theorem numeral?_sound {bs rest : List UInt8} {value : Int}
    (h : numeral? bs = some (value, rest)) : Numeral bs value rest := by
  obtain ⟨mark, hmark, hbs⟩ := sign_sound bs
  generalize hs : sign bs = signed at hmark hbs
  obtain ⟨negative, tail⟩ := signed
  rw [numeral?, hs] at h
  by_cases hempty : (tail.takeWhile isDigit).isEmpty = true
  · simp only [hempty, ↓reduceIte] at h
    cases h
  · simp only [hempty, Bool.false_eq_true, ↓reduceIte, Option.ite_none_right_eq_some,
      Option.some.injEq, Prod.mk.injEq] at h
    obtain ⟨hfits, hvalue, rfl⟩ := h
    refine ⟨mark, _, tail.takeWhile isDigit, ?_, hmark, ⟨?_, ?_⟩, noDigitAhead_dropWhile tail, ?_⟩
    · rw [List.takeWhile_append_dropWhile]
      exact hbs
    · exact fun hnil => hempty (List.isEmpty_iff.mpr hnil)
    · exact fun b hb => List.mem_takeWhile_imp hb
    · rw [hvalue] at hfits
      refine ⟨?_, by omega, by omega⟩
      rw [← hvalue]
      cases negative <;> simp

theorem exists_digit_head {digits : List UInt8} (hne : digits ≠ [])
    (hd : ∀ b ∈ digits, isDigit b = true) (rest : List UInt8) :
    ∃ b ∈ (digits ++ rest).head?, isDigit b = true := by
  obtain ⟨d, ds, rfl⟩ := List.exists_cons_of_ne_nil hne
  exact ⟨d, rfl, hd d List.mem_cons_self⟩

theorem numeral?_complete {bs rest : List UInt8} {value : Int} (h : Numeral bs value rest) :
    numeral? bs = some (value, rest) := by
  obtain ⟨mark, factor, digits, rfl, hmark, ⟨hne, hd⟩, hrest, rfl, hfits⟩ := h
  have hhead := exists_digit_head hne hd rest
  have hnonempty : digits.isEmpty = false := List.isEmpty_eq_false_iff.mpr hne
  have hvalue : (if decide (factor = -1) = true then -(ofBytes digits : Int) else ofBytes digits) =
      factor * ofBytes digits := by
    cases hmark <;> simp
  rw [numeral?, sign_complete hmark hhead]
  simp only [takeWhile_append_of_stop hd hrest, dropWhile_append_of_stop hd hrest, hnonempty, hvalue,
    Bool.false_eq_true, ↓reduceIte]
  rw [if_pos (by omega)]

theorem solid_head_of_numeral {bs rest : List UInt8} {value : Int} (h : Numeral bs value rest) :
    ∀ b ∈ bs.head?, IsSolid b := by
  obtain ⟨mark, factor, digits, rfl, hmark, ⟨hne, hd⟩, -⟩ := h
  obtain ⟨d, ds, rfl⟩ := List.exists_cons_of_ne_nil hne
  intro b hb
  cases hmark with
  | absent =>
      obtain rfl : d = b := Option.some.inj hb
      exact isSolid_of_isDigit (hd d List.mem_cons_self)
  | plus =>
      obtain rfl : 0x2B = b := Option.some.inj hb
      exact ⟨by decide, by decide⟩
  | minus =>
      obtain rfl : 0x2D = b := Option.some.inj hb
      exact ⟨by decide, by decide⟩

/-- The reader finds a number exactly where there is one, and stops right behind it. -/
theorem number?_eq_some_iff {bs rest : List UInt8} {value : Int} :
    number? bs = some (value, rest) ↔ Number bs value rest := by
  constructor
  · intro h
    exact ⟨skipGap bs, gap_skipGap bs, numeral?_sound h⟩
  · rintro ⟨mid, hgap, hnumeral⟩
    rw [number?, skipGap_of_gap hgap (solid_head_of_numeral hnumeral)]
    exact numeral?_complete hnumeral

theorem Number.unique {bs rest rest' : List UInt8} {value value' : Int}
    (h : Number bs value rest) (h' : Number bs value' rest') : value = value' ∧ rest = rest' := by
  have hsame := (number?_eq_some_iff.mpr h).symm.trans (number?_eq_some_iff.mpr h')
  simpa using hsame

theorem suffix_of_gap {bs rest : List UInt8} (h : Gap bs rest) : rest <:+ bs := by
  induction h with
  | nil bs => exact List.suffix_refl bs
  | blank _ _ ih => exact ih.trans (List.suffix_cons _ _)
  | comment _ _ _ ih =>
      exact (ih.trans (List.suffix_append _ _)).trans (List.suffix_cons _ _)

theorem Number.suffix {bs rest : List UInt8} {value : Int} (h : Number bs value rest) :
    rest <:+ bs := by
  obtain ⟨mid, hgap, mark, _, digits, rfl, -⟩ := h
  have htail : rest <:+ mark ++ (digits ++ rest) :=
    (List.suffix_append digits rest).trans (List.suffix_append mark _)
  exact htail.trans (suffix_of_gap hgap)

def Header (bs : List UInt8) (width height : UInt32) (data : List UInt8) : Prop :=
  ∃ r₁ r₂ b, Number bs width.toNat r₁ ∧ Number r₁ height.toNat r₂ ∧ Number r₂ 255 (b :: data) ∧
    b ∈ blanks

theorem Header.unique {bs data data' : List UInt8} {width height width' height' : UInt32}
    (h : Header bs width height data) (h' : Header bs width' height' data') :
    width = width' ∧ height = height' ∧ data = data' := by
  obtain ⟨r₁, r₂, b, hw, hh, hc, -⟩ := h
  obtain ⟨r₁', r₂', b', hw', hh', hc', -⟩ := h'
  obtain ⟨hwidth, rfl⟩ := hw.unique hw'
  obtain ⟨hheight, rfl⟩ := hh.unique hh'
  obtain ⟨-, hrest⟩ := hc.unique hc'
  refine ⟨?_, ?_, (List.cons.inj hrest).2⟩
  · exact UInt32.toNat_inj.mp (Int.ofNat_inj.mp hwidth)
  · exact UInt32.toNat_inj.mp (Int.ofNat_inj.mp hheight)

theorem Header.suffix {bs data : List UInt8} {width height : UInt32}
    (h : Header bs width height data) : data <:+ bs := by
  obtain ⟨r₁, r₂, b, hw, hh, hc, -⟩ := h
  have hdata : data <:+ r₂ := (List.suffix_cons b data).trans hc.suffix
  exact (hdata.trans hh.suffix).trans hw.suffix

theorem bind_eq_ok {ε α β : Type} {x : Except ε α} {f : α → Except ε β} {b : β} :
    (x >>= f) = .ok b ↔ ∃ a, x = .ok a ∧ f a = .ok b := by
  cases x with
  | error e =>
      constructor
      · intro h
        cases h
      · rintro ⟨a, h, -⟩
        cases h
  | ok a =>
      constructor
      · intro h
        exact ⟨a, rfl, h⟩
      · rintro ⟨a', h, hf⟩
        cases h
        exact hf

def OnlyMalformed {α : Type} (x : Except FrameError α) : Prop :=
  ∀ e, x = .error e → ∃ cause, e = .malformed cause

namespace OnlyMalformed

variable {α β : Type}

theorem ok (a : α) : OnlyMalformed (.ok a) := by
  intro e h
  cases h

theorem malformed (cause : Malformation) : OnlyMalformed (.error (.malformed cause) : Except _ α) := by
  intro e h
  cases h
  exact ⟨cause, rfl⟩

theorem bind {x : Except FrameError α} {f : α → Except FrameError β} (hx : OnlyMalformed x)
    (hf : ∀ a, OnlyMalformed (f a)) : OnlyMalformed (x >>= f) := by
  cases x with
  | error e =>
      obtain ⟨cause, rfl⟩ := hx e rfl
      exact malformed cause
  | ok a => exact hf a

end OnlyMalformed

namespace Scan

theorem field_eq_ok_iff (name : Field) {s s' : Scan} {value : Int} :
    s.field name = .ok (value, s') ↔
      Number s.rest value s'.rest ∧ s'.comments = s.comments ++ gapComments s.rest := by
  rw [field, ← number?_eq_some_iff]
  cases hn : number? s.rest with
  | none => simp
  | some found =>
      obtain ⟨v, rest⟩ := found
      obtain ⟨rest', comments'⟩ := s'
      simp only [Except.ok.injEq, Prod.mk.injEq, Scan.mk.injEq, Option.some.injEq]
      constructor
      · rintro ⟨rfl, rfl, rfl⟩
        exact ⟨⟨rfl, rfl⟩, rfl⟩
      · rintro ⟨⟨rfl, rfl⟩, rfl⟩
        exact ⟨rfl, rfl, rfl⟩

theorem onlyMalformed_field (name : Field) (s : Scan) : OnlyMalformed (s.field name) := by
  rw [field]
  cases number? s.rest with
  | none => exact .malformed _
  | some found => exact .ok _

theorem side_eq_ok_iff {name : Field} {s s' : Scan} {n : UInt32} :
    s.side name = .ok (n, s') ↔
      Number s.rest n.toNat s'.rest ∧ s'.comments = s.comments ++ gapComments s.rest := by
  rw [side, bind_eq_ok, ← field_eq_ok_iff name]
  constructor
  · rintro ⟨⟨value, t⟩, hfield, hside⟩
    by_cases hv : 0 ≤ value ∧ value < 4294967296
    · simp only [hv, and_self, ↓reduceIte] at hside
      obtain ⟨rfl, rfl⟩ := Prod.mk.inj (Except.ok.inj hside)
      have hsize : value.toNat < UInt32.size := (Int.toNat_lt hv.1).mpr hv.2
      rw [hfield, UInt32.toNat_ofNat_of_lt' hsize, Int.toNat_of_nonneg hv.1]
    · simp only [hv, ↓reduceIte] at hside
      cases hside
  · intro hfield
    have hlt := n.toNat_lt
    have hv : 0 ≤ (n.toNat : Int) ∧ (n.toNat : Int) < 4294967296 := by omega
    refine ⟨_, hfield, ?_⟩
    simp only [hv, and_self, ↓reduceIte, Int.toNat_natCast, UInt32.ofNat_toNat]
    rfl

theorem onlyMalformed_side (name : Field) (s : Scan) : OnlyMalformed (s.side name) := by
  refine (onlyMalformed_field name s).bind fun found => ?_
  split
  split
  · exact .ok _
  · exact .malformed _

theorem channelRange_eq_ok_iff {s s' : Scan} : s.channelRange = .ok s' ↔
    Number s.rest 255 s'.rest ∧ s'.comments = s.comments ++ gapComments s.rest := by
  rw [channelRange, bind_eq_ok, ← field_eq_ok_iff .channelRange]
  constructor
  · rintro ⟨⟨value, t⟩, hfield, hrange⟩
    by_cases hv : value = 255
    · simp only [hv, ↓reduceIte] at hrange
      obtain rfl := Except.ok.inj hrange
      rw [hfield, hv]
    · simp only [hv, ↓reduceIte] at hrange
      cases hrange
  · intro hfield
    exact ⟨_, hfield, rfl⟩

theorem onlyMalformed_channelRange (s : Scan) : OnlyMalformed s.channelRange := by
  refine (onlyMalformed_field .channelRange s).bind fun found => ?_
  split
  split
  · exact .ok _
  · exact .malformed _

theorem data_eq_ok_iff {s : Scan} {data : List UInt8} :
    s.data = .ok data ↔ ∃ b ∈ blanks, s.rest = b :: data := by
  obtain ⟨rest, comments⟩ := s
  cases rest with
  | nil => simp [Scan.data]
  | cons b bs =>
      by_cases hb : isBlank b = true
      · have hmem := (isBlank_iff b).mp hb
        simp only [Scan.data, hb, ↓reduceIte, Except.ok.injEq, List.cons.injEq]
        constructor
        · rintro rfl
          exact ⟨b, hmem, rfl, rfl⟩
        · rintro ⟨_, -, -, rfl⟩
          rfl
      · have hmem := mt (isBlank_iff b).mpr hb
        simp only [Scan.data, hb, List.cons.injEq]
        constructor
        · intro h
          cases h
        · rintro ⟨_, hc, rfl, -⟩
          exact absurd hc hmem

theorem onlyMalformed_data (s : Scan) : OnlyMalformed s.data := by
  rw [Scan.data]
  cases s.rest with
  | nil => exact .malformed _
  | cons b bs =>
      by_cases hb : isBlank b = true
      · simp only [hb, ↓reduceIte]
        exact .ok _
      · simp only [hb]
        exact .malformed _

end Scan

namespace RawHeader

theorem read_sound {bs : List UInt8} {h : RawHeader} (hread : read bs = .ok h) :
    Header bs h.width h.height h.data := by
  obtain ⟨⟨width, s⟩, hw, hread⟩ := bind_eq_ok.mp hread
  obtain ⟨⟨height, t⟩, hh, hread⟩ := bind_eq_ok.mp hread
  obtain ⟨u, hc, hread⟩ := bind_eq_ok.mp hread
  obtain ⟨data, hd, hread⟩ := bind_eq_ok.mp hread
  obtain rfl := Except.ok.inj hread
  obtain ⟨b, hb, hrest⟩ := Scan.data_eq_ok_iff.mp hd
  refine ⟨s.rest, t.rest, b, (Scan.side_eq_ok_iff.mp hw).1, (Scan.side_eq_ok_iff.mp hh).1, ?_, hb⟩
  rw [← hrest]
  exact (Scan.channelRange_eq_ok_iff.mp hc).1

theorem read_complete {bs data : List UInt8} {width height : UInt32}
    (h : Header bs width height data) :
    ∃ comments, read bs = .ok ⟨width, height, comments, data⟩ := by
  obtain ⟨r₁, r₂, b, hw, hh, hc, hb⟩ := h
  have hwidth : Scan.side .width ⟨bs, []⟩ = .ok (width, ⟨r₁, [] ++ gapComments bs⟩) :=
    Scan.side_eq_ok_iff.mpr ⟨hw, rfl⟩
  have hheight : Scan.side .height ⟨r₁, [] ++ gapComments bs⟩ =
      .ok (height, ⟨r₂, [] ++ gapComments bs ++ gapComments r₁⟩) :=
    Scan.side_eq_ok_iff.mpr ⟨hh, rfl⟩
  have hrange : Scan.channelRange ⟨r₂, [] ++ gapComments bs ++ gapComments r₁⟩ =
      .ok ⟨b :: data, [] ++ gapComments bs ++ gapComments r₁ ++ gapComments r₂⟩ :=
    Scan.channelRange_eq_ok_iff.mpr ⟨hc, rfl⟩
  have hdata : Scan.data ⟨b :: data, [] ++ gapComments bs ++ gapComments r₁ ++ gapComments r₂⟩ =
      .ok data := Scan.data_eq_ok_iff.mpr ⟨b, hb, rfl⟩
  refine ⟨[] ++ gapComments bs ++ gapComments r₁ ++ gapComments r₂, ?_⟩
  simp only [read, hwidth, hheight, hrange, hdata, bind, Except.bind]
  rfl

theorem onlyMalformed_read (bs : List UInt8) : OnlyMalformed (read bs) := by
  refine (Scan.onlyMalformed_side .width _).bind fun found => ?_
  refine (Scan.onlyMalformed_side .height _).bind fun found => ?_
  refine (Scan.onlyMalformed_channelRange _).bind fun s => ?_
  exact (Scan.onlyMalformed_data _).bind fun data => .ok _

end RawHeader

/-- Where some bytes start with three numbers, the third is a layer. -/
def LayerFits (bs : List UInt8) : Prop :=
  ∀ x y z r₁ r₂ r₃, Number bs x r₁ → Number r₁ y r₂ → Number r₂ z r₃ → 0 ≤ z ∧ z ≤ 255

theorem numbers_of_number {bs rest : List UInt8} {value : Int} (h : Number bs value rest)
    (n : Nat) : numbers (n + 1) bs = value :: numbers n rest := by
  rw [numbers, number?_eq_some_iff.mpr h]

theorem numbers_of_none {bs : List UInt8} (h : number? bs = none) (n : Nat) : numbers n bs = [] := by
  cases n with
  | zero => rfl
  | succ n => rw [numbers, h]

theorem layer_eq_ok_iff {value : Int} :
    (∃ z, layer value = .ok z) ↔ 0 ≤ value ∧ value ≤ 255 := by
  rw [layer, layer?]
  by_cases h : 0 ≤ value ∧ value ≤ 255 <;> simp [h]

theorem onlyMalformed_layer (value : Int) : OnlyMalformed (layer value) := by
  rw [layer]
  cases layer? value with
  | none => exact .malformed _
  | some z => exact .ok z

theorem overridden_three (offset : Offset) (x y z : Int) :
    (∃ o, overridden offset [x, y, z] = .ok o) ↔ 0 ≤ z ∧ z ≤ 255 := by
  rw [← layer_eq_ok_iff, overridden]
  constructor
  · rintro ⟨o, h⟩
    obtain ⟨layer, hlayer, -⟩ := bind_eq_ok.mp h
    exact ⟨layer, hlayer⟩
  · rintro ⟨layer, hlayer⟩
    exact ⟨_, bind_eq_ok.mpr ⟨layer, hlayer, rfl⟩⟩

theorem onlyMalformed_overridden (offset : Offset) (ns : List Int) :
    OnlyMalformed (overridden offset ns) := by
  match ns with
  | [] => exact .ok _
  | [_] => exact .ok _
  | [_, _] => exact .ok _
  | _ :: _ :: z :: _ => exact (onlyMalformed_layer z).bind fun z => .ok _

theorem overridden_eq_ok_iff (offset : Offset) (bs : List UInt8) :
    (∃ o, overridden offset (numbers 3 bs) = .ok o) ↔ LayerFits bs := by
  constructor
  · intro hok x y z r₁ r₂ r₃ hx hy hz
    rw [numbers_of_number hx, numbers_of_number hy, numbers_of_number hz] at hok
    exact (overridden_three offset x y z).mp hok
  · intro hfits
    cases hx : number? bs with
    | none =>
        rw [numbers_of_none hx]
        exact ⟨_, rfl⟩
    | some first =>
        have hx := number?_eq_some_iff.mp hx
        rw [numbers_of_number hx]
        cases hy : number? first.2 with
        | none =>
            rw [numbers_of_none hy]
            exact ⟨_, rfl⟩
        | some second =>
            have hy := number?_eq_some_iff.mp hy
            rw [numbers_of_number hy]
            cases hz : number? second.2 with
            | none =>
                rw [numbers_of_none hz]
                exact ⟨_, rfl⟩
            | some third =>
                have hz := number?_eq_some_iff.mp hz
                rw [numbers_of_number hz]
                exact (overridden_three offset _ _ _).mpr (hfits _ _ _ _ _ _ hx hy hz)

def pixelBytes (width height : UInt32) : Nat := 3 * (width.toNat * height.toNat)

/-- The data behind a header holds all pixels, and no number for a layer that does not exist. -/
structure Complete (width height : UInt32) (data : List UInt8) : Prop where
  size : pixelBytes width height < 2 ^ 64
  pixels : pixelBytes width height ≤ data.length
  layer : LayerFits (data.drop (pixelBytes width height))

structure Short (width height : UInt32) (data : List UInt8) : Prop where
  size : pixelBytes width height < 2 ^ 64
  pixels : data.length < pixelBytes width height

structure TakenFrom (f : Frame) (width height : UInt32) (data : List UInt8) : Prop where
  width_eq : f.width = width
  height_eq : f.height = height
  count : f.pixels.length = width.toNat * height.toNat
  pixels : Color.dump f.pixels = data.take (pixelBytes width height)

namespace RawHeader

theorem needed_eq (h : RawHeader) : h.needed = pixelBytes h.width h.height :=
  Nat.mul_comm _ _

theorem frame_of_short {h : RawHeader} (hs : Short h.width h.height h.data) :
    h.frame = .error (.truncated (pixelBytes h.width h.height) h.data.length) := by
  have hsize := hs.size
  rw [frame, needed_eq, if_neg (by omega), if_pos hs.pixels]

theorem frame_of_pixels {h : RawHeader} (hsize : pixelBytes h.width h.height < 2 ^ 64)
    (hpixels : pixelBytes h.width h.height ≤ h.data.length) : h.frame = (do
      let offset ← overridden (h.commented.getD .zero)
        (numbers 3 (h.data.drop (pixelBytes h.width h.height)))
      let placed := h.commented.isSome || (!h.footer.isEmpty && offset ≠ .zero)
      return {
        kind := if placed then .offset else .plain
        width := h.width, height := h.height, offset
        pixels := Color.ofDump (h.data.take (pixelBytes h.width h.height)) }) := by
  rw [frame, if_neg (by rw [needed_eq]; omega), if_neg (by rw [needed_eq]; omega), footer,
    needed_eq]

theorem exists_frame {h : RawHeader} (hc : Complete h.width h.height h.data) :
    ∃ f, h.frame = .ok f := by
  obtain ⟨offset, hoffset⟩ := (overridden_eq_ok_iff (h.commented.getD .zero) _).mpr hc.layer
  rw [frame_of_pixels hc.size hc.pixels]
  exact ⟨_, bind_eq_ok.mpr ⟨offset, hoffset, rfl⟩⟩

theorem frame_cases (h : RawHeader) :
    (∃ f, h.frame = .ok f ∧ Complete h.width h.height h.data ∧
      TakenFrom f h.width h.height h.data) ∨
    Short h.width h.height h.data ∨ ∃ cause, h.frame = .error (.malformed cause) := by
  by_cases hsize : pixelBytes h.width h.height < 2 ^ 64
  · by_cases hpixels : pixelBytes h.width h.height ≤ h.data.length
    · rw [frame_of_pixels hsize hpixels]
      cases ho : overridden (h.commented.getD .zero)
          (numbers 3 (h.data.drop (pixelBytes h.width h.height))) with
      | error e =>
          obtain ⟨cause, rfl⟩ := onlyMalformed_overridden _ _ e ho
          exact .inr (.inr ⟨cause, rfl⟩)
      | ok offset =>
          have hlayer := (overridden_eq_ok_iff (h.commented.getD .zero) _).mp ⟨offset, ho⟩
          have hlen : (h.data.take (pixelBytes h.width h.height)).length =
              pixelBytes h.width h.height := List.length_take_of_le hpixels
          have hdump : Color.dump (Color.ofDump (h.data.take (pixelBytes h.width h.height))) =
              h.data.take (pixelBytes h.width h.height) := by
            apply Color.dump_ofDump
            rw [hlen]
            exact Nat.dvd_mul_right 3 _
          refine .inl ⟨_, rfl, ⟨hsize, hpixels, hlayer⟩, rfl, rfl, ?_, hdump⟩
          have hcount := congrArg List.length hdump
          rw [Color.length_dump, hlen] at hcount
          exact Nat.eq_of_mul_eq_mul_left (Nat.zero_lt_succ 2) hcount
    · exact .inr (.inl ⟨hsize, Nat.lt_of_not_le hpixels⟩)
  · refine .inr (.inr ⟨.tooLarge h.width h.height, ?_⟩)
    rw [frame, needed_eq, if_pos (by omega)]

end RawHeader

theorem parse_raw_eq [Png.Codec] (bs : List UInt8) :
    parse (rawMagic ++ bs) = (do let h ← RawHeader.read bs; h.frame) := by
  have hmagic : rawMagic.isPrefixOf (rawMagic ++ bs) = true :=
    List.isPrefixOf_iff_prefix.mpr (List.prefix_append _ _)
  rw [parse, if_pos hmagic]
  rfl

theorem parse_of_header [Png.Codec] {bs data : List UInt8} {width height : UInt32}
    (h : Header bs width height data) :
    ∃ comments, parse (rawMagic ++ bs) = RawHeader.frame ⟨width, height, comments, data⟩ := by
  obtain ⟨comments, hread⟩ := RawHeader.read_complete h
  refine ⟨comments, ?_⟩
  rw [parse_raw_eq, hread]
  rfl

theorem parse_raw_cases [Png.Codec] (bs : List UInt8) :
    (∃ width height data f, Header bs width height data ∧ Complete width height data ∧
      parse (rawMagic ++ bs) = .ok f ∧ TakenFrom f width height data) ∨
    (∃ width height data, Header bs width height data ∧ Short width height data ∧
      parse (rawMagic ++ bs) =
        .error (.truncated (pixelBytes width height) data.length)) ∨
    ∃ cause, parse (rawMagic ++ bs) = .error (.malformed cause) := by
  cases hread : RawHeader.read bs with
  | error e =>
      obtain ⟨cause, rfl⟩ := RawHeader.onlyMalformed_read bs e hread
      rw [parse_raw_eq, hread]
      exact .inr (.inr ⟨cause, rfl⟩)
  | ok h =>
      have hheader := RawHeader.read_sound hread
      have hparse : parse (rawMagic ++ bs) = h.frame := by
        rw [parse_raw_eq, hread]
        rfl
      rw [hparse]
      rcases h.frame_cases with ⟨f, hf, hcomplete, htaken⟩ | hshort | ⟨cause, hcause⟩
      · exact .inl ⟨_, _, _, f, hheader, hcomplete, hf, htaken⟩
      · exact .inr (.inl ⟨_, _, _, hheader, hshort, RawHeader.frame_of_short hshort⟩)
      · exact .inr (.inr ⟨cause, hcause⟩)

/-- Bytes that start with the two letters of a raw frame are one exactly if a header follows and the
data behind it are complete; the frame then has the size of the header and the pixels at the head of
the data. Data that end before the last pixel are reported with the bytes needed and found, and
every other failure as bad shape. Nothing but a frame or one of these failures comes out, and the
data lie inside the bytes. -/
theorem parse_raw_iff_grammar [Png.Codec] (bs : List UInt8) :
    ((∃ f, parse (rawMagic ++ bs) = .ok f) ↔
      ∃ width height data, Header bs width height data ∧ Complete width height data) ∧
    (∀ f width height data, parse (rawMagic ++ bs) = .ok f → Header bs width height data →
      TakenFrom f width height data) ∧
    (∀ needed available, parse (rawMagic ++ bs) = .error (.truncated needed available) ↔
      ∃ width height data, Header bs width height data ∧ Short width height data ∧
        needed = pixelBytes width height ∧ available = data.length) ∧
    ((∃ f, parse (rawMagic ++ bs) = .ok f) ∨
      (∃ needed available, parse (rawMagic ++ bs) = .error (.truncated needed available)) ∨
      ∃ cause, parse (rawMagic ++ bs) = .error (.malformed cause)) ∧
    ∀ width height data, Header bs width height data → data <:+ bs := by
  refine ⟨⟨?_, ?_⟩, ?_, ?_, ?_, fun _ _ _ h => h.suffix⟩
  · rintro ⟨f, hf⟩
    rcases parse_raw_cases bs with ⟨width, height, data, _, hh, hc, -⟩ | ⟨_, _, _, -, -, he⟩ | ⟨_, he⟩
    · exact ⟨width, height, data, hh, hc⟩
    · rw [he] at hf
      cases hf
    · rw [he] at hf
      cases hf
  · rintro ⟨width, height, data, hh, hc⟩
    obtain ⟨comments, hparse⟩ := parse_of_header hh
    rw [hparse]
    exact RawHeader.exists_frame hc
  · intro f width height data hf hh
    rcases parse_raw_cases bs with ⟨_, _, _, g, hh', -, hg, htaken⟩ | ⟨_, _, _, -, -, he⟩ | ⟨_, he⟩
    · obtain ⟨rfl, rfl, rfl⟩ := hh.unique hh'
      obtain rfl : f = g := Except.ok.inj (hf.symm.trans hg)
      exact htaken
    · rw [he] at hf
      cases hf
    · rw [he] at hf
      cases hf
  · intro needed available
    constructor
    · intro hf
      rcases parse_raw_cases bs with ⟨_, _, _, _, -, -, hg, -⟩ | ⟨_, _, _, hh, hs, he⟩ | ⟨_, he⟩
      · rw [hg] at hf
        cases hf
      · rw [he] at hf
        cases hf
        exact ⟨_, _, _, hh, hs, rfl, rfl⟩
      · rw [he] at hf
        cases hf
    · rintro ⟨width, height, data, hh, hs, rfl, rfl⟩
      obtain ⟨comments, hparse⟩ := parse_of_header hh
      rw [hparse]
      exact RawHeader.frame_of_short (h := ⟨width, height, comments, data⟩) hs
  · rcases parse_raw_cases bs with ⟨_, _, _, f, -, -, hf, -⟩ | ⟨_, _, _, -, -, he⟩ | ⟨cause, he⟩
    · exact .inl ⟨f, hf⟩
    · exact .inr (.inl ⟨_, _, he⟩)
    · exact .inr (.inr ⟨cause, he⟩)

end LedWall.Frame
