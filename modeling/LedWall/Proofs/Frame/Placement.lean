import LedWall.Proofs.Frame.Grammar

/-!
# Where a raw frame goes

Two parts of a raw frame tell its place: the first marked comment of the header, and the numbers
behind the pixels, which override it field by field. Either is a row of at most three numbers.
Whatever comments stand between the numbers of a row, the row is the same without them.
-/

namespace LedWall.Frame

open Decimal

/-- Some bytes start with a row of numbers, of which at most `n` count. The first that is missing
ends the row. -/
inductive Numbers : Nat → List UInt8 → List Int → Prop where
  | enough (bs : List UInt8) : Numbers 0 bs []
  | missing {n : Nat} {bs : List UInt8} (h : ∀ value rest, ¬ Number bs value rest) :
      Numbers (n + 1) bs []
  | next {n : Nat} {bs rest : List UInt8} {value : Int} {ns : List Int} (h : Number bs value rest)
      (hrest : Numbers n rest ns) : Numbers (n + 1) bs (value :: ns)

theorem number?_eq_none_iff {bs : List UInt8} :
    number? bs = none ↔ ∀ value rest, ¬ Number bs value rest := by
  rw [Option.eq_none_iff_forall_ne_some]
  constructor
  · intro h value rest hnumber
    exact h (value, rest) (number?_eq_some_iff.mpr hnumber)
  · intro h found hfound
    exact h found.1 found.2 (number?_eq_some_iff.mp hfound)

theorem numbers_sound (n : Nat) (bs : List UInt8) : Numbers n bs (numbers n bs) := by
  induction n generalizing bs with
  | zero => exact .enough bs
  | succ n ih =>
      cases hn : number? bs with
      | none =>
          rw [numbers_of_none hn]
          exact .missing (number?_eq_none_iff.mp hn)
      | some found =>
          have hnumber := number?_eq_some_iff.mp hn
          rw [numbers_of_number hnumber]
          exact .next hnumber (ih found.2)

theorem numbers_eq_iff {n : Nat} {bs : List UInt8} {ns : List Int} :
    numbers n bs = ns ↔ Numbers n bs ns := by
  constructor
  · rintro rfl
    exact numbers_sound n bs
  · intro h
    induction h with
    | enough bs => rfl
    | missing h => exact numbers_of_none (number?_eq_none_iff.mpr h) _
    | next h _ ih => rw [numbers_of_number h, ih]

/-- Some bytes without the comments in them. The ends of the lines stay. -/
def uncommented : List UInt8 → List UInt8
  | [] => []
  | b :: bs => if b = 0x23 then uncommented (afterComment bs) else b :: uncommented bs
termination_by bs => bs.length
decreasing_by
  · have := length_afterComment_le bs
    simp only [List.length_cons]
    omega
  · simp

theorem uncommented_nil : uncommented [] = [] := by
  rw [uncommented]

theorem uncommented_cons {b : UInt8} (h : b ≠ 0x23) (bs : List UInt8) :
    uncommented (b :: bs) = b :: uncommented bs := by
  rw [uncommented, if_neg h]

theorem uncommented_hash (bs : List UInt8) :
    uncommented (0x23 :: bs) = [] ∨ ∃ tail, uncommented (0x23 :: bs) = 0x0A :: tail := by
  rw [uncommented, if_pos rfl]
  have hhead := head_afterComment bs
  cases hafter : afterComment bs with
  | nil => exact .inl uncommented_nil
  | cons b tail =>
      rw [hafter] at hhead
      obtain rfl : b = 0x0A := hhead b rfl
      exact .inr ⟨_, uncommented_cons (by decide) tail⟩

theorem skipGap_uncommented (bs : List UInt8) :
    skipGap (uncommented bs) = uncommented (skipGap bs) := by
  fun_induction skipGap bs with
  | case1 => rw [uncommented_nil, skipGap]
  | case2 b bs hb ih =>
      have hne : b ≠ 0x23 := by
        rintro rfl
        exact absurd hb (by decide)
      rw [uncommented_cons hne, skipGap_cons_of_isBlank hb, ih]
  | case3 bs hb ih => rwa [uncommented, if_pos rfl]
  | case4 b bs hb hc =>
      rw [uncommented_cons hc, skipGap_cons_of_isSolid ⟨Bool.eq_false_iff.mpr hb, hc⟩]

theorem takeWhile_isDigit_uncommented (bs : List UInt8) :
    (uncommented bs).takeWhile isDigit = bs.takeWhile isDigit := by
  induction bs with
  | nil => rw [uncommented_nil]
  | cons b bs ih =>
      by_cases hb : b = 0x23
      · subst hb
        rcases uncommented_hash bs with h | ⟨tail, h⟩
        · rw [h]
          rfl
        · rw [h]
          rfl
      · rw [uncommented_cons hb, List.takeWhile_cons, List.takeWhile_cons, ih]

theorem dropWhile_isDigit_uncommented (bs : List UInt8) :
    (uncommented bs).dropWhile isDigit = uncommented (bs.dropWhile isDigit) := by
  induction bs with
  | nil => rw [uncommented_nil, List.dropWhile_nil, uncommented_nil]
  | cons b bs ih =>
      by_cases hb : b = 0x23
      · subst hb
        rw [List.dropWhile_cons_of_neg (by decide)]
        rcases uncommented_hash bs with h | ⟨tail, h⟩
        · rw [h, List.dropWhile_nil]
        · rw [h, List.dropWhile_cons_of_neg (by decide)]
      · rw [uncommented_cons hb, List.dropWhile_cons, List.dropWhile_cons, ih]
        split
        · rfl
        · rw [uncommented_cons hb]

theorem sign_uncommented (bs : List UInt8) :
    sign (uncommented bs) = ((sign bs).1, uncommented (sign bs).2) := by
  cases bs with
  | nil =>
      rw [uncommented_nil, sign, uncommented_nil]
  | cons b bs =>
      by_cases hb : b = 0x23
      · subst hb
        rcases uncommented_hash bs with h | ⟨tail, h⟩
        · rw [h]
          exact Prod.ext rfl h.symm
        · rw [h]
          exact Prod.ext rfl h.symm
      · rw [uncommented_cons hb, sign, sign]
        split
        · rfl
        · split
          · rfl
          · rw [uncommented_cons hb]

theorem number?_uncommented (bs : List UInt8) :
    number? (uncommented bs) =
      (number? bs).map fun found => (found.1, uncommented found.2) := by
  rw [number?, number?, skipGap_uncommented, numeral?, numeral?, sign_uncommented]
  simp only [takeWhile_isDigit_uncommented, dropWhile_isDigit_uncommented]
  split
  · rfl
  · rw [apply_ite (Option.map _)]
    rfl

/-- No comment contributes to a row of numbers. -/
theorem numbers_uncommented (n : Nat) (bs : List UInt8) :
    numbers n (uncommented bs) = numbers n bs := by
  induction n generalizing bs with
  | zero => rfl
  | succ n ih =>
      rw [numbers, numbers, number?_uncommented]
      cases number? bs with
      | none => rfl
      | some found => exact congrArg (found.1 :: ·) (ih found.2)

structure Row (bs : List UInt8) (ns : List Int) : Prop where
  whole : Numbers 3 bs ns
  bare : Numbers 3 (uncommented bs) ns

theorem row_iff {bs : List UInt8} {ns : List Int} : Row bs ns ↔ numbers 3 bs = ns := by
  constructor
  · intro h
    exact numbers_eq_iff.mpr h.whole
  · intro h
    refine ⟨numbers_eq_iff.mp h, numbers_eq_iff.mp ?_⟩
    rwa [numbers_uncommented]

/-- A gap in which certain comments stand. -/
inductive GapWith : List (List UInt8) → List UInt8 → List UInt8 → Prop where
  | nil (bs : List UInt8) : GapWith [] bs bs
  | blank {b : UInt8} {comments : List (List UInt8)} {bs rest : List UInt8} (hb : b ∈ blanks)
      (h : GapWith comments bs rest) : GapWith comments (b :: bs) rest
  | comment {text : List UInt8} {comments : List (List UInt8)} {bs rest : List UInt8}
      (ht : (0x0A : UInt8) ∉ text) (hend : ∀ b ∈ bs.head?, b = 0x0A)
      (h : GapWith comments bs rest) : GapWith (text :: comments) (0x23 :: (text ++ bs)) rest

def NumberWith (comments : List (List UInt8)) (bs : List UInt8) (value : Int) (rest : List UInt8) :
    Prop :=
  ∃ mid, GapWith comments bs mid ∧ Numeral mid value rest

def HeaderWith (bs : List UInt8) (width height : UInt32) (comments : List (List UInt8))
    (data : List UInt8) : Prop :=
  ∃ c₁ r₁ c₂ r₂ c₃ b, NumberWith c₁ bs width.toNat r₁ ∧ NumberWith c₂ r₁ height.toNat r₂ ∧
    NumberWith c₃ r₂ 255 (b :: data) ∧ b ∈ blanks ∧ comments = c₁ ++ c₂ ++ c₃

theorem comment_of_end {text bs : List UInt8} (ht : (0x0A : UInt8) ∉ text)
    (hend : ∀ b ∈ bs.head?, b = 0x0A) : comment (text ++ bs) = text := by
  have hsplit := comment_append_afterComment (text ++ bs)
  rw [afterComment_of_end ht hend] at hsplit
  exact List.append_cancel_right hsplit

theorem gapWith_skipGap (bs : List UInt8) : GapWith (gapComments bs) bs (skipGap bs) := by
  fun_induction skipGap bs with
  | case1 =>
      rw [gapComments]
      exact .nil []
  | case2 b bs hb ih =>
      rw [gapComments_cons_of_isBlank hb]
      exact .blank ((isBlank_iff b).mp hb) ih
  | case3 bs hb ih =>
      have hgap := GapWith.comment (newline_notMem_comment bs) (head_afterComment bs) ih
      rw [comment_append_afterComment] at hgap
      rwa [gapComments, if_neg hb, if_pos rfl]
  | case4 b bs hb hc =>
      rw [gapComments_cons_of_isSolid ⟨Bool.eq_false_iff.mpr hb, hc⟩]
      exact .nil (b :: bs)

theorem GapWith.gap {comments : List (List UInt8)} {bs rest : List UInt8}
    (h : GapWith comments bs rest) : Gap bs rest := by
  induction h with
  | nil bs => exact .nil bs
  | blank hb _ ih => exact .blank hb ih
  | comment ht hend _ ih => exact .comment ht hend ih

theorem GapWith.comments_eq {comments : List (List UInt8)} {bs rest : List UInt8}
    (h : GapWith comments bs rest) (hsolid : ∀ b ∈ rest.head?, IsSolid b) :
    comments = gapComments bs := by
  induction h with
  | nil bs =>
      cases bs with
      | nil => rw [gapComments]
      | cons b bs => exact (gapComments_cons_of_isSolid (hsolid b rfl) bs).symm
  | blank hb _ ih => rw [gapComments_cons_of_isBlank ((isBlank_iff _).mpr hb), ih hsolid]
  | comment ht hend _ ih =>
      rw [gapComments, if_neg (by decide), if_pos rfl, comment_of_end ht hend,
        afterComment_of_end ht hend, ih hsolid]

theorem numberWith_iff {comments : List (List UInt8)} {bs rest : List UInt8} {value : Int} :
    NumberWith comments bs value rest ↔ Number bs value rest ∧ comments = gapComments bs := by
  constructor
  · rintro ⟨mid, hgap, hnumeral⟩
    exact ⟨⟨mid, hgap.gap, hnumeral⟩, hgap.comments_eq (solid_head_of_numeral hnumeral)⟩
  · rintro ⟨hnumber, rfl⟩
    exact ⟨skipGap bs, gapWith_skipGap bs, numeral?_sound (number?_eq_some_iff.mpr hnumber)⟩

theorem RawHeader.read_eq_ok_iff {bs data : List UInt8} {width height : UInt32}
    {comments : List (List UInt8)} :
    read bs = .ok ⟨width, height, comments, data⟩ ↔ HeaderWith bs width height comments data := by
  constructor
  · intro hread
    obtain ⟨⟨_, s⟩, hw, hread⟩ := bind_eq_ok.mp hread
    obtain ⟨⟨_, t⟩, hh, hread⟩ := bind_eq_ok.mp hread
    obtain ⟨u, hc, hread⟩ := bind_eq_ok.mp hread
    obtain ⟨_, hd, hread⟩ := bind_eq_ok.mp hread
    cases hread
    obtain ⟨hw, hs⟩ := Scan.side_eq_ok_iff.mp hw
    obtain ⟨hh, ht⟩ := Scan.side_eq_ok_iff.mp hh
    obtain ⟨hc, hu⟩ := Scan.channelRange_eq_ok_iff.mp hc
    obtain ⟨b, hb, hrest⟩ := Scan.data_eq_ok_iff.mp hd
    rw [hrest] at hc
    refine ⟨_, s.rest, _, t.rest, _, b, numberWith_iff.mpr ⟨hw, rfl⟩, numberWith_iff.mpr ⟨hh, rfl⟩,
      numberWith_iff.mpr ⟨hc, rfl⟩, hb, ?_⟩
    rw [hu, ht, hs, List.nil_append]
  · rintro ⟨c₁, r₁, c₂, r₂, c₃, b, hw, hh, hc, hb, rfl⟩
    obtain ⟨hwidth, rfl⟩ := numberWith_iff.mp hw
    obtain ⟨hheight, rfl⟩ := numberWith_iff.mp hh
    obtain ⟨hrange, rfl⟩ := numberWith_iff.mp hc
    refine bind_eq_ok.mpr ⟨(width, ⟨r₁, gapComments bs⟩),
      Scan.side_eq_ok_iff.mpr ⟨hwidth, (List.nil_append _).symm⟩, ?_⟩
    refine bind_eq_ok.mpr ⟨(height, ⟨r₂, gapComments bs ++ gapComments r₁⟩),
      Scan.side_eq_ok_iff.mpr ⟨hheight, rfl⟩, ?_⟩
    refine bind_eq_ok.mpr ⟨⟨b :: data, gapComments bs ++ gapComments r₁ ++ gapComments r₂⟩,
      Scan.channelRange_eq_ok_iff.mpr ⟨hrange, rfl⟩, ?_⟩
    exact bind_eq_ok.mpr ⟨data, Scan.data_eq_ok_iff.mpr ⟨b, hb, rfl⟩, rfl⟩

theorem HeaderWith.unique {bs data data' : List UInt8} {width height width' height' : UInt32}
    {comments comments' : List (List UInt8)} (h : HeaderWith bs width height comments data)
    (h' : HeaderWith bs width' height' comments' data') :
    width = width' ∧ height = height' ∧ comments = comments' ∧ data = data' := by
  have hsame := (RawHeader.read_eq_ok_iff.mpr h).symm.trans (RawHeader.read_eq_ok_iff.mpr h')
  simpa using hsame

/-- A coordinate comes from a number modulo `2 ^ 32`, and without a number it stays. -/
def Coordinate (n : Option Int) (before after : Int32) : Prop :=
  match n with
  | some n => Int.ModEq (2 ^ 32) after.toInt n
  | none => after = before

/-- A layer comes from a number that is one, and without such a number it stays. -/
def LayerMove (n : Option Int) (before after : UInt8) : Prop :=
  match n with
  | some n => if 0 ≤ n ∧ n ≤ 255 then (after.toNat : Int) = n else after = before
  | none => after = before

structure MovedBy (ns : List Int) (before after : Offset) : Prop where
  x : Coordinate ns[0]? before.x after.x
  y : Coordinate ns[1]? before.y after.y
  z : LayerMove ns[2]? before.z after.z

theorem toInt_ofInt_modEq (n : Int) : Int.ModEq (2 ^ 32) (Int32.ofInt n).toInt n := by
  rw [Int32.toInt_ofInt]
  exact Int.bmod_emod

theorem layer?_eq_some_iff {n : Int} {z : UInt8} : layer? n = some z ↔ (z.toNat : Int) = n := by
  have hz := z.toNat_lt
  rw [layer?]
  constructor
  · intro h
    obtain ⟨hn, hz⟩ := Option.ite_none_right_eq_some.mp h
    have hsize : n.toNat < UInt8.size := by
      rw [show UInt8.size = 256 from rfl]
      omega
    rw [← Option.some.inj hz, UInt8.toNat_ofNat_of_lt' hsize, Int.toNat_of_nonneg hn.1]
  · rintro rfl
    rw [if_pos (by omega), Int.toNat_natCast, UInt8.ofNat_toNat]

theorem layerMove_getD_layer? (n : Int) (before : UInt8) :
    LayerMove (some n) before ((layer? n).getD before) := by
  rw [LayerMove]
  cases hz : layer? n with
  | some z =>
      have hn := layer?_eq_some_iff.mp hz
      have hlt := z.toNat_lt
      rw [if_pos (by omega)]
      exact hn
  | none =>
      rw [layer?] at hz
      split at hz
      · cases hz
      · rw [if_neg ‹_›]
        rfl

def placementOf : List Int → Offset
  | [] => .zero
  | [x] => ⟨.ofInt x, 0, 0⟩
  | [x, y] => ⟨.ofInt x, .ofInt y, 0⟩
  | x :: y :: z :: _ => ⟨.ofInt x, .ofInt y, (layer? z).getD 0⟩

theorem movedBy_placementOf (ns : List Int) : MovedBy ns .zero (placementOf ns) := by
  match ns with
  | [] => exact ⟨rfl, rfl, rfl⟩
  | [x] => exact ⟨toInt_ofInt_modEq x, rfl, rfl⟩
  | [x, y] => exact ⟨toInt_ofInt_modEq x, toInt_ofInt_modEq y, rfl⟩
  | x :: y :: z :: _ =>
      exact ⟨toInt_ofInt_modEq x, toInt_ofInt_modEq y, layerMove_getD_layer? z 0⟩

theorem movedBy_of_overridden {before after : Offset} {ns : List Int}
    (h : overridden before ns = .ok after) :
    MovedBy ns before after ∧ ∀ z ∈ ns[2]?, 0 ≤ z ∧ z ≤ 255 := by
  have hnone : ∀ z ∈ (none : Option Int), 0 ≤ z ∧ z ≤ 255 := by
    rintro _ ⟨⟩
  match ns with
  | [] =>
      cases h
      exact ⟨⟨rfl, rfl, rfl⟩, hnone⟩
  | [x] =>
      cases h
      exact ⟨⟨toInt_ofInt_modEq x, rfl, rfl⟩, hnone⟩
  | [x, y] =>
      cases h
      exact ⟨⟨toInt_ofInt_modEq x, toInt_ofInt_modEq y, rfl⟩, hnone⟩
  | x :: y :: n :: _ =>
      obtain ⟨z, hz, hafter⟩ := bind_eq_ok.mp h
      cases hafter
      have hrange := layer_eq_ok_iff.mp ⟨z, hz⟩
      have hlayer : layer? n = some z := by
        rw [layer] at hz
        split at hz
        · cases hz
          assumption
        · cases hz
      refine ⟨⟨toInt_ofInt_modEq x, toInt_ofInt_modEq y, ?_⟩, ?_⟩
      · have hmove := layerMove_getD_layer? n before.z
        rwa [hlayer] at hmove
      · rintro _ ⟨⟩
        exact hrange

/-- The first marked comment states a row of numbers behind its mark. Without a marked comment,
nothing is stated. -/
def FirstStated (comments : List (List UInt8)) : Option (List Int) → Prop
  | some ns => ∃ before text after, comments = before ++ (placementMark ++ text) :: after ∧
      (∀ c ∈ before, ¬ placementMark <+: c) ∧ Row text ns
  | none => ∀ c ∈ comments, ¬ placementMark <+: c

def stated? (comment : List UInt8) : Option (List Int) :=
  if placementMark.isPrefixOf comment then
    some (numbers 3 (comment.drop placementMark.length))
  else none

theorem placement?_eq (comment : List UInt8) :
    placement? comment = (stated? comment).map placementOf := by
  rw [placement?, stated?]
  split
  · rw [Option.map_some]
    generalize numbers 3 (comment.drop placementMark.length) = ns
    match ns with
    | [] => rfl
    | [_] => rfl
    | [_, _] => rfl
    | _ :: _ :: _ :: _ => rfl
  · rfl

theorem stated?_eq_none_iff {comment : List UInt8} :
    stated? comment = none ↔ ¬ placementMark <+: comment := by
  rw [stated?, ← List.isPrefixOf_iff_prefix]
  split <;> simp [*]

theorem stated?_eq_some_iff {comment : List UInt8} {ns : List Int} :
    stated? comment = some ns ↔ ∃ text, comment = placementMark ++ text ∧ Row text ns := by
  rw [stated?, Option.ite_none_right_eq_some, Option.some.injEq, List.isPrefixOf_iff_prefix]
  constructor
  · rintro ⟨⟨text, rfl⟩, hns⟩
    rw [List.drop_left] at hns
    exact ⟨text, rfl, row_iff.mpr hns⟩
  · rintro ⟨text, rfl, hrow⟩
    refine ⟨List.prefix_append _ _, ?_⟩
    rw [List.drop_left]
    exact row_iff.mp hrow

theorem firstStated_iff {comments : List (List UInt8)} {stated : Option (List Int)} :
    FirstStated comments stated ↔ comments.findSome? stated? = stated := by
  cases stated with
  | none =>
      rw [List.findSome?_eq_none_iff]
      simp only [stated?_eq_none_iff]
      rfl
  | some ns =>
      rw [List.findSome?_eq_some_iff]
      simp only [stated?_eq_none_iff, stated?_eq_some_iff]
      constructor
      · rintro ⟨before, text, after, hcomments, hbefore, hrow⟩
        exact ⟨before, _, after, hcomments, ⟨text, rfl, hrow⟩, hbefore⟩
      · rintro ⟨before, _, after, hcomments, ⟨text, rfl, hrow⟩, hbefore⟩
        exact ⟨before, text, after, hcomments, hbefore, hrow⟩

theorem RawHeader.commented_eq (h : RawHeader) :
    h.commented = (h.comments.findSome? stated?).map placementOf := by
  rw [commented, List.map_findSome?]
  exact congrArg (h.comments.findSome? ·) (funext placement?_eq)

/-- What a raw frame tells of its size and place: the numbers that the first marked comment of its
header states, if there is one, and the numbers right behind its pixels. -/
def Tells (bs : List UInt8) (width height : UInt32) (stated : Option (List Int))
    (footer : List Int) : Prop :=
  ∃ comments data, HeaderWith bs width height comments data ∧ FirstStated comments stated ∧
    Row (data.drop (pixelBytes width height)) footer

theorem Tells.unique {bs : List UInt8} {width height width' height' : UInt32}
    {stated stated' : Option (List Int)} {footer footer' : List Int}
    (h : Tells bs width height stated footer) (h' : Tells bs width' height' stated' footer') :
    width = width' ∧ height = height' ∧ stated = stated' ∧ footer = footer' := by
  obtain ⟨comments, data, hheader, hstated, hfooter⟩ := h
  obtain ⟨comments', data', hheader', hstated', hfooter'⟩ := h'
  obtain ⟨rfl, rfl, rfl, rfl⟩ := hheader.unique hheader'
  refine ⟨rfl, rfl, ?_, ?_⟩
  · exact (firstStated_iff.mp hstated).symm.trans (firstStated_iff.mp hstated')
  · exact (row_iff.mp hfooter).symm.trans (row_iff.mp hfooter')

theorem RawHeader.frame_placed {h : RawHeader} {f : Frame} (hf : h.frame = .ok f) :
    f.width = h.width ∧ f.height = h.height ∧
    overridden (((h.comments.findSome? stated?).map placementOf).getD .zero)
      (numbers 3 (h.data.drop (pixelBytes h.width h.height))) = .ok f.offset ∧
    f.kind = if (h.comments.findSome? stated?).isSome ∨
      (numbers 3 (h.data.drop (pixelBytes h.width h.height)) ≠ [] ∧ f.offset ≠ .zero)
      then .offset else .plain := by
  rcases h.frame_cases with ⟨_, -, hcomplete, -⟩ | hshort | ⟨cause, he⟩
  · rw [frame_of_pixels hcomplete.size hcomplete.pixels, commented_eq, footer, needed_eq] at hf
    obtain ⟨offset, ho, hframe⟩ := bind_eq_ok.mp hf
    cases hframe
    refine ⟨rfl, rfl, ho, ?_⟩
    simp only [Option.isSome_map, Bool.or_eq_true, Bool.and_eq_true, Bool.not_eq_true',
      List.isEmpty_eq_false_iff, decide_eq_true_eq]
  · rw [frame_of_short hshort] at hf
    cases hf
  · rw [he] at hf
    cases hf

/-- A raw frame tells its place once. It starts at the origin, or where the first marked comment of
the header puts it; a layer out of range does not count there. The numbers behind the pixels then
override it field by field, and a layer among them is in range. Coordinates are taken modulo
`2 ^ 32`. The frame counts as placed if there was a marked comment, or if there were numbers behind
the pixels and its place is not the origin. -/
theorem placement_resolved [Png.Codec] {bs : List UInt8} {f : Frame}
    (h : parse (rawMagic ++ bs) = .ok f) :
    ∃ stated footer, Tells bs f.width f.height stated footer ∧
      (∀ width height stated' footer', Tells bs width height stated' footer' →
        width = f.width ∧ height = f.height ∧ stated' = stated ∧ footer' = footer) ∧
      (∃ start, MovedBy (stated.getD []) .zero start ∧ MovedBy footer start f.offset) ∧
      (∀ z ∈ footer[2]?, 0 ≤ z ∧ z ≤ 255) ∧
      f.kind = if stated.isSome ∨ (footer ≠ [] ∧ f.offset ≠ .zero) then .offset else .plain := by
  rw [parse_raw_eq] at h
  obtain ⟨header, hread, hframe⟩ := bind_eq_ok.mp h
  obtain ⟨hwidth, hheight, hoffset, hkind⟩ := RawHeader.frame_placed hframe
  have hmoved := movedBy_of_overridden hoffset
  have htells : Tells bs f.width f.height (header.comments.findSome? stated?)
      (numbers 3 (header.data.drop (pixelBytes header.width header.height))) := by
    rw [hwidth, hheight]
    exact ⟨header.comments, header.data, RawHeader.read_eq_ok_iff.mp hread, firstStated_iff.mpr rfl,
      row_iff.mpr rfl⟩
  refine ⟨_, _, htells, fun _ _ _ _ h' => h'.unique htells, ⟨_, ?_, hmoved.1⟩, hmoved.2, hkind⟩
  cases header.comments.findSome? stated? with
  | none => exact movedBy_placementOf []
  | some ns => exact movedBy_placementOf ns

def crowdedRest : List UInt8 :=
  "\n#FT: 7 -3 #FT: 1 1\n1 #FT: 5 5 5\n1 255\nabc2 #FT: 4 4\n".toList.map fun c => c.toNat.toUInt8

def crowdedComments : List (List UInt8) :=
  ["FT: 7 -3 #FT: 1 1", "FT: 5 5 5"].map fun text => text.toList.map fun c => c.toNat.toUInt8

theorem tells_crowdedRest : Tells crowdedRest 1 1 (some [7, -3]) [2] := by
  refine ⟨crowdedComments, crowdedRest.drop 39, RawHeader.read_eq_ok_iff.mp ?_,
    firstStated_iff.mpr ?_, row_iff.mpr ?_⟩
  · cbv
  · cbv
  · cbv

theorem placement_resolved_crowdedRest :
    parse (rawMagic ++ crowdedRest) = .ok ⟨.offset, 1, 1, ⟨2, -3, 0⟩, [⟨97, 98, 99⟩]⟩ ∧
      ∃ start, MovedBy [7, -3] .zero start ∧ MovedBy [2] start ⟨2, -3, 0⟩ := by
  have hparse : parse (rawMagic ++ crowdedRest) =
      .ok ⟨.offset, 1, 1, ⟨2, -3, 0⟩, [⟨97, 98, 99⟩]⟩ := by
    cbv
  obtain ⟨_, _, -, hunique, hmoved, -⟩ := placement_resolved hparse
  obtain ⟨-, -, rfl, rfl⟩ := hunique _ _ _ _ tells_crowdedRest
  exact ⟨hparse, hmoved⟩

end LedWall.Frame
