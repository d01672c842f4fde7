import LedWall.Proofs.Frame.Cursor
import LedWall.Proofs.Frame.Placement

/-!
# A cursor comes to an end

Every move of a cursor goes forward and stays within the bytes, and what it passes and leaves is
what the reader of lists passes and leaves. A loop passes at least one byte in each round but the
last, so the bytes bound the rounds. The text behind a mark is at least four bytes shorter than the
bytes it is in, so these bound the depth of cursors within cursors too.
-/

namespace LedWall.Frame.Cursor

open Decimal

theorem bind_of_ok {ε α β : Type} {x : Except ε α} {a : α} (h : x = .ok a) (f : α → Except ε β) :
    (x >>= f) = f a := by
  rw [h]
  rfl

theorem bind_congr_of_ok {ε α β : Type} {x : Except ε α} {f g : α → Except ε β}
    (h : ∀ a, x = .ok a → f a = g a) : (x >>= f) = (x >>= g) := by
  cases x with
  | error e => rfl
  | ok a => exact h a rfl

section Parts

variable {bytes passed after : List UInt8} {pos : Nat}

theorem drop_add_of_append (h : bytes.drop pos = passed ++ after) :
    bytes.drop (pos + passed.length) = after := by
  rw [← List.drop_drop, h, List.drop_left]

theorem add_le_of_append (hpos : pos ≤ bytes.length) (h : bytes.drop pos = passed ++ after) :
    pos + passed.length ≤ bytes.length := by
  have hlength := congrArg List.length h
  rw [List.length_drop, List.length_append] at hlength
  omega

theorem slice_eq {start stop : Nat} (hstart : start ≤ stop) (hstop : stop ≤ bytes.length) :
    slice bytes start stop = .ok ((bytes.take stop).drop start) :=
  if_pos ⟨hstart, hstop⟩

theorem slice_of_append (hpos : pos ≤ bytes.length) (h : bytes.drop pos = passed ++ after) :
    slice bytes pos (pos + passed.length) = .ok passed := by
  rw [slice_eq (Nat.le_add_right _ _) (add_le_of_append hpos h), List.drop_take, h,
    Nat.add_sub_cancel_left, List.take_left]

theorem scan_eq (kind : UInt8 → Bool) {rounds : Nat} (hpos : pos ≤ bytes.length)
    (hrounds : bytes.length < pos + rounds) :
    scan kind bytes rounds pos = .ok (pos + ((bytes.drop pos).takeWhile kind).length) := by
  induction rounds generalizing pos with
  | zero => omega
  | succ rounds ih =>
      rw [scan]
      by_cases hlt : pos < bytes.length
      · have hnext : pos + 1 ≤ bytes.length := hlt
        have hbyte : byteAt bytes pos = .ok bytes[pos] := by
          rw [byteAt, List.getElem?_eq_getElem hlt]
        rw [if_pos hlt, bind_of_ok hbyte, List.drop_eq_getElem_cons hlt, List.takeWhile_cons]
        by_cases hkind : kind bytes[pos] = true
        · rw [if_pos hkind, if_pos hkind, ih hnext (by omega), List.length_cons, Nat.add_assoc,
            Nat.add_comm 1]
        · rw [if_neg hkind, if_neg hkind]
          rfl
      · obtain rfl : pos = bytes.length := Nat.le_antisymm hpos (Nat.le_of_not_lt hlt)
        rw [if_neg hlt, List.drop_length]
        rfl

end Parts

/-- A cursor stands at the place of another one or behind it, and not past the end. -/
structure Advances (c c' : Cursor) : Prop where
  bytes_eq : c'.bytes = c.bytes
  le : c.pos ≤ c'.pos
  inside : c'.pos ≤ c'.bytes.length

theorem Advances.refl {c : Cursor} (h : c.pos ≤ c.bytes.length) : Advances c c :=
  ⟨rfl, le_refl _, h⟩

theorem Advances.trans {c c' c'' : Cursor} (h : Advances c c') (h' : Advances c' c'') :
    Advances c c'' :=
  ⟨h'.bytes_eq.trans h.bytes_eq, h.le.trans h'.le, h'.inside⟩

/-- A move that leaves `rest` in front of the cursor and passes some comments. -/
structure Reached (c c' : Cursor) (rest : List UInt8) (comments : List (List UInt8)) : Prop
    extends Advances c c' where
  rest_eq : c'.rest = rest
  placement_eq : c'.placement = c.placement.or (comments.findSome? placement?)

theorem Reached.refl {c : Cursor} (hpos : c.pos ≤ c.bytes.length) : Reached c c c.rest [] :=
  ⟨.refl hpos, rfl, (Option.or_none ..).symm⟩

theorem Reached.trans {c c' c'' : Cursor} {rest rest' : List UInt8}
    {comments comments' : List (List UInt8)} (h : Reached c c' rest comments)
    (h' : Reached c' c'' rest' comments') : Reached c c'' rest' (comments ++ comments') := by
  refine ⟨h.toAdvances.trans h'.toAdvances, h'.rest_eq, ?_⟩
  rw [h'.placement_eq, h.placement_eq, List.findSome?_append, Option.or_assoc]

theorem reached_of_append {c : Cursor} (hpos : c.pos ≤ c.bytes.length) {passed after : List UInt8}
    (h : c.rest = passed ++ after) :
    Reached c { c with pos := c.pos + passed.length } after [] := by
  refine ⟨⟨rfl, Nat.le_add_right _ _, add_le_of_append hpos h⟩, drop_add_of_append h, ?_⟩
  rw [List.findSome?_nil, Option.or_none]

theorem scan_reached {c : Cursor} (kind : UInt8 → Bool) (rounds : Nat)
    (hpos : c.pos ≤ c.bytes.length) (hrounds : c.bytes.length < c.pos + rounds) :
    ∃ stop, stop = c.pos + (c.rest.takeWhile kind).length ∧
      scan kind c.bytes rounds c.pos = .ok stop ∧
      slice c.bytes c.pos stop = .ok (c.rest.takeWhile kind) ∧
      Reached c { c with pos := stop } (c.rest.dropWhile kind) [] := by
  have hparts : c.rest = c.rest.takeWhile kind ++ c.rest.dropWhile kind :=
    List.takeWhile_append_dropWhile.symm
  exact ⟨_, rfl, scan_eq kind hpos hrounds, slice_of_append hpos hparts,
    reached_of_append hpos hparts⟩

/-- Texts that are at least four bytes shorter than `n` are read, and give the placement in their
numbers. -/
def ReadsBelow (readText : List UInt8 → Except CursorFault Offset) (n : Nat) : Prop :=
  ∀ text, text.length + 4 ≤ n → readText text = .ok (placementOf (numbers 3 text))

section Reading

variable {readText : List UInt8 → Except CursorFault Offset}

theorem length_drop_of_marked {line : List UInt8}
    (h : (0x23 :: placementMark).isPrefixOf line = true) :
    (line.drop (placementMark.length + 1)).length + 4 = line.length := by
  have hmark : placementMark.length = 3 := rfl
  have hle := (List.isPrefixOf_iff_prefix.mp h).length_le
  rw [List.length_cons] at hle
  rw [List.length_drop]
  omega

theorem length_slice_le (bytes : List UInt8) (start stop : Nat) :
    ((bytes.take stop).drop start).length ≤ bytes.length := by
  rw [List.length_drop, List.length_take]
  omega

theorem readComment_eq {c : Cursor} {start stop : Nat} (hread : ReadsBelow readText c.bytes.length)
    (hstart : start ≤ stop) (hstop : stop ≤ c.bytes.length) :
    ∃ placement, readComment readText c start stop =
      .ok { c with placement := c.placement.or placement } ∧
      ∀ text, (c.bytes.take stop).drop start = 0x23 :: text → placement = placement? text := by
  rw [readComment, bind_of_ok (slice_eq hstart hstop)]
  by_cases hmarked : (0x23 :: placementMark).isPrefixOf ((c.bytes.take stop).drop start) = true
  · have hlength := length_drop_of_marked hmarked
    have hle := length_slice_le c.bytes start stop
    rw [if_pos hmarked, bind_of_ok (hread _ (by omega))]
    refine ⟨some _, rfl, fun text htext => ?_⟩
    rw [htext] at hmarked ⊢
    rw [placement?_eq, stated?, if_pos (by simpa using hmarked)]
    rfl
  · rw [if_neg hmarked]
    refine ⟨none, by rw [Option.or_none]; rfl, fun text htext => ?_⟩
    rw [htext] at hmarked
    rw [placement?_eq, stated?, if_neg (by simpa using hmarked)]
    rfl

theorem skipGap_dropWhile_isBlank (bs : List UInt8) :
    skipGap (bs.dropWhile isBlank) = skipGap bs ∧
      gapComments (bs.dropWhile isBlank) = gapComments bs := by
  induction bs with
  | nil => exact ⟨rfl, rfl⟩
  | cons b bs ih =>
      rw [List.dropWhile_cons]
      split
      · rw [skipGap_cons_of_isBlank ‹_›, gapComments_cons_of_isBlank ‹_›]
        exact ih
      · exact ⟨rfl, rfl⟩

theorem gap_ends {bs : List UInt8} (h : (bs.dropWhile isBlank).head? ≠ some 0x23) :
    skipGap (bs.dropWhile isBlank) = bs.dropWhile isBlank ∧
      gapComments (bs.dropWhile isBlank) = [] := by
  have hsolid : ∀ b ∈ (bs.dropWhile isBlank).head?, IsSolid b := by
    intro b hb
    have hne := List.head?_dropWhile_not isBlank bs
    rw [Option.mem_def.mp hb] at hne
    refine ⟨by simpa using hne, ?_⟩
    rintro rfl
    exact h hb
  exact ⟨skipGap_of_gap (.nil _) hsolid, ((GapWith.nil _).comments_eq hsolid).symm⟩

theorem getElem?_of_rest {c : Cursor} {bs : List UInt8} (h : c.rest = bs) :
    c.bytes[c.pos]? = bs.head? := by
  rw [← h, rest, List.head?_drop]

theorem comment_reached {c : Cursor} (rounds : Nat) (hpos : c.pos ≤ c.bytes.length)
    (hrounds : c.bytes.length < c.pos + rounds) (hread : ReadsBelow readText c.bytes.length)
    {bs : List UInt8} (hrest : c.rest = 0x23 :: bs) :
    ∃ stop c', scan (· ≠ 0x0A) c.bytes rounds c.pos = .ok stop ∧
      readComment readText { c with pos := stop } c.pos stop = .ok c' ∧ c.pos < c'.pos ∧
      Reached c c' (afterComment bs) [comment bs] := by
  obtain ⟨stop, hstop, hscan, hslice, hmove⟩ := scan_reached (· ≠ 0x0A) rounds hpos hrounds
  rw [hrest, List.takeWhile_cons_of_pos (by decide)] at hstop hslice
  rw [hrest, List.dropWhile_cons_of_pos (by decide)] at hmove
  rw [slice_eq hmove.le hmove.inside] at hslice
  obtain ⟨placement, hcomment, hplacement⟩ :=
    readComment_eq (c := { c with pos := stop }) hread hmove.le hmove.inside
  refine ⟨stop, _, hscan, hcomment, ?_, ⟨rfl, hmove.le, hmove.inside⟩, hmove.rest_eq, ?_⟩
  · rw [hstop]
    exact Nat.lt_add_of_pos_right (Nat.succ_pos _)
  · rw [hplacement _ (Except.ok.inj hslice), List.findSome?_singleton]
    rfl

theorem skip_reached {c : Cursor} (rounds : Nat) (hpos : c.pos ≤ c.bytes.length)
    (hrounds : c.bytes.length + 2 ≤ c.pos + rounds) (hread : ReadsBelow readText c.bytes.length) :
    ∃ c', skip readText rounds c = .ok c' ∧ Reached c c' (skipGap c.rest) (gapComments c.rest) := by
  induction rounds generalizing c with
  | zero => omega
  | succ rounds ih =>
      obtain ⟨start, -, hscan, -, hmove⟩ := scan_reached isBlank rounds hpos (by omega)
      obtain ⟨hgap, hcomments⟩ := skipGap_dropWhile_isBlank c.rest
      rw [skip, bind_of_ok hscan, ← hgap, ← hcomments]
      have hle : c.pos ≤ start := hmove.le
      have hhead : c.bytes[start]? = (c.rest.dropWhile isBlank).head? :=
        getElem?_of_rest hmove.rest_eq
      by_cases hhash : c.bytes[start]? = some 0x23
      · -- The `#` is passed in this round, so that fewer rounds are enough for what is left.
        rw [if_pos hhash]
        rw [hhead, List.head?_eq_some_iff] at hhash
        obtain ⟨bs, hbs⟩ := hhash
        rw [hbs] at hmove ⊢
        obtain ⟨stop, c', hstop, hcomment, hlt, hpassed⟩ :=
          comment_reached (c := { c with pos := start }) rounds hmove.inside
            (show c.bytes.length < start + rounds by omega) hread hmove.rest_eq
        have hsame : c'.bytes = c.bytes := hpassed.bytes_eq
        have hahead : start < c'.pos := hlt
        have hread' : ReadsBelow readText c'.bytes.length := by rwa [hsame]
        obtain ⟨c'', hskip, hreached⟩ := ih hpassed.inside (by rw [hsame]; omega) hread'
        rw [hpassed.rest_eq] at hreached
        rw [bind_of_ok hstop, bind_of_ok hcomment, hskip, skipGap, if_neg (by decide), if_pos rfl,
          gapComments, if_neg (by decide), if_pos rfl]
        exact ⟨c'', rfl, hmove.trans (hpassed.trans hreached)⟩
      · obtain ⟨hend, hnone⟩ := gap_ends (hhead ▸ hhash)
        rw [if_neg hhash, hend, hnone]
        exact ⟨_, rfl, hmove⟩

theorem numeral?_append {mark digits after : List UInt8} {factor : Int} (hmark : Sign mark factor)
    (hne : digits ≠ []) (hdigits : ∀ b ∈ digits, isDigit b = true) (hafter : NoDigitAhead after) :
    numeral? (mark ++ (digits ++ after)) =
      (numeral? (mark ++ digits)).map fun found => (found.1, after) := by
  have hhead := exists_digit_head hne hdigits []
  have hnonempty : digits.isEmpty = false := List.isEmpty_eq_false_iff.mpr hne
  rw [List.append_nil] at hhead
  rw [numeral?, numeral?, sign_complete hmark (exists_digit_head hne hdigits after),
    sign_complete hmark hhead]
  simp only [takeWhile_append_of_stop hdigits hafter, dropWhile_append_of_stop hdigits hafter,
    List.takeWhile_eq_self_iff.mpr hdigits, hnonempty, Bool.false_eq_true, ↓reduceIte]
  rw [apply_ite (Option.map _)]
  rfl

theorem numeral?_of_no_digit {bs : List UInt8} (h : (sign bs).2.takeWhile isDigit = []) :
    numeral? bs = none := by
  simp only [numeral?, h, List.isEmpty_nil, ↓reduceIte]

theorem exists_mark (c : Cursor) : ∃ mark, Sign mark (if (sign c.rest).1 then -1 else 1) ∧
    c.rest = mark ++ (sign c.rest).2 ∧ c.afterSign = c.pos + mark.length := by
  rw [afterSign, getElem?_of_rest (c := c) rfl]
  cases c.rest with
  | nil => exact ⟨[], .absent, rfl, rfl⟩
  | cons b bs =>
      by_cases hm : b = 0x2D
      · subst hm
        exact ⟨[0x2D], .minus, rfl, rfl⟩
      · by_cases hp : b = 0x2B
        · subst hp
          exact ⟨[0x2B], .plus, rfl, rfl⟩
        · have hneither : ¬ (some b = some 0x2D ∨ some b = some (0x2B : UInt8)) := by simp [hm, hp]
          rw [List.head?_cons, if_neg hneither, sign, if_neg hm, if_neg hp]
          exact ⟨[], .absent, rfl, rfl⟩

theorem numeral_reached {c : Cursor} (rounds : Nat) (hpos : c.pos ≤ c.bytes.length)
    (hrounds : c.bytes.length < c.pos + rounds) :
    ∃ c', numeral rounds c = .ok ((numeral? c.rest).map Prod.fst, c') ∧
      Reached c c' (((numeral? c.rest).map Prod.snd).getD c.rest) [] := by
  obtain ⟨mark, hmark, hrest, hafterSign⟩ := exists_mark c
  have hsigned : Reached c { c with pos := c.afterSign } (sign c.rest).2 [] := by
    rw [hafterSign]
    exact reached_of_append hpos hrest
  obtain ⟨stop, hstop, hscan, -, hdigits⟩ := scan_reached isDigit rounds hsigned.inside
    (show c.bytes.length < c.afterSign + rounds by omega)
  rw [hsigned.rest_eq] at hstop hdigits
  replace hstop : stop = c.afterSign + ((sign c.rest).2.takeWhile isDigit).length := hstop
  rw [numeral, bind_of_ok hscan]
  by_cases hempty : (sign c.rest).2.takeWhile isDigit = []
  · have hstay : stop = c.afterSign := by rw [hstop, hempty, List.length_nil, Nat.add_zero]
    rw [if_pos hstay, numeral?_of_no_digit hempty]
    exact ⟨c, rfl, .refl hpos⟩
  · have hmoved : stop ≠ c.afterSign := by
      have hlength := List.length_pos_iff.mpr hempty
      omega
    have hall : ∀ b ∈ (sign c.rest).2.takeWhile isDigit, isDigit b = true :=
      fun b hb => List.mem_takeWhile_imp hb
    -- The slice is the sign with all its digits, and the bytes behind it start with no digit.
    have hparts : c.rest = (mark ++ (sign c.rest).2.takeWhile isDigit) ++
        (sign c.rest).2.dropWhile isDigit := by
      rw [List.append_assoc, List.takeWhile_append_dropWhile]
      exact hrest
    have htext := slice_of_append hpos hparts
    rw [List.length_append, ← Nat.add_assoc, ← hafterSign, ← hstop] at htext
    have hwhole := numeral?_append hmark hempty hall (noDigitAhead_dropWhile (sign c.rest).2)
    rw [List.takeWhile_append_dropWhile, ← hrest] at hwhole
    rw [if_neg hmoved, bind_of_ok htext, hwhole]
    cases numeral? (mark ++ (sign c.rest).2.takeWhile isDigit) with
    | some found => exact ⟨_, rfl, hsigned.trans hdigits⟩
    | none => exact ⟨c, rfl, .refl hpos⟩

/-- There are rounds enough for `n` bytes, and the texts within them can be read. -/
structure Provided (readText : List UInt8 → Except CursorFault Offset) (rounds n : Nat) : Prop where
  rounds : n + 2 ≤ rounds
  reads : ReadsBelow readText n

theorem Provided.mono {rounds m n : Nat} (h : Provided readText rounds n) (hle : m ≤ n) :
    Provided readText rounds m :=
  ⟨(Nat.add_le_add_right hle 2).trans h.rounds, fun text ht => h.reads text (ht.trans hle)⟩

theorem Provided.of_advances {c c' : Cursor} {rounds : Nat}
    (h : Provided readText rounds c.bytes.length) (hmove : Advances c c') :
    Provided readText rounds c'.bytes.length := by
  rwa [hmove.bytes_eq]

/-- A cursor reads a number where there is one, and gets right behind it. Else it gets to the end of
the gap. -/
theorem number_reached {c : Cursor} {rounds : Nat} (h : Provided readText rounds c.bytes.length)
    (hpos : c.pos ≤ c.bytes.length) :
    ∃ c', number readText rounds c = .ok ((number? c.rest).map Prod.fst, c') ∧
      Reached c c' (((number? c.rest).map Prod.snd).getD (skipGap c.rest)) (gapComments c.rest) := by
  have hrounds := h.rounds
  obtain ⟨c₁, hskip, hgap⟩ := skip_reached rounds hpos (by omega) h.reads
  have hsame := hgap.bytes_eq
  obtain ⟨c₂, hnumeral, hreached⟩ :=
    numeral_reached rounds hgap.inside (by rw [hsame]; omega)
  rw [hgap.rest_eq] at hnumeral hreached
  have htotal := hgap.trans hreached
  rw [List.append_nil] at htotal
  rw [number, bind_of_ok hskip, number?]
  exact ⟨c₂, hnumeral, htotal⟩

theorem number_row {c : Cursor} {rounds : Nat} (h : Provided readText rounds c.bytes.length)
    (hpos : c.pos ≤ c.bytes.length) (n : Nat) :
    ∃ value c', number readText rounds c = .ok (value, c') ∧ Advances c c' ∧
      numbers (n + 1) c.rest = (value.map (· :: numbers n c'.rest)).getD [] := by
  obtain ⟨c', hnumber, hreached⟩ := number_reached h hpos
  refine ⟨_, c', hnumber, hreached.toAdvances, ?_⟩
  rw [hreached.rest_eq, numbers]
  cases number? c.rest with
  | none => rfl
  | some found => rfl

theorem readPlacement_eq {text : List UInt8} {rounds : Nat}
    (h : Provided readText rounds text.length) :
    readPlacement readText rounds text = .ok (placementOf (numbers 3 text)) := by
  obtain ⟨x, c₁, hx, h₁, hrow⟩ := number_row (c := ⟨text, 0, none⟩) h (Nat.zero_le _) 2
  rw [readPlacement, bind_of_ok hx, show numbers 3 text = _ from hrow]
  cases x with
  | none => rfl
  | some x =>
      have hat₁ := h.of_advances h₁
      obtain ⟨y, c₂, hy, h₂, hrow⟩ := number_row hat₁ h₁.inside 1
      simp only
      rw [bind_of_ok hy, hrow]
      cases y with
      | none => rfl
      | some y =>
          obtain ⟨z, c₃, hz, -, hrow⟩ := number_row (hat₁.of_advances h₂) h₂.inside 0
          simp only
          rw [bind_of_ok hz, hrow]
          cases z with
          | none => rfl
          | some z => rfl

theorem footer_eq {data : List UInt8} {rounds : Nat} (h : Provided readText rounds data.length) :
    footer readText rounds data = .ok (numbers 3 data) := by
  obtain ⟨x, c₁, hx, h₁, hrow₁⟩ := number_row (c := ⟨data, 0, none⟩) h (Nat.zero_le _) 2
  have hat₁ := h.of_advances h₁
  obtain ⟨y, c₂, hy, h₂, hrow₂⟩ := number_row hat₁ h₁.inside 1
  obtain ⟨z, c₃, hz, -, hrow₃⟩ := number_row (hat₁.of_advances h₂) h₂.inside 0
  rw [footer, bind_of_ok hx]
  simp only
  rw [bind_of_ok hy]
  simp only
  rw [bind_of_ok hz, show numbers 3 data = _ from hrow₁, hrow₂, hrow₃]
  cases x with
  | none => rfl
  | some x =>
      cases y with
      | none => rfl
      | some y =>
          cases z with
          | none => rfl
          | some z => rfl

end Reading

/-- Each cursor within another one has at least four bytes less. -/
theorem nested_eq {rounds depth : Nat} {text : List UInt8} (hrounds : text.length + 2 ≤ rounds)
    (hdepth : text.length < 4 * depth) :
    nested rounds depth text = .ok (placementOf (numbers 3 text)) := by
  induction depth generalizing text with
  | zero => omega
  | succ depth ih =>
      exact readPlacement_eq ⟨hrounds, fun inner hinner => ih (by omega) (by omega)⟩

theorem provided_nested {rounds depth n : Nat} (hrounds : n + 2 ≤ rounds) (hdepth : n / 4 ≤ depth) :
    Provided (nested rounds depth) rounds n :=
  ⟨hrounds, fun text htext => nested_eq (by omega) (by omega)⟩

section Agreement

variable {f g : List UInt8 → Except CursorFault Offset} {c : Cursor}

def AgreeBelow (n : Nat) (f g : List UInt8 → Except CursorFault Offset) : Prop :=
  ∀ text, text.length + 4 ≤ n → f text = g text

theorem readComment_congr (h : AgreeBelow c.bytes.length f g) (start stop : Nat) :
    readComment f c start stop = readComment g c start stop := by
  refine bind_congr_of_ok fun line hline => ?_
  by_cases hmarked : (0x23 :: placementMark).isPrefixOf line = true
  · have hle : line.length ≤ c.bytes.length := by
      rw [slice] at hline
      split at hline
      · obtain rfl := Except.ok.inj hline
        exact length_slice_le c.bytes start stop
      · cases hline
    have hlength := length_drop_of_marked hmarked
    rw [if_pos hmarked, if_pos hmarked, h _ (by omega)]
  · rw [if_neg hmarked, if_neg hmarked]

theorem bytes_of_readComment {c' : Cursor} {start stop : Nat}
    (h : readComment f c start stop = .ok c') : c'.bytes = c.bytes := by
  obtain ⟨line, -, h⟩ := bind_eq_ok.mp h
  split at h
  · obtain ⟨offset, -, h⟩ := bind_eq_ok.mp h
    cases h
    rfl
  · cases h
    rfl

theorem skip_congr (h : AgreeBelow c.bytes.length f g) (rounds : Nat) :
    skip f rounds c = skip g rounds c := by
  induction rounds generalizing c with
  | zero => rfl
  | succ rounds ih =>
      refine bind_congr_of_ok fun start _ => ?_
      split
      · refine bind_congr_of_ok fun stop _ => ?_
        rw [readComment_congr (c := { c with pos := stop }) h]
        refine bind_congr_of_ok fun c' hc' => ih ?_
        rwa [bytes_of_readComment hc']
      · rfl

theorem number_congr (h : AgreeBelow c.bytes.length f g) (rounds : Nat) :
    number f rounds c = number g rounds c := by
  rw [number, number, skip_congr h]

end Agreement

end LedWall.Frame.Cursor
