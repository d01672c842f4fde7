import LedWall.Proofs.Toml.Strings
import LedWall.Toml.Writer

/-!
# Written scalars come back

Texts, integers and truth values. An integer must not be taken for a date or for a number with a
fraction, which depends on what follows it: in a document a value ends at a line break, at a comma or
at a bracket.
-/

namespace LedWall.Toml

def Value.isScalar : Value → Bool
  | .string _ | .integer _ | .boolean _ => true
  | _ => false

/-- What follows a value that is written. -/
def EndsValue (rest : List Char) : Prop := ∃ c ∈ ['\n', ',', ']'], ∃ s, rest = c :: s

theorem not_isDigit_of_ends : ∀ c ∈ ['\n', ',', ']'], ¬ c.isDigit = true := by simp

structure IsNumeral (ds : List Char) : Prop where
  ne_nil : ds ≠ []
  isDigit : ∀ c ∈ ds, c.isDigit = true
  length_eq_one : ds.head? = some '0' → ds.length = 1

theorem digitChar_eq_zero : ∀ n < 10, n.digitChar = '0' → n = 0 := by decide

theorem eq_zero_of_head?_toDigits {n : Nat} (h : (Nat.toDigits 10 n).head? = some '0') : n = 0 := by
  induction n using Nat.strongRecOn with
  | ind n ih =>
      rw [Nat.toDigits_eq_if (by decide)] at h
      split at h
      next hlt => exact digitChar_eq_zero n hlt (by simpa using h)
      next hge =>
        have hhead : (Nat.toDigits 10 (n / 10)).head? = some '0' := by
          obtain ⟨c, cs, hcs⟩ :=
            List.exists_cons_of_ne_nil (Nat.toDigits_ne_nil (n := n / 10) (b := 10))
          simpa [hcs] using h
        have := ih (n / 10) (by omega) hhead
        omega

theorem isNumeral_toDigits (n : Nat) : IsNumeral (Nat.toDigits 10 n) where
  ne_nil := Nat.toDigits_ne_nil
  isDigit _ hc := Nat.isDigit_of_mem_toDigits (by decide) (by decide) hc
  length_eq_one h := by
    rw [eq_zero_of_head?_toDigits h]
    rfl

theorem foldl_digitValue {ds : List Char} (h : ∀ c ∈ ds, c.isDigit = true) (n : Nat) :
    ds.foldl (fun n c => 10 * n + digitValue c) n = Nat.ofDigitChars 10 ds n := by
  induction ds generalizing n with
  | nil => rfl
  | cons c ds ih =>
      simp only [List.mem_cons, forall_eq_or_imp] at h
      rw [List.foldl_cons, Nat.ofDigitChars_cons, ih h.2, digitValue, if_pos h.1]
      rfl

theorem ofDigits_toDigits (n : Nat) : ofDigits 10 (Nat.toDigits 10 n) = n := by
  rw [ofDigits, foldl_digitValue (isNumeral_toDigits n).isDigit, Nat.ofDigitChars_ten_toDigits]

theorem ne_underscore_of_isDigit {c : Char} (h : c.isDigit = true) : c ≠ '_' := by
  rintro rfl
  exact absurd h (by decide)

theorem wellGrouped_digits {ds : List Char} (h : ∀ c ∈ ds, c.isDigit = true) :
    wellGrouped true ds = true := by
  induction ds with
  | nil => rfl
  | cons c ds ih =>
      simp only [List.mem_cons, forall_eq_or_imp] at h
      rw [wellGrouped]
      · exact ih h.2
      · exact ne_underscore_of_isDigit h.1

theorem IsNumeral.wellGrouped {ds : List Char} (h : IsNumeral ds) :
    wellGrouped false ds = true := by
  obtain ⟨c, cs, rfl⟩ := List.exists_cons_of_ne_nil h.ne_nil
  have hdigits := h.isDigit
  simp only [List.mem_cons, forall_eq_or_imp] at hdigits
  rw [Toml.wellGrouped]
  · exact wellGrouped_digits hdigits.2
  · exact ne_underscore_of_isDigit hdigits.1

theorem digitGroups_numeral {ds rest : List Char} (h : IsNumeral ds) (hrest : EndsValue rest) :
    digitGroups Char.isDigit (ds ++ rest) = some (ds, rest) := by
  have hrun : ∀ c ∈ ds, (c.isDigit || decide (c = '_')) = true := by
    intro c hc
    simp [h.isDigit c hc]
  have hstop : ∀ c ∈ rest.head?, (c.isDigit || decide (c = '_')) = false := by
    obtain ⟨c, hc, s, rfl⟩ := hrest
    intro d hd
    cases hd
    have hunderscore : ∀ c ∈ ['\n', ',', ']'], c ≠ '_' := by simp
    simp [not_isDigit_of_ends c hc, hunderscore c hc]
  have hfilter : ds.filter (· ≠ '_') = ds := by
    apply List.filter_eq_self.mpr
    intro c hc
    simpa using ne_underscore_of_isDigit (h.isDigit c hc)
  rw [digitGroups, Decimal.takeWhile_append_of_stop hrun hstop, Decimal.dropWhile_append_of_stop hrun hstop,
    if_pos h.wellGrouped, hfilter]

def signText (negative : Bool) : List Char := if negative then ['-'] else []

theorem toList_toString (n : Int) :
    (toString n).toList = signText (n < 0) ++ Nat.toDigits 10 n.natAbs := by
  rw [Int.toString_eq_repr, Int.repr_eq_if]
  by_cases hn : n < 0
  · have habs : n.natAbs = (-n).toNat := by omega
    simp [signText, hn, Int.not_le.mpr hn, habs]
  · have habs : n.natAbs = n.toNat := by omega
    simp [signText, hn, Int.not_lt.mp hn, habs]

variable {ds rest : List Char}

theorem IsNumeral.eq_cons (h : IsNumeral ds) : ∃ d cs, ds = d :: cs ∧ d.isDigit = true := by
  obtain ⟨d, cs, rfl⟩ := List.exists_cons_of_ne_nil h.ne_nil
  exact ⟨d, cs, rfl, h.isDigit d List.mem_cons_self⟩

theorem sign_numeral (negative : Bool) (h : IsNumeral ds) (rest : List Char) :
    sign (signText negative ++ (ds ++ rest)) = (negative, ds ++ rest) := by
  cases negative with
  | true => rfl
  | false =>
      obtain ⟨d, cs, rfl, hd⟩ := h.eq_cons
      have hminus : d ≠ '-' := by
        rintro rfl
        exact absurd hd (by decide)
      have hplus : d ≠ '+' := by
        rintro rfl
        exact absurd hd (by decide)
      simp [signText, sign, hminus, hplus]

theorem signedDigits_numeral (negative : Bool) (h : IsNumeral ds) (hrest : EndsValue rest) :
    signedDigits (signText negative ++ (ds ++ rest)) = some ((negative, ds), rest) := by
  have hzero : ¬ (ds.head? = some '0' ∧ ds.length ≠ 1) := fun hd => hd.2 (h.length_eq_one hd.1)
  simp [signedDigits, sign_numeral negative h, digitGroups_numeral h hrest, hzero]

def GoesOn (c : Char) : Prop := c.isDigit = true ∨ c ∈ ['\n', ',', ']']

theorem goesOn_of_drop (h : IsNumeral ds) (hrest : EndsValue rest) {k : Nat} (hk : k ≤ ds.length) :
    ∀ c ∈ ((ds ++ rest).drop k).head?, GoesOn c := by
  intro c hc
  rw [List.drop_append_of_le_length hk] at hc
  cases hds : ds.drop k with
  | nil =>
      obtain ⟨d, hd, s, rfl⟩ := hrest
      simp [hds] at hc
      exact .inr (hc ▸ hd)
  | cons d cs =>
      simp [hds] at hc
      exact .inl (h.isDigit c (List.mem_of_mem_drop (by rw [hds, hc]; exact List.mem_cons_self)))

theorem integerLiteral_numeral (negative : Bool) (h : IsNumeral ds) (hrest : EndsValue rest) :
    integerLiteral (signText negative ++ (ds ++ rest)) =
      some (if negative then -(ofDigits 10 ds : Int) else ofDigits 10 ds, rest) := by
  have hbase (c : Char) (s : List Char)
      (hs : signText negative ++ (ds ++ rest) = '0' :: c :: s) : GoesOn c := by
    cases negative with
    | true => simp [signText] at hs
    | false =>
        obtain ⟨d, cs, rfl, -⟩ := h.eq_cons
        apply goesOn_of_drop h hrest (k := 1) (by simp)
        simp [signText] at hs
        simp [hs.2]
  have hnot : ∀ c ∈ ['x', 'o', 'b'], ¬ GoesOn c := by simp [GoesOn]
  unfold integerLiteral
  split
  next heq => exact absurd (hbase _ _ heq) (hnot 'x' (by simp))
  next heq => exact absurd (hbase _ _ heq) (hnot 'o' (by simp))
  next heq => exact absurd (hbase _ _ heq) (hnot 'b' (by simp))
  next => rw [signedDigits_numeral negative h hrest]; rfl

theorem goesOn_of_fixedDigits (negative : Bool) (h : IsNumeral ds) (hrest : EndsValue rest)
    {k n : Nat} {s : List Char}
    (hk : fixedDigits (k + 1) (signText negative ++ (ds ++ rest)) = some (n, s)) :
    ∀ c ∈ s.head?, GoesOn c := by
  simp only [fixedDigits] at hk
  split at hk
  next hdigits =>
    simp only [Option.some.injEq, Prod.mk.injEq] at hk
    obtain ⟨-, rfl⟩ := hk
    obtain ⟨hlength, hall⟩ := hdigits
    cases negative with
    | true => simp [signText] at hall
    | false =>
        have hle : k + 1 ≤ ds.length := by
          apply Nat.le_of_not_lt
          intro hlt
          obtain ⟨c, hc, s, rfl⟩ := hrest
          have hmem : c ∈ (signText false ++ (ds ++ c :: s)).take (k + 1) := by
            obtain ⟨m, hm⟩ := Nat.exists_eq_add_of_lt hlt
            simp [signText, List.take_append, hm, Nat.add_assoc]
          exact (not_isDigit_of_ends c hc) (List.all_eq_true.mp hall c hmem)
        exact goesOn_of_drop h hrest hle
  next => cases hk

theorem expect?_eq_none {c : Char} {s : List Char} (h : ∀ d ∈ s.head?, c ≠ d) (cs : List Char) :
    expect? (c :: cs) s = none := by
  cases s with
  | nil => rfl
  | cons d s => simp [expect?, h d rfl]

theorem date_numeral (negative : Bool) (h : IsNumeral ds) (hrest : EndsValue rest) :
    date (signText negative ++ (ds ++ rest)) = none := by
  cases hk : fixedDigits 4 (signText negative ++ (ds ++ rest)) with
  | none => simp [date, hk]
  | some r =>
      obtain ⟨n, s⟩ := r
      have hs := goesOn_of_fixedDigits negative h hrest hk
      have hdash : ∀ d ∈ s.head?, '-' ≠ d := by
        rintro d hd rfl
        exact absurd (hs _ hd) (by unfold GoesOn; decide)
      simp [date, hk, expect?_eq_none hdash]

theorem time_numeral (negative : Bool) (h : IsNumeral ds) (hrest : EndsValue rest) :
    time (signText negative ++ (ds ++ rest)) = none := by
  cases hk : fixedDigits 2 (signText negative ++ (ds ++ rest)) with
  | none => simp [time, twoDigits, hk]
  | some r =>
      obtain ⟨n, s⟩ := r
      have hs := goesOn_of_fixedDigits negative h hrest hk
      have hcolon : ∀ d ∈ s.head?, ':' ≠ d := by
        rintro d hd rfl
        exact absurd (hs _ hd) (by unfold GoesOn; decide)
      simp only [time, twoDigits, hk, Option.bind_eq_bind, Option.bind_some]
      split <;> simp [expect?_eq_none hcolon]

theorem floatLiteral_numeral (negative : Bool) (h : IsNumeral ds) (hrest : EndsValue rest) :
    floatLiteral (signText negative ++ (ds ++ rest)) = none := by
  have hfinite : finiteFloat (signText negative ++ (ds ++ rest)) = none := by
    have hread := signedDigits_numeral negative h hrest
    have hends : ∀ c ∈ ['\n', ',', ']'], c ≠ '.' ∧ c ≠ 'e' ∧ c ≠ 'E' := by simp
    obtain ⟨c, hc, s, rfl⟩ := hrest
    obtain ⟨hpoint, he, hE⟩ := hends c hc
    have hfraction : fraction (c :: s) = none := by simp [fraction, hpoint]
    have hexponent : exponent (c :: s) = none := by simp [exponent, he, hE]
    simp [finiteFloat, hread, hfraction, hexponent]
  have hspecial : specialFloat (signText negative ++ (ds ++ rest)) = none := by
    obtain ⟨d, cs, rfl, hd⟩ := h.eq_cons
    have hletter (c : Char) (hc : ¬ c.isDigit = true) : ∀ e ∈ (d :: cs ++ rest).head?, c ≠ e := by
      rintro e he rfl
      cases he
      exact hc hd
    have hinf := expect?_eq_none (hletter 'i' (by decide)) ['n', 'f']
    have hnan := expect?_eq_none (hletter 'n' (by decide)) ['a', 'n']
    simp only [specialFloat, sign_numeral negative h]
    rw [show "inf".toList = ['i', 'n', 'f'] from rfl, show "nan".toList = ['n', 'a', 'n'] from rfl,
      hinf, hnan]
    rfl
  simp [floatLiteral, Reader.orElse, hfinite, hspecial]

theorem stringLiteral_eq_none {c : Char} (hquote : c ≠ '"') (happos : c ≠ '\x27') (s : List Char) :
    stringLiteral (c :: s) = none := by
  simp [stringLiteral, lineString, hquote, happos]

theorem boolean_eq_none {c : Char} (ht : c ≠ 't') (hf : c ≠ 'f') (s : List Char) :
    boolean (c :: s) = none := by
  simp [boolean, expect?, ht.symm, hf.symm]

theorem signText_append (negative : Bool) (h : IsNumeral ds) (rest : List Char) :
    ∃ c s, signText negative ++ (ds ++ rest) = c :: s ∧
      c ≠ '"' ∧ c ≠ '\x27' ∧ c ≠ 't' ∧ c ≠ 'f' := by
  cases negative with
  | true => exact ⟨'-', ds ++ rest, rfl, by decide⟩
  | false =>
      obtain ⟨d, cs, rfl, hd⟩ := h.eq_cons
      have hne (c : Char) (hc : ¬ c.isDigit = true) : d ≠ c := by
        rintro rfl
        exact hc hd
      exact ⟨d, cs ++ rest, rfl, hne _ (by decide), hne _ (by decide), hne _ (by decide),
        hne _ (by decide)⟩

theorem scalar_integer {n : Int} (hfits : (Value.integer n).fits = true) (hrest : EndsValue rest) :
    scalar (writtenValue (.integer n) ++ rest) = some (.integer n, rest) := by
  have hn := isNumeral_toDigits n.natAbs
  have hvalue : (if (decide (n < 0)) = true then
      -(ofDigits 10 (Nat.toDigits 10 n.natAbs) : Int) else ofDigits 10 (Nat.toDigits 10 n.natAbs)) =
        n := by
    rw [ofDigits_toDigits]
    by_cases h : n < 0
    · rw [if_pos (decide_eq_true h)]
      omega
    · rw [if_neg (by simpa using h)]
      omega
  have hread := integerLiteral_numeral (n < 0) hn hrest
  rw [hvalue] at hread
  have hrange : minInteger ≤ n ∧ n ≤ maxInteger := by simpa [Value.fits] using hfits
  obtain ⟨c, s, hs, hquote, happos, ht, hf⟩ := signText_append (n < 0) hn rest
  have hstring := stringLiteral_eq_none hquote happos s
  have hboolean := boolean_eq_none ht hf s
  have hdate : dateTimeLiteral (signText (n < 0) ++ (Nat.toDigits 10 n.natAbs ++ rest)) = none := by
    simp [dateTimeLiteral, date_numeral _ hn hrest, time_numeral _ hn hrest]
  have hfloat := floatLiteral_numeral (n < 0) hn hrest
  rw [writtenValue, toList_toString, List.append_assoc]
  rw [← hs] at hstring hboolean
  simp [scalar, hstring, hboolean, hdate, hfloat, integerInRange, hread, hrange]

theorem scalar_boolean (b : Bool) (rest : List Char) :
    scalar (writtenValue (.boolean b) ++ rest) = some (.boolean b, rest) := by
  cases b <;> simp [writtenValue, scalar, stringLiteral, lineString, boolean, expect?]

theorem scalar_string (text : String) (hrest : EndsValue rest) :
    scalar (writtenValue (.string text) ++ rest) = some (.string text, rest) := by
  have hends : ∀ c ∈ ['\n', ',', ']'], c ≠ '"' ∧ c ≠ '\x27' := by simp
  obtain ⟨c, hc, s, rfl⟩ := hrest
  obtain ⟨hquote, happos⟩ := hends c hc
  rw [writtenValue, scalar, stringLiteral_written text.toList (by simpa using hquote)
    (by simpa using happos), String.ofList_toList]
  rfl

/-- A scalar is read back where it ends as values do. -/
theorem scalar_written {v : Value} (hv : v.isScalar = true) (hfits : v.fits = true)
    (hrest : EndsValue rest) : scalar (writtenValue v ++ rest) = some (v, rest) := by
  cases v with
  | string text => exact scalar_string text hrest
  | integer n => exact scalar_integer hfits hrest
  | boolean b => exact scalar_boolean b rest
  | float _ => cases hv
  | dateTime _ => cases hv
  | array _ => cases hv
  | table _ => cases hv

end LedWall.Toml
