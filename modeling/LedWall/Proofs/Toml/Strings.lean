import LedWall.Toml.StringForm

/-!
# Written strings come back

Whatever form a text is written in, reading takes it off the front of a text and leaves the rest. The
basic forms hold every text, one character after the other; the literal ones hold the texts that the
choice of a form lets through.
-/

namespace LedWall.Toml

theorem isText_of_needsEscape {c : Char} (h : needsEscape c = false) (hc : c ≠ '\n') :
    isText c = true := by
  simp only [needsEscape, isText, Bool.and_eq_false_iff, Bool.or_eq_false_iff,
    decide_eq_false_iff_not, Bool.or_eq_true, Bool.and_eq_true, decide_eq_true_eq, Decidable.not_not,
    Char.not_lt] at *
  rcases h with (h | h) | h
  · exact .inl h
  · exact absurd h hc
  · exact .inr h

theorem toNat_of_needsEscape {c : Char} (h : needsEscape c = true) : c.toNat < 128 := by
  simp only [needsEscape, Bool.and_eq_true, Bool.or_eq_true, decide_eq_true_eq] at h
  rcases h.2 with hc | rfl
  · exact Nat.lt_trans hc (by decide)
  · decide

theorem codePoint?_fourHexDigits :
    ∀ n < 128, (fourHexDigits n).length = 4 ∧ codePoint? (fourHexDigits n) = some (Char.ofNat n) := by
  decide

theorem escapeSequence_fourHexDigits {c : Char} (hc : needsEscape c = true) (s : List Char) :
    escapeSequence ('u' :: (fourHexDigits c.toNat ++ s)) = some (c, s) := by
  obtain ⟨hlength, hpoint⟩ := codePoint?_fourHexDigits c.toNat (toNat_of_needsEscape hc)
  simp [escapeSequence, hlength, hpoint]

theorem escapeSequence_short {d c : Char} (h : shortEscape? d = some c) (s : List Char) :
    escapeSequence (d :: s) = some (c, s) := by
  have hu : d ≠ 'u' ∧ d ≠ 'U' := by
    constructor <;> (rintro rfl; simp [shortEscape?] at h)
  simp [escapeSequence, hu, h]

theorem endsLine_cons {c : Char} (hspace : isSpace c = false) (hfeed : c ≠ '\n')
    (hreturn : c ≠ '\r') (s : List Char) : endsLine (c :: s) = false := by
  simp [endsLine, skipSpace, hspace, afterBreak?, hfeed, hreturn]

theorem escaped_cases (breaks : Bool) (c : Char) :
    (∃ d e, escaped breaks c = '\\' :: d :: e ∧
      ∀ s, escapeSequence (d :: e ++ s) = some (c, s) ∧ endsLine (d :: e ++ s) = false) ∨
    (escaped breaks c = [c] ∧ c ≠ '\\' ∧ c ≠ '\r' ∧
      (isText c = true ∧ c ≠ '\n' ∨ breaks = true ∧ c = '\n')) := by
  have hshort (d : Char) (h : shortEscape? d = some c) (hd : d ∈ ['b', 't', 'n', 'f', 'r', '\\']) :
      ∀ s, escapeSequence ([d] ++ s) = some (c, s) ∧ endsLine ([d] ++ s) = false := by
    intro s
    constructor
    · exact escapeSequence_short h s
    · apply endsLine_cons
      all_goals (simp at hd; rcases hd with rfl | rfl | rfl | rfl | rfl | rfl <;> decide)
  unfold escaped
  split
  next h => exact .inl ⟨'b', [], rfl, hshort 'b' (by simp [h, shortEscape?]) (by simp)⟩
  split
  next h => exact .inl ⟨'t', [], rfl, hshort 't' (by simp [h, shortEscape?]) (by simp)⟩
  split
  next h =>
    cases breaks
    · exact .inl ⟨'n', [], rfl, hshort 'n' (by simp [h, shortEscape?]) (by simp)⟩
    · exact .inr (by simp [h])
  split
  next h => exact .inl ⟨'f', [], rfl, hshort 'f' (by simp [h, shortEscape?]) (by simp)⟩
  split
  next h => exact .inl ⟨'r', [], rfl, hshort 'r' (by simp [h, shortEscape?]) (by simp)⟩
  split
  next h => exact .inl ⟨'\\', [], rfl, hshort '\\' (by simp [h, shortEscape?]) (by simp)⟩
  split
  next h =>
    refine .inl ⟨'u', fourHexDigits c.toNat, rfl, fun s => ?_⟩
    exact ⟨escapeSequence_fourHexDigits h s, endsLine_cons (by decide) (by decide) (by decide) _⟩
  next hfeed _ hreturn hbackslash h =>
    have htext := isText_of_needsEscape (by simpa using h) hfeed
    exact .inr ⟨rfl, hbackslash, hreturn, .inl ⟨htext, hfeed⟩⟩

def consText (c : Char) (r : Option (List Char × List Char)) : Option (List Char × List Char) :=
  r.map fun (cs, rest) => (c :: cs, rest)

theorem basicRest_escape {c : Char} {s r : List Char} (h : escapeSequence s = some (c, r)) :
    basicRest ('\\' :: s) = consText c (basicRest r) := by
  rw [basicRest]
  split
  next h' => simp [h] at h'
  next h' =>
    cases h.symm.trans h'
    rfl

theorem basicRest_text {c : Char} (hquote : c ≠ '"') (hbackslash : c ≠ '\\')
    (htext : isText c = true) (s : List Char) :
    basicRest (c :: s) = consText c (basicRest s) := by
  rw [basicRest, if_pos htext, consText]
  · exact hquote
  · exact hbackslash

theorem basicRest_escaped {c : Char} (hquote : c ≠ '"') (s : List Char) :
    basicRest (escaped false c ++ s) = consText c (basicRest s) := by
  rcases escaped_cases false c with ⟨d, e, he, hread⟩ | ⟨he, hbackslash, -, ⟨htext, -⟩ | ⟨h, -⟩⟩
  · rw [he]
    exact basicRest_escape (hread s).1
  · rw [he]
    exact basicRest_text hquote hbackslash htext s
  · simp at h

theorem basicRest_written (cs rest : List Char) :
    basicRest (escapedBasic 0 false 0 cs ++ '"' :: rest) = some (cs, rest) := by
  induction cs with
  | nil => simp [escapedBasic, basicRest]
  | cons c cs ih =>
      by_cases hc : c = '"'
      · have hquote (s : List Char) : escapeSequence ('"' :: s) = some ('"', s) :=
          escapeSequence_short (by decide) s
        simp [escapedBasic, hc, basicRest_escape (hquote _), ih, consText]
      · simp [escapedBasic, hc, basicRest_escaped hc, ih, consText]

theorem multilineBasicRest_escape {c : Char} {s r : List Char}
    (h : escapeSequence s = some (c, r)) (hs : endsLine s = false) :
    multilineBasicRest false ('\\' :: s) = consText c (multilineBasicRest false r) := by
  rw [multilineBasicRest, hs]
  simp only [Bool.false_eq_true, if_false]
  split
  next h' => simp [h] at h'
  next h' =>
    cases h.symm.trans h'
    rfl

/-- A character stands for itself, and so does a quote unless it is the first of three. -/
theorem multilineBasicRest_text {c : Char} {s : List Char} (hquote : c = '"' → ¬ ['"', '"'] <+: s)
    (hbackslash : c ≠ '\\') (hfeed : c ≠ '\n') (hreturn : c ≠ '\r') (htext : isText c = true) :
    multilineBasicRest false (c :: s) = consText c (multilineBasicRest false s) := by
  have hprefix (t : List Char) (hc : c = '"') (ht : s = '"' :: '"' :: t) : False :=
    hquote hc ⟨t, ht.symm⟩
  rw [multilineBasicRest]
  · simp [htext, consText]
  · exact fun t => hprefix ('"' :: '"' :: t)
  · exact fun t => hprefix ('"' :: t)
  · exact hprefix
  · exact hfeed
  · exact fun _ h _ => hreturn h
  · exact hbackslash

theorem multilineBasicRest_feed (s : List Char) :
    multilineBasicRest false ('\n' :: s) = consText '\n' (multilineBasicRest false s) := by
  simp [multilineBasicRest, consText]

theorem multilineBasicRest_escaped {c : Char} (hquote : c ≠ '"') (s : List Char) :
    multilineBasicRest false (escaped true c ++ s) = consText c (multilineBasicRest false s) := by
  rcases escaped_cases true c with
    ⟨d, e, he, hread⟩ | ⟨he, hbackslash, hreturn, ⟨htext, hfeed⟩ | ⟨-, rfl⟩⟩
  · rw [he]
    exact multilineBasicRest_escape (hread s).1 (hread s).2
  · rw [he]
    exact multilineBasicRest_text (fun h => absurd h hquote) hbackslash hfeed hreturn htext
  · rw [he]
    exact multilineBasicRest_feed s

theorem multilineBasicRest_end {rest : List Char} (hrest : rest.head? ≠ some '"') :
    ∀ k ≤ 2, multilineBasicRest false (List.replicate k '"' ++ ('"' :: '"' :: '"' :: rest)) =
      some (List.replicate k '"', rest) := by
  have hhead (t : List Char) : rest ≠ '"' :: t := by
    rintro rfl
    exact hrest rfl
  intro k hk
  match k, hk with
  | 0, _ => simp [multilineBasicRest, hhead]
  | 1, _ => simp [multilineBasicRest]
  | 2, _ => simp [multilineBasicRest]

theorem head?_escaped (breaks : Bool) {c : Char} (hc : c ≠ '"') :
    ∃ d s, escaped breaks c = d :: s ∧ d ≠ '"' := by
  rcases escaped_cases breaks c with ⟨d, e, he, -⟩ | ⟨he, -⟩
  · exact ⟨'\\', d :: e, he, by decide⟩
  · exact ⟨c, [], he, hc⟩

theorem head?_escapedBasic {limit row : Nat} (breaks : Bool) {c : Char} (h : c = '"' → limit ≤ row)
    (cs s : List Char) :
    (escapedBasic limit breaks row (c :: cs) ++ s).head? ≠ some '"' := by
  by_cases hc : c = '"'
  · simp [escapedBasic, hc, Nat.not_lt.mpr (h hc)]
  · obtain ⟨d, e, he, hd⟩ := head?_escaped breaks hc
    simp [escapedBasic, hc, he, hd]

theorem not_two_quotes {row : Nat} (hrow : 1 ≤ row) {cs : List Char} (hcs : cs ≠ [])
    (hlast : cs = ['"'] → 2 ≤ row) (s : List Char) :
    ¬ ['"', '"'] <+: escapedBasic 2 true row cs ++ s := by
  intro ⟨t, ht⟩
  obtain ⟨c, cs, rfl⟩ := List.exists_cons_of_ne_nil hcs
  by_cases hraw : c = '"' ∧ row < 2
  · obtain ⟨rfl, hlt⟩ := hraw
    have hcs : cs ≠ [] := by
      rintro rfl
      have := hlast rfl
      omega
    obtain ⟨d, cs, rfl⟩ := List.exists_cons_of_ne_nil hcs
    have hhead : (escapedBasic 2 true (row + 1) (d :: cs) ++ s).head? ≠ some '"' :=
      head?_escapedBasic true (by omega) cs s
    rw [escapedBasic, if_pos rfl, if_pos hlt] at ht
    simp only [List.cons_append, List.nil_append, List.cons.injEq, true_and] at ht
    simp [← ht] at hhead
  · have hhead : (escapedBasic 2 true row (c :: cs) ++ s).head? ≠ some '"' :=
      head?_escapedBasic true (fun hc => Nat.not_lt.mp fun hlt => hraw ⟨hc, hlt⟩) cs s
    simp [← ht] at hhead

theorem multilineBasicRest_written (row : Nat) (cs : List Char) {rest : List Char}
    (hrest : rest.head? ≠ some '"') :
    multilineBasicRest false (escapedBasic 2 true row cs ++ ('"' :: '"' :: '"' :: rest)) =
      some (cs, rest) := by
  induction cs generalizing row with
  | nil => exact multilineBasicRest_end hrest 0 (by decide)
  | cons c cs ih =>
      by_cases hc : c = '"'
      · subst hc
        by_cases hrow : row < 2
        · rw [escapedBasic, if_pos rfl, if_pos hrow]
          by_cases hcs : cs = []
          · subst hcs
            exact multilineBasicRest_end hrest 1 (by decide)
          by_cases hlast : cs = ['"'] ∧ row = 0
          · obtain ⟨rfl, rfl⟩ := hlast
            exact multilineBasicRest_end hrest 2 (by decide)
          have hlast (h : cs = ['"']) : 2 ≤ row + 1 := by
            have : row ≠ 0 := fun h0 => hlast ⟨h, h0⟩
            omega
          have hquote := not_two_quotes (Nat.le_add_left 1 row) hcs hlast ('"' :: '"' :: '"' :: rest)
          rw [List.cons_append, multilineBasicRest_text (fun _ => hquote) (by decide) (by decide)
            (by decide) (by decide), ih]
          rfl
        · rw [escapedBasic, if_pos rfl, if_neg hrow, List.cons_append, List.cons_append,
            multilineBasicRest_escape (escapeSequence_short (c := '"') (by decide) _)
              (endsLine_cons (by decide) (by decide) (by decide) _), ih]
          rfl
      · rw [escapedBasic, if_neg hc, List.append_assoc, multilineBasicRest_escaped hc, ih]
        rfl

theorem literalRest_written {cs : List Char} (hquote : '\x27' ∉ cs)
    (htext : ∀ c ∈ cs, isText c = true) (rest : List Char) :
    literalRest (cs ++ '\x27' :: rest) = some (cs, rest) := by
  induction cs with
  | nil => simp [literalRest]
  | cons c cs ih =>
      simp only [List.mem_cons, not_or, forall_eq_or_imp] at hquote htext
      rw [List.cons_append, literalRest, if_pos htext.1, ih hquote.2 htext.2]
      · rfl
      · exact Ne.symm hquote.1

theorem multilineLiteralRest_text {c : Char} {s : List Char}
    (hquote : c = '\x27' → ¬ ['\x27', '\x27'] <+: s) (hreturn : c ≠ '\r')
    (htext : isText c = true ∨ c = '\n') :
    multilineLiteralRest (c :: s) = consText c (multilineLiteralRest s) := by
  have hprefix (t : List Char) (hc : c = '\x27') (ht : s = '\x27' :: '\x27' :: t) : False :=
    hquote hc ⟨t, ht.symm⟩
  by_cases hfeed : c = '\n'
  · simp [hfeed, multilineLiteralRest, consText]
  · rw [multilineLiteralRest]
    · simp [htext.resolve_right hfeed, consText]
    · exact fun t => hprefix ('\x27' :: '\x27' :: t)
    · exact fun t => hprefix ('\x27' :: t)
    · exact hprefix
    · exact hfeed
    · exact fun _ h _ => hreturn h

theorem multilineLiteralRest_end {rest : List Char} (hrest : rest.head? ≠ some '\x27') :
    ∀ k ≤ 2, multilineLiteralRest
      (List.replicate k '\x27' ++ ('\x27' :: '\x27' :: '\x27' :: rest)) =
        some (List.replicate k '\x27', rest) := by
  have hhead (t : List Char) : rest ≠ '\x27' :: t := by
    rintro rfl
    exact hrest rfl
  intro k hk
  match k, hk with
  | 0, _ => simp [multilineLiteralRest, hhead]
  | 1, _ => simp [multilineLiteralRest]
  | 2, _ => simp [multilineLiteralRest]

theorem multilineLiteralRest_written {cs : List Char}
    (hrow : ¬ ['\x27', '\x27', '\x27'] <:+: cs)
    (htext : ∀ c ∈ cs, c ≠ '\r' ∧ (isText c = true ∨ c = '\n')) {rest : List Char}
    (hrest : rest.head? ≠ some '\x27') :
    multilineLiteralRest (cs ++ ('\x27' :: '\x27' :: '\x27' :: rest)) = some (cs, rest) := by
  induction cs with
  | nil => exact multilineLiteralRest_end hrest 0 (by decide)
  | cons c cs ih =>
      simp only [List.mem_cons, forall_eq_or_imp] at htext
      have htail : ¬ ['\x27', '\x27', '\x27'] <:+: cs := fun h => hrow (List.infix_cons h)
      by_cases hend : c = '\x27' ∧ cs = []
      · obtain ⟨rfl, rfl⟩ := hend
        exact multilineLiteralRest_end hrest 1 (by decide)
      by_cases hend' : c = '\x27' ∧ cs = ['\x27']
      · obtain ⟨rfl, rfl⟩ := hend'
        exact multilineLiteralRest_end hrest 2 (by decide)
      have hquote (hc : c = '\x27') :
          ¬ ['\x27', '\x27'] <+: cs ++ ('\x27' :: '\x27' :: '\x27' :: rest) := by
        intro ⟨t, ht⟩
        match cs with
        | [] => exact hend ⟨hc, rfl⟩
        | [d] =>
            simp at ht
            exact hend' ⟨hc, by rw [← ht.1]⟩
        | d :: e :: cs =>
            simp at ht
            exact hrow ⟨[], cs, by simp [hc, ← ht.1, ← ht.2.1]⟩
      rw [List.cons_append, multilineLiteralRest_text hquote htext.1.1 htext.1.2,
        ih htail htext.2]
      rfl

theorem le_longestRowFrom (c : Char) (best here : Nat) (s : List Char) :
    best ≤ longestRowFrom c best here s := by
  induction s generalizing best here with
  | nil => exact Nat.le_refl best
  | cons d s ih => exact Nat.le_trans (Nat.le_max_left _ _) (ih _ _)

theorem le_longestRowFrom_replicate (c : Char) (best here n : Nat) (s : List Char) :
    here + (n + 1) ≤ longestRowFrom c best here (List.replicate (n + 1) c ++ s) := by
  induction n generalizing best here with
  | zero => exact Nat.le_trans (by simp only [if_pos]; omega) (le_longestRowFrom c _ _ s)
  | succ n ih =>
      have h := ih (max best (here + 1)) (here + 1)
      simp [List.replicate_succ, longestRowFrom] at h ⊢
      omega

theorem le_longestRowFrom_append (c : Char) (best here n : Nat) (s t : List Char) :
    n + 1 ≤ longestRowFrom c best here (s ++ (List.replicate (n + 1) c ++ t)) := by
  induction s generalizing best here with
  | nil => exact Nat.le_trans (by omega) (le_longestRowFrom_replicate c best here n t)
  | cons d s ih => exact ih _ _

/-- No row is longer than the longest. -/
theorem not_infix_of_longestRow {c : Char} {n : Nat} {s : List Char} (h : longestRow c s ≤ n) :
    ¬ List.replicate (n + 1) c <:+: s := by
  intro ⟨a, b, hs⟩
  have := le_longestRowFrom_append c 0 0 n a b
  rw [← List.append_assoc, hs] at this
  exact absurd this (Nat.not_le.mpr (Nat.lt_succ_of_le h))

theorem not_mem_of_longestRow {c : Char} {s : List Char} (h : longestRow c s = 0) : c ∉ s := by
  intro hc
  obtain ⟨a, b, rfl⟩ := List.append_of_mem hc
  exact not_infix_of_longestRow (Nat.le_of_eq h) ⟨a, b, by simp⟩

theorem isText_of_plain {s : List Char} (h : s.any needsEscape = false) :
    ∀ c ∈ s, c ≠ '\r' ∧ (isText c = true ∨ c = '\n') := by
  intro c hc
  have hplain : needsEscape c = false := by
    simpa using List.any_eq_false.mp h c hc
  constructor
  · rintro rfl
    exact absurd hplain (by decide)
  · by_cases hfeed : c = '\n'
    · exact .inr hfeed
    · exact .inl (isText_of_needsEscape hplain hfeed)

theorem plain_of_choose_literal {s : List Char} (h : StringForm.choose s = .literal) :
    '\x27' ∉ s ∧ ∀ c ∈ s, isText c = true := by
  simp only [StringForm.choose] at h
  split at h
  · cases h
  split at h
  next hc =>
    simp only [Bool.and_eq_true, Bool.not_eq_true', decide_eq_true_eq] at hc
    obtain ⟨⟨hplain, hquote⟩, hbreaks⟩ := hc
    refine ⟨not_mem_of_longestRow hquote, fun c hc => ?_⟩
    have hfeed : c ≠ '\n' := by simpa using List.any_eq_false.mp hbreaks c hc
    exact (isText_of_plain hplain c hc).2.resolve_right hfeed
  split at h
  · cases h
  split at h
  · cases h
  split at h <;> cases h

theorem plain_of_choose_multilineLiteral {s : List Char}
    (h : StringForm.choose s = .multilineLiteral) :
    ¬ ['\x27', '\x27', '\x27'] <:+: s ∧ ∀ c ∈ s, c ≠ '\r' ∧ (isText c = true ∨ c = '\n') := by
  simp only [StringForm.choose] at h
  split at h
  · cases h
  split at h
  · cases h
  split at h
  · cases h
  split at h
  next hc =>
    simp only [Bool.and_eq_true, Bool.not_eq_true', decide_eq_true_eq] at hc
    exact ⟨not_infix_of_longestRow hc.2, isText_of_plain hc.1⟩
  split at h <;> cases h

theorem stringLiteral_line {c : Char} {s : List Char} (h : ¬ [c, c] <+: s) :
    stringLiteral (c :: s) = lineString (c :: s) := by
  unfold stringLiteral
  split
  next s' heq =>
    cases heq
    exact absurd ⟨s', rfl⟩ h
  next s' heq =>
    cases heq
    exact absurd ⟨s', rfl⟩ h
  next => rfl

theorem afterBreak?_start {breaks : Bool} {s : List Char}
    (h : breaks = false → afterBreak? s = none) :
    (afterBreak? ((if breaks then ['\n'] else []) ++ s)).getD
      ((if breaks then ['\n'] else []) ++ s) = s := by
  cases breaks
  · simp [h]
  · simp [afterBreak?]

theorem afterBreak?_cons {c : Char} (hfeed : c ≠ '\n') (hreturn : c ≠ '\r') (s : List Char) :
    afterBreak? (c :: s) = none := by
  simp [afterBreak?, hfeed, hreturn]

theorem writtenIn_basic (cs rest : List Char) :
    writtenIn .basic cs ++ rest = '"' :: (escapedBasic 0 false 0 cs ++ '"' :: rest) := by
  simp [writtenIn, StringForm.isMultiline, StringForm.mark]

theorem writtenIn_literal (cs rest : List Char) :
    writtenIn .literal cs ++ rest = '\x27' :: (cs ++ '\x27' :: rest) := by
  simp [writtenIn, StringForm.isMultiline, StringForm.mark]

theorem writtenIn_multilineBasic (cs rest : List Char) :
    writtenIn .multilineBasic cs ++ rest =
      '"' :: '"' :: '"' :: ((if cs.any (· = '\n') then ['\n'] else []) ++
        (escapedBasic 2 true 0 cs ++ ('"' :: '"' :: '"' :: rest))) := by
  simp [writtenIn, StringForm.isMultiline, StringForm.mark]

theorem writtenIn_multilineLiteral (cs rest : List Char) :
    writtenIn .multilineLiteral cs ++ rest =
      '\x27' :: '\x27' :: '\x27' :: ((if cs.any (· = '\n') then ['\n'] else []) ++
        (cs ++ ('\x27' :: '\x27' :: '\x27' :: rest))) := by
  simp [writtenIn, StringForm.isMultiline, StringForm.mark]

theorem lineString_basic (cs rest : List Char) :
    lineString (writtenIn .basic cs ++ rest) = some (String.ofList cs, rest) := by
  rw [writtenIn_basic, lineString, basicRest_written]
  rfl

theorem lineString_literal {cs : List Char} (h : StringForm.choose cs = .literal)
    (rest : List Char) :
    lineString (writtenIn .literal cs ++ rest) = some (String.ofList cs, rest) := by
  obtain ⟨hquote, htext⟩ := plain_of_choose_literal h
  rw [writtenIn_literal, lineString, literalRest_written hquote htext]
  rfl

theorem stringLiteral_basic (cs : List Char) {rest : List Char} (hrest : rest.head? ≠ some '"') :
    stringLiteral (writtenIn .basic cs ++ rest) = some (String.ofList cs, rest) := by
  have hmark : ¬ ['"', '"'] <+: escapedBasic 0 false 0 cs ++ '"' :: rest := by
    intro ⟨t, ht⟩
    cases cs with
    | nil =>
        simp [escapedBasic] at ht
        simp [← ht] at hrest
    | cons c cs =>
        have hhead : (escapedBasic 0 false 0 (c :: cs) ++ '"' :: rest).head? ≠ some '"' :=
          head?_escapedBasic false (fun _ => Nat.zero_le 0) cs _
        simp [← ht] at hhead
  rw [← lineString_basic cs rest, writtenIn_basic, stringLiteral_line hmark]

theorem stringLiteral_literal {cs : List Char} (h : StringForm.choose cs = .literal)
    {rest : List Char} (hrest : rest.head? ≠ some '\x27') :
    stringLiteral (writtenIn .literal cs ++ rest) = some (String.ofList cs, rest) := by
  have hmark : ¬ ['\x27', '\x27'] <+: cs ++ '\x27' :: rest := by
    intro ⟨t, ht⟩
    cases cs with
    | nil =>
        simp at ht
        simp [← ht] at hrest
    | cons c cs =>
        have hquote := (plain_of_choose_literal h).1
        simp at ht
        exact hquote (List.mem_cons.mpr (.inl ht.1))
  rw [← lineString_literal h rest, writtenIn_literal, stringLiteral_line hmark]

theorem stringLiteral_multilineBasic (cs : List Char) {rest : List Char}
    (hrest : rest.head? ≠ some '"') :
    stringLiteral (writtenIn .multilineBasic cs ++ rest) = some (String.ofList cs, rest) := by
  have hstart (h : cs.any (· = '\n') = false) :
      afterBreak? (escapedBasic 2 true 0 cs ++ ('"' :: '"' :: '"' :: rest)) = none := by
    cases cs with
    | nil => rfl
    | cons c cs =>
        simp only [List.any_cons, Bool.or_eq_false_iff, decide_eq_false_iff_not] at h
        by_cases hc : c = '"'
        · simp [escapedBasic, hc, afterBreak?]
        · rw [escapedBasic, if_neg hc]
          rcases escaped_cases true c with ⟨d, e, he, -⟩ | ⟨he, -, hreturn, -⟩
          · simp [he, afterBreak?]
          · simp [he, afterBreak?_cons h.1 hreturn]
  rw [writtenIn_multilineBasic, stringLiteral, afterBreak?_start hstart,
    multilineBasicRest_written 0 cs hrest]
  rfl

theorem stringLiteral_multilineLiteral {cs : List Char}
    (h : StringForm.choose cs = .multilineLiteral) {rest : List Char}
    (hrest : rest.head? ≠ some '\x27') :
    stringLiteral (writtenIn .multilineLiteral cs ++ rest) = some (String.ofList cs, rest) := by
  obtain ⟨hrow, htext⟩ := plain_of_choose_multilineLiteral h
  have hstart (h : cs.any (· = '\n') = false) :
      afterBreak? (cs ++ ('\x27' :: '\x27' :: '\x27' :: rest)) = none := by
    cases cs with
    | nil => rfl
    | cons c cs =>
        simp only [List.any_cons, Bool.or_eq_false_iff, decide_eq_false_iff_not] at h
        exact afterBreak?_cons h.1 (htext c (by simp)).1 _
  rw [writtenIn_multilineLiteral, stringLiteral, afterBreak?_start hstart,
    multilineLiteralRest_written hrow htext hrest]
  rfl

/-- A text comes back in the form that is chosen for it, before anything but a quote. -/
theorem stringLiteral_written (cs : List Char) {rest : List Char}
    (hquote : rest.head? ≠ some '"') (happos : rest.head? ≠ some '\x27') :
    stringLiteral (writtenString cs ++ rest) = some (String.ofList cs, rest) := by
  unfold writtenString
  cases hform : StringForm.choose cs with
  | basic => exact stringLiteral_basic cs hquote
  | literal => exact stringLiteral_literal hform happos
  | multilineBasic => exact stringLiteral_multilineBasic cs hquote
  | multilineLiteral => exact stringLiteral_multilineLiteral hform happos

end LedWall.Toml
