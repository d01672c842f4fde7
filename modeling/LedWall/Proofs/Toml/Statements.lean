import LedWall.Proofs.Toml.Scalars
import LedWall.Toml.Document

/-!
# Written statements come back

The parts of a statement are keys with dots between them and a value. No part starts with space, a
comment or a line break, so that nothing of it is skipped, and where it ends the next character does
not belong to it. A document is then read line by line.
-/

namespace LedWall.Toml

def StartsKey (c : Char) : Prop := isBareKey c = true ∨ c = '"' ∨ c = '\x27'

theorem writtenIn_eq_cons (form : StringForm) (cs : List Char) :
    ∃ c s, writtenIn form cs = c :: s ∧ (c = '"' ∨ c = '\x27') := by
  cases form with
  | basic => exact ⟨'"', _, rfl, .inl rfl⟩
  | literal => exact ⟨'\x27', _, rfl, .inr rfl⟩
  | multilineBasic => exact ⟨'"', _, rfl, .inl rfl⟩
  | multilineLiteral => exact ⟨'\x27', _, rfl, .inr rfl⟩

theorem writtenKey_eq_cons (key : String) : ∃ c s, writtenKey key = c :: s ∧ StartsKey c := by
  have hquoted (form : StringForm) :
      ∃ c s, writtenIn form key.toList = c :: s ∧ StartsKey c := by
    obtain ⟨c, s, hs, hc⟩ := writtenIn_eq_cons form key.toList
    exact ⟨c, s, hs, .inr hc⟩
  simp only [writtenKey]
  split
  next h =>
    obtain ⟨c, s, hs⟩ := List.exists_cons_of_ne_nil h.1
    exact ⟨c, s, hs, .inl (List.all_eq_true.mp h.2 c (by simp [hs]))⟩
  split
  next => exact hquoted .literal
  next => exact hquoted .basic

theorem simpleKey_written (key : String) {rest : List Char}
    (hrest : ∀ c ∈ rest.head?, isBareKey c = false) :
    simpleKey (writtenKey key ++ rest) = some (key, rest) := by
  have hquoted (form : StringForm) (cs : List Char) :
      (writtenIn form cs ++ rest).takeWhile isBareKey = [] := by
    cases form <;> rfl
  simp only [writtenKey]
  split
  next h =>
    have hbare : ∀ c ∈ key.toList, isBareKey c = true := List.all_eq_true.mp h.2
    obtain ⟨c, s, hs⟩ := List.exists_cons_of_ne_nil h.1
    have hrun : (key.toList ++ rest).takeWhile isBareKey = c :: s := by
      rw [Decimal.takeWhile_append_of_stop hbare hrest, hs]
    simp only [simpleKey, hrun, Decimal.dropWhile_append_of_stop hbare hrest]
    rw [← hs, String.ofList_toList]
  split
  next h =>
    simp only [simpleKey, hquoted]
    rw [lineString_literal h, String.ofList_toList]
  next =>
    simp only [simpleKey, hquoted]
    rw [lineString_basic, String.ofList_toList]

theorem writtenPath_cons (key : String) (path : Path) :
    writtenPath (key :: path) =
      writtenKey key ++ (if path = [] then [] else '.' :: writtenPath path) := by
  cases path <;> simp [writtenPath]

theorem skipSpace_cons {c : Char} (h : isSpace c = false) (s : List Char) :
    skipSpace (c :: s) = c :: s := by
  simp [skipSpace, h]

theorem StartsKey.isSpace {c : Char} (h : StartsKey c) : isSpace c = false := by
  rw [Toml.isSpace, Bool.or_eq_false_iff]
  constructor <;> (rw [decide_eq_false_iff_not]; rintro rfl; revert h; unfold StartsKey; decide)

theorem skipSpace_writtenKey (key : String) (s : List Char) :
    skipSpace (writtenKey key ++ s) = writtenKey key ++ s := by
  obtain ⟨c, cs, hcs, hc⟩ := writtenKey_eq_cons key
  rw [hcs, List.cons_append, skipSpace_cons hc.isSpace]

theorem keysWithin_written {path : Path} (hpath : path ≠ []) {room : Nat} (hroom : path.length ≤ room)
    {rest : List Char} (hrest : ∀ c ∈ rest.head?, isBareKey c = false)
    (hdot : (skipSpace rest).head? ≠ some '.') :
    keysWithin room (writtenPath path ++ rest) = some (path, skipSpace rest) := by
  induction path generalizing room with
  | nil => exact absurd rfl hpath
  | cons key path ih =>
      obtain _ | room := room
      · cases hroom
      rw [writtenPath_cons, keysWithin, List.append_assoc, skipSpace_writtenKey]
      by_cases hlast : path = []
      · subst hlast
        rw [if_pos rfl, List.nil_append, simpleKey_written key hrest]
        simp only [Option.bind_eq_bind, Option.bind_some]
        split
        next s hs => simp [hs] at hdot
        next => rfl
      · have hmore := ih hlast (Nat.le_of_succ_le_succ hroom)
        rw [if_neg hlast, List.cons_append, simpleKey_written key (by simp; decide)]
        simp [skipSpace_cons (c := '.') (by decide), hmore]

/-- Whether a value is written behind its name: a scalar or an array of scalars. -/
def Value.isPlain : Value → Bool
  | .array elements => elements.all isScalar
  | v => v.isScalar

def StartsScalar (c : Char) : Prop := c.isDigit = true ∨ c ∈ ['"', '\x27', '-', 't', 'f']

theorem writtenValue_eq_cons {v : Value} (hv : v.isScalar = true) :
    ∃ c s, writtenValue v = c :: s ∧ StartsScalar c := by
  cases v with
  | string text =>
      obtain ⟨c, s, hs, hc⟩ := writtenIn_eq_cons (.choose text.toList) text.toList
      exact ⟨c, s, hs, .inr (by rcases hc with rfl | rfl <;> decide)⟩
  | integer n =>
      rw [writtenValue, toList_toString, signText]
      split
      next => exact ⟨'-', _, rfl, .inr (by decide)⟩
      next =>
        obtain ⟨d, ds, hds, hd⟩ := (isNumeral_toDigits n.natAbs).eq_cons
        exact ⟨d, ds, hds, .inl hd⟩
  | boolean b =>
      cases b with
      | false => exact ⟨'f', _, rfl, .inr (by decide)⟩
      | true => exact ⟨'t', _, rfl, .inr (by decide)⟩
  | float _ => cases hv
  | dateTime _ => cases hv
  | array _ => cases hv
  | table _ => cases hv

theorem StartsScalar.ne {c d : Char} (h : StartsScalar c)
    (hd : ¬ d.isDigit = true ∧ d ∉ ['"', '\x27', '-', 't', 'f']) : c ≠ d := by
  rintro rfl
  exact h.elim hd.1 hd.2

theorem skipFiller_cons {c : Char} (h : StartsScalar c) (s : List Char) :
    skipFiller (c :: s) = c :: s := by
  have hspace : isSpace c = false := by
    simp [isSpace, h.ne (d := ' ') (by decide), h.ne (d := '\t') (by decide)]
  have hcomment : c ≠ '#' := h.ne (by decide)
  rw [skipFiller, fillerFrom, if_neg hcomment, hspace, if_neg Bool.false_ne_true]
  · exact h.ne (by decide)
  · intro _ hreturn _
    exact h.ne (by decide) hreturn

theorem valueWithin_scalar {v : Value} (hv : v.isScalar = true) (hfits : v.fits = true) (room : Nat)
    {rest : List Char} (hrest : EndsValue rest) :
    valueWithin room (writtenValue v ++ rest) = some (v, rest) := by
  obtain ⟨c, s, hs, hc⟩ := writtenValue_eq_cons hv
  have hbracket : c ≠ '[' := hc.ne (by decide)
  have hbrace : c ≠ '\x7b' := hc.ne (by decide)
  rw [← scalar_written hv hfits hrest, hs]
  cases room <;> simp [valueWithin, hbracket, hbrace]

def ReadsBack (item : Reader Value) (vs : List Value) : Prop :=
  ∀ v ∈ vs, ∀ rest, EndsValue rest → item (writtenValue v ++ rest) = some (v, rest)

theorem skipFiller_written {v : Value} (hv : v.isScalar = true) (s : List Char) :
    skipFiller (writtenValue v ++ s) = writtenValue v ++ s ∧ (writtenValue v ++ s).head? ≠ some ']' := by
  obtain ⟨c, cs, hcs, hc⟩ := writtenValue_eq_cons hv
  rw [hcs, List.cons_append, skipFiller_cons hc]
  exact ⟨rfl, by simpa using hc.ne (d := ']') (by decide)⟩

theorem skipFiller_indent (s : List Char) :
    skipFiller ('\n' :: ' ' :: ' ' :: ' ' :: ' ' :: s) = skipFiller s := by
  simp [skipFiller, fillerFrom, isSpace]

theorem skipFiller_comma (s : List Char) : skipFiller (',' :: s) = ',' :: s := by
  simp [skipFiller, fillerFrom, isSpace]

theorem skipFiller_bracket (s : List Char) : skipFiller (']' :: s) = ']' :: s := by
  simp [skipFiller, fillerFrom, isSpace]

theorem elementsWithin_written {item : Reader Value} {vs : List Value}
    (hvs : ∀ v ∈ vs, v.isScalar = true) (hitem : ReadsBack item vs) {steps : Nat}
    (hsteps : vs.length < steps) (rest : List Char) :
    elementsWithin item steps ('\n' :: (writtenElements vs ++ ']' :: rest)) = some (vs, rest) := by
  induction vs generalizing steps with
  | nil =>
      obtain _ | steps := steps
      · cases hsteps
      · rfl
  | cons v vs ih =>
      obtain _ | steps := steps
      · cases hsteps
      simp only [List.mem_cons, forall_eq_or_imp] at hvs
      have hmore := ih hvs.2 (fun w hw => hitem w (List.mem_cons_of_mem v hw))
        (Nat.lt_of_succ_lt_succ hsteps)
      have hread := hitem v List.mem_cons_self
        (',' :: '\n' :: (writtenElements vs ++ ']' :: rest)) ⟨',', by simp, _, rfl⟩
      obtain ⟨hfiller, hhead⟩ := skipFiller_written hvs.1
        (',' :: '\n' :: (writtenElements vs ++ ']' :: rest))
      have hline : '\n' :: (writtenElements (v :: vs) ++ ']' :: rest) =
          '\n' :: ' ' :: ' ' :: ' ' :: ' ' ::
            (writtenValue v ++ (',' :: '\n' :: (writtenElements vs ++ ']' :: rest))) := by
        simp [writtenElements]
      rw [hline, elementsWithin, skipFiller_indent, hfiller]
      split
      next hbracket => simp [hbracket] at hhead
      next => simp [hread, skipFiller_comma, hmore]

theorem length_le_writtenElements (vs : List Value) : vs.length ≤ (writtenElements vs).length := by
  induction vs with
  | nil => simp
  | cons v vs ih => simp [writtenElements]; omega

theorem elements_written {item : Reader Value} {vs : List Value}
    (hvs : ∀ v ∈ vs, v.isScalar = true) (hitem : ReadsBack item vs) (rest : List Char) :
    elements item ('\n' :: (writtenElements vs ++ ']' :: rest)) = some (vs, rest) := by
  have hlength := length_le_writtenElements vs
  apply elementsWithin_written hvs hitem
  simp
  omega

theorem elements_single {item : Reader Value} {v : Value} (hv : v.isScalar = true)
    (hitem : ReadsBack item [v]) (rest : List Char) :
    elements item (writtenValue v ++ ']' :: rest) = some ([v], rest) := by
  have hread := hitem v List.mem_cons_self (']' :: rest) ⟨']', by simp, _, rfl⟩
  obtain ⟨hfiller, hhead⟩ := skipFiller_written hv (']' :: rest)
  rw [elements, elementsWithin, hfiller]
  split
  next hbracket => simp [hbracket] at hhead
  next => simp [hread, skipFiller_bracket]

theorem fits_of_mem {vs : List Value} (h : elementsFit vs = true) : ∀ v ∈ vs, v.fits = true := by
  induction vs with
  | nil => simp
  | cons v vs ih =>
      simp only [elementsFit, Bool.and_eq_true] at h
      simp only [List.mem_cons, forall_eq_or_imp]
      exact ⟨h.1, ih h.2⟩

theorem valueWithin_written {v : Value} (hv : v.isPlain = true) (hfits : v.fits = true) (room : Nat)
    {rest : List Char} (hrest : EndsValue rest) :
    valueWithin (room + 1) (writtenValue v ++ rest) = some (v, rest) := by
  by_cases hscalar : v.isScalar = true
  · exact valueWithin_scalar hscalar hfits (room + 1) hrest
  cases v with
  | array vs =>
      have hvs : ∀ v ∈ vs, v.isScalar = true := List.all_eq_true.mp hv
      have hitem : ReadsBack (valueWithin room) vs := fun v hmem rest hrest =>
        valueWithin_scalar (hvs v hmem) (fits_of_mem hfits v hmem) room hrest
      have harray {s : List Char} (hs : elements (valueWithin room) s = some (vs, rest)) :
          valueWithin (room + 1) ('[' :: s) = some (.array vs, rest) := by
        simp [valueWithin, hs]
      match vs with
      | [] => exact harray rfl
      | [v] =>
          rw [writtenValue, List.append_assoc, List.append_assoc]
          exact harray (elements_single (hvs v List.mem_cons_self) hitem rest)
      | v :: w :: vs =>
          rw [writtenValue, List.append_assoc, List.append_assoc]
          exact harray (elements_written hvs hitem rest)
  | string _ => exact absurd hv hscalar
  | integer _ => exact absurd hv hscalar
  | boolean _ => exact absurd hv hscalar
  | float _ => exact absurd hv hscalar
  | dateTime _ => exact absurd hv hscalar
  | table _ => exact absurd hv hscalar

/-- A statement that a document can hold: its path is not too long, and its value is plain. -/
def Statement.Fits : Statement → Prop
  | .table path | .element path => path ≠ [] ∧ path.length < depthLimit
  | .field path v => path ≠ [] ∧ path.length < depthLimit ∧ v.isPlain = true ∧ v.fits = true

theorem writtenPath_eq_cons {path : Path} (hpath : path ≠ []) :
    ∃ c s, writtenPath path = c :: s ∧ StartsKey c := by
  obtain ⟨key, path, rfl⟩ := List.exists_cons_of_ne_nil hpath
  obtain ⟨c, s, hs, hc⟩ := writtenKey_eq_cons key
  exact ⟨c, _, by rw [writtenPath_cons, hs]; rfl, hc⟩

theorem StartsKey.ne {c d : Char} (h : StartsKey c)
    (hd : ¬ (isBareKey d = true ∨ d = '"' ∨ d = '\x27')) : c ≠ d := by
  rintro rfl
  exact hd h

theorem keyPath_bracket {path : Path} (hpath : path ≠ []) (hlength : path.length < depthLimit)
    (rest : List Char) : keyPath (writtenPath path ++ ']' :: rest) = some (path, ']' :: rest) := by
  have hskip : skipSpace (']' :: rest) = ']' :: rest := skipSpace_cons (by decide) rest
  rw [keyPath, keysWithin_written hpath (Nat.le_sub_one_of_lt hlength) (by simp; decide)
    (by simp [hskip]), hskip]

theorem head?_writtenPath {path : Path} (hpath : path ≠ []) (s : List Char) :
    (writtenPath path ++ s).head? ≠ some '[' := by
  obtain ⟨c, cs, hcs, hc⟩ := writtenPath_eq_cons hpath
  simpa [hcs] using hc.ne (d := '[') (by decide)

theorem skipSpace_writtenValue {v : Value} (hv : v.isPlain = true) (s : List Char) :
    skipSpace (writtenValue v ++ s) = writtenValue v ++ s := by
  by_cases hscalar : v.isScalar = true
  · obtain ⟨c, cs, hcs, hc⟩ := writtenValue_eq_cons hscalar
    rw [hcs]
    apply skipSpace_cons
    simp [isSpace, hc.ne (d := ' ') (by decide), hc.ne (d := '\t') (by decide)]
  · cases v with
    | array vs => 
        match vs with
        | [] => exact skipSpace_cons (by decide) _
        | [v] => exact skipSpace_cons (by decide) _
        | v :: w :: vs => exact skipSpace_cons (by decide) _
    | _ => exact absurd hv hscalar

theorem assignment_written {path : Path} (hpath : path ≠ []) (hlength : path.length < depthLimit)
    {v : Value} (hv : v.isPlain = true) (hfits : v.fits = true) (rest : List Char) :
    assignment value (writtenPath path ++ ' ' :: '=' :: ' ' :: (writtenValue v ++ '\n' :: rest)) =
      some ((path, v), '\n' :: rest) := by
  have hkeys : keyPath (writtenPath path ++ ' ' :: '=' :: ' ' :: (writtenValue v ++ '\n' :: rest)) =
      some (path, '=' :: ' ' :: (writtenValue v ++ '\n' :: rest)) := by
    have hskip (s : List Char) : skipSpace (' ' :: '=' :: s) = '=' :: s := rfl
    rw [keyPath, keysWithin_written hpath (Nat.le_sub_one_of_lt hlength) (by simp; decide)
      (by simp [hskip]), hskip]
  have hspace : skipSpace (' ' :: (writtenValue v ++ '\n' :: rest)) =
      writtenValue v ++ '\n' :: rest := skipSpace_writtenValue hv _
  have hvalue : value (writtenValue v ++ '\n' :: rest) = some (v, '\n' :: rest) :=
    valueWithin_written hv hfits 78 ⟨'\n', by simp, rest, rfl⟩
  simp [assignment, hkeys, hspace, hvalue]

theorem statement_written {x : Statement} (hx : x.Fits) (rest : List Char) :
    statement (x.written ++ rest) = some (x, '\n' :: rest) := by
  cases x with
  | table path =>
      have hhead := head?_writtenPath hx.1 (']' :: '\n' :: rest)
      have hline : (Statement.table path).written ++ rest =
          '[' :: (writtenPath path ++ ']' :: '\n' :: rest) := by simp [Statement.written]
      rw [hline]
      unfold statement
      split
      next heq =>
        have htail := (List.cons.inj heq).2
        simp [htail] at hhead
      next heq =>
        cases heq
        simp [keyPath_bracket hx.1 hx.2]
      next hno => exact absurd rfl (hno _)
  | element path =>
      have hline : (Statement.element path).written ++ rest =
          '[' :: '[' :: (writtenPath path ++ ']' :: ']' :: '\n' :: rest) := by
        simp [Statement.written]
      rw [hline, statement, keyPath_bracket hx.1 hx.2]
      rfl
  | field path v =>
      obtain ⟨hpath, hlength, hv, hfits⟩ := hx
      have hline : (Statement.field path v).written ++ rest =
          writtenPath path ++ ' ' :: '=' :: ' ' :: (writtenValue v ++ '\n' :: rest) := by
        simp [Statement.written]
      have hhead := head?_writtenPath hpath (' ' :: '=' :: ' ' :: (writtenValue v ++ '\n' :: rest))
      rw [hline]
      unfold statement
      split
      next heq => simp [heq] at hhead
      next heq => simp [heq] at hhead
      next => simp [assignment_written hpath hlength hv hfits]

theorem written_eq_cons {x : Statement} (hx : x.Fits) :
    ∃ c s, x.written = c :: s ∧ (StartsKey c ∨ c = '[') := by
  cases x with
  | table path => exact ⟨'[', _, rfl, .inr rfl⟩
  | element path => exact ⟨'[', _, rfl, .inr rfl⟩
  | field path v =>
      obtain ⟨c, s, hs, hc⟩ := writtenPath_eq_cons hx.1
      exact ⟨c, _, by rw [Statement.written, hs]; rfl, .inl hc⟩

theorem statementsWithin_break (steps : Nat) (s : List Char) :
    statementsWithin (steps + 1) ('\n' :: s) = statementsWithin steps s := by
  simp [statementsWithin, skipSpace, isSpace, nextLine?, afterBreak?]

theorem statementsWithin_written {x : Statement} (hx : x.Fits) (steps : Nat) (s : List Char) :
    statementsWithin (steps + 1) (x.written ++ s) = (statementsWithin steps s).map (x :: ·) := by
  obtain ⟨c, cs, hcs, hc⟩ := written_eq_cons hx
  have hne (d : Char) (hd : ¬ (isBareKey d = true ∨ d = '"' ∨ d = '\x27') ∧ d ≠ '[') : c ≠ d := by
    rcases hc with hc | rfl
    · exact hc.ne hd.1
    · exact Ne.symm hd.2
  have hspace : isSpace c = false := by
    simp [isSpace, hne ' ' (by decide), hne '\t' (by decide)]
  have hskip : skipSpace (x.written ++ s) = x.written ++ s := by
    rw [hcs]
    exact skipSpace_cons hspace _
  have hline : nextLine? (x.written ++ s) = none := by
    have hcomment : c ≠ '#' := hne '#' (by decide)
    have hbreak : afterBreak? (c :: (cs ++ s)) = none :=
      afterBreak?_cons (hne '\n' (by decide)) (hne '\r' (by decide)) _
    rw [nextLine?, hskip, hcs]
    simp [hcomment, hbreak]
  have hbreak : nextLine? ('\n' :: s) = some s := rfl
  rw [statementsWithin, hskip, hcs, List.cons_append]
  simp only
  rw [← List.cons_append, ← hcs, hline]
  rw [statement_written hx]
  cases hxs : statementsWithin steps s <;> simp [hbreak, hxs]

def laterLines (xs : List Statement) : List Char :=
  xs.flatMap fun x => if x.isHeader then '\n' :: x.written else x.written

theorem statementsWithin_laterLines {xs : List Statement} (hxs : ∀ x ∈ xs, x.Fits) {steps : Nat}
    (hsteps : 2 * xs.length < steps) : statementsWithin steps (laterLines xs) = some xs := by
  induction xs generalizing steps with
  | nil =>
      obtain _ | steps := steps
      · cases hsteps
      · rfl
  | cons x xs ih =>
      obtain _ | _ | steps := steps
      · cases hsteps
      · simp at hsteps
      simp only [List.mem_cons, forall_eq_or_imp] at hxs
      rw [List.length_cons] at hsteps
      rw [laterLines, List.flatMap_cons, ← laterLines]
      split
      next =>
        rw [List.cons_append, statementsWithin_break, statementsWithin_written hxs.1,
          ih hxs.2 (by omega)]
        rfl
      next =>
        rw [statementsWithin_written hxs.1, ih hxs.2 (by omega)]
        rfl

theorem length_le_laterLines (xs : List Statement) : 2 * xs.length ≤ (laterLines xs).length := by
  have hwritten (x : Statement) : 2 ≤ x.written.length := by
    cases x with
    | table path => simp [Statement.written]
    | element path => simp [Statement.written]
    | field path v =>
        simp [Statement.written]
        omega
  induction xs with
  | nil => simp
  | cons x xs ih =>
      have := hwritten x
      rw [laterLines, List.flatMap_cons, ← laterLines]
      split <;> simp <;> omega

/-- A document reads as the statements that were written. -/
theorem parse?_render {xs : List Statement} (hxs : ∀ x ∈ xs, x.Fits) :
    parse? (render xs) = tableOf? xs := by
  cases xs with
  | nil => rfl
  | cons x xs =>
      simp only [List.mem_cons, forall_eq_or_imp] at hxs
      have htext : (render (x :: xs)).toList = x.written ++ laterLines xs := by
        simp [render, laterLines]
      obtain ⟨c, cs, hcs, hc⟩ := written_eq_cons hxs.1
      have hmark : c ≠ '\ufeff' := by
        rcases hc with hc | rfl
        · exact hc.ne (by decide)
        · decide
      have hread : statements (x.written ++ laterLines xs) = some (x :: xs) := by
        have hlength := length_le_laterLines xs
        rw [statements, statementsWithin_written hxs.1, statementsWithin_laterLines hxs.2]
        · rfl
        · simp [hcs]
          omega
      simp only [parse?, htext]
      split
      next heq =>
        rw [hcs] at heq
        exact absurd (List.cons.inj heq).1 hmark
      next => rw [hread, Option.bind_some]

end LedWall.Toml
