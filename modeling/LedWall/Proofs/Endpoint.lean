import LedWall.Endpoint
import Mathlib.Data.List.TakeWhile

/-!
# Addresses and their texts

The text of an address is taken apart at its first colon: the host stands before it, and all that
follows has to be the port. So a text is refused only for its port, a host that was read has no colon,
and an address whose host has none survives being written and read again.
-/

namespace LedWall

namespace Decimal

/-- An optional plus sign and then one or more digits, which denote the number. -/
def Unsigned (cs : List Char) (n : Nat) : Prop :=
  ∃ digits, (cs = digits ∨ cs = '+' :: digits) ∧ digits ≠ [] ∧
    (∀ c ∈ digits, c.isDigit = true) ∧ n = Nat.ofDigitChars 10 digits 0

theorem value_eq_ofDigitChars (ds : List Char) :
    value (ds.map fun c => c.toNat - 48) = Nat.ofDigitChars 10 ds 0 := by
  rw [value, List.foldl_map]
  rfl

def afterPlus (cs : List Char) : List Char :=
  match cs with
  | '+' :: ds => ds
  | ds => ds

theorem eq_afterPlus (cs : List Char) : cs = afterPlus cs ∨ cs = '+' :: afterPlus cs := by
  unfold afterPlus
  split
  · exact .inr rfl
  · exact .inl rfl

theorem afterPlus_of_isDigit {ds : List Char} (h : ∀ c ∈ ds, c.isDigit = true) :
    afterPlus ds = ds := by
  unfold afterPlus
  split
  · exact absurd (h '+' List.mem_cons_self) (by decide)
  · rfl

theorem ofText?_eq (limit : Nat) (s : String) : ofText? limit s =
    if afterPlus s.toList ≠ [] ∧ (afterPlus s.toList).all Char.isDigit then
      if Nat.ofDigitChars 10 (afterPlus s.toList) 0 ≤ limit then
        some (Nat.ofDigitChars 10 (afterPlus s.toList) 0)
      else none
    else none := by
  rw [← value_eq_ofDigitChars]
  rfl

theorem ofText?_eq_some_iff {limit : Nat} {s : String} {n : Nat} :
    ofText? limit s = some n ↔ Unsigned s.toList n ∧ n ≤ limit := by
  rw [ofText?_eq]
  constructor
  · intro h
    simp only [Option.ite_none_right_eq_some, Option.some.injEq, List.all_eq_true] at h
    obtain ⟨⟨hne, hdigits⟩, hle, rfl⟩ := h
    exact ⟨⟨_, eq_afterPlus _, hne, hdigits, rfl⟩, hle⟩
  · rintro ⟨⟨digits, hcs, hne, hdigits, rfl⟩, hle⟩
    have hafter : afterPlus s.toList = digits := by
      rcases hcs with hcs | hcs
      · rw [hcs, afterPlus_of_isDigit hdigits]
      · rw [hcs, afterPlus]
    rw [hafter, if_pos ⟨hne, List.all_eq_true.mpr hdigits⟩, if_pos hle]

theorem unsigned_text (n : Nat) : Unsigned (text n).toList n := by
  have htext : (text n).toList = (digits n).map Nat.digitChar := String.toList_ofList
  refine ⟨_, .inl rfl, ?_, ?_, ?_⟩
  · rw [htext, ne_eq, List.map_eq_nil_iff]
    exact digits_ne_nil n
  · intro c hc
    rw [htext] at hc
    obtain ⟨d, hd, rfl⟩ := List.mem_map.mp hc
    rw [Nat.isDigit_digitChar]
    exact decide_eq_true (lt_ten_of_mem_digits hd)
  · have hback : ((digits n).map Nat.digitChar).map (fun c => c.toNat - 48) = digits n := by
      rw [List.map_map]
      refine (List.map_congr_left fun d hd => ?_).trans (List.map_id _)
      rw [Function.comp_apply, Nat.toNat_digitChar_of_lt_ten (lt_ten_of_mem_digits hd)]
      exact Nat.add_sub_cancel_left 48 d
    rw [htext, ← value_eq_ofDigitChars, hback, value_digits]

end Decimal

namespace Endpoint

theorem port?_eq_some_iff {s : String} {p : UInt16} :
    port? s = some p ↔ Decimal.Unsigned s.toList p.toNat := by
  rw [port?, Option.map_eq_some_iff]
  constructor
  · rintro ⟨n, hn, rfl⟩
    obtain ⟨hunsigned, hle⟩ := Decimal.ofText?_eq_some_iff.mp hn
    rwa [UInt16.toNat_ofNat_of_lt' (Nat.lt_succ_of_le hle)]
  · intro h
    have hlt := p.toNat_lt
    exact ⟨p.toNat, Decimal.ofText?_eq_some_iff.mpr ⟨h, by omega⟩, UInt16.ofNat_toNat⟩

theorem port?_eq_none_iff {s : String} :
    port? s = none ↔ ∀ n, Decimal.Unsigned s.toList n → ¬ n ≤ 65535 := by
  rw [port?, Option.map_eq_none_iff, Option.eq_none_iff_forall_ne_some]
  constructor
  · intro h n hn hle
    exact h n (Decimal.ofText?_eq_some_iff.mpr ⟨hn, hle⟩)
  · intro h n hn
    obtain ⟨hunsigned, hle⟩ := Decimal.ofText?_eq_some_iff.mp hn
    exact h n hunsigned hle

theorem orDefaultHost_ofList (host : List Char) :
    orDefaultHost (String.ofList host) = if host = [] then "ft.noise" else String.ofList host := by
  simp only [orDefaultHost, String.ofList_eq_empty_iff]
  rfl

theorem orDefaultHost_of_notMem {host : String} (h : ':' ∉ host.toList) :
    orDefaultHost host ≠ "" ∧ ':' ∉ (orDefaultHost host).toList := by
  unfold orDefaultHost
  split
  next => exact ⟨by decide, by decide⟩
  next hne => exact ⟨hne, h⟩

/-- The first colon of a text stands between these two parts. -/
def Divided (s : String) (host port : List Char) : Prop :=
  s.toList = host ++ ':' :: port ∧ ':' ∉ host

theorem divided_or (s : String) : ':' ∉ s.toList ∨ ∃ host port, Divided s host port := by
  by_cases h : ':' ∈ s.toList
  · exact .inr (List.eq_append_cons_of_mem h)
  · exact .inl h

variable {s : String} {host port : List Char}

theorem parse_of_notMem (h : ':' ∉ s.toList) : parse s = .ok ⟨orDefaultHost s, 1337⟩ := by
  have hall : ∀ c ∈ s.toList, decide (c ≠ ':') = true := by
    intro c hc
    exact decide_eq_true fun heq => h (heq ▸ hc)
  simp only [parse, List.takeWhile_eq_self_iff.mpr hall, List.dropWhile_eq_nil_iff.mpr hall,
    String.ofList_toList, defaultPort]

theorem parse_of_divided (h : Divided s host port) :
    parse s = match port? (String.ofList port) with
      | some p => .ok ⟨orDefaultHost (String.ofList host), p⟩
      | none => .error ⟨String.ofList port⟩ := by
  obtain ⟨hs, hhost⟩ := h
  have hall : ∀ c ∈ host, decide (c ≠ ':') = true := by
    intro c hc
    exact decide_eq_true fun heq => hhost (heq ▸ hc)
  have htake : (host ++ ':' :: port).takeWhile (· ≠ ':') = host := by
    rw [List.takeWhile_append_of_pos hall, List.takeWhile_cons_of_neg (by decide), List.append_nil]
  have hdrop : (host ++ ':' :: port).dropWhile (· ≠ ':') = ':' :: port := by
    rw [List.dropWhile_append_of_pos hall, List.dropWhile_cons_of_neg (by decide)]
  cases hport : port? (String.ofList port) with
  | some p => simp only [parse, hs, htake, hdrop, hport]
  | none => simp only [parse, hs, hdrop, hport]

theorem parse_eq_ok_iff_of_divided (h : Divided s host port) {e : Endpoint} : parse s = .ok e ↔
    e.host = orDefaultHost (String.ofList host) ∧ Decimal.Unsigned port e.port.toNat := by
  have hport : ∀ p, port? (String.ofList port) = some p ↔ Decimal.Unsigned port p.toNat := by
    intro p
    rw [port?_eq_some_iff, String.toList_ofList]
  rw [parse_of_divided h, ← hport]
  obtain ⟨name, number⟩ := e
  cases port? (String.ofList port) with
  | none => simp
  | some p => simp [eq_comm]

theorem parse_eq_error_iff_of_divided (h : Divided s host port) {e : InvalidPort} :
    parse s = .error e ↔
      (∀ n, Decimal.Unsigned port n → ¬ n ≤ 65535) ∧ e.text = String.ofList port := by
  have hport : port? (String.ofList port) = none ↔
      ∀ n, Decimal.Unsigned port n → ¬ n ≤ 65535 := by
    rw [port?_eq_none_iff, String.toList_ofList]
  rw [parse_of_divided h, ← hport]
  obtain ⟨text⟩ := e
  cases port? (String.ofList port) with
  | none => simp [eq_comm]
  | some p => simp

theorem parse_text {e : Endpoint} (hne : e.host ≠ "") (hcolon : ':' ∉ e.host.toList) :
    parse e.text = .ok e := by
  have hdivided : Divided e.text e.host.toList (Decimal.text e.port.toNat).toList := by
    refine ⟨?_, hcolon⟩
    rw [text, String.toList_append, String.toList_append, List.append_assoc]
    rfl
  rw [parse_eq_ok_iff_of_divided hdivided, String.ofList_toList, orDefaultHost, if_neg hne]
  exact ⟨rfl, Decimal.unsigned_text _⟩

theorem host_of_parse {e : Endpoint} (h : parse s = .ok e) :
    e.host ≠ "" ∧ ':' ∉ e.host.toList := by
  rcases divided_or s with hs | ⟨host, port, hs⟩
  · rw [parse_of_notMem hs] at h
    obtain rfl := Except.ok.inj h
    exact orDefaultHost_of_notMem hs
  · rw [((parse_eq_ok_iff_of_divided hs).mp h).1]
    apply orDefaultHost_of_notMem
    rw [String.toList_ofList]
    exact hs.2

/-- A text is an address exactly if it has no colon or a port follows its first one; otherwise it is
refused with all that follows. The host is what stands before, or the usual one if nothing does, and
the port is the number, or the usual one. Addresses whose host is such a host come back when they are
written and read. -/
theorem parse_accepts_ports (s : String) :
    ((∃ e, parse s = .ok e) ↔
      ':' ∉ s.toList ∨ ∃ host port n, Divided s host port ∧ Decimal.Unsigned port n ∧ n ≤ 65535) ∧
    (∀ e, parse s = .error e ↔ ∃ host port, Divided s host port ∧
      (∀ n, Decimal.Unsigned port n → ¬ n ≤ 65535) ∧ e.text = String.ofList port) ∧
    (∀ e, parse s = .ok e →
      (e.host ≠ "" ∧ ':' ∉ e.host.toList) ∧
      (':' ∉ s.toList → e.host = (if s = "" then "ft.noise" else s) ∧ e.port = 1337) ∧
      (∀ host port, Divided s host port →
        e.host = (if host = [] then "ft.noise" else String.ofList host) ∧
        Decimal.Unsigned port e.port.toNat) ∧
      parse e.text = parse s) ∧
    ∀ e : Endpoint, e.host ≠ "" → ':' ∉ e.host.toList → parse e.text = .ok e := by
  refine ⟨⟨?_, ?_⟩, fun e => ⟨?_, ?_⟩, fun e h => ⟨host_of_parse h, ?_, ?_, ?_⟩,
    fun _ => parse_text⟩
  · rintro ⟨e, h⟩
    rcases divided_or s with hs | ⟨host, port, hs⟩
    · exact .inl hs
    · have hlt := e.port.toNat_lt
      exact .inr ⟨host, port, _, hs, ((parse_eq_ok_iff_of_divided hs).mp h).2, by omega⟩
  · rintro (hs | ⟨host, port, n, hs, hn, hle⟩)
    · exact ⟨_, parse_of_notMem hs⟩
    · refine ⟨⟨_, .ofNat n⟩, (parse_eq_ok_iff_of_divided hs).mpr ⟨rfl, ?_⟩⟩
      rwa [UInt16.toNat_ofNat_of_lt' (Nat.lt_succ_of_le hle)]
  · intro h
    rcases divided_or s with hs | ⟨host, port, hs⟩
    · rw [parse_of_notMem hs] at h
      cases h
    · exact ⟨host, port, hs, (parse_eq_error_iff_of_divided hs).mp h⟩
  · rintro ⟨host, port, hs, h⟩
    exact (parse_eq_error_iff_of_divided hs).mpr h
  · intro hs
    rw [parse_of_notMem hs] at h
    obtain rfl := Except.ok.inj h
    exact ⟨rfl, rfl⟩
  · intro host port hs
    rw [← orDefaultHost_ofList]
    exact (parse_eq_ok_iff_of_divided hs).mp h
  · obtain ⟨hne, hcolon⟩ := host_of_parse h
    rw [h, parse_text hne hcolon]

theorem parse_accepts_ports_unnamed : parse ":+0080" = .ok ⟨"ft.noise", 80⟩ ∧
    (⟨"ft.noise", 80⟩ : Endpoint).text = "ft.noise:80" ∧
    parse "ft.noise:80" = .ok ⟨"ft.noise", 80⟩ := by
  have hread : parse ":+0080" = .ok ⟨"ft.noise", 80⟩ := by decide +kernel
  have htext : (⟨"ft.noise", 80⟩ : Endpoint).text = "ft.noise:80" := by decide +kernel
  obtain ⟨-, -, hback, -⟩ := parse_accepts_ports ":+0080"
  have hagain := (hback _ hread).2.2.2
  rw [htext, hread] at hagain
  exact ⟨hread, htext, hagain⟩

end Endpoint

end LedWall
