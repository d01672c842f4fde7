/-!
# Decimal numerals

Digits of a natural number, most significant first, and the number that a row of digits denotes.
Headers spell them in bytes and settings in characters; both go through digit values.
-/

namespace LedWall.Decimal

/-- The decimal digits of `n`, most significant first and without leading zeros; zero has one. -/
def digits (n : Nat) : List Nat :=
  if n < 10 then [n] else digits (n / 10) ++ [n % 10]

def value (ds : List Nat) : Nat := ds.foldl (fun v d => 10 * v + d) 0

theorem value_append_singleton (ds : List Nat) (d : Nat) :
    value (ds ++ [d]) = 10 * value ds + d := by
  simp [value]

theorem value_digits (n : Nat) : value (digits n) = n := by
  fun_induction digits n with
  | case1 n h => simp [value]
  | case2 n h ih => rw [value_append_singleton, ih]; omega

theorem digits_ne_nil (n : Nat) : digits n ≠ [] := by
  unfold digits; split <;> simp

theorem lt_ten_of_mem_digits {n d : Nat} (h : d ∈ digits n) : d < 10 := by
  fun_induction digits n with
  | case1 n hn => simp at h; omega
  | case2 n hn ih =>
      rcases List.mem_append.mp h with h | h
      · exact ih h
      · simp at h; omega

theorem takeWhile_append_of_stop {α : Type} {p : α → Bool} {xs rest : List α}
    (h : ∀ x ∈ xs, p x = true) (hrest : ∀ x ∈ rest.head?, p x = false) :
    (xs ++ rest).takeWhile p = xs := by
  rw [List.takeWhile_append_of_pos h]
  cases rest with
  | nil => simp
  | cons x rest => simp [hrest x rfl]

theorem dropWhile_append_of_stop {α : Type} {p : α → Bool} {xs rest : List α}
    (h : ∀ x ∈ xs, p x = true) (hrest : ∀ x ∈ rest.head?, p x = false) :
    (xs ++ rest).dropWhile p = rest := by
  rw [List.dropWhile_append_of_pos h]
  cases rest with
  | nil => simp
  | cons x rest => simp [hrest x rfl]

def isDigit (b : UInt8) : Bool := 48 ≤ b && b ≤ 57

def bytes (n : Nat) : List UInt8 := (digits n).map fun d => UInt8.ofNat (48 + d)

def signedBytes : Int → List UInt8
  | .ofNat n => bytes n
  | .negSucc n => 45 :: bytes (n + 1)

def ofBytes (bs : List UInt8) : Nat := value (bs.map fun b => b.toNat - 48)

theorem isDigit_of_mem_bytes {n : Nat} {b : UInt8} (h : b ∈ bytes n) : isDigit b = true := by
  obtain ⟨d, hd, rfl⟩ := List.mem_map.mp h
  have hlt := lt_ten_of_mem_digits hd
  have : d = 0 ∨ d = 1 ∨ d = 2 ∨ d = 3 ∨ d = 4 ∨ d = 5 ∨ d = 6 ∨ d = 7 ∨ d = 8 ∨ d = 9 := by
    omega
  rcases this with rfl | rfl | rfl | rfl | rfl | rfl | rfl | rfl | rfl | rfl <;> decide

theorem ofBytes_bytes (n : Nat) : ofBytes (bytes n) = n := by
  unfold ofBytes bytes
  rw [List.map_map]
  have : (digits n).map ((fun b : UInt8 => b.toNat - 48) ∘ fun d => UInt8.ofNat (48 + d)) =
      (digits n).map id := by
    apply List.map_congr_left
    intro d hd
    have := lt_ten_of_mem_digits hd
    simp only [Function.comp_apply, UInt8.toNat_ofNat', id_eq]
    omega
  rw [this, List.map_id, value_digits]

def text (n : Nat) : String := String.ofList ((digits n).map Nat.digitChar)

/-- Reads one or more decimal digits, with an optional plus sign before them, as a number of at most
`limit`; any other text is no such number. -/
def ofText? (limit : Nat) (s : String) : Option Nat :=
  let ds := match s.toList with
    | '+' :: ds => ds
    | ds => ds
  if ds ≠ [] ∧ ds.all Char.isDigit then
    let n := value (ds.map fun c => c.toNat - 48)
    if n ≤ limit then some n else none
  else none

def signedOfText? (low high : Int) (s : String) : Option Int :=
  let (negative, ds) := match s.toList with
    | '+' :: ds => (false, ds)
    | '-' :: ds => (true, ds)
    | ds => (false, ds)
  if ds ≠ [] ∧ ds.all Char.isDigit then
    let n : Int := value (ds.map fun c => c.toNat - 48)
    let i := if negative then -n else n
    if low ≤ i ∧ i ≤ high then some i else none
  else none

end LedWall.Decimal
