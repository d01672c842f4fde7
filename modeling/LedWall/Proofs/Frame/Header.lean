import LedWall.Frame.Reader
import Mathlib.Tactic

/-!
# Headers read back

What the header reader makes of the bytes that the header writer puts down: gaps are skipped up to
the next digit or sign, and a numeral gives its number as long as no further digit follows it.
-/

namespace LedWall.Frame

open Decimal

/-- No digit stands at the head, so that a numeral before these bytes ends there. -/
def NoDigitAhead (bs : List UInt8) : Prop := ∀ b ∈ bs.head?, isDigit b = false

theorem noDigitAhead_cons {b : UInt8} (h : isDigit b = false) (bs : List UInt8) :
    NoDigitAhead (b :: bs) := by
  intro c hc
  rw [List.head?_cons, Option.mem_some_iff] at hc
  rwa [← hc]

def IsSolid (b : UInt8) : Prop := isBlank b = false ∧ b ≠ 0x23

theorem isSolid_of_isDigit {b : UInt8} (h : isDigit b = true) : IsSolid b := by
  simp only [isDigit, Bool.and_eq_true, decide_eq_true_eq, UInt8.le_iff_toNat_le] at h
  have hne : ∀ c : UInt8, c.toNat < 48 → b ≠ c := by
    intro c hc hbc
    rw [hbc] at h
    exact absurd h.1 (Nat.not_le.mpr hc)
  refine ⟨?_, hne 0x23 (by decide)⟩
  simp [isBlank, hne 0x20 (by decide), hne 0x09 (by decide), hne 0x0A (by decide),
    hne 0x0C (by decide), hne 0x0D (by decide)]

theorem skipGap_cons_of_isBlank {b : UInt8} (h : isBlank b = true) (bs : List UInt8) :
    skipGap (b :: bs) = skipGap bs := by
  rw [skipGap, if_pos h]

theorem gapComments_cons_of_isBlank {b : UInt8} (h : isBlank b = true) (bs : List UInt8) :
    gapComments (b :: bs) = gapComments bs := by
  rw [gapComments, if_pos h]

theorem gapComments_append_of_isBlank {gap : List UInt8} (h : ∀ b ∈ gap, isBlank b = true)
    (bs : List UInt8) : gapComments (gap ++ bs) = gapComments bs := by
  induction gap with
  | nil => rfl
  | cons b gap ih =>
      rw [List.cons_append, gapComments_cons_of_isBlank (h b (by simp)), ih]
      exact fun b hb => h b (List.mem_cons_of_mem _ hb)

theorem skipGap_cons_of_isSolid {b : UInt8} (h : IsSolid b) (bs : List UInt8) :
    skipGap (b :: bs) = b :: bs := by
  rw [skipGap, if_neg (by simp [h.1]), if_neg h.2]

theorem gapComments_cons_of_isSolid {b : UInt8} (h : IsSolid b) (bs : List UInt8) :
    gapComments (b :: bs) = [] := by
  rw [gapComments, if_neg (by simp [h.1]), if_neg h.2]

theorem comment_append {text : List UInt8} (h : (0x0A : UInt8) ∉ text) (bs : List UInt8) :
    comment (text ++ 0x0A :: bs) = text := by
  have ht : ∀ b ∈ text, decide (b ≠ 0x0A) = true := by
    intro b hb
    exact decide_eq_true fun he => h (he ▸ hb)
  rw [comment, List.takeWhile_append_of_pos ht]
  simp

theorem afterComment_append {text : List UInt8} (h : (0x0A : UInt8) ∉ text) (bs : List UInt8) :
    afterComment (text ++ 0x0A :: bs) = 0x0A :: bs := by
  have ht : ∀ b ∈ text, decide (b ≠ 0x0A) = true := by
    intro b hb
    exact decide_eq_true fun he => h (he ▸ hb)
  rw [afterComment, List.dropWhile_append_of_pos ht]
  simp

theorem skipGap_comment {text : List UInt8} (h : (0x0A : UInt8) ∉ text) (bs : List UInt8) :
    skipGap (0x23 :: (text ++ 0x0A :: bs)) = skipGap bs := by
  rw [skipGap, if_neg (by decide), if_pos rfl, afterComment_append h]
  exact skipGap_cons_of_isBlank (by decide) bs

theorem gapComments_comment {text : List UInt8} (h : (0x0A : UInt8) ∉ text) (bs : List UInt8) :
    gapComments (0x23 :: (text ++ 0x0A :: bs)) = text :: gapComments bs := by
  rw [gapComments, if_neg (by decide), if_pos rfl, comment_append h, afterComment_append h,
    gapComments_cons_of_isBlank (by decide)]

theorem bytes_ne_nil (n : Nat) : bytes n ≠ [] := by
  intro h
  exact digits_ne_nil n (List.map_eq_nil_iff.mp h)

theorem exists_signedBytes (i : Int) :
    ∃ b bs, signedBytes i = b :: bs ∧ IsSolid b := by
  cases i with
  | ofNat n =>
      obtain ⟨b, bs, hb⟩ := List.exists_cons_of_ne_nil (bytes_ne_nil n)
      refine ⟨b, bs, hb, isSolid_of_isDigit (isDigit_of_mem_bytes (n := n) ?_)⟩
      rw [hb]
      exact List.mem_cons_self
  | negSucc n => exact ⟨45, bytes (n + 1), rfl, by decide, by decide⟩

theorem newline_notMem_signedBytes (i : Int) : (0x0A : UInt8) ∉ signedBytes i := by
  have hb : ∀ n, (0x0A : UInt8) ∉ bytes n := by
    intro n h
    exact absurd (isDigit_of_mem_bytes h) (by decide)
  cases i with
  | ofNat n => exact hb n
  | negSucc n =>
      rw [signedBytes, List.mem_cons, not_or]
      exact ⟨by decide, hb (n + 1)⟩

private theorem sign_bytes (n : Nat) (rest : List UInt8) :
    sign (bytes n ++ rest) = (false, bytes n ++ rest) := by
  obtain ⟨b, bs, hb⟩ := List.exists_cons_of_ne_nil (bytes_ne_nil n)
  have hd : isDigit b = true := isDigit_of_mem_bytes (n := n) (by rw [hb]; exact List.mem_cons_self)
  have hm : b ≠ 0x2D := by rintro rfl; exact absurd hd (by decide)
  have hp : b ≠ 0x2B := by rintro rfl; exact absurd hd (by decide)
  rw [hb, List.cons_append, sign, if_neg hm, if_neg hp]

private theorem isEmpty_bytes (n : Nat) : (bytes n).isEmpty = false := by
  rw [List.isEmpty_eq_false_iff]
  exact bytes_ne_nil n

/-- A numeral that fits 64 bits reads back as its number, and the reader stops right behind it. -/
theorem numeral?_signedBytes {i : Int} (hi : -9223372036854775808 ≤ i ∧ i ≤ 9223372036854775807)
    {rest : List UInt8} (h : NoDigitAhead rest) :
    numeral? (signedBytes i ++ rest) = some (i, rest) := by
  have hd : ∀ n, ∀ b ∈ bytes n, isDigit b = true := fun n b hb => isDigit_of_mem_bytes hb
  cases i with
  | ofNat n =>
      rw [signedBytes, numeral?, sign_bytes]
      simp only [takeWhile_append_of_stop (hd _) h, dropWhile_append_of_stop (hd _) h, isEmpty_bytes, ofBytes_bytes,
        Bool.false_eq_true, ↓reduceIte]
      exact if_pos hi
  | negSucc n =>
      have hs : sign (signedBytes (.negSucc n) ++ rest) = (true, bytes (n + 1) ++ rest) := rfl
      have hv : -((n + 1 : Nat) : Int) = Int.negSucc n := rfl
      rw [numeral?, hs]
      simp only [takeWhile_append_of_stop (hd _) h, dropWhile_append_of_stop (hd _) h, isEmpty_bytes, ofBytes_bytes,
        Bool.false_eq_true, ↓reduceIte, hv]
      exact if_pos hi

theorem number?_cons_of_isBlank {b : UInt8} (h : isBlank b = true) (bs : List UInt8) :
    number? (b :: bs) = number? bs := by
  rw [number?, skipGap_cons_of_isBlank h, number?]

theorem number?_append_of_isBlank {gap : List UInt8} (h : ∀ b ∈ gap, isBlank b = true)
    (bs : List UInt8) : number? (gap ++ bs) = number? bs := by
  induction gap with
  | nil => rfl
  | cons b gap ih =>
      rw [List.cons_append, number?_cons_of_isBlank (h b (by simp)), ih]
      exact fun b hb => h b (List.mem_cons_of_mem _ hb)

theorem number?_comment {text : List UInt8} (h : (0x0A : UInt8) ∉ text) (bs : List UInt8) :
    number? (0x23 :: (text ++ 0x0A :: bs)) = number? bs := by
  rw [number?, skipGap_comment h, number?]

theorem number?_nil : number? [] = none := by
  rw [number?, skipGap]
  rfl

theorem number?_signedBytes {i : Int} (hi : -9223372036854775808 ≤ i ∧ i ≤ 9223372036854775807)
    {rest : List UInt8} (h : NoDigitAhead rest) :
    number? (signedBytes i ++ rest) = some (i, rest) := by
  obtain ⟨b, bs, hb, hs⟩ := exists_signedBytes i
  have hskip : skipGap (signedBytes i ++ rest) = signedBytes i ++ rest := by
    rw [hb, List.cons_append, skipGap_cons_of_isSolid hs]
  rw [number?, hskip]
  exact numeral?_signedBytes hi h

theorem number?_bytes {n : Nat} (hn : n ≤ 9223372036854775807) {rest : List UInt8}
    (h : NoDigitAhead rest) : number? (bytes n ++ rest) = some ((n : Int), rest) :=
  number?_signedBytes (i := n) ⟨by omega, by omega⟩ h

theorem gapComments_signedBytes (i : Int) (rest : List UInt8) :
    gapComments (signedBytes i ++ rest) = [] := by
  obtain ⟨b, bs, hb, hs⟩ := exists_signedBytes i
  rw [hb, List.cons_append, gapComments_cons_of_isSolid hs]

theorem gapComments_bytes (n : Nat) (rest : List UInt8) : gapComments (bytes n ++ rest) = [] :=
  gapComments_signedBytes n rest

end LedWall.Frame
