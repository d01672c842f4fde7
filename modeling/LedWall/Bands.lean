/-!
# Bands

A list cut into consecutive bands of one length, the last of which may be shorter. Rows of an image
and tiles of a frame are bands of its pixels.
-/

namespace LedWall

variable {α : Type}

/-- Consecutive pieces of `size` elements; the last piece holds what is left. -/
def bands (size : Nat) (xs : List α) : List (List α) :=
  if xs = [] ∨ size = 0 then [] else xs.take size :: bands size (xs.drop size)
termination_by xs.length
decreasing_by
  rename_i h
  have h1 : xs.length ≠ 0 := fun c => h (.inl (List.length_eq_zero_iff.mp c))
  have h2 : size ≠ 0 := fun c => h (.inr c)
  simp only [List.length_drop]
  omega

theorem flatten_bands {size : Nat} (hsize : 0 < size) (xs : List α) :
    (bands size xs).flatten = xs := by
  fun_induction bands size xs with
  | case1 xs h => rcases h with h | h
                  · simp [h]
                  · omega
  | case2 xs h ih => simp [ih]

end LedWall
