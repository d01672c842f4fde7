import LedWall.Flate.Zlib
import Mathlib.Tactic

/-!
# Stored data read back

What is written in stored blocks comes back as it was, and the reader stops right behind the last
block.
-/

namespace LedWall

theorem length_le_of_mem_bands {α : Type} {size : Nat} {xs piece : List α}
    (h : piece ∈ bands size xs) : piece.length ≤ size := by
  fun_induction bands size xs with
  | case1 xs hnone => simp at h
  | case2 xs hsome ih =>
      rcases List.mem_cons.mp h with rfl | h
      · simp
      · exact ih h

namespace Flate

theorem next?_storedBlock (last : Bool) (rest : List UInt8) :
    Bits.next? ⟨[], (if last then 1 else 0) :: rest⟩ =
      some (last, ⟨List.replicate 7 false, rest⟩) := by
  cases last <;> rfl

theorem toNat_length_bytes {n : Nat} (h : n ≤ Zlib.storedLimit) :
    (UInt8.ofNat (n % 256)).toNat + 256 * (UInt8.ofNat (n / 256)).toNat = n := by
  rw [Zlib.storedLimit] at h
  simp only [UInt8.toNat_ofNat']
  omega

theorem stored?_written (low high : UInt8) {bytes : List UInt8}
    (h : low.toNat + 256 * high.toNat = bytes.length) (rest : List UInt8) (out : Array UInt8) :
    stored? ⟨[], low :: high :: (low ^^^ 255) :: (high ^^^ 255) :: (bytes ++ rest)⟩ out =
      some (⟨[], rest⟩, out ++ bytes.toArray) := by
  simp [stored?, h]

theorem blocks?_storedBlock (last : Bool) {bytes : List UInt8}
    (h : bytes.length ≤ Zlib.storedLimit) (rest : List UInt8) (fuel : Nat) (out : Array UInt8) :
    blocks? (fuel + 1) ⟨[], Zlib.storedBlock last bytes ++ rest⟩ out =
      if last then some (⟨[], rest⟩, out ++ bytes.toArray)
      else blocks? fuel ⟨[], rest⟩ (out ++ bytes.toArray) := by
  have hkind : ∀ more : List UInt8, Bits.number? 2 ⟨List.replicate 7 false, more⟩ =
      some (0, ⟨List.replicate 5 false, more⟩) := by
    intro more
    rfl
  have hstored := stored?_written _ _ (toNat_length_bytes h) rest out
  rw [Zlib.storedBlock]
  simp only [List.cons_append, List.nil_append, blocks?, next?_storedBlock, hkind, Bits.align,
    Option.bind_eq_bind, Option.bind_some, ↓reduceIte, hstored]

theorem blocks?_storedBlocks {pieces : List (List UInt8)}
    (h : ∀ piece ∈ pieces, piece.length ≤ Zlib.storedLimit) (rest : List UInt8) {fuel : Nat}
    (hfuel : pieces.length ≤ fuel) (out : Array UInt8) :
    blocks? (fuel + 1) ⟨[], Zlib.storedBlocks pieces ++ rest⟩ out =
      some (⟨[], rest⟩, out ++ pieces.flatten.toArray) := by
  fun_induction Zlib.storedBlocks pieces generalizing fuel out with
  | case1 => simp [blocks?_storedBlock]
  | case2 piece => simp [blocks?_storedBlock _ (h piece (by simp))]
  | case3 piece more hmore ih =>
      rw [List.length_cons] at hfuel
      obtain ⟨fuel, rfl⟩ := Nat.exists_eq_add_of_le' (Nat.le_trans (Nat.le_add_left 1 _) hfuel)
      have hmore := ih (fun piece hpiece => h piece (List.mem_cons_of_mem _ hpiece))
        (Nat.le_of_add_le_add_right hfuel) (out ++ piece.toArray)
      rw [List.append_assoc, blocks?_storedBlock _ (h piece (by simp)), if_neg (by decide), hmore]
      simp

theorem length_le_storedBlocks (pieces : List (List UInt8)) :
    pieces.length ≤ (Zlib.storedBlocks pieces).length := by
  fun_induction Zlib.storedBlocks pieces with
  | case1 => simp
  | case2 piece => simp [Zlib.storedBlock]
  | case3 piece more hmore ih =>
      simp only [Zlib.storedBlock, List.length_append, List.length_cons, List.length_nil]
      omega

theorem inflate?_storedBlocks {pieces : List (List UInt8)}
    (h : ∀ piece ∈ pieces, piece.length ≤ Zlib.storedLimit) (rest : List UInt8) :
    inflate? (Zlib.storedBlocks pieces ++ rest) = some (⟨[], rest⟩, pieces.flatten.toArray) := by
  have hfuel : pieces.length ≤ (Bits.ofBytes (Zlib.storedBlocks pieces ++ rest)).size := by
    have hle := length_le_storedBlocks pieces
    simp only [Bits.ofBytes, Bits.size, List.length_nil, List.length_append]
    omega
  rw [inflate?]
  simpa [Bits.ofBytes] using blocks?_storedBlocks h rest hfuel #[]

/-- Data that has been wrapped is unwrapped as it was. -/
theorem Zlib.unwrap?_wrap (bytes : List UInt8) : unwrap? (wrap bytes) = some bytes.toArray := by
  have hbands : ∀ piece ∈ bands storedLimit bytes, piece.length ≤ storedLimit := by
    intro piece hpiece
    exact length_le_of_mem_bands hpiece
  have hinflate := inflate?_storedBlocks hbands (bigEndian (adler32 bytes))
  rw [flatten_bands (by decide)] at hinflate
  have henvelope : (0x78 : UInt8) &&& 15 = 8 ∧ (0x78 : UInt8) >>> 4 ≤ 7 ∧ (0x01 : UInt8) &&& 32 = 0 ∧
      ((0x78 : UInt8).toNat * 256 + (0x01 : UInt8).toNat) % 31 = 0 := by decide
  rw [wrap, List.append_assoc]
  simp only [List.cons_append, List.nil_append, unwrap?, henvelope, and_self, ↓reduceIte,
    hinflate, Option.bind_eq_bind, Option.bind_some]
  rfl

end Flate

end LedWall
