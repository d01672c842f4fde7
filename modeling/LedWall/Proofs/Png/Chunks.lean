import LedWall.Png.Image
import LedWall.Proofs.Flate.Stored

/-!
# Chunks read back

A written chunk is read as it was, with a sound checksum, and data chunks in a row give their data in
one piece.
-/

namespace LedWall.Png

open Flate

namespace Chunk

theorem read?_bigEndian (n : UInt32) (rest : List UInt8) :
    read? (bigEndian n ++ rest) = body? n.toNat rest := by
  simp only [bigEndian, List.cons_append, List.nil_append, read?]
  rw [ofBigEndian_bigEndian n rfl]

variable {c : Chunk}

theorem kind?_bytes (hkind : c.kind.length = 4) (rest : List UInt8) :
    kind? (c.bytes ++ rest) = some c.kind := by
  have hlength : 8 ≤ (c.bytes ++ rest).length := by
    simp only [bytes, bigEndian, List.length_append, List.length_cons, List.length_nil, hkind]
    omega
  rw [kind?, if_pos hlength]
  simp [bytes, bigEndian, hkind]

theorem read?_bytes (hkind : c.kind.length = 4) (hdata : c.data.length ≤ dataLimit)
    (rest : List UInt8) : read? (c.bytes ++ rest) = some ⟨c, true, rest⟩ := by
  have hlength : (UInt32.ofNat c.data.length).toNat = c.data.length := by
    rw [dataLimit] at hdata
    rw [UInt32.toNat_ofNat']
    omega
  rw [bytes]
  simp only [List.append_assoc, read?_bigEndian, hlength, body?, ← hkind, List.drop_left,
    List.take_left, ↓reduceIte]
  simp only [bigEndian, List.cons_append, List.nil_append]
  rw [ofBigEndian_bigEndian _ rfl, decide_eq_true rfl]

end Chunk

theorem length_le_dataChunks (pieces : List (List UInt8)) :
    pieces.length ≤ (pieces.flatMap fun piece => Chunk.bytes ⟨Kind.data, piece⟩).length := by
  induction pieces with
  | nil => simp
  | cons piece more ih =>
      rw [List.flatMap_cons, List.length_append, List.length_cons, Nat.add_comm]
      have hpos : 1 ≤ (Chunk.bytes ⟨Kind.data, piece⟩).length := by simp [Chunk.bytes, bigEndian]
      exact Nat.add_le_add hpos ih

theorem joinData_written {pieces : List (List UInt8)}
    (h : ∀ piece ∈ pieces, piece.length ≤ dataLimit) {c : Chunk} (hkind : c.kind.length = 4)
    (hc : c.kind ≠ Kind.data) (rest : List UInt8) {fuel : Nat} (hfuel : pieces.length ≤ fuel) :
    joinData (fuel + 1) ((pieces.flatMap fun piece => Chunk.bytes ⟨Kind.data, piece⟩) ++
      (c.bytes ++ rest)) = .ok pieces.flatten := by
  induction pieces generalizing fuel with
  | nil =>
      rw [List.flatMap_nil, List.nil_append, joinData, Chunk.kind?_bytes hkind]
      exact if_neg hc
  | cons piece more ih =>
      rw [List.length_cons] at hfuel
      obtain ⟨fuel, rfl⟩ := Nat.exists_eq_add_of_le' (Nat.le_trans (Nat.le_add_left 1 _) hfuel)
      have hmore := ih (fun piece hpiece => h piece (List.mem_cons_of_mem _ hpiece))
        (Nat.le_of_add_le_add_right hfuel)
      have hdata : (Chunk.mk Kind.data piece).kind.length = 4 := rfl
      have hfits : (Chunk.mk Kind.data piece).data.length ≤ dataLimit := h piece (by simp)
      rw [List.flatMap_cons, List.append_assoc, joinData, Chunk.kind?_bytes hdata,
        Chunk.read?_bytes hdata hfits]
      dsimp only
      rw [if_pos rfl, if_pos rfl, hmore]
      rfl

def Layout.rgb (width height : UInt32) : Layout := ⟨width, height, 8, .rgb, false⟩

theorem Layout.read?_rgbBytes {width height : UInt32} (hw : width ≠ 0) (hh : height ≠ 0) :
    Layout.read? (Layout.rgbBytes width height) = some (.rgb width height) := by
  simp only [rgbBytes, bigEndian, List.cons_append, List.nil_append, read?]
  rw [ofBigEndian_bigEndian width rfl, ofBigEndian_bigEndian height rfl]
  simp [Samples.ofByte?, Samples.depths, hw, hh, rgb]

theorem Head.add_header {c : Chunk} {l : Layout} (hkind : c.kind = Kind.header)
    (hdata : c.data ≠ []) (hread : Layout.read? c.data = some l) :
    Head.empty.add c = .ok ⟨some l, none, []⟩ := by
  rw [add, if_neg (fun h => h.2 hkind), if_neg hdata]
  simp only [empty, hread]

theorem gather_header {c : Chunk} {h : Head} (hkind : c.kind = Kind.header)
    (hdata : c.data.length ≤ dataLimit) (hadd : Head.empty.add c = .ok h) (fuel : Nat)
    (rest : List UInt8) : gather .empty (fuel + 1) (c.bytes ++ rest) = gather h fuel rest := by
  have hlength : c.kind.length = 4 := by rw [hkind]; rfl
  have hother : c.kind ≠ Kind.finish := by rw [hkind]; decide
  rw [gather, if_neg (fun h => by cases h.2), Chunk.read?_bytes hlength hdata]
  dsimp only
  rw [hadd]
  dsimp only
  rw [if_neg (by simp), if_neg hother]

theorem gather_data {bytes : List UInt8} {h : Head} (hkind : Chunk.kind? bytes = some Kind.data)
    (hlayout : h.layout.isSome) (fuel : Nat) :
    gather h (fuel + 1) bytes = (joinData (fuel + 1) bytes).map (h, ·) := by
  rw [gather, if_pos ⟨hkind, hlayout⟩]

/-- What the chunks of a written file tell. -/
theorem gather_written {width height : UInt32} (hw : width ≠ 0) (hh : height ≠ 0)
    {compressed : List UInt8} (hsome : compressed ≠ []) {fuel : Nat}
    (hfuel : (dataChunks compressed).length ≤ fuel) :
    gather .empty (fuel + 2) (Chunk.bytes ⟨Kind.header, Layout.rgbBytes width height⟩ ++
        (dataChunks compressed ++ Chunk.bytes ⟨Kind.finish, []⟩)) =
      .ok (⟨some (.rgb width height), none, []⟩, compressed) := by
  have hdata : Layout.rgbBytes width height ≠ [] := by simp [Layout.rgbBytes, bigEndian]
  have hlength : (Layout.rgbBytes width height).length ≤ dataLimit := by
    simp [Layout.rgbBytes, bigEndian, dataLimit]
  have hbands : ∀ piece ∈ bands dataLimit compressed, piece.length ≤ dataLimit := by
    intro piece hpiece
    exact length_le_of_mem_bands hpiece
  have hjoin : joinData (fuel + 1) (dataChunks compressed ++ Chunk.bytes ⟨Kind.finish, []⟩) =
      .ok compressed := by
    rw [dataChunks, ← List.append_nil (Chunk.bytes ⟨Kind.finish, []⟩),
      joinData_written hbands rfl (by decide) [] (Nat.le_trans (length_le_dataChunks _) hfuel),
      flatten_bands (by decide)]
  have hkind : Chunk.kind? (dataChunks compressed ++ Chunk.bytes ⟨Kind.finish, []⟩) =
      some Kind.data := by
    rw [dataChunks, bands, if_neg (by simp [hsome, dataLimit]), List.flatMap_cons, List.append_assoc]
    exact Chunk.kind?_bytes rfl _
  rw [gather_header rfl hlength (Head.add_header rfl hdata (Layout.read?_rgbBytes hw hh)),
    gather_data hkind rfl, hjoin]
  rfl

end LedWall.Png
