import LedWall.Proofs.Canvas.Served

/-!
# Canvases of slices

Slices of one width lie side by side from the left edge on, and each sends its part of the image
with its place. Columns that are left over, because the number of slices does not divide the width
of the image, belong to no slice.
-/

namespace LedWall

variable {σ : Type}

def slice (endpoint : Endpoint) (width height : UInt32) (layer : UInt8) (i : Nat) :
    MemberSettings where
  host := endpoint.host
  port := endpoint.port
  width := width
  height := height
  layer := layer
  transparent := true
  x := UInt32.ofNat i * width
  placeOnServer := true

def slices (endpoint : Endpoint) (width height : UInt32) (layer : UInt8) (count : Nat) :
    List MemberSettings :=
  (List.range count).map (slice endpoint width height layer)

section Plots

variable {endpoint : Endpoint} {width height : UInt32} {layer : UInt8} {count : Nat}

theorem eq_slice_of_getElem? {i : Nat} {t : MemberSettings}
    (h : (slices endpoint width height layer count)[i]? = some t) :
    i < count ∧ t = slice endpoint width height layer i := by
  rw [slices, List.getElem?_map, Option.map_eq_some_iff] at h
  obtain ⟨j, hj, rfl⟩ := h
  obtain ⟨hi, rfl⟩ := List.getElem?_eq_some_iff.mp hj
  rw [List.getElem_range]
  exact ⟨by simpa using hi, rfl⟩

theorem slice_le (step : Nat) {i : Nat} (hi : i < count) : i * step + step ≤ count * step := by
  have hmul := Nat.mul_le_mul_right step (Nat.succ_le_of_lt hi)
  rwa [Nat.succ_mul] at hmul

private theorem foldl_max_eq {xs : List Nat} {b : Nat} (hmem : b ∈ xs) (hle : ∀ a ∈ xs, a ≤ b) :
    xs.foldl max 0 = b := by
  have hmax : (0 :: xs).max? = some b := by
    rw [List.max?_eq_some_iff]
    exact ⟨List.mem_cons_of_mem 0 hmem, List.forall_mem_cons.mpr ⟨Nat.zero_le b, hle⟩⟩
  rw [List.max?_cons'] at hmax
  exact Option.some.inj hmax

theorem left_slice {i : Nat} (hi : i < count) (hcount : count * width.toNat < 2 ^ 31) :
    (slice endpoint width height layer i).plot.left.toNat = i * width.toNat := by
  have hle := slice_le width.toNat hi
  have hlt : i * width.toNat < 2 ^ 32 := by omega
  simp only [MemberSettings.plot, slice, UInt32.toNat_mul, UInt32.toNat_ofNat']
  rw [Nat.mod_mul_mod]
  exact Nat.mod_eq_of_lt hlt

theorem right_slice {i : Nat} (hi : i < count) (hcount : count * width.toNat < 2 ^ 31) :
    (slice endpoint width height layer i).plot.right = i * width.toNat + width.toNat := by
  have hle := slice_le width.toNat hi
  have hwidth : (slice endpoint width height layer i).plot.width = width := rfl
  rw [Plot.right, left_slice hi hcount, hwidth]
  omega

theorem bottom_slice (i : Nat) :
    (slice endpoint width height layer i).plot.bottom = height.toNat := by
  have hlt := height.toNat_lt
  rw [Plot.bottom]
  simp only [MemberSettings.plot, slice, UInt32.toNat_zero]
  omega

theorem covers_slice_iff {i : Nat} (hi : i < count) (hcount : count * width.toNat < 2 ^ 31)
    (x y : Int) : (slice endpoint width height layer i).plot.Covers x y ↔
      (((i * width.toNat : Nat) : Int) ≤ x ∧ x < (i * width.toNat + width.toNat : Nat)) ∧
        0 ≤ y ∧ y < height.toNat := by
  have htop : (slice endpoint width height layer i).plot.top = 0 := rfl
  rw [Plot.Covers, left_slice hi hcount, right_slice hi hcount, bottom_slice, htop]
  simp

theorem slice_unique {i j : Nat} (hi : i < count) (hj : j < count)
    (hcount : count * width.toNat < 2 ^ 31) {x y : Int}
    (hx : (slice endpoint width height layer i).plot.Covers x y)
    (hx' : (slice endpoint width height layer j).plot.Covers x y) : i = j := by
  rw [covers_slice_iff hi hcount] at hx
  rw [covers_slice_iff hj hcount] at hx'
  rcases Nat.lt_trichotomy i j with hlt | heq | hgt
  · have hle := slice_le width.toNat hlt
    omega
  · exact heq
  · have hle := slice_le width.toNat hgt
    omega

theorem mem_plots_iff {r : Plot} :
    r ∈ (slices endpoint width height layer count).map MemberSettings.plot ↔
      ∃ i < count, r = (slice endpoint width height layer i).plot := by
  simp [slices, eq_comm]

theorem reach_slices (endpoint : Endpoint) (height : UInt32) (layer : UInt8) (hpos : 0 < count)
    (hcount : count * width.toNat < 2 ^ 31) :
    (((slices endpoint width height layer count).map MemberSettings.plot).map
        Plot.right).foldl max 0 = count * width.toNat ∧
      (((slices endpoint width height layer count).map MemberSettings.plot).map
        Plot.bottom).foldl max 0 = height.toNat := by
  have hlast : (slice endpoint width height layer (count - 1)).plot ∈
      (slices endpoint width height layer count).map MemberSettings.plot :=
    mem_plots_iff.mpr ⟨count - 1, by omega, rfl⟩
  constructor
  · apply foldl_max_eq
    · refine List.mem_map.mpr ⟨_, hlast, ?_⟩
      rw [right_slice (by omega) hcount, ← Nat.succ_mul, Nat.succ_eq_add_one,
        Nat.sub_add_cancel hpos]
    · intro a ha
      obtain ⟨r, hr, rfl⟩ := List.mem_map.mp ha
      obtain ⟨i, hi, rfl⟩ := mem_plots_iff.mp hr
      rw [right_slice hi hcount]
      exact slice_le width.toNat hi
  · apply foldl_max_eq
    · exact List.mem_map.mpr ⟨_, hlast, bottom_slice _⟩
    · intro a ha
      obtain ⟨r, hr, rfl⟩ := List.mem_map.mp ha
      obtain ⟨i, -, rfl⟩ := mem_plots_iff.mp hr
      exact Nat.le_of_eq (bottom_slice i)

end Plots

/-- The rectangle that a placed surface takes with its size of now. -/
def Placement.plot {τ : Type} (q : Placement (Surface τ)) : Plot :=
  ⟨q.x, q.y, q.surface.width, q.surface.height⟩

/-- A panel that owns a place of a canvas and sends offset frames, in which the place keeps its
coordinates. -/
structure Panel.Shows [Png.Codec] (p : Panel (Link σ)) (c : Canvas (Link σ)) (layer : UInt8)
    (x y : Int32) (o : Owner) (place : Offset) : Prop where
  owner : c.owner? x y = some o
  member : c.members[o.member]?.map Placement.surface = some (.panel p)
  mode : p.mode = .offset place
  x_eq : place.x.toInt + o.x.toInt = x.toInt
  y_eq : place.y.toInt + o.y.toInt = y.toInt
  z_eq : place.z = layer
  sent : p.buffer.height.toNat ≤ 2 ^ 31 → ∀ tiles, p.datagrams = .ok tiles → ∃ frames color,
    tiles.map Frame.parse = frames.map .ok ∧ c.get? x y = some color ∧
      Picture.blank.paint frames x.toInt y.toInt layer = some color

namespace Canvas

structure Sliced [Png.Codec] (c : Canvas (Link σ)) (columns rows : Nat) (layer : UInt8) : Prop where
  width : c.width.toNat = columns
  height : c.height.toNat = rows
  owned : ∀ x y : Int32, (0 ≤ x.toInt ∧ x.toInt < columns) → (0 ≤ y.toInt ∧ y.toInt < rows) →
    ∃ p o place, Panel.Shows p c layer x y o place
  disjoint : ∀ (x y : Int) (i j : Nat) (q r : Placement (Surface (Link σ))),
    c.members[i]? = some q → c.members[j]? = some r → q.plot.Covers x y → r.plot.Covers x y → i = j
  rest : ∀ x y : Int32, ¬ ((0 ≤ x.toInt ∧ x.toInt < columns) ∧ 0 ≤ y.toInt ∧ y.toInt < rows) →
    c.owner? x y = none

section Sliced

variable {endpoint : Endpoint} {width height : UInt32} {layer : UInt8} {count : Nat}
  {c : Canvas (Link σ)}

theorem Serves.shows_of_topmost [Png.Codec] (h : c.Serves (slices endpoint width height layer count))
    {x y : Int32} {m : Nat} (hm : Topmost
      ((slices endpoint width height layer count).map MemberSettings.plot) x.toInt y.toInt m) :
    ∃ p o place, Panel.Shows p c layer x y o place := by
  obtain ⟨q, r, hq, hr, hx, hy, hcovers⟩ := h.indexed.member_of_topmost hm
  obtain ⟨t, p, color, ht, hp, hread, hdot⟩ := h.dot?_owner hm
  obtain ⟨t', ht', hserves⟩ := h.exists_serves hp
  obtain rfl : t = t' := Option.some.inj (ht.symm.trans ht')
  obtain ⟨q', hq', hsurface⟩ := (h.getElem?_panels m p).mp hp
  obtain rfl : q = q' := Option.some.inj (hq.symm.trans hq')
  have hplot : r = t.plot := by
    rw [List.getElem?_map, ht] at hr
    exact (Option.some.inj hr).symm
  obtain ⟨-, rfl⟩ := eq_slice_of_getElem? ht
  have hseen := seen_of_covers hcovers m
  rw [← hx, ← hy] at hseen
  have hplace : (slice endpoint width height layer m).place =
      ⟨q.x.toInt32, q.y.toInt32, layer⟩ := by
    rw [hx, hy, hplot]
    rfl
  have hxeq : (x - q.x.toInt32).toInt = x.toInt - q.x.toInt32.toInt := by
    have hleft : q.x.toInt32.toInt = r.left.toNat := by rw [hx, hseen.left]
    rw [hleft]
    exact hseen.x_eq
  have hyeq : (y - q.y.toInt32).toInt = y.toInt - q.y.toInt32.toInt := by
    have htop : q.y.toInt32.toInt = r.top.toNat := by rw [hy, hseen.top]
    rw [htop]
    exact hseen.y_eq
  refine ⟨p, ⟨m, x - q.x.toInt32, y - q.y.toInt32⟩, _, ?_, ?_, hserves.mode, ?_, ?_, rfl, ?_⟩
  · exact (h.indexed.owner?_eq_some_iff x y _).mpr ⟨hm, q, hq, rfl, rfl⟩
  · rw [hq, Option.map_some, hsurface]
  · rw [hplace]
    dsimp only
    omega
  · rw [hplace]
    dsimp only
    omega
  · intro hheight tiles htiles
    have hbudget : p.maxDatagram < 2 ^ 64 := by
      rw [hserves.maxDatagram]
      decide
    rw [Panel.datagrams, hserves.mode] at htiles
    have htop : (slice endpoint width height layer m).place.y.toInt = 0 := rfl
    obtain ⟨frames, hparse, hpaint⟩ :=
      FrameBuffer.paint_of_encodeTiles hbudget hheight (by omega) htiles
    refine ⟨frames, color, hparse, hread, ?_⟩
    rw [Panel.frame, hserves.place_eq] at hdot
    have hlayer : (slice endpoint width height layer m).layer = layer := rfl
    rw [hlayer] at hdot
    rw [hpaint, Picture.painted, hdot, Option.some_or]

theorem Serves.sliced [Png.Codec] (h : c.Serves (slices endpoint width height layer count))
    (hpos : 0 < count) (hwidth : 0 < width.toNat) (hcount : count * width.toNat < 2 ^ 31) :
    c.Sliced (count * width.toNat) height.toNat layer := by
  obtain ⟨hright, hbottom⟩ := reach_slices endpoint height layer hpos hcount
  have hplots : ∀ (i : Nat) (q : Placement (Surface (Link σ))), c.members[i]? = some q →
      i < count ∧ q.plot = (slice endpoint width height layer i).plot := by
    intro i q hq
    obtain ⟨t, p, ht, hp, hserves⟩ := h.opened i q hq
    obtain ⟨hi, rfl⟩ := eq_slice_of_getElem? ht
    have hcorner := congrArg (·[i]?) h.indexed.corners
    simp only [List.getElem?_map, hq, ht, Option.map_some, Option.some_inj,
      Prod.mk.injEq] at hcorner
    refine ⟨hi, ?_⟩
    rw [Placement.plot, hp, hcorner.1, hcorner.2, Surface.width, Surface.height, hserves.width,
      hserves.height]
    rfl
  refine ⟨h.indexed.width.trans hright, h.indexed.height.trans hbottom, ?_, ?_, ?_⟩
  · intro x y hx hy
    obtain ⟨n, hn⟩ := Int.eq_ofNat_of_zero_le hx.1
    have hslice : n / width.toNat < count := by
      rw [Nat.div_lt_iff_lt_mul hwidth]
      omega
    have hdiv := Nat.div_add_mod' n width.toNat
    have hmod := Nat.mod_lt n hwidth
    have hcovers : (slice endpoint width height layer (n / width.toNat)).plot.Covers
        x.toInt y.toInt := by
      rw [covers_slice_iff hslice hcount]
      omega
    obtain ⟨m, hm⟩ := exists_topmost (mem_plots_iff.mpr ⟨_, hslice, rfl⟩) hcovers
    exact h.shows_of_topmost hm
  · intro x y i j q r hq hr hqc hrc
    obtain ⟨hi, hqplot⟩ := hplots i q hq
    obtain ⟨hj, hrplot⟩ := hplots j r hr
    rw [hqplot] at hqc
    rw [hrplot] at hrc
    exact slice_unique hi hj hcount hqc hrc
  · intro x y hout
    rw [h.indexed.owner?_eq_none_iff]
    intro m hm
    obtain ⟨⟨r, hr, hcovers⟩, -⟩ := hm
    obtain ⟨i, hi, rfl⟩ := mem_plots_iff.mp (List.mem_of_getElem? hr)
    have hle := slice_le width.toNat hi
    rw [covers_slice_iff hi hcount] at hcovers
    omega

end Sliced

end Canvas

section Opening

variable {m : Type → Type} [Monad m] [LawfulMonad m] [Network m σ]

/-- Whenever a link to the endpoint is asked for, there is one. -/
def Reaches (m : Type → Type) [Monad m] (σ : Type) [Network m σ] (endpoint : Endpoint) : Prop :=
  SatisfiesM (fun answer => ∃ found, answer = .ok found)
    (Network.connect endpoint : m (Except String (SocketAddress × σ)))

variable {endpoint : Endpoint} {width height : UInt32}

theorem Link.satisfiesM_connect_reached (hreach : Reaches m σ endpoint) :
    SatisfiesM (fun opened => ∃ (link : Link σ) (socket : σ), opened = .ok link ∧
        link.endpoint = endpoint ∧ link.socket = some socket)
      (connect endpoint : m (Except SurfaceError (Link σ))) := by
  rw [connect]
  refine hreach.bind fun answer hanswer => ?_
  obtain ⟨⟨peer, socket⟩, rfl⟩ := hanswer
  exact .pure ⟨_, socket, rfl, rfl, rfl⟩

end Opening

structure Wire where

instance : Network Id Wire where
  connect endpoint := .ok (⟨.v4 127 0 0 1, endpoint.port⟩, ⟨⟩)
  write _ datagram := .ok datagram.length

theorem reaches_wire (endpoint : Endpoint) : Reaches Id Wire endpoint :=
  SatisfiesM_Id_eq.mpr ⟨_, rfl⟩

end LedWall
