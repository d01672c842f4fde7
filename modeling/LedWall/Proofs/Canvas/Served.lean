import LedWall.Assembly
import LedWall.Link.Loopback
import LedWall.Proofs.Canvas.Ownership
import LedWall.Proofs.Frame.Picture
import LedWall.Proofs.Surface.Delivery
import LedWall.Proofs.Surface.Reach

/-!
# What a server shows of a canvas

The members of a canvas may lie on one server. Each of them sends its whole picture with its place,
the part under later members too. But members are sent in the order in which they were placed, so the
owner of a place is also the last to paint it, and the server shows the colour that the canvas reads.
-/

namespace LedWall

section Panels

variable {τ : Type}

namespace Panel

def place (p : Panel τ) : Offset :=
  match p.mode with
  | .plain => ⟨0, 0, p.buffer.layer⟩
  | .offset place => place

def frame (p : Panel τ) : Frame := p.buffer.frameAt p.place

/-- The panel sends offset frames, and no row of its picture lies beyond the last one. -/
structure Placed (p : Panel τ) : Prop where
  mode : p.mode = .offset p.place
  maxDatagram : p.maxDatagram < 2 ^ 64
  height : p.buffer.height.toNat ≤ 2 ^ 31
  bottom : p.place.y.toInt + p.buffer.height.toNat - 1 ≤ 2 ^ 31 - 1

end Panel

theorem InOrder.paint [Png.Codec] {panels : List (Panel τ)} {datagrams : List (List UInt8)}
    (h : InOrder panels datagrams) (hp : ∀ p ∈ panels, p.Placed) :
    ∃ frames, datagrams.map Frame.parse = frames.map .ok ∧
      ∀ seen : Picture, seen.paint frames = seen.paint (panels.map Panel.frame) := by
  induction h with
  | nil => exact ⟨[], rfl, fun _ => rfl⟩
  | @cons p tiles hd panels more hmore ih =>
      obtain ⟨hplaced, hothers⟩ := List.forall_mem_cons.mp hp
      have htiles : p.buffer.encodeTiles p.place p.maxDatagram = .ok tiles := by
        rwa [Panel.datagrams, hplaced.mode] at hd
      obtain ⟨frames, hparse, hpaint⟩ := FrameBuffer.paint_of_encodeTiles hplaced.maxDatagram
        hplaced.height hplaced.bottom htiles
      obtain ⟨others, hparse', hpaint'⟩ := ih hothers
      refine ⟨frames ++ others, ?_, fun seen => ?_⟩
      · rw [List.map_append, List.map_append, hparse, hparse']
      · rw [Picture.paint_append, hpaint, hpaint']
        rfl

end Panels

namespace MemberSettings

def plot (t : MemberSettings) : Plot := ⟨t.x, t.y, t.width, t.height⟩

def place (t : MemberSettings) : Offset := ⟨t.x.toInt32, t.y.toInt32, t.layer⟩

/-- All places of the member have signed coordinates. -/
structure InReach (t : MemberSettings) : Prop where
  right : t.x.toNat + t.width.toNat ≤ 2 ^ 31 - 1
  bottom : t.y.toNat + t.height.toNat ≤ 2 ^ 31 - 1

theorem covers_plot_iff {t : MemberSettings} (h : t.InReach) (x y : Int) :
    t.plot.Covers x y ↔ ((t.x.toNat : Int) ≤ x ∧ x < t.x.toNat + t.width.toNat) ∧
      (t.y.toNat : Int) ≤ y ∧ y < t.y.toNat + t.height.toNat := by
  have hright := h.right
  have hbottom := h.bottom
  rw [Plot.Covers, Plot.right, Plot.bottom]
  simp only [plot]
  omega

end MemberSettings

variable {σ : Type}

structure Panel.Serves (p : Panel (Link σ)) (t : MemberSettings) : Prop where
  width : p.buffer.width = t.width
  height : p.buffer.height = t.height
  mode : p.mode = .offset t.place
  maxDatagram : p.maxDatagram = maxDatagramSize
  endpoint : p.transport.endpoint = t.endpoint

namespace Panel.Serves

variable {p : Panel (Link σ)} {t : MemberSettings}

theorem place_eq (h : p.Serves t) : p.place = t.place := by
  rw [place, h.mode]

theorem placed (h : p.Serves t) (ht : t.InReach) : p.Placed where
  mode := by rw [h.place_eq, h.mode]
  maxDatagram := by
    rw [h.maxDatagram]
    decide
  height := by
    have hbottom := ht.bottom
    rw [h.height]
    omega
  bottom := by
    have hbottom := ht.bottom
    rw [h.height, h.place_eq, MemberSettings.place, Canvas.toInt_toInt32 (by omega)]
    omega

theorem covers_frame_iff (h : p.Serves t) (ht : t.InReach) (x y : Int) (z : UInt8) :
    p.frame.Covers x y z ↔ z = t.layer ∧ t.plot.Covers x y := by
  have hright := ht.right
  have hbottom := ht.bottom
  rw [MemberSettings.covers_plot_iff ht, frame, h.place_eq, FrameBuffer.frameAt, Frame.Covers]
  simp only [MemberSettings.place, h.width, h.height]
  rw [Canvas.toInt_toInt32 (by omega), Canvas.toInt_toInt32 (by omega)]

theorem dot?_frame_of_not_covers (h : p.Serves t) (ht : t.InReach) {x y : Int}
    (hc : ¬ t.plot.Covers x y) (z : UInt8) : p.frame.dot? x y z = none := by
  rw [Frame.dot?, if_neg fun hframe => hc ((h.covers_frame_iff ht x y z).mp hframe).2]

theorem set (h : p.Serves t) (x y : Int32) (color : Color) : (p.set x y color).Serves t where
  width := (Grid.width_set _ _ _ _).trans h.width
  height := (Grid.height_set _ _ _ _).trans h.height
  mode := h.mode
  maxDatagram := h.maxDatagram
  endpoint := h.endpoint

theorem clear (h : p.Serves t) : p.clear.Serves t where
  width := h.width
  height := h.height
  mode := h.mode
  maxDatagram := h.maxDatagram
  endpoint := h.endpoint

end Panel.Serves

namespace Canvas

inductive Draw where
  | set (x y : Int32) (color : Color)
  | fill (color : Color)
  | clear

def Draw.apply {τ : Type} (c : Canvas τ) : Draw → Canvas τ
  | set x y color => c.set x y color
  | fill color => c.fill color
  | clear => c.clear

def drawn {τ : Type} (c : Canvas τ) (drawing : List Draw) : Canvas τ := drawing.foldl Draw.apply c

/-- Every member is a panel, opened for the settings at its number. -/
def Opened (members : List (Placement (Surface (Link σ)))) (ts : List MemberSettings) : Prop :=
  ∀ (m : Nat) (q : Placement (Surface (Link σ))), members[m]? = some q →
    ∃ (t : MemberSettings) (p : Panel (Link σ)),
      ts[m]? = some t ∧ q.surface = .panel p ∧ p.Serves t

/-- The members of a canvas are panels that were opened in order for members on a server, and placed
as their settings say. -/
structure Serves (c : Canvas (Link σ)) (ts : List MemberSettings) : Prop where
  indexed : Indexed (ts.map MemberSettings.plot) c
  opened : Opened c.members ts

namespace Serves

variable {c : Canvas (Link σ)} {ts : List MemberSettings}

theorem empty : (empty : Canvas (Link σ)).Serves [] where
  indexed := indexed_empty
  opened := nofun

theorem add (h : c.Serves ts) {t : MemberSettings} {p : Panel (Link σ)} (hp : p.Serves t) :
    (c.add (.panel p) t.x t.y).Serves (ts ++ [t]) where
  indexed := by
    have hadd := h.indexed.add (.panel p) t.x t.y
    have hplot : t.plot = ⟨t.x, t.y, (Surface.panel p).width, (Surface.panel p).height⟩ := by
      rw [Surface.width, Surface.height, hp.width, hp.height, MemberSettings.plot]
    rwa [List.map_append, List.map_singleton, hplot]
  opened := by
    intro m q hq
    have hmembers : (c.add (.panel p) t.x t.y).members = c.members ++ [⟨.panel p, t.x, t.y⟩] := rfl
    rw [hmembers] at hq
    rcases getElem?_concat_eq_some_iff.mp hq with hold | ⟨rfl, rfl⟩
    · obtain ⟨t', p', ht', hp'⟩ := h.opened m q hold
      exact ⟨t', p', getElem?_concat_eq_some_iff.mpr (.inl ht'), hp'⟩
    · have hlength : c.members.length = ts.length := by
        rw [h.indexed.length_members, List.length_map]
      exact ⟨t, p, getElem?_concat_eq_some_iff.mpr (.inr ⟨hlength, rfl⟩), rfl, hp⟩

theorem exchange (h : c.Serves ts) {members : List (Placement (Surface (Link σ)))}
    (hcorners : members.map (fun p => (p.x, p.y)) = c.members.map fun p => (p.x, p.y))
    (hopened : Opened members ts) : Serves { c with members } ts where
  indexed := ⟨hcorners.trans h.indexed.corners, h.indexed.owner, h.indexed.width, h.indexed.height⟩
  opened := hopened

theorem set (h : c.Serves ts) (x y : Int32) (color : Color) : (c.set x y color).Serves ts := by
  rw [Canvas.set]
  cases (c.owners.get? x y).join with
  | none => exact h
  | some m =>
      dsimp only
      rw [Surface.setMember_eq]
      refine h.exchange (Surface.corners_setMembers c.members x y color m) fun n q hq => ?_
      rw [← Surface.setMembers, Surface.getElem?_setMembers] at hq
      obtain ⟨q', hq', rfl⟩ := Option.map_eq_some_iff.mp hq
      obtain ⟨t, p, ht, hp, hserves⟩ := h.opened n q' hq'
      by_cases hmn : m = n
      · rw [if_pos hmn]
        exact ⟨t, _, ht, by rw [hp, Surface.set], hserves.set _ _ color⟩
      · rw [if_neg hmn]
        exact ⟨t, p, ht, hp, hserves⟩

theorem fill (h : c.Serves ts) (color : Color) : (c.fill color).Serves ts := by
  rw [Canvas.fill]
  refine List.foldlRecOn (motive := fun c : Canvas (Link σ) => c.Serves ts) _ _ h ?_
  intro c hc y _
  refine List.foldlRecOn (motive := fun c : Canvas (Link σ) => c.Serves ts) _ _ hc ?_
  intro c hc x _
  exact hc.set (.ofNat x) (.ofNat y) color

theorem clear (h : c.Serves ts) : c.clear.Serves ts := by
  rw [Canvas.clear, Surface.clearMembers_eq]
  refine h.exchange (by rw [List.map_map]; rfl) fun n q hq => ?_
  rw [List.getElem?_map] at hq
  obtain ⟨q', hq', rfl⟩ := Option.map_eq_some_iff.mp hq
  obtain ⟨t, p, ht, hp, hserves⟩ := h.opened n q' hq'
  exact ⟨t, _, ht, by rw [hp, Surface.clear], hserves.clear⟩

theorem drawn (h : c.Serves ts) (drawing : List Draw) : (c.drawn drawing).Serves ts := by
  rw [Canvas.drawn]
  refine List.foldlRecOn (motive := fun c : Canvas (Link σ) => c.Serves ts) _ _ h ?_
  intro c hc draw _
  cases draw with
  | set x y color => exact hc.set x y color
  | fill color => exact hc.fill color
  | clear => exact hc.clear

theorem getElem?_panels (h : c.Serves ts) (m : Nat) (p : Panel (Link σ)) :
    c.toSurface.panels[m]? = some p ↔ ∃ q, c.members[m]? = some q ∧ q.surface = .panel p := by
  have hall : ∀ s ∈ c.members.map Placement.surface, s ∈ Set.range Surface.panel := by
    intro s hs
    obtain ⟨q, hq, rfl⟩ := List.mem_map.mp hs
    obtain ⟨n, hn⟩ := List.mem_iff_getElem?.mp hq
    obtain ⟨_, p, _, hp, _⟩ := h.opened n q hn
    exact ⟨p, hp.symm⟩
  obtain ⟨panels, hpanels⟩ : ∃ panels : List (Panel (Link σ)),
      panels.map Surface.panel = c.members.map Placement.surface := by
    rw [← Set.mem_range, Set.range_list_map]
    exact hall
  have htree : c.toSurface.panels = panels := by
    rw [toSurface, Surface.panels_canvas, ← List.flatMap_map, ← hpanels, List.flatMap_map]
    exact List.flatMap_singleton' panels
  have hm := congrArg (·[m]?) hpanels
  simp only [List.getElem?_map] at hm
  rw [htree]
  constructor
  · intro hp
    rw [hp] at hm
    exact Option.map_eq_some_iff.mp hm.symm
  · rintro ⟨q, hq, hsurface⟩
    rw [hq, Option.map_some, hsurface] at hm
    obtain ⟨p', hp', hsame⟩ := Option.map_eq_some_iff.mp hm
    rw [hp', Surface.panel.inj hsame]

theorem exists_serves (h : c.Serves ts) {m : Nat} {p : Panel (Link σ)}
    (hp : c.toSurface.panels[m]? = some p) : ∃ t, ts[m]? = some t ∧ p.Serves t := by
  obtain ⟨q, hq, hsurface⟩ := (h.getElem?_panels m p).mp hp
  obtain ⟨t, p', ht, hp', hserves⟩ := h.opened m q hq
  obtain rfl := Surface.panel.inj (hsurface.symm.trans hp')
  exact ⟨t, ht, hserves⟩

/-- The frame of the owner gives a place the colour that the canvas reads there. -/
theorem dot?_owner (h : c.Serves ts) {x y : Int32} {m : Nat}
    (hm : Topmost (ts.map MemberSettings.plot) x.toInt y.toInt m) :
    ∃ t p color, ts[m]? = some t ∧ c.toSurface.panels[m]? = some p ∧ c.get? x y = some color ∧
      p.frame.dot? x.toInt y.toInt t.layer = some color := by
  obtain ⟨q, r, hq, hr, hx, hy, hc⟩ := h.indexed.member_of_topmost hm
  obtain ⟨t, p, ht, hp, hserves⟩ := h.opened m q hq
  obtain rfl : t.plot = r := by
    rw [List.getElem?_map, ht] at hr
    exact Option.some.inj hr
  have hseen := seen_of_covers hc m
  have hread : c.get? x y = p.buffer.get? (x - t.x.toInt32) (y - t.y.toInt32) := by
    rw [Canvas.get?, toSurface, Surface.get?_canvas, (h.indexed.join_get? x y m).mpr hm,
      Option.bind_some, hq, Option.bind_some, hp, Surface.get?, hx, hy]
    rfl
  have hdot : p.frame.dot? x.toInt y.toInt t.layer =
      p.buffer.get? (x - t.x.toInt32) (y - t.y.toInt32) := by
    have hplace : p.place = t.place := hserves.place_eq
    rw [Panel.frame, hplace]
    refine FrameBuffer.dot?_frameAt ?_ ?_
    · rw [MemberSettings.place]
      exact hseen.x_eq.trans (congrArg _ hseen.left.symm)
    · exact hseen.y_eq.trans (congrArg _ hseen.top.symm)
  have hholds : p.buffer.grid.Holds (x - t.x.toInt32) (y - t.y.toInt32) := by
    have hw : p.buffer.grid.width = t.width := hserves.width
    have hh : p.buffer.grid.height = t.height := hserves.height
    rw [Grid.Holds, hw, hh]
    exact ⟨hseen.x_mem, hseen.y_mem⟩
  obtain ⟨color, hcolor⟩ := Option.isSome_iff_exists.mp ((p.buffer.grid.isSome_get? _ _).mpr hholds)
  exact ⟨t, p, color, ht, (h.getElem?_panels m p).mpr ⟨q, hq, hp⟩, hread.trans hcolor,
    hdot.trans hcolor⟩

theorem shown (h : c.Serves ts) (hts : ∀ t ∈ ts, t.InReach) :
    (∀ x y : Int32, (∃ t ∈ ts, t.plot.Covers x.toInt y.toInt) → ∃ o t color,
      c.owner? x y = some o ∧ ts[o.member]? = some t ∧ c.get? x y = some color ∧
      Picture.blank.paint (c.toSurface.panels.map Panel.frame) x.toInt y.toInt t.layer =
        some color) ∧
    ∀ x y : Int, (∀ t ∈ ts, ¬ t.plot.Covers x y) →
      ∀ z, Picture.blank.paint (c.toSurface.panels.map Panel.frame) x y z = none := by
  have hframe : ∀ (k : Nat) (g : Frame), (c.toSurface.panels.map Panel.frame)[k]? = some g →
      ∃ t, ts[k]? = some t ∧ ∀ x y z, ¬ t.plot.Covers x y → g.dot? x y z = none := by
    intro k g hg
    rw [List.getElem?_map] at hg
    obtain ⟨p, hp, rfl⟩ := Option.map_eq_some_iff.mp hg
    obtain ⟨t, ht, hserves⟩ := h.exists_serves hp
    exact ⟨t, ht, fun x y z hc =>
      hserves.dot?_frame_of_not_covers (hts t (List.mem_of_getElem? ht)) hc z⟩
  constructor
  · rintro x y ⟨t, ht, hc⟩
    obtain ⟨m, hm⟩ := exists_topmost (List.mem_map_of_mem ht) hc
    obtain ⟨t, p, color, ht, hp, hread, hdot⟩ := h.dot?_owner hm
    obtain ⟨q, r, hq, -⟩ := h.indexed.member_of_topmost hm
    refine ⟨⟨m, x - q.x.toInt32, y - q.y.toInt32⟩, t, color,
      (h.indexed.owner?_eq_some_iff x y _).mpr ⟨hm, q, hq, rfl, rfl⟩, ht, hread, ?_⟩
    have hlast : (c.toSurface.panels.map Panel.frame)[m]? = some p.frame := by
      rw [List.getElem?_map, hp, Option.map_some]
    refine Picture.paint_of_last hlast hdot fun k g hg hk => ?_
    obtain ⟨t', ht', houtside⟩ := hframe k g hg
    refine houtside _ _ _ fun hcover => ?_
    have hplot : (ts.map MemberSettings.plot)[k]? = some t'.plot := by
      rw [List.getElem?_map, ht', Option.map_some]
    have hle := hm.2 k t'.plot hplot hcover
    omega
  · intro x y hnone z
    refine Picture.paint_of_none fun g hg => ?_
    obtain ⟨k, hk⟩ := List.mem_iff_getElem?.mp hg
    obtain ⟨t, ht, houtside⟩ := hframe k g hk
    exact houtside x y z (hnone t (List.mem_of_getElem? ht))

theorem panel_serves (h : c.Serves ts) {p : Panel (Link σ)} (hp : p ∈ c.toSurface.panels) :
    ∃ t ∈ ts, p.Serves t := by
  obtain ⟨m, hm⟩ := List.mem_iff_getElem?.mp hp
  obtain ⟨t, ht, hserves⟩ := h.exists_serves hm
  exact ⟨t, List.mem_of_getElem? ht, hserves⟩

end Serves

end Canvas

section Opening

variable {m : Type → Type} [Monad m] [LawfulMonad m] [Network m σ]

theorem Link.satisfiesM_connect (endpoint : Endpoint) :
    SatisfiesM (fun opened => ∀ l, opened = .ok l → l.endpoint = endpoint)
      (connect endpoint : m (Except SurfaceError (Link σ))) := by
  rw [connect]
  refine SatisfiesM.trivial.bind fun answer _ => ?_
  obtain reason | ⟨peer, socket⟩ := answer
  · exact .pure nofun
  · refine .pure fun l hl => ?_
    obtain rfl := Except.ok.inj hl
    rfl

theorem Panel.satisfiesM_connect (endpoint : Endpoint) (width height : UInt32) (layer : UInt8)
    (transparent : Bool) :
    SatisfiesM (fun opened => ∀ p, opened = .ok p → p.buffer.width = width ∧
        p.buffer.height = height ∧ p.maxDatagram = maxDatagramSize ∧ p.transport.endpoint = endpoint)
      (connect endpoint width height layer transparent :
        m (Except SurfaceError (Panel (Link σ)))) := by
  rw [connect]
  cases hb : FrameBuffer.blank width height layer transparent with
  | error e => exact .pure nofun
  | ok buffer =>
      refine (Link.satisfiesM_connect endpoint).bind fun opened hopened => ?_
      cases opened with
      | error e => exact .pure nofun
      | ok link =>
          refine .pure fun p hp => ?_
          obtain rfl := Except.ok.inj hp
          have hsides : buffer.width = width ∧ buffer.height = height := by
            rw [FrameBuffer.blank] at hb
            split at hb
            · obtain rfl := Except.ok.inj hb
              exact ⟨rfl, rfl⟩
            · cases hb
          exact ⟨hsides.1, hsides.2, rfl, hopened link rfl⟩

theorem MemberSettings.satisfiesM_connect {t : MemberSettings} (ht : t.placeOnServer) :
    SatisfiesM (fun opened => ∀ p, opened = .ok p → p.Serves t)
      (t.connect : m (Except SurfaceError (Panel (Link σ)))) := by
  rw [connect]
  refine (Panel.satisfiesM_connect t.endpoint t.width t.height t.layer t.transparent).bind
    fun opened hopened => .pure fun p hp => ?_
  cases opened with
  | error e => cases hp
  | ok panel =>
      obtain ⟨hwidth, hheight, hmax, hendpoint⟩ := hopened panel rfl
      rw [Except.map, if_pos ht] at hp
      obtain rfl := Except.ok.inj hp
      exact ⟨hwidth, hheight, rfl, hmax, hendpoint⟩

theorem satisfiesM_addMembers {more : List MemberSettings} (hmore : ∀ t ∈ more, t.placeOnServer)
    {c : Canvas (Link σ)} {ts : List MemberSettings} (h : c.Serves ts) (index : Nat) :
    SatisfiesM (fun opened => ∀ c', opened = .ok c' → c'.Serves (ts ++ more))
      (addMembers c index more : m _) := by
  induction more generalizing c ts index with
  | nil =>
      rw [addMembers, List.append_nil]
      refine .pure fun c' hc => ?_
      obtain rfl := Except.ok.inj hc
      exact h
  | cons t more ih =>
      obtain ⟨ht, hmore⟩ := List.forall_mem_cons.mp hmore
      rw [addMembers]
      refine (MemberSettings.satisfiesM_connect ht).bind fun opened hopened => ?_
      cases opened with
      | error e => exact .pure nofun
      | ok panel =>
          have hadd := ih hmore (h.add (hopened panel rfl)) (index + 1)
          rwa [List.append_assoc, List.singleton_append] at hadd

theorem Settings.satisfiesM_connectCanvas {s : Settings} (hs : ∀ t ∈ s.members, t.placeOnServer) :
    SatisfiesM (fun opened => ∀ c, opened = .ok c → c.Serves s.members)
      (s.connectCanvas : m (Except AssemblyError (Canvas (Link σ)))) := by
  rw [connectCanvas]
  cases hmembers : s.members with
  | nil => exact .pure nofun
  | cons t more =>
      rw [hmembers] at hs
      exact satisfiesM_addMembers hs .empty 0

theorem Link.keeps_endpoint (server : Endpoint) :
    Transport.Keeps m fun l : Link σ => l.endpoint = server := by
  intro l datagram hl
  exact SatisfiesM.trivial.bind fun _ _ => .pure hl

/-- All members lie on one server, and a drawing has been sent successfully. Then the frames that
went out, one painted over the other, show at each covered place what the canvas reads there, on the
layer of the member that owns the place. They show nothing at the other places. -/
theorem server_shows_canvas [Png.Codec] {s : Settings} {server : Endpoint}
    (hplaced : ∀ t ∈ s.members, t.placeOnServer) (hserver : ∀ t ∈ s.members, t.endpoint = server)
    (hreach : ∀ t ∈ s.members, t.InReach) :
    SatisfiesM (fun opened => ∀ canvas, opened = .ok canvas → ∀ drawing : List Canvas.Draw,
      SatisfiesM (fun sent => sent.1.1 = .ok () → ∃ frames,
        sent.2.map (fun call => Frame.parse call.datagram) = frames.map .ok ∧
        (∀ call ∈ sent.2, call.transport.endpoint = server) ∧
        (∀ x y : Int32, (∃ t ∈ s.members, t.plot.Covers x.toInt y.toInt) → ∃ o t color,
          (canvas.drawn drawing).owner? x y = some o ∧ s.members[o.member]? = some t ∧
          (canvas.drawn drawing).get? x y = some color ∧
          Picture.blank.paint frames x.toInt y.toInt t.layer = some color) ∧
        ∀ x y : Int, (∀ t ∈ s.members, ¬ t.plot.Covers x y) →
          ∀ z, Picture.blank.paint frames x y z = none)
      ((canvas.drawn drawing).toSurface.send : Watched (Link σ) m _).run)
    (s.connectCanvas : m (Except AssemblyError (Canvas (Link σ)))) := by
  refine (Settings.satisfiesM_connectCanvas hplaced).imp fun hopened canvas hcanvas drawing => ?_
  have hserves := (hopened canvas hcanvas).drawn drawing
  have hsent := Surface.ensures_send (Link.keeps_endpoint (m := m) server)
    (canvas.drawn drawing).toSurface fun p hp => by
      obtain ⟨t, ht, hpt⟩ := hserves.panel_serves hp
      rw [hpt.endpoint, hserver t ht]
  refine hsent.run.imp fun hcarried hok => ?_
  obtain ⟨frames, hparse, hpaint⟩ := (hcarried.inOrder hok).paint fun p hp => by
    obtain ⟨t, ht, hpt⟩ := hserves.panel_serves hp
    exact hpt.placed (hreach t ht)
  refine ⟨frames, ?_, hcarried.kind, ?_⟩
  · rw [← hparse, List.map_map]
    rfl
  · rw [hpaint]
    exact hserves.shown hreach

end Opening

def overlapped : Settings where
  members := [
    { width := 2, height := 1, transparent := true, placeOnServer := true },
    { width := 2, height := 1, x := 1, transparent := true, placeOnServer := true }]

def localNetwork : Loopback := .quiet fun e => some ⟨.v4 127 0 0 1, e.port⟩

def blueRed : List Canvas.Draw := [.fill .blue, .set 1 0 .red]

def openOverlapped : StateM Loopback (Except AssemblyError (Canvas (Link Loopback.Socket))) :=
  overlapped.connectCanvas

def sendWatched (c : Canvas (Link Loopback.Socket)) :
    StateM Loopback ((Except SurfaceError Unit × Surface (Link Loopback.Socket)) ×
      List (Call (Link Loopback.Socket))) :=
  (c.toSurface.send : Watched (Link Loopback.Socket) (StateM Loopback) _).run

theorem openOverlapped_run : ∃ canvas network,
    openOverlapped.run localNetwork = (.ok canvas, network) ∧
      (canvas.drawn blueRed).owner? 1 0 = some ⟨1, 0, 0⟩ ∧
      (canvas.drawn blueRed).get? 1 0 = some .red ∧
      ((sendWatched (canvas.drawn blueRed)).run network).1.1.1.isOk := by
  refine ⟨_, _, rfl, ?_, ?_, ?_⟩
  · decide +kernel
  · decide +kernel
  · decide +kernel

theorem server_shows_canvas_overlapped :
    ((∀ t ∈ overlapped.members, t.placeOnServer) ∧
      (∀ t ∈ overlapped.members, t.endpoint = ⟨settingsHost, defaultPort⟩) ∧
      ∀ t ∈ overlapped.members, t.InReach) ∧
    ∃ canvas network, openOverlapped.run localNetwork = (.ok canvas, network) ∧ ∃ frames,
      ((sendWatched (canvas.drawn blueRed)).run network).1.2.map
        (fun call => Frame.parse call.datagram) = frames.map .ok ∧
      (canvas.drawn blueRed).get? 1 0 = some .red ∧
      Picture.blank.paint frames 1 0 settingsLayer = some .red ∧
      ∀ z, Picture.blank.paint frames 3 0 z = none := by
  have hplaced : ∀ t ∈ overlapped.members, t.placeOnServer := by decide
  have hserver : ∀ t ∈ overlapped.members, t.endpoint = ⟨settingsHost, defaultPort⟩ := by decide
  have hreach : ∀ t ∈ overlapped.members, t.InReach := by
    intro t ht
    rcases List.mem_pair.mp ht with rfl | rfl <;> exact ⟨by decide, by decide⟩
  obtain ⟨canvas, network, hopened, howner, hread, hsent⟩ := openOverlapped_run
  have hopen := SatisfiesM_Id_eq.mp (SatisfiesM_StateT_eq.mp
    (server_shows_canvas (m := StateM Loopback) (σ := Loopback.Socket) hplaced hserver hreach)
    localNetwork)
  have hsend := SatisfiesM_Id_eq.mp (SatisfiesM_StateT_eq.mp
    (hopen canvas (congrArg Prod.fst hopened) blueRed) network)
  have hok : ((sendWatched (canvas.drawn blueRed)).run network).1.1.1 = .ok () := by
    cases h : ((sendWatched (canvas.drawn blueRed)).run network).1.1.1 with
    | ok _ => rfl
    | error e =>
        rw [h] at hsent
        cases hsent
  obtain ⟨frames, hparse, -, hcovered, hother⟩ := hsend hok
  refine ⟨⟨hplaced, hserver, hreach⟩, canvas, network, hopened, frames, hparse, hread, ?_, ?_⟩
  · obtain ⟨o, t, color, ho, ht, hcolor, hpaint⟩ := hcovered 1 0 (by decide)
    obtain rfl := Option.some.inj (howner.symm.trans ho)
    obtain rfl := Option.some.inj (hread.symm.trans hcolor)
    obtain rfl := Option.some.inj ht
    exact hpaint
  · exact hother 3 0 (by decide)

end LedWall
