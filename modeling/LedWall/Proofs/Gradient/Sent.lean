import LedWall.Command.Run
import LedWall.Proofs.Canvas.Slices
import LedWall.Proofs.Gradient.Painted
import LedWall.Proofs.Link.Writes
import LedWall.Proofs.Surface.Shown

/-!
# The test picture on the wire

The command for the test picture opens what the settings describe, paints it and sends it once.
Whatever the network does, everything that is written then is a frame of one of the panels, with the
colours that the test picture has there.
-/

namespace LedWall

variable {σ : Type}

/-- A panel as it is opened: a blank picture and a link to an endpoint. -/
structure Panel.Fresh (p : Panel (Link σ)) (endpoint : Endpoint) (width height : UInt32)
    (layer : UInt8) (transparent : Bool) (mode : FrameMode) : Prop where
  blank : FrameBuffer.blank width height layer transparent = .ok p.buffer
  endpoint : p.transport.endpoint = endpoint
  mode : p.mode = mode

def MemberSettings.mode (t : MemberSettings) : FrameMode :=
  if t.placeOnServer then .offset t.place else .plain

inductive Canvas.Fresh : List MemberSettings → Canvas (Link σ) → Prop where
  | empty : Fresh [] .empty
  | add {ts : List MemberSettings} {c : Canvas (Link σ)} (h : Fresh ts c) {t : MemberSettings}
      {p : Panel (Link σ)}
      (hp : p.Fresh t.endpoint t.width t.height t.layer t.transparent t.mode) :
      Fresh (ts ++ [t]) (c.add (.panel p) t.x t.y)

inductive Settings.Opens (s : Settings) : PatternTarget → Surface (Link σ) → Prop where
  | panel {p : Panel (Link σ)} (h : p.Fresh s.panel.endpoint s.panel.width s.panel.height
      s.panel.layer s.panel.transparent .plain) : Opens s .panel (.panel p)
  | canvas {c : Canvas (Link σ)} (h : c.Fresh s.members) : Opens s .canvas c.toSurface
  | chain {chain : ChainSettings} (hchain : s.chain = some chain) {table : CoordinateTable}
      (htable : CoordinateTable.build chain.width chain.height chain.segments chain.runs = .ok table)
      {p : Panel (Link σ)} (h : p.Fresh chain.endpoint (max (UInt32.ofNat table.segments.total) 1)
        1 chain.layer chain.transparent .plain) :
      Opens s .chain (.remapped (.panel p) table)

section Opening

variable {m : Type → Type} [Monad m] [LawfulMonad m] [Network m σ]

theorem Panel.ensures_connect (endpoint : Endpoint) (width height : UInt32) (layer : UInt8)
    (transparent : Bool) :
    Watched.Ensures (connect endpoint width height layer transparent :
        Watched σ m (Except SurfaceError (Panel (Link σ))))
      (Quietly fun p => p.Fresh endpoint width height layer transparent .plain) := by
  rw [connect]
  cases hblank : FrameBuffer.blank width height layer transparent with
  | error e => exact .pure (.error e)
  | ok buffer =>
      refine (Link.ensures_connect endpoint).bind fun opened calls hopened => ?_
      obtain rfl := hopened.quiet
      cases opened with
      | error e => exact .pure (.error e)
      | ok link => exact .pure (.ok ⟨hblank, (hopened.good link rfl).1, rfl⟩)

theorem PanelSettings.ensures_connect (s : PanelSettings) :
    Watched.Ensures (s.connect : Watched σ m (Except SurfaceError (Panel (Link σ))))
      (Quietly fun p => p.Fresh s.endpoint s.width s.height s.layer s.transparent .plain) := by
  rw [connect]
  refine (Panel.ensures_connect _ _ _ _ _).bind fun opened calls hopened => ?_
  obtain rfl := hopened.quiet
  cases opened with
  | error e => exact .pure (.error e)
  | ok p =>
      have h := hopened.good p rfl
      exact .pure (.ok ⟨h.blank, h.endpoint, h.mode⟩)

theorem MemberSettings.ensures_connect (t : MemberSettings) :
    Watched.Ensures (t.connect : Watched σ m (Except SurfaceError (Panel (Link σ))))
      (Quietly fun p => p.Fresh t.endpoint t.width t.height t.layer t.transparent t.mode) := by
  rw [connect]
  refine (Panel.ensures_connect _ _ _ _ _).bind fun opened calls hopened => ?_
  obtain rfl := hopened.quiet
  cases opened with
  | error e => exact .pure (.error e)
  | ok p =>
      have h := hopened.good p rfl
      refine .pure (.ok ?_)
      rw [mode]
      split
      · exact ⟨h.blank, h.endpoint, rfl⟩
      · exact h

theorem ensures_addMembers {c : Canvas (Link σ)} {ts : List MemberSettings} (h : c.Fresh ts)
    (index : Nat) (more : List MemberSettings) :
    Watched.Ensures (addMembers c index more :
        Watched σ m (Except AssemblyError (Canvas (Link σ))))
      (Quietly fun c' => c'.Fresh (ts ++ more)) := by
  induction more generalizing c ts index with
  | nil =>
      rw [addMembers, List.append_nil]
      exact .pure (.ok h)
  | cons t more ih =>
      rw [addMembers]
      refine t.ensures_connect.bind fun opened calls hopened => ?_
      obtain rfl := hopened.quiet
      cases opened with
      | error e => exact .pure (.error _)
      | ok p =>
          have hadd := ih (h.add (hopened.good p rfl)) (index + 1)
          rwa [List.append_assoc, List.singleton_append] at hadd

theorem Settings.ensures_connectCanvas (s : Settings) :
    Watched.Ensures (s.connectCanvas : Watched σ m (Except AssemblyError (Canvas (Link σ))))
      (Quietly fun c => c.Fresh s.members) := by
  rw [connectCanvas]
  cases s.members with
  | nil => exact .pure (.error _)
  | cons t more => exact ensures_addMembers .empty 0 (t :: more)

theorem ChainSettings.ensures_connect {s : Settings} {chain : ChainSettings}
    (hchain : s.chain = some chain) :
    Watched.Ensures (chain.connect : Watched σ m (Except AssemblyError (Strip (Link σ))))
      (Quietly fun strip => s.Opens .chain strip.toSurface) := by
  rw [connect]
  cases htable : CoordinateTable.build chain.width chain.height chain.segments chain.runs with
  | error e => exact .pure (.error _)
  | ok table =>
      refine (Panel.ensures_connect _ _ _ _ _).bind fun opened calls hopened => ?_
      obtain rfl := hopened.quiet
      cases opened with
      | error e => exact .pure (.error _)
      | ok p =>
          refine .pure ⟨rfl, fun strip hstrip => ?_⟩
          rw [Strip.make] at hstrip
          split at hstrip
          · cases hstrip
          · cases hstrip
            exact .chain hchain htable (hopened.good p rfl)

end Opening

section Sending

variable {m : Type → Type} [Monad m] [LawfulMonad m] [Network m σ]

/-- Either nothing could be opened, or the panels of a tree that was opened and painted have written
what they have to show. -/
def Settings.SendsGradient (s : Settings) (target : PatternTarget)
    (result : Except CommandError Unit) (calls : List (Call σ)) : Prop :=
  (calls = [] ∧ ∃ e, result = .error e) ∨ ∃ tree : Surface (Link σ), s.Opens target tree ∧
    OnWire tree.paintGradient.panels (result = .ok ()) calls

theorem Settings.SendsGradient.nothing (s : Settings) (target : PatternTarget) (e : CommandError) :
    s.SendsGradient target (.error e) ([] : List (Call σ)) := .inl ⟨rfl, e, rfl⟩

theorem ensures_drawAndSend {s : Settings} {target : PatternTarget} {tree : Surface (Link σ)}
    (h : s.Opens target tree) (failed : SurfaceError → CommandError) :
    Watched.Ensures (drawAndSend tree failed : Watched σ m _) fun result calls =>
      s.SendsGradient target result calls := by
  rw [drawAndSend]
  refine tree.paintGradient.ensures_writes.bind fun sent calls hcalls => .pure (.inr ⟨tree, h, ?_⟩)
  rw [List.append_nil]
  refine ⟨hcalls.each, fun hok => hcalls.all ?_⟩
  obtain ⟨e | _, painted⟩ := sent
  · cases hok
  · rfl

theorem Settings.ensures_sendPattern (s : Settings) (target : PatternTarget) :
    Watched.Ensures (s.sendPattern σ target : Watched σ m _) fun result calls =>
      s.SendsGradient target result calls := by
  cases target with
  | canvas =>
      rw [sendPattern]
      refine s.ensures_connectCanvas.bind fun opened calls hopened => ?_
      obtain rfl := hopened.quiet
      cases opened with
      | error e => exact .pure (.nothing s .canvas _)
      | ok canvas => exact ensures_drawAndSend (.canvas (hopened.good canvas rfl)) _
  | chain =>
      rw [sendPattern]
      cases hchain : s.chain with
      | none => exact .pure (.nothing s .chain _)
      | some chain =>
          refine (ChainSettings.ensures_connect hchain).bind fun opened calls hopened => ?_
          obtain rfl := hopened.quiet
          cases opened with
          | error e => exact .pure (.nothing s .chain _)
          | ok strip => exact ensures_drawAndSend (hopened.good strip rfl) _
  | panel =>
      rw [sendPattern]
      refine s.panel.ensures_connect.bind fun opened calls hopened => ?_
      obtain rfl := hopened.quiet
      cases opened with
      | error e => exact .pure (.nothing s .panel _)
      | ok p => exact ensures_drawAndSend (.panel (hopened.good p rfl)) _

end Sending

section Alike

variable {τ : Type} {p p' : Panel τ}

theorem Panel.Alike.place_eq (h : p.Alike p') : p'.place = p.place := by
  rw [place, place, h.mode, h.layer]

theorem Panel.Alike.shownBy (h : p.Alike p') {look : Nat → Nat → Option Color} {f : Frame}
    {top : Nat} (hshown : p'.ShownBy look f top) : p.ShownBy look f top where
  width := hshown.width.trans h.width
  rows := h.height ▸ hshown.rows
  whole := fun hplain => (hshown.whole (h.mode.trans hplain)).trans h.height
  place := h.place_eq ▸ hshown.place
  count := hshown.count
  pixels := hshown.pixels

end Alike

theorem FrameBuffer.pixelBytes_lt {b : FrameBuffer} (hw : b.width.toNat ≤ 2 ^ 24)
    (hh : b.height.toNat ≤ 2 ^ 24) : b.pixelBytes < 2 ^ 64 := by
  have harea := Nat.mul_le_mul hw hh
  rw [pixelBytes]
  omega

theorem Panel.Fresh.sides {p : Panel (Link σ)} {endpoint : Endpoint} {width height : UInt32}
    {layer : UInt8} {transparent : Bool} {mode : FrameMode}
    (h : p.Fresh endpoint width height layer transparent mode) :
    p.buffer.width = width ∧ p.buffer.height = height := by
  have hblank := h.blank
  rw [FrameBuffer.blank] at hblank
  split at hblank
  · rw [← Except.ok.inj hblank]
    exact ⟨rfl, rfl⟩
  · cases hblank

theorem Canvas.Fresh.sides_le {c : Canvas (Link σ)} {ts : List MemberSettings} (h : c.Fresh ts) :
    ∀ p ∈ c.toSurface.panels,
      p.buffer.width.toNat ≤ c.width.toNat ∧ p.buffer.height.toNat ≤ c.height.toNat := by
  induction h with
  | empty =>
      rw [toSurface, Surface.panels_canvas]
      exact List.forall_mem_nil _
  | @add ts c _ t p _ ih =>
      rw [toSurface, Surface.panels_canvas] at ih ⊢
      have hw := toNat_width_add c (.panel p) t.x t.y
      have hh := toNat_height_add c (.panel p) t.x t.y
      intro q hq
      rw [Canvas.add, List.flatMap_append, List.mem_append] at hq
      rw [hw, hh]
      rcases hq with hq | hq
      · obtain ⟨hwidth, hheight⟩ := ih q hq
        exact ⟨le_max_of_le_left hwidth, le_max_of_le_left hheight⟩
      · obtain rfl : q = p := by simpa [Surface.panels, Surface.leaves] using hq
        have hwidth := q.buffer.width.toNat_lt
        have hheight := q.buffer.height.toNat_lt
        refine ⟨le_max_of_le_right ?_, le_max_of_le_right ?_⟩
        · show q.buffer.width.toNat ≤ min (t.x.toNat + q.buffer.width.toNat) 4294967295
          omega
        · show q.buffer.height.toNat ≤ min (t.y.toNat + q.buffer.height.toNat) 4294967295
          omega

/-- The pictures of a tree with sides of moderate length can be sent. The lights of a chain are a
single row, however small the surface is that shows them. -/
theorem Settings.Opens.pixelBytes_lt {s : Settings} {target : PatternTarget}
    {tree : Surface (Link σ)} (h : s.Opens target tree) (hw : tree.width.toNat ≤ 2 ^ 24)
    (hh : tree.height.toNat ≤ 2 ^ 24) : ∀ p ∈ tree.panels, p.buffer.pixelBytes < 2 ^ 64 := by
  cases h with
  | panel h =>
      intro p hp
      obtain rfl := List.mem_singleton.mp hp
      exact FrameBuffer.pixelBytes_lt hw hh
  | canvas h =>
      intro p hp
      obtain ⟨hwidth, hheight⟩ := h.sides_le p hp
      exact FrameBuffer.pixelBytes_lt (hwidth.trans hw) (hheight.trans hh)
  | chain _ _ h =>
      intro p hp
      obtain rfl := List.mem_singleton.mp hp
      have hwidth := p.buffer.width.toNat_lt
      have hrow : p.buffer.height.toNat = 1 := congrArg UInt32.toNat h.sides.2
      rw [FrameBuffer.pixelBytes, hrow]
      omega

/-- A datagram was written for a panel of a tree and shows the rows of the panel from row `top` on,
as they are in the painted tree. -/
structure Surface.Carries [Png.Codec] (painted : Surface (Link σ)) (leaf : Leaf (Link σ))
    (call : Call σ) (f : Frame) (top : Nat) : Prop where
  socket : leaf.panel.transport.socket = some call.transport
  parse : Frame.parse call.datagram = .ok f
  shown : leaf.panel.ShownBy (fun x y => painted.pixel? ⟨leaf.path, x, y⟩) f top

section Carries

variable {tree painted : Surface (Link σ)} {path : List Nat} {p p' : Panel (Link σ)}

theorem Surface.shownBy_of_panelAt? (hp' : painted.panelAt? path = some p') (h : p.Alike p')
    {f : Frame} {top : Nat} (hshown : p'.ShownBy p'.buffer.grid.cell? f top) :
    p.ShownBy (fun x y => painted.pixel? ⟨path, x, y⟩) f top := by
  have hlook : (fun x y => painted.pixel? ⟨path, x, y⟩) = p'.buffer.grid.cell? := by
    funext x y
    rw [pixel?, hp']
    rfl
  rw [hlook]
  exact h.shownBy hshown

theorem Panel.Alike.pixelBytes_eq (h : p.Alike p') :
    p'.buffer.pixelBytes = p.buffer.pixelBytes := by
  rw [FrameBuffer.pixelBytes, FrameBuffer.pixelBytes, h.width, h.height]

theorem Surface.Painted.exists_leaf (h : tree.Painted painted)
    (hp' : painted.panelAt? path = some p') : ∃ p, ⟨path, p⟩ ∈ tree.leaves ∧ p.Alike p' := by
  have hlike := h.alike path
  rw [hp'] at hlike
  generalize hp : tree.panelAt? path = found at hlike
  cases hlike with
  | some hlike => exact ⟨_, mem_leaves_iff.mpr hp, hlike⟩

theorem Surface.Painted.exists_panel (h : tree.Painted painted)
    (hp : tree.panelAt? path = some p) : ∃ p', painted.panelAt? path = some p' ∧ p.Alike p' := by
  have hlike := h.alike path
  rw [hp] at hlike
  generalize hp' : painted.panelAt? path = found at hlike
  cases hlike with
  | some hlike => exact ⟨_, rfl, hlike⟩

variable (hpainted : tree.Painted painted) (hsize : ∀ p ∈ tree.panels, p.buffer.pixelBytes < 2 ^ 64)

include hpainted hsize

theorem Surface.Painted.exists_carries [Png.Codec] (hp' : p' ∈ painted.panels) {call : Call σ}
    (hemits : p'.Emits call) : ∃ leaf ∈ tree.leaves, ∃ f top, painted.Carries leaf call f top := by
  obtain ⟨⟨path, p'⟩, hleaf', rfl⟩ := List.mem_map.mp hp'
  have hpanel' := mem_leaves_iff.mp hleaf'
  obtain ⟨p, hleaf, hlike⟩ := hpainted.exists_leaf hpanel'
  have hbytes := hsize p (List.mem_map_of_mem hleaf)
  rw [← hlike.pixelBytes_eq] at hbytes
  obtain ⟨datagrams, hd, hmem⟩ := hemits.datagram
  obtain ⟨f, top, hparse, hshown⟩ := Panel.exists_shownBy hbytes hd hmem
  exact ⟨⟨path, p⟩, hleaf, f, top, hlike.transport ▸ hemits.socket, hparse,
    shownBy_of_panelAt? hpanel' hlike hshown⟩

theorem Surface.Painted.exists_row [Png.Codec] {calls : List (Call σ)}
    (hall : ∀ p ∈ painted.panels, p.AllOf calls) {leaf : Leaf (Link σ)} (hleaf : leaf ∈ tree.leaves)
    {row : Nat} (hrow : row < leaf.panel.buffer.height.toNat) : ∃ call ∈ calls, ∃ f top,
      painted.Carries leaf call f top ∧ top ≤ row ∧ row < top + f.height.toNat := by
  obtain ⟨path, p⟩ := leaf
  obtain ⟨p', hpanel', hlike⟩ := hpainted.exists_panel (mem_leaves_iff.mp hleaf)
  have hbytes := hsize p (List.mem_map_of_mem hleaf)
  rw [← hlike.pixelBytes_eq] at hbytes
  have hleaf' : ⟨path, p'⟩ ∈ painted.leaves := mem_leaves_iff.mpr hpanel'
  obtain ⟨datagrams, hd, hwritten⟩ := hall p' (List.mem_map_of_mem hleaf')
  obtain ⟨datagram, hmem, f, top, hparse, hshown, hrows⟩ :=
    Panel.exists_datagram_of_row hbytes hd (hlike.height ▸ hrow)
  obtain ⟨call, hcall, hsocket, rfl⟩ := hwritten datagram hmem
  exact ⟨call, hcall, f, top, ⟨hlike.transport ▸ hsocket, hparse,
    shownBy_of_panelAt? hpanel' hlike hshown⟩, hrows⟩

end Carries

/-- The test picture lights every pixel that a coordinate leads to with the colour of the last such
coordinate and changes no other pixel, and nothing overflows on the way. Whatever the network does,
every datagram that the command for it writes is a frame of one panel and shows rows of it as they
were painted. If the command succeeds, every row of every panel was written. -/
theorem gradient_reaches_lights [Png.Codec] {m : Type → Type} [Monad m] [LawfulMonad m] [Network m σ]
    (s : Settings) (target : PatternTarget) :
    (∀ (τ : Type) (tree : Surface τ), tree.width.toNat ≤ 2 ^ 24 → tree.height.toNat ≤ 2 ^ 24 →
      tree.Painted tree.paintGradient ∧ Gradient.FitsWords (max tree.width 1) ∧
        Gradient.FitsWords (max tree.height 1)) ∧
    Watched.Ensures (s.sendPattern σ target : Watched σ m _) fun result calls =>
      (calls = [] ∧ ∃ e, result = .error e) ∨
      ∃ tree : Surface (Link σ), s.Opens target tree ∧
        (tree.width.toNat ≤ 2 ^ 24 → tree.height.toNat ≤ 2 ^ 24 →
          (∀ call ∈ calls, ∃ leaf ∈ tree.leaves, ∃ f top,
            tree.paintGradient.Carries leaf call f top) ∧
          (result = .ok () → ∀ leaf ∈ tree.leaves, ∀ row < leaf.panel.buffer.height.toNat,
            ∃ call ∈ calls, ∃ f top, tree.paintGradient.Carries leaf call f top ∧
              top ≤ row ∧ row < top + f.height.toNat)) := by
  constructor
  · intro τ tree hw hh
    have hone : (1 : UInt32).toNat ≤ 2 ^ 24 := by decide
    refine ⟨Surface.painted_paintGradient hw hh, Gradient.fitsWords ?_, Gradient.fitsWords ?_⟩
    · rw [toNat_max]
      exact max_le hw hone
    · rw [toNat_max]
      exact max_le hh hone
  · refine (s.ensures_sendPattern target).imp fun result calls hcalls => ?_
    rcases hcalls with hnothing | ⟨tree, hopens, hwritten⟩
    · exact .inl hnothing
    · refine .inr ⟨tree, hopens, fun hw hh => ?_⟩
      have hpainted := Surface.painted_paintGradient hw hh
      have hsize := hopens.pixelBytes_lt hw hh
      constructor
      · intro call hcall
        obtain ⟨p, hp, hemits⟩ := hwritten.each call hcall
        exact hpainted.exists_carries hsize hp hemits
      · intro hok leaf hleaf row hrow
        exact hpainted.exists_row hsize (hwritten.all hok) hleaf hrow

theorem Canvas.Fresh.sides_within {c : Canvas (Link σ)} {ts : List MemberSettings} (h : c.Fresh ts)
    {n : Nat} (hts : ∀ t ∈ ts, t.x.toNat + t.width.toNat ≤ n ∧ t.y.toNat + t.height.toNat ≤ n) :
    c.width.toNat ≤ n ∧ c.height.toNat ≤ n := by
  induction h with
  | empty => exact ⟨Nat.zero_le n, Nat.zero_le n⟩
  | @add ts c _ t p hp ih =>
      obtain ⟨hwidth, hheight⟩ := ih fun u hu => hts u (List.mem_append_left _ hu)
      obtain ⟨hright, hbottom⟩ := hts t (List.mem_append_right _ (List.mem_singleton_self t))
      have hw := congrArg UInt32.toNat hp.sides.1
      have hh := congrArg UInt32.toNat hp.sides.2
      rw [toNat_width_add, toNat_height_add]
      show max c.width.toNat (min (t.x.toNat + p.buffer.width.toNat) 4294967295) ≤ n ∧
        max c.height.toNat (min (t.y.toNat + p.buffer.height.toNat) 4294967295) ≤ n
      omega

def sentOverlapped : Except CommandError Unit × List (Call Wire) :=
  (overlapped.sendPattern Wire .canvas : Watched Wire Id _).run

theorem sentOverlapped_eq : sentOverlapped.1.isOk ∧ sentOverlapped.2.map Call.datagram = [
    Frame.offsetBytes 2 1 ⟨0, 0, settingsLayer⟩ [⟨0, 0, 128⟩, .black],
    Frame.offsetBytes 2 1 ⟨1, 0, settingsLayer⟩ [⟨85, 0, 128⟩, ⟨170, 0, 128⟩]] := by
  constructor
  · decide +kernel
  · decide +kernel

theorem gradient_reaches_lights_overlapped :
    (sentOverlapped.1.isOk ∧ sentOverlapped.2.map Call.datagram = [
      Frame.offsetBytes 2 1 ⟨0, 0, settingsLayer⟩ [⟨0, 0, 128⟩, .black],
      Frame.offsetBytes 2 1 ⟨1, 0, settingsLayer⟩ [⟨85, 0, 128⟩, ⟨170, 0, 128⟩]]) ∧
    ∃ tree : Surface (Link Wire), overlapped.Opens .canvas tree ∧
      tree.Painted tree.paintGradient ∧ ∀ call ∈ sentOverlapped.2, ∃ leaf ∈ tree.leaves,
        ∃ f top, tree.paintGradient.Carries leaf call f top := by
  obtain ⟨hpaint, hsend⟩ := gradient_reaches_lights (m := Id) (σ := Wire) overlapped .canvas
  refine ⟨sentOverlapped_eq, ?_⟩
  rcases SatisfiesM_Id_eq.mp hsend.run with ⟨-, e, he⟩ | ⟨tree, hopens, hsent⟩
  · have hok := sentOverlapped_eq.1
    rw [sentOverlapped, he] at hok
    cases hok
  · have hsides : tree.width.toNat ≤ 2 ^ 24 ∧ tree.height.toNat ≤ 2 ^ 24 := by
      cases hopens with
      | canvas h => exact h.sides_within (by decide)
    exact ⟨tree, hopens, (hpaint _ tree hsides.1 hsides.2).1, (hsent hsides.1 hsides.2).1⟩

end LedWall
