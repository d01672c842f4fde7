import LedWall.Command.Run
import LedWall.Proofs.Canvas.Slices
import LedWall.Proofs.Frame.Budget
import LedWall.Proofs.Link.Writes

/-!
# Clearing layers

Clearing goes through the layers in order and sends each a black frame. The frame of a layer may be
too long for a datagram, and the network may fail; clearing goes on all the same, and what it writes
does not depend on the answers.
-/

namespace LedWall

variable {σ : Type} {m : Type → Type} [Monad m] [LawfulMonad m] [Network m σ]

/-- The link of a command was asked for, and nothing is written yet. It is open, or the failure says
that it is not. -/
structure PanelSettings.Asked (p : PanelSettings) (opened : Except CommandError (Link σ))
    (calls : List (Call σ)) : Prop where
  quiet : calls = []
  isOpen : ∀ link, opened = .ok link → ∃ socket, link.socket = some socket
  failed : ∀ e, opened = .error e → ∃ cause, e = .linkNotOpened p.endpoint cause

theorem ensures_openLink (p : PanelSettings) :
    Watched.Ensures (openLink p : Watched σ m (Except CommandError (Link σ))) p.Asked := by
  rw [openLink]
  refine (Link.ensures_connect p.endpoint).bind fun opened calls hopened => .pure ?_
  refine ⟨by rw [hopened.quiet, List.append_nil], ?_, ?_⟩
  · intro link hlink
    cases opened with
    | error cause => cases hlink
    | ok l =>
        obtain rfl := Except.ok.inj hlink
        exact (hopened.good l rfl).2
  · intro e he
    cases opened with
    | error cause => exact ⟨cause, (Except.error.inj he).symm⟩
    | ok link => cases he

theorem Network.ensures_connect_reached {endpoint : Endpoint} (hreach : Reaches m σ endpoint) :
    Watched.Ensures (connect endpoint : Watched σ m (Except String (SocketAddress × σ)))
      fun answer calls => calls = [] ∧ ∃ found, answer = .ok found := by
  intro record
  exact hreach.bind fun _ hanswer => .pure ⟨[], (List.append_nil record).symm, rfl, hanswer⟩

theorem ensures_openLink_reached {p : PanelSettings} (hreach : Reaches m σ p.endpoint) :
    Watched.Ensures (openLink p : Watched σ m (Except CommandError (Link σ)))
      fun opened calls => calls = [] ∧ ∃ (link : Link σ) (socket : σ), opened = .ok link ∧
        link.socket = some socket := by
  rw [openLink, Link.connect, bind_assoc]
  refine (Network.ensures_connect_reached hreach).bind fun answer calls hanswer => ?_
  obtain ⟨rfl, ⟨peer, socket⟩, rfl⟩ := hanswer
  rw [pure_bind]
  exact .pure ⟨rfl, _, socket, rfl, rfl⟩

namespace PanelSettings

def blankFrame (p : PanelSettings) (layer : Nat) : List UInt8 :=
  Frame.plainBytes p.width p.height (.ofNat layer)
    (List.replicate (p.width.toNat * p.height.toNat) .black)

/-- The blank frame of the layer fits one datagram. -/
def BlankFits (p : PanelSettings) (layer : Nat) : Prop :=
  (p.blankFrame layer).length ≤ maxDatagramSize

instance (p : PanelSettings) : DecidablePred p.BlankFits :=
  fun layer => inferInstanceAs (Decidable ((p.blankFrame layer).length ≤ maxDatagramSize))

variable {p : PanelSettings}

theorem blank_eq (hw : p.width ≠ 0) (hh : p.height ≠ 0) (layer : Nat) :
    ∃ blank, FrameBuffer.blank p.width p.height (.ofNat layer) true = .ok blank ∧
      blank.encode = p.blankFrame layer := by
  refine ⟨_, dif_pos ⟨hw, hh⟩, ?_⟩
  simp only [FrameBuffer.encode, FrameBuffer.pixels, FrameBuffer.width, FrameBuffer.height,
    Grid.uniform, Array.toList_replicate, blankFrame]

theorem parse_blankFrame [Png.Codec] {layer : Nat} (hlayer : layer < 256)
    (hfits : p.BlankFits layer) :
    ∃ frame, Frame.parse (p.blankFrame layer) = .ok frame ∧ frame.width = p.width ∧
      frame.height = p.height ∧ frame.offset.x = 0 ∧ frame.offset.y = 0 ∧
      frame.offset.z.toNat = layer ∧
      frame.pixels = List.replicate (p.width.toNat * p.height.toNat) .black := by
  have hcount : (List.replicate (p.width.toNat * p.height.toNat) Color.black).length =
      p.width.toNat * p.height.toNat := List.length_replicate
  have hsize : 3 * (p.width.toNat * p.height.toNat) < 2 ^ 64 := by
    rw [BlankFits, blankFrame, Frame.length_plainBytes, hcount, maxDatagramSize] at hfits
    omega
  exact ⟨_, Frame.parse_plainBytes _ hcount hsize, rfl, rfl, rfl, rfl,
    UInt8.toNat_ofNat_of_lt' hlayer, rfl⟩

theorem ensures_clearFrom (hw : p.width ≠ 0) (hh : p.height ≠ 0) (link : Link σ)
    (layers : List Nat) :
    Watched.Ensures (clearFrom link p layers : Watched σ m _) fun result calls =>
      result = .ok () ∧ calls = layers.flatMap fun layer => link.written (p.blankFrame layer) := by
  induction layers with
  | nil => exact .pure ⟨rfl, rfl⟩
  | cons layer more ih =>
      obtain ⟨blank, hblank, hencode⟩ := blank_eq hw hh layer
      rw [clearFrom, hblank]
      refine (link.ensures_transmit_written blank.encode).bind fun _ calls hcalls => ?_
      obtain ⟨rfl, -⟩ := hcalls
      refine ih.imp fun result more hmore => ?_
      obtain ⟨rfl, rfl⟩ := hmore
      rw [hencode, List.flatMap_cons]
      exact ⟨rfl, rfl⟩

theorem flatMap_written {link : Link σ} {socket : σ} (hsocket : link.socket = some socket)
    (layers : List Nat) : layers.flatMap (fun layer => link.written (p.blankFrame layer)) =
      (layers.filter p.BlankFits).map fun layer => ⟨socket, p.blankFrame layer⟩ := by
  induction layers with
  | nil => rfl
  | cons layer more ih =>
      rw [List.flatMap_cons, ih, Link.written, hsocket, List.filter_cons]
      by_cases hfits : p.BlankFits layer
      · rw [if_neg (Nat.not_lt.mpr hfits), if_pos (decide_eq_true hfits)]
        rfl
      · rw [if_pos (Nat.lt_of_not_le hfits), if_neg (by simpa using hfits)]
        rfl

/-- The first layers are cleared: one datagram was written for each whose blank frame fits, in order
and all to one socket. -/
structure Cleared (p : PanelSettings) (layers : UInt8) (result : Except CommandError Unit)
    (calls : List (Call σ)) : Prop where
  done : result = .ok ()
  sent : ∃ socket, calls = ((List.range layers.toNat).filter p.BlankFits).map
    fun layer => ⟨socket, p.blankFrame layer⟩

theorem ensures_cleared (hw : p.width ≠ 0) (hh : p.height ≠ 0) (layers : UInt8) {link : Link σ}
    {socket : σ} (hsocket : link.socket = some socket) :
    Watched.Ensures (clearFrom link p (List.range layers.toNat) : Watched σ m _)
      (p.Cleared layers) := by
  refine (ensures_clearFrom hw hh link _).imp fun result calls hcleared => ?_
  obtain ⟨rfl, rfl⟩ := hcleared
  exact ⟨rfl, socket, flatMap_written hsocket _⟩

/-- With positive sides clearing fails only if no link can be opened, and succeeds where one always
can. Then it writes one datagram for exactly those layers whose blank frame is not too long, whatever
the network answers to those before. Each of them reads back as a black image of the size of the
panel, placed in the corner of its layer. With a side of zero nothing is written, and clearing any
layer at all fails. -/
theorem clear_blanks_layers [Png.Codec] (p : PanelSettings) (layers : UInt8) :
    (0 < p.width.toNat → 0 < p.height.toNat →
      Watched.Ensures (p.clearLayers σ layers : Watched σ m _) fun result calls =>
        p.Cleared layers result calls ∨
          (∃ cause, result = .error (.linkNotOpened p.endpoint cause)) ∧ calls = []) ∧
    (Reaches m σ p.endpoint → 0 < p.width.toNat → 0 < p.height.toNat →
      Watched.Ensures (p.clearLayers σ layers : Watched σ m _) (p.Cleared layers)) ∧
    (∀ layer < layers.toNat, p.BlankFits layer → ∃ frame,
      Frame.parse (p.blankFrame layer) = .ok frame ∧ frame.width = p.width ∧
        frame.height = p.height ∧ frame.offset.x = 0 ∧ frame.offset.y = 0 ∧
        frame.offset.z.toNat = layer ∧
        frame.pixels = List.replicate (p.width.toNat * p.height.toNat) .black) ∧
    (p.width = 0 ∨ p.height = 0 → 0 < layers →
      Watched.Ensures (p.clearLayers σ layers : Watched σ m _) fun result calls =>
        (∃ e, result = .error e) ∧ calls = []) := by
  refine ⟨?_, ?_, ?_, ?_⟩
  · intro hw hh
    rw [clearLayers]
    refine (ensures_openLink p).bind fun opened calls hopened => ?_
    obtain rfl := hopened.quiet
    cases opened with
    | error e =>
        obtain ⟨cause, rfl⟩ := hopened.failed e rfl
        exact .pure (.inr ⟨⟨cause, rfl⟩, rfl⟩)
    | ok link =>
        obtain ⟨socket, hsocket⟩ := hopened.isOpen link rfl
        exact (ensures_cleared (toNat_pos_iff.mp hw) (toNat_pos_iff.mp hh) layers hsocket).imp
          fun _ _ hcleared => .inl hcleared
  · intro hreach hw hh
    rw [clearLayers]
    refine (ensures_openLink_reached hreach).bind fun opened calls hopened => ?_
    obtain ⟨rfl, link, socket, rfl, hsocket⟩ := hopened
    exact ensures_cleared (toNat_pos_iff.mp hw) (toNat_pos_iff.mp hh) layers hsocket
  · intro layer hlayer hfits
    have hlt := layers.toNat_lt
    exact parse_blankFrame (by omega) hfits
  · intro hside hlayers
    have hblank : FrameBuffer.blank p.width p.height (.ofNat 0) true =
        .error (.invalidDimension p.width p.height) :=
      dif_neg fun hsides => hside.elim hsides.1 hsides.2
    obtain ⟨n, hn⟩ := Nat.exists_eq_add_of_lt (UInt8.lt_iff_toNat_lt.mp hlayers)
    rw [clearLayers, hn, List.range_succ_eq_map]
    refine (ensures_openLink p).bind fun opened calls hopened => ?_
    obtain rfl := hopened.quiet
    cases opened with
    | error e => exact .pure ⟨⟨e, rfl⟩, rfl⟩
    | ok link =>
        dsimp only
        rw [clearFrom, hblank]
        exact .pure ⟨⟨_, rfl⟩, rfl⟩

end PanelSettings

def brimPanel : PanelSettings := { width := 263, height := 83 }

theorem blankFits_brimPanel (layer : Nat) : brimPanel.BlankFits layer ↔
    (Decimal.bytes (UInt8.ofNat layer).toNat).length ≤ 1 := by
  have hw : (Decimal.bytes brimPanel.width.toNat).length = 3 := by decide +kernel
  have hh : (Decimal.bytes brimPanel.height.toNat).length = 2 := by decide +kernel
  have hpixels : (List.replicate (brimPanel.width.toNat * brimPanel.height.toNat)
      Color.black).length = 21829 := List.length_replicate
  rw [PanelSettings.BlankFits, PanelSettings.blankFrame, Frame.length_plainBytes, hw, hh, hpixels,
    maxDatagramSize]
  omega

theorem clear_blanks_layers_brim :
    (Reaches Id Wire brimPanel.endpoint ∧ 0 < brimPanel.width.toNat ∧
      0 < brimPanel.height.toNat) ∧
    (∃ calls, (brimPanel.clearLayers Wire 12 : Watched Wire Id _).run = (.ok (), calls) ∧
      calls.map Call.datagram = (List.range 10).map brimPanel.blankFrame) ∧
    ∃ e, (({ width := 0 } : PanelSettings).clearLayers Wire 1 : Watched Wire Id _).run =
      (.error e, []) := by
  have hsides : 0 < brimPanel.width.toNat ∧ 0 < brimPanel.height.toNat := by decide
  have hreach := reaches_wire brimPanel.endpoint
  obtain ⟨-, hclear, -⟩ := PanelSettings.clear_blanks_layers (m := Id) (σ := Wire) brimPanel 12
  obtain ⟨-, -, -, hfail⟩ :=
    PanelSettings.clear_blanks_layers (m := Id) (σ := Wire) { width := 0 } 1
  have hfit : (List.range 12).filter brimPanel.BlankFits = List.range 10 := by
    have hdigits : (List.range 12).filter brimPanel.BlankFits = (List.range 12).filter
        fun layer => (Decimal.bytes (UInt8.ofNat layer).toNat).length ≤ 1 :=
      List.filter_congr fun layer _ => decide_eq_decide.mpr (blankFits_brimPanel layer)
    rw [hdigits]
    decide +kernel
  have hcleared := SatisfiesM_Id_eq.mp (hclear hreach hsides.1 hsides.2).run
  generalize (brimPanel.clearLayers Wire 12 : Watched Wire Id _).run = cleared at hcleared ⊢
  have hfailed := SatisfiesM_Id_eq.mp (hfail (.inl rfl) (by decide)).run
  obtain ⟨result, calls⟩ := cleared
  obtain ⟨rfl, socket, rfl⟩ := hcleared
  obtain ⟨⟨e, he⟩, hnone⟩ := hfailed
  refine ⟨⟨hreach, hsides⟩, ⟨_, rfl, ?_⟩, e, Prod.ext he hnone⟩
  have htwelve : (12 : UInt8).toNat = 12 := rfl
  rw [htwelve, hfit, List.map_map]
  rfl

end LedWall
