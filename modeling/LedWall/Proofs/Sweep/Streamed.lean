import LedWall.Command.Run
import LedWall.Proofs.Canvas.Slices
import LedWall.Proofs.Stream.SinglePass
import LedWall.Proofs.Sweep.Frames

/-!
# The sweep on the wire

What the command for streaming sends when nothing disturbs it: the tiles of one sweep, frame after
frame, and nothing else.
-/

namespace LedWall

section Undisturbed

variable {σ : Type} {m : Type → Type} [Monad m] [LawfulMonad m] [Network m σ]

/-- Sockets take each datagram that fits a packet as a whole. -/
def TakesAll (m : Type → Type) [Monad m] (σ : Type) [Network m σ] : Prop :=
  ∀ (socket : σ) (datagram : List UInt8), datagram.length ≤ maxDatagramSize →
    SatisfiesM (· = .ok datagram.length) (Network.write socket datagram : m (Except String Nat))

theorem Link.satisfiesM_transmit_of_takesAll (htakes : TakesAll m σ) {link : Link σ} {socket : σ}
    (hsocket : link.socket = some socket) {datagram : List UInt8}
    (hfits : datagram.length ≤ maxDatagramSize) :
    SatisfiesM (· = (.ok (), link)) (Transport.transmit link datagram : m _) := by
  have hanswer : SatisfiesM (· = .ok ()) (link.transmit datagram : m _) := by
    rw [Link.transmit, if_neg (Nat.not_lt.mpr hfits), hsocket]
    refine (htakes socket datagram hfits).bind fun answer hanswer => ?_
    rw [hanswer]
    dsimp only
    rw [if_pos rfl]
    exact .pure rfl
  refine hanswer.bind fun answer hanswer => ?_
  rw [hanswer]
  exact .pure rfl

theorem satisfiesM_openLink {p : PanelSettings} (hreach : Reaches m σ p.endpoint) :
    SatisfiesM (fun opened => ∃ link socket, opened = .ok link ∧ link.socket = some socket)
      (openLink p : m (Except CommandError (Link σ))) := by
  rw [openLink]
  refine (Link.satisfiesM_connect_reached hreach).bind fun opened hopened => ?_
  obtain ⟨link, socket, rfl, -, hsocket⟩ := hopened
  exact .pure ⟨link, socket, rfl, hsocket⟩

theorem StreamRequest.satisfiesM_start (r : StreamRequest) {s : Settings}
    (hreach : Reaches m σ s.panel.endpoint) (hw : 0 < s.panel.width.toNat)
    (hh : 0 < s.panel.height.toNat) (now : Nat) :
    SatisfiesM (fun started => ∃ (link : Link σ) (socket : σ) (base : FrameBuffer),
        link.socket = some socket ∧ base.width = s.panel.width ∧ base.height = s.panel.height ∧
        started = .ok ⟨none, some (.working
          (.start link (sweep base (max r.frames 1)) (r.options s) now) false)⟩)
      (r.start s now : m (Except CommandError (Streamer (Link σ)))) := by
  have hsides : s.panel.width ≠ 0 ∧ s.panel.height ≠ 0 :=
    ⟨toNat_pos_iff.mp hw, toNat_pos_iff.mp hh⟩
  have hblank : FrameBuffer.blank s.panel.width s.panel.height s.panel.layer s.panel.transparent =
      .ok ⟨.uniform s.panel.width s.panel.height .black, s.panel.layer, s.panel.transparent,
        hsides.1, hsides.2⟩ := dif_pos hsides
  have hframes : max r.frames 1 ≠ 0 := by omega
  rw [start]
  refine (satisfiesM_openLink hreach).bind fun opened hopened => ?_
  obtain ⟨link, socket, rfl, hsocket⟩ := hopened
  dsimp only
  rw [hblank]
  dsimp only
  rw [Streamer.start_of_reap _ _ rfl hframes]
  exact .pure ⟨link, socket, _, hsocket, rfl, rfl, rfl⟩

variable [Png.Codec]

/-- The command writes the frames of the sweep as they are drawn on a blank panel. -/
theorem StreamRequest.written_sweep {r : StreamRequest} {s : Settings} {base : FrameBuffer}
    (hformat : r.format = some .raw) (hwidth : base.width = s.panel.width)
    (hheight : base.height = s.panel.height) (hw : s.panel.width.toNat ≤ 2 ^ 31 - 1)
    (hh : s.panel.height.toNat ≤ 2 ^ 31 - 1) {frames i : Nat} (hi : i < frames)
    {tiles : List (List UInt8)}
    (htiles : Frame.encodeTiles s.panel.width s.panel.height ⟨0, 0, s.panel.layer⟩
      (Sweep.picture s.panel.width.toNat s.panel.height.toNat frames i)
      (min s.panel.datagram maxDatagramSize) = .ok tiles) :
    Written (sweep base frames) (r.options s) i i tiles := by
  rw [← hwidth] at hw
  rw [← hheight] at hh
  refine ⟨sweepFrame base i frames, rfl, ?_⟩
  rw [← hwidth, ← hheight, ← Sweep.encodeTiles_sweepFrame hi (by omega) (by omega)] at htiles
  rw [StreamOptions.datagrams, options, hformat]
  exact htiles

/-- Streaming in raw form with no timeout sends just one sweep, if nobody raises stop, the link takes
everything, and the clock, which is read at every step, has advanced when the first frame is through.
The first step asks for that frame, each later one hands a datagram over, and the step after the last
datagram concludes it. The bar is always inside the frame, begins at the left edge, never goes back,
and visits every column if there are frames enough. -/
theorem stream_sends_sweep {r : StreamRequest} {s : Settings} (hreach : Reaches m σ s.panel.endpoint)
    (htakes : TakesAll m σ) (hformat : r.format = some .raw) (htimeout : (r.options s).timeout = 0)
    (hw : 0 < s.panel.width.toNat) (hw' : s.panel.width.toNat ≤ 2 ^ 31 - 1)
    (hh : 0 < s.panel.height.toNat) (hh' : s.panel.height.toNat ≤ 2 ^ 31 - 1)
    (hmax : 3 * s.panel.width.toNat + 64 ≤ min s.panel.datagram maxDatagramSize) (now : Nat) :
    let width := s.panel.width.toNat
    let frames := max r.frames 1
    (∃ tiles : Nat → List (List UInt8),
      (∀ i < frames, Frame.encodeTiles s.panel.width s.panel.height ⟨0, 0, s.panel.layer⟩
        (Sweep.picture width s.panel.height.toNat frames i)
        (min s.panel.datagram maxDatagramSize) = .ok (tiles i)) ∧
      SatisfiesM (fun started => ∃ streamer, started = .ok streamer ∧
          ∀ clock, Ticks clock → now < clock (1 + (tiles 0).length) → ∃ last, ∀ steps,
            Watched.Ensures (((List.range steps).map clock).foldlM Streamer.advance streamer :
              Watched (Link σ) m _) fun streamer calls =>
                calls.map Call.datagram <+: (List.range frames).flatMap tiles ∧
                (last ≤ steps → calls.map Call.datagram = (List.range frames).flatMap tiles ∧
                  streamer.report = .ok ⟨frames, 0, false⟩))
        (r.start s now : m (Except CommandError (Streamer (Link σ))))) ∧
    (∀ i < frames, Sweep.column width frames i < width ∧ Sweep.shade frames i < 256) ∧
    (∀ i j, i ≤ j → Sweep.column width frames i ≤ Sweep.column width frames j) ∧
    Sweep.column width frames 0 = 0 ∧
    (width ≤ frames → ∀ x < width, ∃ i < frames, Sweep.column width frames i = x) := by
  intro width frames
  refine ⟨?_, fun i hi => ⟨Sweep.column_lt hi hw, Nat.lt_succ_of_lt (Sweep.shade_lt hi)⟩,
    fun i j hij => Sweep.column_mono hij, Sweep.column_zero width frames,
    fun hframes x hx => Sweep.exists_column hx hframes⟩
  have hframes : 0 < frames := Nat.lt_of_lt_of_le Nat.zero_lt_one (Nat.le_max_right _ _)
  have htiles : ∀ i, ∃ tiles, Frame.encodeTiles s.panel.width s.panel.height ⟨0, 0, s.panel.layer⟩
      (Sweep.picture width s.panel.height.toNat frames i) (min s.panel.datagram maxDatagramSize) =
        .ok tiles :=
    fun i => ⟨_, Frame.encodeTiles_eq_ok hw hh (Sweep.length_picture _ _ _ _) _ hmax⟩
  choose tiles htiles using htiles
  refine ⟨tiles, fun i _ => htiles i, ?_⟩
  refine (r.satisfiesM_start hreach hw hh now).imp fun hstarted => ?_
  obtain ⟨link, socket, base, hsocket, hwidth, hheight, rfl⟩ := hstarted
  refine ⟨_, rfl, fun clock hclock hadvance => ?_⟩
  have hwritten : ∀ i < frames, Written (sweep base frames) (r.options s) i i (tiles i) :=
    fun i hi => StreamRequest.written_sweep hformat hwidth hheight hw' hh' hi (htiles i)
  have hcount : 0 < (sweep base frames).count := hframes
  obtain ⟨last, v, hleads, hended⟩ :=
    Worker.single_pass link hcount htimeout hwritten hclock hadvance
  refine ⟨last, fun steps => ?_⟩
  have haccept : ∀ datagram ∈ (List.range frames).flatMap tiles, SatisfiesM (· = (.ok (), link))
      (Transport.transmit link datagram : m _) := by
    intro datagram hmem
    obtain ⟨i, -, hdatagram⟩ := List.mem_flatMap.mp hmem
    have hlength := Frame.length_le_of_encodeTiles hw hh (htiles i) datagram hdatagram
    exact Link.satisfiesM_transmit_of_takesAll htakes hsocket
      (Nat.le_trans hlength (Nat.min_le_right _ _))
  refine (Streamer.ensures_course hleads (Worker.isEnded_iff.mpr ⟨_, hended⟩) haccept steps).imp
    fun streamer calls hcalls => ⟨hcalls.1, fun hlast => ?_⟩
  obtain ⟨hall, rfl⟩ := hcalls.2 hlast
  refine ⟨hall, ?_⟩
  rw [Streamer.report, Streamer.wait?_working, hended]
  rfl

end Undisturbed

theorem takesAll_wire : TakesAll Id Wire := fun _ _ _ => SatisfiesM_Id_eq.mpr rfl

def twoColumns : Settings := { panel := { width := 2, height := 2, datagram := 70 } }

def threeFrames : StreamRequest := { format := some .raw, frames := 3 }

def everySecond (k : Nat) : Nat := nanoseconds (1000 * k)

theorem ticks_everySecond : Ticks everySecond where
  mono := fun _ _ hle => Nat.mul_le_mul_right _ (Nat.mul_le_mul_left _ hle)
  unbounded time := by
    refine ⟨time, ?_⟩
    rw [everySecond, nanoseconds]
    omega

theorem stream_sends_sweep_twoColumns :
    (Reaches Id Wire twoColumns.panel.endpoint ∧ TakesAll Id Wire ∧
      threeFrames.format = some .raw ∧ (threeFrames.options twoColumns).timeout = 0 ∧
      0 < twoColumns.panel.width.toNat ∧ twoColumns.panel.width.toNat ≤ 2 ^ 31 - 1 ∧
      0 < twoColumns.panel.height.toNat ∧ twoColumns.panel.height.toNat ≤ 2 ^ 31 - 1 ∧
      3 * twoColumns.panel.width.toNat + 64 ≤ min twoColumns.panel.datagram maxDatagramSize) ∧
    ∃ (streamer : Streamer (Link Wire)) (tiles : Nat → List (List UInt8)),
      threeFrames.start (m := Id) twoColumns 0 = .ok streamer ∧
      (∀ i < 3, Frame.encodeTiles 2 2 ⟨0, 0, 5⟩ (Sweep.picture 2 2 3 i) 70 = .ok (tiles i)) ∧
      ∃ last, ∀ steps ≥ last,
        let ran := (((List.range steps).map everySecond).foldlM Streamer.advance streamer :
          Watched (Link Wire) Id _).run
        ran.2.map Call.datagram = (List.range 3).flatMap tiles ∧
          ran.1.report = .ok ⟨3, 0, false⟩ := by
  have hreach : Reaches Id Wire twoColumns.panel.endpoint := reaches_wire _
  have hsides : 0 < twoColumns.panel.width.toNat ∧ twoColumns.panel.width.toNat ≤ 2 ^ 31 - 1 ∧
      0 < twoColumns.panel.height.toNat ∧ twoColumns.panel.height.toNat ≤ 2 ^ 31 - 1 ∧
      3 * twoColumns.panel.width.toNat + 64 ≤ min twoColumns.panel.datagram maxDatagramSize := by
    decide
  obtain ⟨hw, hw', hh, hh', hmax⟩ := hsides
  obtain ⟨⟨tiles, htiles, hstart⟩, -⟩ := stream_sends_sweep (r := threeFrames) hreach takesAll_wire
    rfl rfl hw hw' hh hh' hmax 0
  obtain ⟨streamer, hok, hruns⟩ := SatisfiesM_Id_eq.mp hstart
  have hadvance : 0 < everySecond (1 + (tiles 0).length) := by
    rw [everySecond, nanoseconds]
    omega
  obtain ⟨last, hlast⟩ := hruns everySecond ticks_everySecond hadvance
  refine ⟨⟨hreach, takesAll_wire, rfl, rfl, hw, hw', hh, hh', hmax⟩, streamer, tiles, hok, htiles,
    last, fun steps hsteps => ?_⟩
  have hran := SatisfiesM_Id_eq.mp (hlast steps).run
  exact hran.2 hsteps

end LedWall
