import LedWall.Proofs.Frame.Budget
import LedWall.Proofs.Stream.Turn
import LedWall.Link.Loopback
import LedWall.Stream.Streamer
import LedWall.Surface.Panel
import Mathlib

/-!
# No datagram too long for a link

A link refuses datagrams beyond the largest that fits a packet. Panels and streaming sessions hold
the limit of their tiles down to that size, so a link never refuses what they cut, whatever limit was
asked for.
-/

namespace LedWall

def FitsLink (answer : Except TransmissionError Unit) : Prop :=
  ∀ size max, answer ≠ .error (.oversize size max)

section Delivery

variable {m : Type → Type} [Monad m] [LawfulMonad m] {σ : Type} [Network m σ]

theorem Link.transmit_fits {l : Link σ} {datagram : List UInt8}
    (h : datagram.length ≤ maxDatagramSize) :
    SatisfiesM FitsLink (l.transmit datagram : m _) := by
  unfold transmit
  rw [if_neg (Nat.not_lt.mpr h)]
  cases l.socket with
  | none => exact .pure nofun
  | some socket =>
      refine SatisfiesM.trivial.bind fun answer _ => ?_
      cases answer with
      | error reason => exact .pure nofun
      | ok sent =>
          dsimp only
          split
          · exact .pure nofun
          · exact .pure nofun

theorem Link.transmission_fits {l : Link σ} {datagram : List UInt8}
    (h : datagram.length ≤ maxDatagramSize) :
    SatisfiesM (fun answer => FitsLink answer.1) (Transport.transmit l datagram : m _) :=
  (transmit_fits h).bind fun _ hanswer => .pure hanswer

theorem Link.transmitAll_fits {datagrams : List (List UInt8)}
    (h : ∀ d ∈ datagrams, d.length ≤ maxDatagramSize) (l : Link σ) :
    SatisfiesM (fun answer => FitsLink answer.1) (Transport.transmitAll l datagrams : m _) := by
  induction datagrams generalizing l with
  | nil => exact .pure nofun
  | cons datagram more ih =>
      obtain ⟨hfirst, hmore⟩ := List.forall_mem_cons.mp h
      rw [Transport.transmitAll]
      refine (transmission_fits hfirst).bind fun answer hanswer => ?_
      obtain ⟨outcome, l⟩ := answer
      cases outcome with
      | error e => exact .pure hanswer
      | ok _ => exact ih hmore l

end Delivery

namespace Panel

/-- The panels that can be made. The picture and the transport may be exchanged at any time, as
drawing and sending do. -/
inductive Made {τ : Type} : Panel τ → Prop where
  | ofBuffer (buffer : FrameBuffer) (transport : τ) : Made (.ofBuffer buffer transport)
  | withMode {p : Panel τ} (h : Made p) (mode : FrameMode) : Made (p.withMode mode)
  | withMaxDatagram {p : Panel τ} (h : Made p) (maxDatagram : Nat) :
      Made (p.withMaxDatagram maxDatagram)
  | exchange {p : Panel τ} (h : Made p) (buffer : FrameBuffer) (transport : τ) :
      Made { p with buffer, transport }

theorem Made.maxDatagram_le {τ : Type} {p : Panel τ} (h : p.Made) :
    p.maxDatagram ≤ maxDatagramSize := by
  induction h with
  | ofBuffer buffer transport => exact le_refl _
  | withMode h mode ih => exact ih
  | withMaxDatagram h maxDatagram ih => exact Nat.min_le_right _ _
  | exchange h buffer transport ih => exact ih

variable {m : Type → Type} [Monad m] [LawfulMonad m] {σ : Type} [Network m σ]

theorem Made.send_fits {p : Panel (Link σ)} (h : p.Made) {place : Offset}
    (hmode : p.mode = .offset place) :
    SatisfiesM (fun sent => ∀ size max, sent.1 ≠ .error (.transmission (.oversize size max)))
      (p.send : m _) := by
  unfold send
  cases hd : p.datagrams with
  | error e => exact .pure nofun
  | ok datagrams =>
      have htiles : p.buffer.encodeTiles place p.maxDatagram = .ok datagrams := by
        rwa [Panel.datagrams, hmode] at hd
      have hfit : ∀ d ∈ datagrams, d.length ≤ maxDatagramSize := fun d hmem =>
        (FrameBuffer.length_le_of_encodeTiles htiles d hmem).trans h.maxDatagram_le
      refine (Link.transmitAll_fits hfit p.transport).bind fun answer hanswer => .pure ?_
      obtain ⟨outcome, l⟩ := answer
      intro size max hsent
      cases outcome with
      | ok _ => cases hsent
      | error e =>
          cases hsent
          exact hanswer size max rfl

end Panel

theorem StreamOptions.length_le_of_datagrams [Png.Codec] {options : StreamOptions}
    (hraw : options.format = .raw)
    {frame : FrameBuffer} {datagrams : List (List UInt8)}
    (h : options.datagrams frame = .ok datagrams) : ∀ d ∈ datagrams, d.length ≤ maxDatagramSize := by
  rw [StreamOptions.datagrams, hraw] at h
  intro d hd
  exact (FrameBuffer.length_le_of_encodeTiles h d hd).trans (Nat.min_le_right _ _)

/-- Datagrams that wait or are on their way fit a link, and no answer says otherwise. -/
def Phase.Fits : Phase → Prop
  | .boundary | .requesting _ | .ended _ => True
  | .pacing datagrams => ∀ d ∈ datagrams, d.length ≤ maxDatagramSize
  | .sending outcome rest => (∀ answer ∈ outcome, FitsLink answer) ∧
      ∀ d ∈ rest, d.length ≤ maxDatagramSize

structure Worker.Fits {τ : Type} (w : Worker τ) : Prop where
  raw : w.options.format = .raw
  phase : w.phase.Fits

def Turn.Fits {τ : Type} : Turn τ → Prop
  | .settle next => ∀ w ∈ next, w.Fits
  | .hand w datagram rest => w.options.format = .raw ∧
      ∀ d ∈ datagram :: rest, d.length ≤ maxDatagramSize

namespace Worker

variable {τ : Type}

theorem Fits.start (target : τ) (source : FrameSource) {options : StreamOptions}
    (hraw : options.format = .raw) (now : Nat) : (start target source options now).Fits :=
  ⟨hraw, trivial⟩

theorem fits_settle {w : Worker τ} (hraw : w.options.format = .raw) (hphase : w.phase.Fits) :
    (Turn.settle (some w)).Fits := by
  intro v hv
  obtain rfl := Option.mem_some.mp hv
  exact ⟨hraw, hphase⟩

theorem fits_offer {w : Worker τ} (hraw : w.options.format = .raw) (now : Nat)
    {datagrams : List (List UInt8)} (h : ∀ d ∈ datagrams, d.length ≤ maxDatagramSize) :
    (w.offer now datagrams).Fits := by
  cases datagrams with
  | nil => exact fits_settle hraw trivial
  | cons datagram rest => exact ⟨hraw, h⟩

theorem fits_begin {w : Worker τ} (hraw : w.options.format = .raw) (now : Nat)
    {datagrams : List (List UInt8)} (h : ∀ d ∈ datagrams, d.length ≤ maxDatagramSize) :
    (w.begin now datagrams).Fits := by
  refine fits_offer ?_ now h
  exact hraw

variable [Png.Codec]

theorem Fits.turn {w : Worker τ} (h : w.Fits) (moment : Moment) : (w.turn moment).Fits := by
  obtain ⟨hraw, hphase⟩ := h
  have hmove := w.moves moment
  generalize w.turn moment = t at hmove ⊢
  cases hmove with
  | ended hp | early hp => exact fits_settle hraw hphase
  | finish | stop | drop | failed | unwritable => exact fits_settle hraw trivial
  | request =>
      obtain ⟨-, -, hoptions, hrequesting⟩ := w.request_keeps
      exact fits_settle (hoptions ▸ hraw) (hrequesting ▸ trivial)
  | noFrame | crashed =>
      intro v hv
      cases hv
  | first hp hframe hd hfirst =>
      exact fits_begin hraw moment.now (StreamOptions.length_le_of_datagrams hraw hd)
  | pace hp hframe hd hfirst =>
      exact fits_settle hraw (StreamOptions.length_le_of_datagrams hraw hd)
  | due hp hstop hdue =>
      rw [hp] at hphase
      exact fits_begin hraw moment.now hphase
  | accepted hp =>
      rw [hp] at hphase
      exact fits_offer hraw moment.now hphase.2

variable {σ : Type} {m : Type → Type} [Monad m] [LawfulMonad m] [Network m σ]

theorem Fits.step {w : Worker (Link σ)} (h : w.Fits) (moment : Moment) :
    SatisfiesM (fun next => ∀ v ∈ next, v.Fits) (w.step moment : m _) := by
  rw [step_eq]
  have hfits := h.turn moment
  refine satisfiesM_take ?_ ?_
  · intro next hturn
    rwa [hturn] at hfits
  · intro v datagram rest hturn
    rw [hturn] at hfits
    obtain ⟨hraw, hall⟩ := hfits
    obtain ⟨hfirst, hrest⟩ := List.forall_mem_cons.mp hall
    refine (Link.transmission_fits hfirst).bind fun answer hanswer => .pure ⟨hraw, ?_, hrest⟩
    intro outcome houtcome
    rwa [← Option.mem_some.mp houtcome]

theorem Fits.run {w : Worker (Link σ)} (h : w.Fits) (moments : List Moment) :
    SatisfiesM (fun next => ∀ v ∈ next, ∀ size max rest,
      v.phase ≠ .sending (some (.error (.oversize size max))) rest) (w.run moments : m _) := by
  have hrun := satisfiesM_run (m := m) (fun v moment (hv : v.Fits) => hv.step moment) h moments
  refine hrun.imp fun hnext v hv size max rest hphase => ?_
  have hfits := (hnext v hv).phase
  rw [hphase] at hfits
  exact hfits.1 _ rfl size max rfl

end Worker

section Budget

variable (m : Type → Type) [Monad m] [LawfulMonad m] (σ : Type) [Network m σ] [Png.Codec]

/-- Tiling fails exactly if a row beside the kept bytes is too long. Otherwise the tiles keep to the
limit and are as few as rows of that length allow. No panel that sends offset frames and no session
that streams raw frames hears from its link that a datagram was too long. -/
theorem datagrams_within_budget {width height : UInt32} (hw : 0 < width.toNat)
    (hh : 0 < height.toNat) {pixels : List Color}
    (hp : pixels.length = width.toNat * height.toNat) (offset : Offset) (maxDatagram : Nat) :
    (Frame.encodeTiles width height offset pixels maxDatagram =
        .error (.rowTooWide (width.toNat * 3) maxDatagram) ↔
      maxDatagram < 3 * width.toNat + 64) ∧
    (3 * width.toNat + 64 ≤ maxDatagram → ∃ tiles,
      Frame.encodeTiles width height offset pixels maxDatagram = .ok tiles ∧
      (∀ t ∈ tiles, t.length ≤ maxDatagram) ∧
      tiles.length = height.toNat ⌈/⌉ ((maxDatagram - 64) / (3 * width.toNat)) ∧
      (tiles.length = 1 ↔ 3 * width.toNat * height.toNat + 64 ≤ maxDatagram) ∧
      ((∃ whole, Frame.encodeOffset width height offset pixels = .ok whole ∧ tiles = [whole]) ↔
        3 * width.toNat * height.toNat + 64 ≤ maxDatagram)) ∧
    (∀ (p : Panel (Link σ)) (place : Offset), p.Made → p.mode = .offset place →
      SatisfiesM (fun sent => ∀ size max, sent.1 ≠ .error (.transmission (.oversize size max)))
        (p.send : m _)) ∧
    ∀ (link : Link σ) (source : FrameSource) (options : StreamOptions) (now : Nat)
      (moments : List Moment), options.format = .raw →
      SatisfiesM (fun next => ∀ w ∈ next, ∀ size max rest,
        w.phase ≠ .sending (some (.error (.oversize size max))) rest)
        ((Worker.start link source options now).run moments : m _) := by
  refine ⟨Frame.encodeTiles_eq_rowTooWide_iff hw hh hp offset, fun hmax => ?_,
    fun p place hmade hmode => hmade.send_fits hmode,
    fun link source options now moments hraw => (Worker.Fits.start link source hraw now).run moments⟩
  obtain ⟨tiles, hok, hcount, hwhole⟩ := Frame.exists_encodeTiles hw hh hp offset hmax
  exact ⟨tiles, hok, Frame.length_le_of_encodeTiles hw hh hok, hcount, hwhole⟩

end Budget

theorem datagrams_within_budget_two_tiles :
    (0 < (2 : UInt32).toNat ∧ 0 < (3 : UInt32).toNat ∧
      (List.replicate 6 Color.black).length = (2 : UInt32).toNat * (3 : UInt32).toNat) ∧
    ∃ tiles, Frame.encodeTiles 2 3 .zero (List.replicate 6 .black) 76 = .ok tiles ∧
      (∀ t ∈ tiles, t.length ≤ 76) ∧ tiles.length = 2 := by
  have hsides : 0 < (2 : UInt32).toNat ∧ 0 < (3 : UInt32).toNat := by decide
  have hp : (List.replicate 6 Color.black).length = (2 : UInt32).toNat * (3 : UInt32).toNat := rfl
  obtain ⟨-, hcut, -⟩ := datagrams_within_budget (StateM Loopback) Loopback.Socket
    hsides.1 hsides.2 hp .zero 76
  obtain ⟨tiles, hok, hfit, hcount, -⟩ := hcut (by decide)
  refine ⟨⟨hsides.1, hsides.2, hp⟩, tiles, hok, hfit, ?_⟩
  rw [hcount, Nat.ceilDiv_eq_add_pred_div]
  rfl

end LedWall
