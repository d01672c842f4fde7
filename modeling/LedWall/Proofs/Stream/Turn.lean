import LedWall.Stream.Worker
import Mathlib

/-!
# What a worker does in one step

A step of a worker either comes to a next state on its own or hands one datagram over, and which of
the two it does is known before the transport is asked.
-/

namespace LedWall

/-- What a worker is about to do: to go on without the transport, or to hand a datagram over with
more to follow. Without a next worker, it crashes. -/
inductive Turn (τ : Type) where
  | settle (next : Option (Worker τ))
  | hand (w : Worker τ) (datagram : List UInt8) (rest : List (List UInt8))

namespace Worker

variable {τ : Type}

def offer (w : Worker τ) (now : Nat) : List (List UInt8) → Turn τ
  | [] => .settle (some (w.concluded now true))
  | datagram :: rest => .hand w datagram rest

def begin (w : Worker τ) (now : Nat) (datagrams : List (List UInt8)) : Turn τ :=
  offer { w with lastStart := some now } now datagrams

theorem request_keeps (w : Worker τ) : w.request.target = w.target ∧
    w.request.source = w.source ∧ w.request.options = w.options ∧
    w.request.phase = .requesting w.index := by
  unfold request
  dsimp only
  split_ifs <;> exact ⟨rfl, rfl, rfl, rfl⟩

/-- The worker that has heard what became of the datagram it handed over. -/
def heard (w : Worker τ) (rest : List (List UInt8)) :
    Option (Except TransmissionError Unit × τ) → Worker τ
  | some (outcome, target) => { w with target, phase := .sending (some outcome) rest }
  | none => { w with phase := .sending none rest }

def held? (w : Worker τ) : Option τ :=
  match w.phase with
  | .sending none _ => none
  | _ => some w.target

theorem held?_heard (w : Worker τ) (rest : List (List UInt8))
    (answer : Option (Except TransmissionError Unit × τ)) :
    (w.heard rest answer).held? = answer.map Prod.snd := by
  cases answer <;> rfl

theorem isEnded_iff {w : Worker τ} : w.isEnded ↔ ∃ result, w.phase = .ended result := by
  rw [isEnded]
  cases w.phase <;> simp

theorem held?_of_isEnded {w : Worker τ} (h : w.isEnded) : w.held? = some w.target := by
  obtain ⟨result, hp⟩ := isEnded_iff.mp h
  rw [held?, hp]

/-- A turn leaves the transport where it is, or hands a datagram over to just that one. -/
def Keeps (held : Option τ) : Turn τ → Prop
  | .settle next => ∀ w ∈ next, w.held? = held
  | .hand w _ _ => held = some w.target

theorem keeps_offer (w : Worker τ) (now : Nat) (datagrams : List (List UInt8)) :
    Keeps (some w.target) (w.offer now datagrams) := by
  cases datagrams with
  | nil => exact fun v hv => by rw [← Option.mem_some.mp hv]; rfl
  | cons datagram rest => exact rfl

def EndsWell (w : Worker τ) : Prop :=
  ∀ e, w.phase = .ended (.error e) → ∃ index cause, e = .encode index cause

theorem endsWell_of_settle_offer {w v : Worker τ} {now : Nat} {datagrams : List (List UInt8)}
    (h : w.offer now datagrams = .settle (some v)) : v.EndsWell := by
  cases datagrams with
  | nil =>
      cases h
      rintro e ⟨⟩
  | cons datagram rest => cases h

theorem endsWell_heard (w : Worker τ) (rest : List (List UInt8))
    (answer : Option (Except TransmissionError Unit × τ)) : (w.heard rest answer).EndsWell := by
  cases answer <;> rintro e ⟨⟩

section Taking

variable {m : Type → Type} [Monad m] [Transport (OptionT m) τ]

def take : Turn τ → m (Option (Worker τ))
  | .settle next => return next
  | .hand w datagram rest => do
      return some (w.heard rest (← (Transport.transmit w.target datagram : OptionT m _).run))

variable [LawfulMonad m]

theorem handOver_eq (w : Worker τ) (now : Nat) (datagrams : List (List UInt8)) :
    (some <$> w.handOver now datagrams : m _) = take (w.offer now datagrams) := by
  cases datagrams with
  | nil => simp [handOver, offer, take]
  | cons datagram rest =>
      simp only [handOver, offer, take, map_bind]
      congr 1
      funext answer
      cases answer <;> simp [heard]

theorem satisfiesM_take {P : Worker τ → Prop} {turn : Turn τ}
    (hsettle : ∀ next, turn = .settle next → ∀ w ∈ next, P w)
    (hhand : ∀ w datagram rest, turn = .hand w datagram rest → SatisfiesM
      (fun answer => P (w.heard rest answer))
      (Transport.transmit w.target datagram : OptionT m _).run) :
    SatisfiesM (fun next => ∀ w ∈ next, P w) (take turn : m _) := by
  cases turn with
  | settle next => exact .pure (hsettle next rfl)
  | hand w datagram rest =>
      refine (hhand w datagram rest rfl).bind fun answer hanswer => .pure ?_
      intro v hv
      rwa [← Option.mem_some.mp hv]

end Taking

variable [Png.Codec]

def turn (w : Worker τ) (moment : Moment) : Turn τ :=
  match w.phase with
  | .ended _ => .settle (some w)
  | .boundary =>
      if w.elapsed ≤ w.timeout ∨ w.animating then
        if moment.stop then .settle (some w.stopEarly) else .settle (some w.request)
      else .settle (some w.finish)
  | .requesting index =>
      match w.source.frame (w.requests - 1) index with
      | none => .settle none
      | some frame =>
          match w.options.datagrams frame with
          | .error e => .settle (some { w with phase := .ended (.error (.encode index e)) })
          | .ok datagrams =>
              if w.lastStart.isNone then w.begin moment.now datagrams
              else .settle (some { w with phase := .pacing datagrams })
  | .pacing datagrams =>
      if moment.stop then .settle (some w.stopEarly)
      else if w.interval ≤ moment.now - w.lastStart.getD 0 then w.begin moment.now datagrams
      else .settle (some w)
  | .sending none _ => .settle none
  | .sending (some (.ok ())) rest => w.offer moment.now rest
  | .sending (some (.error _)) _ => .settle (some (w.concluded moment.now false))

section Unstopped

variable {w : Worker τ}

theorem turn_boundary (hp : w.phase = .boundary) (now : Nat) : w.turn ⟨now, false⟩ =
    .settle (some (if w.elapsed ≤ w.timeout ∨ w.animating then w.request else w.finish)) := by
  rw [turn, hp]
  dsimp only
  split_ifs <;> first | rfl | contradiction

theorem turn_pacing {datagrams : List (List UInt8)} (hp : w.phase = .pacing datagrams) (now : Nat) :
    w.turn ⟨now, false⟩ = if w.interval ≤ now - w.lastStart.getD 0 then w.begin now datagrams
      else .settle (some w) := by
  rw [turn, hp]
  exact if_neg Bool.false_ne_true

end Unstopped

/-- The turns of a worker, with all that is known of it when it takes them. -/
inductive Move (w : Worker τ) (moment : Moment) : Turn τ → Prop where
  | ended {result : Except StreamError StreamSummary} (hp : w.phase = .ended result) :
      Move w moment (.settle (some w))
  | finish (hp : w.phase = .boundary) (hover : ¬ (w.elapsed ≤ w.timeout ∨ w.animating)) :
      Move w moment (.settle (some w.finish))
  | stop (hp : w.phase = .boundary) (hdue : w.elapsed ≤ w.timeout ∨ w.animating)
      (hstop : moment.stop) : Move w moment (.settle (some w.stopEarly))
  | request (hp : w.phase = .boundary) (hdue : w.elapsed ≤ w.timeout ∨ w.animating)
      (hstop : ¬ moment.stop) : Move w moment (.settle (some w.request))
  | noFrame {index : Nat} (hp : w.phase = .requesting index)
      (hframe : w.source.frame (w.requests - 1) index = none) : Move w moment (.settle none)
  | unwritable {index : Nat} {frame : FrameBuffer} {e : FrameError}
      (hp : w.phase = .requesting index)
      (hframe : w.source.frame (w.requests - 1) index = some frame)
      (hd : w.options.datagrams frame = .error e) :
      Move w moment (.settle (some { w with phase := .ended (.error (.encode index e)) }))
  | first {index : Nat} {frame : FrameBuffer} {datagrams : List (List UInt8)}
      (hp : w.phase = .requesting index)
      (hframe : w.source.frame (w.requests - 1) index = some frame)
      (hd : w.options.datagrams frame = .ok datagrams) (hfirst : w.lastStart.isNone) :
      Move w moment (w.begin moment.now datagrams)
  | pace {index : Nat} {frame : FrameBuffer} {datagrams : List (List UInt8)}
      (hp : w.phase = .requesting index)
      (hframe : w.source.frame (w.requests - 1) index = some frame)
      (hd : w.options.datagrams frame = .ok datagrams) (hfirst : ¬ w.lastStart.isNone) :
      Move w moment (.settle (some { w with phase := .pacing datagrams }))
  | drop {datagrams : List (List UInt8)} (hp : w.phase = .pacing datagrams)
      (hstop : moment.stop) : Move w moment (.settle (some w.stopEarly))
  | due {datagrams : List (List UInt8)} (hp : w.phase = .pacing datagrams)
      (hstop : ¬ moment.stop) (hdue : w.interval ≤ moment.now - w.lastStart.getD 0) :
      Move w moment (w.begin moment.now datagrams)
  | early {datagrams : List (List UInt8)} (hp : w.phase = .pacing datagrams)
      (hstop : ¬ moment.stop) (hdue : ¬ w.interval ≤ moment.now - w.lastStart.getD 0) :
      Move w moment (.settle (some w))
  | crashed {rest : List (List UInt8)} (hp : w.phase = .sending none rest) :
      Move w moment (.settle none)
  | accepted {rest : List (List UInt8)} (hp : w.phase = .sending (some (.ok ())) rest) :
      Move w moment (w.offer moment.now rest)
  | failed {e : TransmissionError} {rest : List (List UInt8)}
      (hp : w.phase = .sending (some (.error e)) rest) :
      Move w moment (.settle (some (w.concluded moment.now false)))

theorem moves (w : Worker τ) (moment : Moment) : w.Move moment (w.turn moment) := by
  unfold turn
  split
  next result hp => exact .ended hp
  next hp =>
    split
    next hdue =>
      split
      next hstop => exact .stop hp hdue hstop
      next hstop => exact .request hp hdue hstop
    next hover => exact .finish hp hover
  next index hp =>
    split
    next hframe => exact .noFrame hp hframe
    next frame hframe =>
      split
      next e hd => exact .unwritable hp hframe hd
      next datagrams hd =>
        split
        next hfirst => exact .first hp hframe hd hfirst
        next hfirst => exact .pace hp hframe hd hfirst
  next datagrams hp =>
    split
    next hstop => exact .drop hp hstop
    next hstop =>
      split
      next hdue => exact .due hp hstop hdue
      next hdue => exact .early hp hstop hdue
  next rest hp => exact .crashed hp
  next rest hp => exact .accepted hp
  next e rest hp => exact .failed hp

theorem turn_of_isEnded {w : Worker τ} (h : w.isEnded) (moment : Moment) :
    w.turn moment = .settle (some w) := by
  obtain ⟨result, hp⟩ := isEnded_iff.mp h
  rw [turn, hp]

theorem keeps_turn (w : Worker τ) (moment : Moment) : Keeps w.held? (w.turn moment) := by
  have hsettle : ∀ v : Worker τ, v.held? = w.held? → Keeps w.held? (.settle (some v)) := by
    intro v hv u hu
    rwa [← Option.mem_some.mp hu]
  have hmove := w.moves moment
  generalize w.turn moment = t at hmove ⊢
  cases hmove with
  | ended hp | early hp => exact hsettle w rfl
  | unwritable hp | pace hp => exact hsettle _ (by rw [held?, held?, hp])
  | finish hp | stop hp | drop hp | failed hp => exact hsettle _ (by rw [held?, held?, hp]; rfl)
  | request hp =>
      obtain ⟨htarget, -, -, hrequesting⟩ := w.request_keeps
      refine hsettle _ ?_
      rw [held?, held?, hp, hrequesting, htarget]
  | noFrame | crashed =>
      intro v hv
      cases hv
  | first hp | due hp | accepted hp =>
      rw [held?, hp]
      exact keeps_offer _ _ _

theorem EndsWell.turn {w : Worker τ} (h : w.EndsWell) {moment : Moment} {v : Worker τ}
    (hturn : w.turn moment = .settle (some v)) : v.EndsWell := by
  have hmove := w.moves moment
  generalize w.turn moment = t at hmove hturn
  cases hmove with
  | ended | early =>
      cases hturn
      exact h
  | finish | stop | pace | drop | failed =>
      cases hturn
      rintro e ⟨⟩
  | unwritable =>
      cases hturn
      rintro e ⟨⟩
      exact ⟨_, _, rfl⟩
  | request =>
      cases hturn
      obtain ⟨-, -, -, hrequesting⟩ := w.request_keeps
      intro e hended
      rw [hrequesting] at hended
      cases hended
  | noFrame | crashed => cases hturn
  | first | due | accepted => exact endsWell_of_settle_offer hturn

variable {m : Type → Type} [Monad m] [Transport (OptionT m) τ]

def run (w : Worker τ) : List Moment → m (Option (Worker τ))
  | [] => return some w
  | moment :: more => do
      match ← w.step moment with
      | some w => w.run more
      | none => return none

section Lawful

variable [LawfulMonad m]

theorem step_eq (w : Worker τ) (moment : Moment) : (w.step moment : m _) = take (w.turn moment) := by
  have hgo : ∀ (v : Worker τ) ds, (do return some (← v.handOver moment.now ds) : m _) =
      take (v.offer moment.now ds) := by
    intro v ds
    rw [← handOver_eq, map_eq_pure_bind]
  rw [step, turn]
  obtain ⟨target, source, options, phase, requests, index, animating, startedAt, elapsed, lastStart,
    summary⟩ := w
  cases phase with
  | ended result => rfl
  | boundary =>
      dsimp only
      split
      · split <;> rfl
      · rfl
  | requesting index =>
      dsimp only
      cases source.frame (requests - 1) _ with
      | none => rfl
      | some frame =>
          dsimp only
          cases options.datagrams frame with
          | error e => rfl
          | ok datagrams =>
              dsimp only
              split
              · exact hgo _ _
              · rfl
  | pacing datagrams =>
      dsimp only
      split
      · rfl
      · split
        · exact hgo _ _
        · rfl
  | sending outcome rest =>
      cases outcome with
      | none => rfl
      | some outcome =>
          cases outcome with
          | error e => rfl
          | ok _ => exact hgo _ rest

theorem satisfiesM_run {P : Worker τ → Prop}
    (hstep : ∀ w moment, P w → SatisfiesM (fun next => ∀ v ∈ next, P v) (w.step moment : m _))
    {w : Worker τ} (h : P w) (moments : List Moment) :
    SatisfiesM (fun next => ∀ v ∈ next, P v) (w.run moments : m _) := by
  induction moments generalizing w with
  | nil =>
      refine .pure fun v hv => ?_
      rwa [← Option.mem_some.mp hv]
  | cons moment more ih =>
      rw [run]
      refine (hstep w moment h).bind fun next hnext => ?_
      cases next with
      | none => exact .pure fun v hv => nomatch hv
      | some v => exact ih (hnext v rfl)

end Lawful

end Worker

end LedWall
