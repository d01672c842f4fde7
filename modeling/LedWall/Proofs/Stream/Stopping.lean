import LedWall.Proofs.Stream.Sessions

/-!
# Stopping

Stop is for the session that is at work when it is raised. That session does little more, and later
ones are as they would have been without it.
-/

namespace LedWall

open Fallible

/-- What stop is to prevent. -/
inductive Deed where
  | request
  | transmission
deriving DecidableEq

def Turn.deeds {τ : Type} : Turn τ → List Deed
  | settle _ => []
  | hand .. => [.transmission]

theorem Turn.count_deeds_le {τ : Type} (turn : Turn τ) (deed : Deed) :
    turn.deeds.count deed ≤ 1 := by
  cases turn with
  | settle next => exact Nat.zero_le 1
  | hand w datagram rest => exact List.count_le_length

theorem Turn.request_not_mem_deeds {τ : Type} (turn : Turn τ) : .request ∉ turn.deeds := by
  cases turn <;> simp [deeds]

namespace Worker

variable {τ : Type}

/-- How often a worker can still do a deed once stop is raised: what it has set out to do. -/
def allowance (w : Worker τ) : Nat :=
  match w.phase with
  | .requesting _ => 1
  | _ => 0

def Halting (w : Worker τ) (stop : Bool) : Prop := stop = true ∨ w.isEnded = true

section Left

variable [Fallible τ]

def left (turn : Turn τ) : Nat := (turn.after.map allowance).getD 0

theorem left_offer (w : Worker τ) (now : Nat) (datagrams : List (List UInt8)) :
    left (w.offer now datagrams) = 0 := by
  cases datagrams with
  | nil => rfl
  | cons datagram rest =>
      rw [offer, left, Turn.after]
      cases attempt w.target datagram <;> rfl

end Left

variable [Png.Codec]

/-- What a worker does in its next step. The datagrams after the first of a frame belong to a
transmission that has begun. -/
def deeds (w : Worker τ) (moment : Moment) : List Deed :=
  match w.phase with
  | .sending _ _ => []
  | .requesting _ => .request :: (w.turn moment).deeds
  | _ => (w.turn moment).deeds

theorem count_deeds_le (w : Worker τ) (moment : Moment) (deed : Deed) :
    (w.deeds moment).count deed ≤ 1 := by
  have hturn := (w.turn moment).count_deeds_le deed
  unfold deeds
  split
  next => exact Nat.zero_le 1
  next =>
    cases deed with
    | request => simp [List.count_eq_zero.mpr (Turn.request_not_mem_deeds _)]
    | transmission => rwa [List.count_cons_of_ne (by decide)]
  next => exact hturn

theorem Halting.deeds_eq_nil {w : Worker τ} {moment : Moment} (h : w.Halting moment.stop)
    (hw : w.allowance = 0) : w.deeds moment = [] := by
  have hmove := w.moves moment
  unfold deeds
  generalize w.turn moment = turn at hmove ⊢
  cases hmove with
  | noFrame hp | unwritable hp | first hp | pace hp =>
      rw [allowance, hp] at hw
      cases hw
  | due hp hstop =>
      rcases h with h | h
      · exact absurd h hstop
      · simp [isEnded, hp] at h
  | crashed hp | accepted hp | failed hp => rw [hp]
  | ended hp | finish hp | stop hp | request hp | drop hp | early hp =>
      rw [hp]
      rfl

variable [Fallible τ]

/-- A worker sets out to something only where it would have heeded stop. -/
theorem left_turn (w : Worker τ) (moment : Moment) : left (w.turn moment) = 0 ∨
    left (w.turn moment) = 1 ∧ w.deeds moment = [] ∧ ¬ w.Halting moment.stop := by
  have hmove := w.moves moment
  unfold deeds
  generalize w.turn moment = turn at hmove ⊢
  cases hmove with
  | request hp hdue hstop =>
      obtain ⟨-, -, -, hrequesting⟩ := w.request_keeps
      have hleft : left (.settle (some w.request)) = w.request.allowance := rfl
      refine .inr ⟨?_, ?_, ?_⟩
      · rw [hleft, allowance, hrequesting]
      · rw [hp, Turn.deeds]
      · simpa [Halting, isEnded, hp] using hstop
  | ended hp | early hp =>
      left
      simp [left, Turn.after, allowance, hp]
  | first hp | due hp | accepted hp => exact .inl (left_offer _ _ _)
  | finish | stop | noFrame | unwritable | pace | drop | crashed | failed => exact .inl rfl

theorem count_deeds_add_left (w : Worker τ) (moment : Moment) (deed : Deed) :
    (w.deeds moment).count deed + left (w.turn moment) ≤ 1 := by
  rcases w.left_turn moment with hleft | ⟨hleft, hnone, -⟩
  · rw [hleft]
    exact w.count_deeds_le moment deed
  · rw [hleft, hnone, List.count_nil]

theorem Halting.count_deeds_add_left {w : Worker τ} {moment : Moment} (h : w.Halting moment.stop)
    (deed : Deed) : (w.deeds moment).count deed + left (w.turn moment) ≤ w.allowance := by
  have hleft : left (w.turn moment) = 0 := by
    rcases w.left_turn moment with hleft | ⟨-, -, hgo⟩
    · exact hleft
    · exact absurd h hgo
  rw [hleft, Nat.add_zero]
  rcases Nat.eq_zero_or_pos w.allowance with hw | hw
  · rw [h.deeds_eq_nil hw, List.count_nil]
    exact Nat.zero_le _
  · exact Nat.le_trans (w.count_deeds_le moment deed) hw

end Worker

namespace Session

variable {τ : Type}

def allowance : Session τ → Nat
  | working w _ => w.allowance
  | crashed => 0

def Halting : Session τ → Prop
  | working w stop => w.Halting stop
  | crashed => True

theorem allowance_le (session : Session τ) : session.allowance ≤ 1 := by
  cases session with
  | working w stop =>
      rw [allowance, Worker.allowance]
      split <;> simp
  | crashed => exact Nat.zero_le 1

theorem allowance_raised (session : Session τ) : session.raised.allowance = session.allowance := by
  cases session <;> rfl

theorem halting_raised (session : Session τ) : session.raised.Halting := by
  cases session with
  | working w stop => exact .inl rfl
  | crashed => trivial

variable [Png.Codec]

def deeds (now : Nat) : Session τ → List Deed
  | working w stop => w.deeds ⟨now, stop⟩
  | crashed => []

variable [Fallible τ]

theorem allowance_stepped (now : Nat) (w : Worker τ) (stop : Bool) :
    (stepped now (.working w stop)).allowance = Worker.left (w.turn ⟨now, stop⟩) := by
  rw [stepped, Worker.left]
  cases (w.turn ⟨now, stop⟩).after <;> rfl

theorem Halting.stepped {session : Session τ} (h : session.Halting) (now : Nat) :
    (session.stepped now).Halting := by
  cases session with
  | crashed => trivial
  | working w stop =>
      rcases h with h | h
      · rw [Session.stepped]
        cases (w.turn ⟨now, stop⟩).after with
        | none => trivial
        | some v => exact .inl h
      · have hover : (Session.working w stop).isOver := h
        obtain ⟨hsame, -⟩ := stepped_of_isOver hover now
        rw [hsame]
        exact .inr h

theorem count_deeds_add_allowance (session : Session τ) (now : Nat) (deed : Deed) :
    (session.deeds now).count deed + (session.stepped now).allowance ≤ 1 := by
  cases session with
  | crashed => exact Nat.zero_le 1
  | working w stop =>
      rw [allowance_stepped]
      exact w.count_deeds_add_left ⟨now, stop⟩ deed

theorem Halting.count_deeds_add_allowance {session : Session τ} (h : session.Halting) (now : Nat)
    (deed : Deed) :
    (session.deeds now).count deed + (session.stepped now).allowance ≤ session.allowance := by
  cases session with
  | crashed => exact Nat.le_refl 0
  | working w stop =>
      have hw : w.Halting (Moment.mk now stop).stop := h
      rw [allowance_stepped]
      exact hw.count_deeds_add_left deed

end Session

namespace Scene

variable {τ : Type} [Png.Codec]

def deeds (s : Scene τ) (n : Nat) : Event → List Deed
  | .work m now => if m = n then (s.sessions[n]?.map (Session.deeds now)).getD [] else []
  | .start .. | .stop | .wait => []

theorem deeds_eq_nil {event : Event} {n : Nat} (s : Scene τ) (h : ∀ now, event ≠ .work n now) :
    s.deeds n event = [] := by
  cases event with
  | work m now =>
      have hm : m ≠ n := fun hm => h now (by rw [hm])
      exact if_neg hm
  | start | stop | wait => rfl

theorem deeds_work (s : Scene τ) (n now : Nat) :
    s.deeds n (.work n now) = (s.sessions[n]?.map (Session.deeds now)).getD [] := if_pos rfl

variable [Fallible τ]

def deedsOf (s : Scene τ) (n : Nat) : List Event → List Deed
  | [] => []
  | event :: more => s.deeds n event ++ (s.next event).deedsOf n more

theorem run_cons (s : Scene τ) (event : Event) (more : List Event) :
    s.run (event :: more) = (s.next event).run more := rfl

theorem run_append (s : Scene τ) (events more : List Event) :
    s.run (events ++ more) = (s.run events).run more := List.foldl_append

theorem deedsOf_append (s : Scene τ) (n : Nat) (events more : List Event) :
    s.deedsOf n (events ++ more) = s.deedsOf n events ++ (s.run events).deedsOf n more := by
  induction events generalizing s with
  | nil => rfl
  | cons event events ih =>
      rw [List.cons_append, deedsOf, deedsOf, ih, run_cons, List.append_assoc]

theorem count_deedsOf_le {s : Scene τ} {n : Nat} {session : Session τ}
    (hsession : s.sessions[n]? = some session) (hhalt : session.Halting) (events : List Event)
    (deed : Deed) : (s.deedsOf n events).count deed ≤ session.allowance := by
  -- Halting stays, and each deed is paid for out of the allowance.
  induction events generalizing s session with
  | nil => exact Nat.zero_le _
  | cons event more ih =>
      have hpassage := s.passage n event
      rw [deedsOf, List.count_append]
      generalize hafter : (s.next event).sessions[n]? = after at hpassage
      rw [hsession] at hpassage
      cases hpassage with
      | same _ hevent =>
          rw [s.deeds_eq_nil hevent, List.count_nil, Nat.zero_add]
          exact ih hafter hhalt
      | raised _ hevent =>
          have hmore := ih hafter session.halting_raised
          rw [session.allowance_raised] at hmore
          have hdeeds : s.deeds n event = [] := by rw [hevent, deeds]
          rw [hdeeds, List.count_nil, Nat.zero_add]
          exact hmore
      | stepped _ now hevent =>
          have hmore := ih hafter (hhalt.stepped now)
          have hstep := hhalt.count_deeds_add_allowance now deed
          have hdeeds : s.deeds n event = session.deeds now := by
            rw [hevent, deeds_work, hsession]
            rfl
          rw [hdeeds]
          omega

theorem deedsOf_of_resting {s : Scene τ} {n : Nat} {events : List Event}
    (h : ∀ now, .work n now ∉ events) : s.deedsOf n events = [] ∧
      ∀ session, s.sessions[n]? = some session → ∃ session',
        (s.run events).sessions[n]? = some session' ∧ session'.allowance = session.allowance := by
  induction events generalizing s with
  | nil => exact ⟨rfl, fun session hsession => ⟨session, hsession, rfl⟩⟩
  | cons event more ih =>
      have hevent : ∀ now, event ≠ .work n now := by
        intro now heq
        exact h now (heq ▸ List.mem_cons_self)
      have hmore : ∀ now, .work n now ∉ more := fun now hmem => h now (List.mem_cons_of_mem _ hmem)
      obtain ⟨hnone, hkept⟩ := ih (s := s.next event) hmore
      refine ⟨?_, fun session hsession => ?_⟩
      · rw [deedsOf, s.deeds_eq_nil hevent, hnone]
        rfl
      · have hpassage := s.passage n event
        rw [run_cons]
        generalize hafter : (s.next event).sessions[n]? = after at hpassage
        rw [hsession] at hpassage
        cases hpassage with
        | same => exact hkept session hafter
        | raised =>
            obtain ⟨session', hrun, hallowance⟩ := hkept _ hafter
            exact ⟨session', hrun, hallowance.trans session.allowance_raised⟩
        | stepped _ now hwork => exact absurd hwork (hevent now)

def Running (s : Scene τ) (n : Nat) : Prop := s.streamer.isRunning = true ∧ n = s.past.length

theorem Running.raised {s : Scene τ} {n : Nat} (h : s.Running n) : ∃ session,
    s.sessions[n]? = some session ∧ (s.next .stop).sessions[n]? = some session.raised := by
  obtain ⟨hrun, rfl⟩ := h
  rw [getElem?_sessions_current, next, s.streamer.stop_eq, getElem?_sessions, if_pos rfl]
  obtain ⟨⟨target, _ | session⟩, past, log⟩ := s
  · cases hrun
  · exact ⟨session, rfl, rfl⟩

/-- Counted from the last step that its worker takes before a stop, a session does each deed once at
most. -/
theorem count_deedsOf_stop_le (s : Scene τ) {n : Nat} {event : Event} {resting : List Event}
    (hresting : ∀ now, .work n now ∉ resting) (hrun : (s.run (event :: resting)).Running n)
    (more : List Event) (deed : Deed) :
    (s.deedsOf n (event :: resting ++ .stop :: more)).count deed ≤ 1 := by
  rw [run_cons] at hrun
  obtain ⟨hnone, hkept⟩ := deedsOf_of_resting (s := s.next event) hresting
  obtain ⟨session, hsession, hraised⟩ := hrun.raised
  have hmore := count_deedsOf_le hraised session.halting_raised more deed
  have hall : s.deedsOf n (event :: resting ++ .stop :: more) = s.deeds n event ++
      (((s.next event).run resting).next .stop).deedsOf n more := by
    rw [List.cons_append, deedsOf, deedsOf_append, hnone]
    rfl
  rw [session.allowance_raised] at hmore
  rw [hall, List.count_append]
  have hpassage := s.passage n event
  generalize hbefore : s.sessions[n]? = before at hpassage
  generalize hafter : (s.next event).sessions[n]? = after at hpassage
  cases hpassage with
  | same _ hevent =>
      rw [s.deeds_eq_nil hevent, List.count_nil, Nat.zero_add]
      exact Nat.le_trans hmore session.allowance_le
  | begun _ _ _ _ hevent | raised _ hevent =>
      have hdeeds : s.deeds n event = [] := by rw [hevent, deeds]
      rw [hdeeds, List.count_nil, Nat.zero_add]
      exact Nat.le_trans hmore session.allowance_le
  | stepped _ now hevent =>
      have hdeeds : s.deeds n event = (before.map (Session.deeds now)).getD [] := by
        rw [hevent, deeds_work, hbefore]
      rw [hdeeds]
      cases before with
      | none =>
          rw [Option.map_none, Option.getD_none, List.count_nil, Nat.zero_add]
          exact Nat.le_trans hmore session.allowance_le
      | some working =>
          obtain ⟨session', hsession', hallowance⟩ := hkept _ hafter
          obtain rfl : session = session' := Option.some.inj (hsession.symm.trans hsession')
          have hstep := working.count_deeds_add_allowance now deed
          rw [Option.map_some, Option.getD_some]
          omega

end Scene

end LedWall
