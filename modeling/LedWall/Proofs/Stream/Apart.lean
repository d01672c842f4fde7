import LedWall.Proofs.Stream.Stopping

/-!
# Stop belongs to one session

A session ends early only if stop was raised while it was at work. Stop at any other time leaves
nothing behind but a flag that no worker looks at any more.
-/

namespace LedWall

open Fallible

namespace Worker

variable {τ : Type}

/-- The worker counts as stopped early, or has ended so. -/
def Early (w : Worker τ) : Prop := w.summary.stoppedEarly = true ∨
  ∃ summary, w.phase = .ended (.ok summary) ∧ summary.stoppedEarly = true

theorem summary_request (w : Worker τ) : w.request.summary = w.summary := by
  unfold request
  dsimp only
  split_ifs <;> rfl

theorem stoppedEarly_concluded (w : Worker τ) (now : Nat) (accepted : Bool) :
    (w.concluded now accepted).summary.stoppedEarly = w.summary.stoppedEarly := by
  cases accepted <;> rfl

theorem Early.of_phase {w : Worker τ} (h : w.Early)
    (hp : ∀ result, w.phase ≠ .ended result) : w.summary.stoppedEarly = true := by
  rcases h with h | ⟨summary, hended, -⟩
  · exact h
  · exact absurd hended (hp _)

variable [Fallible τ]

theorem Early.of_offer {w v : Worker τ} {now : Nat} {datagrams : List (List UInt8)}
    (h : v.Early) (hv : (w.offer now datagrams).after = some v) : w.Early := by
  left
  cases datagrams with
  | nil =>
      cases hv
      rw [← w.stoppedEarly_concluded now true]
      exact h.of_phase (by rintro _ ⟨⟩)
  | cons datagram rest =>
      rw [offer, Turn.after] at hv
      cases hv
      generalize attempt w.target datagram = answer at h
      cases answer <;> exact h.of_phase (by rintro _ ⟨⟩)

variable [Png.Codec]

theorem Early.of_turn {w v : Worker τ} {moment : Moment} (h : v.Early)
    (hv : (w.turn moment).after = some v) : w.Early ∨ moment.stop = true ∧ w.isEnded = false := by
  have hmove := w.moves moment
  generalize w.turn moment = turn at hmove hv
  cases hmove with
  | ended | early =>
      cases hv
      exact .inl h
  | finish =>
      cases hv
      rcases h with h | ⟨summary, hended, h⟩
      · exact .inl (.inl h)
      · cases hended
        exact .inl (.inl h)
  | stop hp hdue hstop => exact .inr ⟨hstop, by rw [isEnded, hp]⟩
  | drop hp hstop => exact .inr ⟨hstop, by rw [isEnded, hp]⟩
  | request =>
      cases hv
      obtain ⟨-, -, -, hrequesting⟩ := w.request_keeps
      left
      left
      rw [← w.summary_request]
      exact h.of_phase (by simp [hrequesting])
  | noFrame | crashed => cases hv
  | unwritable =>
      cases hv
      rcases h with h | ⟨summary, hended, -⟩
      · exact .inl (.inl h)
      · cases hended
  | pace =>
      cases hv
      exact .inl (.inl (h.of_phase (by rintro _ ⟨⟩)))
  | failed =>
      cases hv
      left
      left
      rw [← w.stoppedEarly_concluded moment.now false]
      exact h.of_phase (by rintro _ ⟨⟩)
  | first | due =>
      have hbegun : Early { w with lastStart := some moment.now } := h.of_offer hv
      exact .inl hbegun
  | accepted => exact .inl (h.of_offer hv)

end Worker

namespace Session

variable {τ : Type}

/-- A session at work for which stop is raised, or one that has been stopped early. -/
def Marked : Session τ → Prop
  | working w stop => stop = true ∧ w.isEnded = false ∨ w.Early
  | crashed => False

theorem not_marked_start (target : τ) (source : FrameSource) (options : StreamOptions) (now : Nat) :
    ¬ Marked (.working (.start target source options now) false) := by
  rintro (⟨hstop, -⟩ | h | ⟨summary, hended, -⟩)
  · cases hstop
  · cases h
  · cases hended

theorem Marked.of_raised {session : Session τ} (h : session.raised.Marked) :
    session.Marked ∨ session.isOver = false := by
  cases session with
  | crashed => exact .inl h
  | working w stop =>
      rcases h with ⟨-, hw⟩ | hearly
      · exact .inr hw
      · exact .inl (.inr hearly)

theorem Marked.of_stepped [Fallible τ] [Png.Codec] {session : Session τ} {now : Nat}
    (h : (session.stepped now).Marked) : session.Marked := by
  cases hover : session.isOver with
  | true => rwa [(stepped_of_isOver hover now).1] at h
  | false =>
      cases session with
      | crashed => cases hover
      | working w stop =>
          rw [stepped] at h
          cases hafter : (w.turn ⟨now, stop⟩).after with
          | none =>
              rw [hafter] at h
              cases h
          | some v =>
              rw [hafter] at h
              rcases h with ⟨hstop, -⟩ | hearly
              · exact .inl ⟨hstop, hover⟩
              · rcases hearly.of_turn hafter with hearly | hstop
                · exact .inr hearly
                · exact .inl hstop

end Session

namespace Scene

variable {τ : Type}

theorem running_of_session {s : Scene τ} {n : Nat} {session : Session τ}
    (hsession : s.sessions[n]? = some session) (hn : n = s.past.length)
    (hover : session.isOver = false) : s.Running n := by
  rw [hn, getElem?_sessions_current] at hsession
  refine ⟨?_, hn⟩
  obtain ⟨⟨target, _ | ⟨w, stop⟩ | _⟩, past, log⟩ := s
  · cases hsession
  · cases hsession
    have hw : w.isEnded = false := hover
    rw [Streamer.isRunning_working, hw, Bool.not_false]
  · cases hsession
    cases hover

variable [Fallible τ] [Png.Codec]

/-- Stop was raised while session `n` was at work. -/
def StoppedDuring (t : τ) (events : List Event) (n : Nat) : Prop :=
  ∃ before after, events = before ++ .stop :: after ∧ ((ofTarget t).run before).Running n

theorem StoppedDuring.append {t : τ} {events : List Event} {n : Nat} (h : StoppedDuring t events n)
    (more : List Event) : StoppedDuring t (events ++ more) n := by
  obtain ⟨before, after, rfl, hrun⟩ := h
  exact ⟨before, after ++ more, by rw [List.append_assoc, List.cons_append], hrun⟩

theorem stoppedDuring_of_marked {t : τ} {events : List Event} {n : Nat} {session : Session τ}
    (hsession : ((ofTarget t).run events).sessions[n]? = some session) (h : session.Marked) :
    StoppedDuring t events n := by
  -- From the end of the run back to the event that has marked the session.
  induction events using List.reverseRecOn generalizing session with
  | nil => cases hsession
  | append_singleton events event ih =>
      rw [run_append] at hsession
      have hpassage := ((ofTarget t).run events).passage n event
      generalize hafter : (((ofTarget t).run events).next event).sessions[n]? = after at hpassage
      generalize hbefore : ((ofTarget t).run events).sessions[n]? = before at hpassage
      have hsome : after = some session := hafter.symm.trans hsession
      cases hpassage with
      | same => exact (ih (hbefore.trans hsome) h).append [event]
      | begun =>
          cases hsome
          exact absurd h (Session.not_marked_start _ _ _ _)
      | raised old hevent hn =>
          cases hsome
          rcases h.of_raised with hmarked | hover
          · exact (ih hbefore hmarked).append [event]
          · exact ⟨events, [], by rw [hevent], running_of_session hbefore hn hover⟩
      | stepped =>
          obtain ⟨old, rfl, rfl⟩ := Option.map_eq_some_iff.mp hsome
          exact (ih hbefore h.of_stepped).append [event]

end Scene

namespace Session

variable {τ : Type}

def settled : Session τ → Session τ
  | working w stop => working w (stop && !w.isEnded)
  | crashed => crashed

theorem isOver_settled (session : Session τ) : session.settled.isOver = session.isOver := by
  cases session <;> rfl

theorem settled_settled (session : Session τ) : session.settled.settled = session.settled := by
  cases session with
  | working w stop => simp [settled]
  | crashed => rfl

theorem settled_of_not_isOver {session : Session τ} (h : session.isOver = false) :
    session.settled = session := by
  cases session with
  | working w stop =>
      have hw : w.isEnded = false := h
      rw [settled, hw, Bool.not_false, Bool.and_true]
  | crashed => rfl

theorem settled_raised {session : Session τ} (h : session.isOver = true) :
    session.raised.settled = session.settled := by
  cases session with
  | working w stop =>
      have hw : w.isEnded = true := h
      simp [raised, settled, hw]
  | crashed => rfl

theorem raised_settled (session : Session τ) :
    session.settled.raised.settled = session.raised.settled := by
  cases session <;> rfl

variable [Png.Codec]

theorem deeds_settled (session : Session τ) (now : Nat) :
    session.settled.deeds now = session.deeds now := by
  cases hover : session.isOver with
  | false => rw [settled_of_not_isOver hover]
  | true =>
      cases session with
      | crashed => rfl
      | working w stop =>
          obtain ⟨result, hp⟩ := Worker.isEnded_iff.mp hover
          simp [settled, deeds, Worker.deeds, Worker.turn, hp, Turn.deeds]

variable [Fallible τ]

theorem calls_settled (session : Session τ) (now : Nat) :
    session.settled.calls now = session.calls now := by
  cases hover : session.isOver with
  | false => rw [settled_of_not_isOver hover]
  | true =>
      have hsettled : session.settled.isOver = true := by rw [isOver_settled, hover]
      rw [(stepped_of_isOver hsettled now).2, (stepped_of_isOver hover now).2]

theorem stepped_settled (session : Session τ) (now : Nat) :
    (session.settled.stepped now).settled = (session.stepped now).settled := by
  cases hover : session.isOver with
  | false => rw [settled_of_not_isOver hover]
  | true =>
      have hsettled : session.settled.isOver = true := by rw [isOver_settled, hover]
      rw [(stepped_of_isOver hsettled now).1, (stepped_of_isOver hover now).1, settled_settled]

end Session

namespace Streamer

variable {τ : Type}

def settled (s : Streamer τ) : Streamer τ := ⟨s.target, s.session.map Session.settled⟩

theorem isRunning_settled (s : Streamer τ) : s.settled.isRunning = s.isRunning := by
  obtain ⟨target, _ | ⟨w, stop⟩ | _⟩ := s <;> rfl

theorem settled_of_session {s : Streamer τ} (h : s.session = none) : s.settled = s := by
  rw [settled, h, Option.map_none, ← h]

theorem settled_settled (s : Streamer τ) : s.settled.settled = s.settled := by
  obtain ⟨target, _ | session⟩ := s
  · rfl
  · exact congrArg (Streamer.mk target ∘ some) session.settled_settled

theorem wait?_settled (s : Streamer τ) : s.settled.wait? = s.wait? := by
  obtain ⟨target, _ | ⟨w, stop⟩ | _⟩ := s <;> rfl

theorem reap_settled {s : Streamer τ} (h : s.isRunning = false) : s.settled.reap = s.reap := by
  obtain ⟨answer, hwait⟩ := exists_wait? h
  have hsettled : s.settled.wait? = some answer := by rw [wait?_settled, hwait]
  rw [reap_of_wait? hsettled, reap_of_wait? hwait]

theorem start_settled (s : Streamer τ) (source : FrameSource) (options : StreamOptions)
    (now : Nat) :
    s.settled.start source options now =
      ((s.start source options now).1, (s.start source options now).2.settled) := by
  have hrunning := s.isRunning_settled
  cases hrun : s.isRunning with
  | true =>
      rw [hrun] at hrunning
      rw [start_of_isRunning options now hrunning, start_of_isRunning options now hrun]
  | false =>
      rw [hrun] at hrunning
      by_cases hsource : source.count = 0
      · rw [start_empty options now hrunning hsource, start_empty options now hrun hsource]
      · rw [start_of_reap options now hrunning hsource, start_of_reap options now hrun hsource,
          reap_settled hrun]
        cases s.reap.target with
        | none => rw [settled_of_session (reap_session hrun)]
        | some target => rfl

theorem stop_settled (s : Streamer τ) : s.settled.stop.settled = s.stop.settled := by
  obtain ⟨target, _ | session⟩ := s
  · rfl
  · rw [stop_eq, stop_eq]
    exact congrArg (Streamer.mk target ∘ some) session.raised_settled

theorem settled_stop {s : Streamer τ} (h : s.isRunning = false) : s.stop.settled = s.settled := by
  have hover := isOver_of_session h
  obtain ⟨target, _ | session⟩ := s
  · rfl
  · rw [stop_eq]
    exact congrArg (Streamer.mk target ∘ some) (Session.settled_raised (hover session rfl))

end Streamer

namespace Scene

variable {τ : Type}

/-- The scene without the flags that no worker looks at any more. -/
def settled (s : Scene τ) : Scene τ := ⟨s.streamer.settled, s.past.map Session.settled, s.log⟩

theorem sessions_settled (s : Scene τ) : s.settled.sessions = s.sessions.map Session.settled := by
  rw [sessions, sessions, List.map_append]
  obtain ⟨⟨target, _ | session⟩, past, log⟩ := s <;> rfl

theorem map_settled_settled (sessions : List (Session τ)) :
    (sessions.map Session.settled).map Session.settled = sessions.map Session.settled := by
  rw [List.map_map]
  exact List.map_congr_left fun session _ => session.settled_settled

theorem settled_ext {s s' : Scene τ} (hstreamer : s.streamer.settled = s'.streamer.settled)
    (hpast : s.past.map Session.settled = s'.past.map Session.settled) (hlog : s.log = s'.log) :
    s.settled = s'.settled := by
  rw [settled, settled, hstreamer, hpast, hlog]

theorem settled_settled (s : Scene τ) : s.settled.settled = s.settled :=
  settled_ext s.streamer.settled_settled (map_settled_settled s.past) rfl

theorem wait?_congr {s s' : Scene τ} (h : s.settled = s'.settled) :
    s.streamer.wait? = s'.streamer.wait? := by
  have hstreamer : s.streamer.settled = s'.streamer.settled := congrArg Scene.streamer h
  rw [← s.streamer.wait?_settled, hstreamer, s'.streamer.wait?_settled]

theorem start_settled (s : Scene τ) (source : FrameSource) (options : StreamOptions) (now : Nat) :
    (s.settled.start source options now).settled = (s.start source options now).settled := by
  have hstart : s.settled.streamer.start source options now = _ :=
    s.streamer.start_settled source options now
  rw [start, start, hstart, sessions_settled]
  obtain ⟨answer, streamer⟩ := s.streamer.start source options now
  have hkept := settled_settled ⟨streamer, s.past, s.log⟩
  have hgone := settled_settled ⟨streamer, s.sessions, s.log⟩
  cases answer with
  | error e => cases e <;> first | exact hkept | exact hgone
  | ok _ =>
      rw [List.length_map]
      exact settled_settled ⟨streamer, s.sessions, _⟩

theorem wait_settled (s : Scene τ) : s.settled.wait.settled = s.wait.settled := by
  have hwait : s.settled.streamer.wait? = s.streamer.wait? := s.streamer.wait?_settled
  rw [wait, wait, hwait, sessions_settled]
  cases s.streamer.wait? with
  | none => exact s.settled_settled
  | some answer => exact settled_ext rfl (map_settled_settled s.sessions) rfl

variable [Png.Codec]

theorem deeds_settled (s : Scene τ) (n : Nat) (event : Event) :
    s.settled.deeds n event = s.deeds n event := by
  cases event with
  | work m now =>
      rw [deeds, deeds, sessions_settled, List.getElem?_map, Option.map_map]
      congr 4
      funext session
      exact session.deeds_settled now
  | start | stop | wait => rfl

variable [Fallible τ]

theorem seen_settled (streamer : Streamer τ) (now : Nat) :
    seen streamer.settled now = seen streamer now := by
  obtain ⟨target, _ | session⟩ := streamer
  · rfl
  · have hsettled : Streamer.settled ⟨target, some session⟩ = ⟨target, some session.settled⟩ := rfl
    rw [hsettled, seen_eq, seen_eq, session.calls_settled, session.isOver_settled]
    cases hover : session.isOver with
    | true => rfl
    | false => rw [Session.settled_of_not_isOver hover]

theorem work_settled (s : Scene τ) (n now : Nat) :
    (s.settled.work n now).settled = (s.work n now).settled := by
  have hlength : s.settled.past.length = s.past.length := List.length_map _
  rcases Nat.lt_trichotomy n s.past.length with hlt | rfl | hgt
  · have hn : s.past[n]? = some s.past[n] := List.getElem?_eq_getElem hlt
    have hsettled : s.settled.past[n]? = some s.past[n].settled := by
      rw [settled, List.getElem?_map, hn, Option.map_some]
    have hseen : seen ⟨none, some s.past[n].settled⟩ now = seen ⟨none, some s.past[n]⟩ now :=
      seen_settled ⟨none, some s.past[n]⟩ now
    rw [work_of_past hn, work_of_past hsettled, hseen]
    refine settled_ext s.streamer.settled_settled ?_ rfl
    rw [List.map_set, List.map_set, Session.stepped_settled]
    exact congrArg (List.set · n _) (map_settled_settled s.past)
  · have hseen : seen s.settled.streamer now = seen s.streamer now := seen_settled s.streamer now
    rw [work_current, ← hlength, work_current, hlength, hseen]
    refine settled_ext ?_ (map_settled_settled s.past) rfl
    obtain ⟨⟨target, _ | session⟩, past, log⟩ := s
    · rfl
    · exact congrArg (Streamer.mk target ∘ some) (session.stepped_settled now)
  · rw [work_beyond hgt, work_beyond (hlength ▸ hgt), settled_settled]

theorem next_settled (s : Scene τ) (event : Event) :
    (s.settled.next event).settled = (s.next event).settled := by
  cases event with
  | start source options now => exact s.start_settled source options now
  | stop => exact settled_ext s.streamer.stop_settled (map_settled_settled s.past) rfl
  | wait => exact s.wait_settled
  | work n now => exact s.work_settled n now

theorem run_congr {s s' : Scene τ} (h : s.settled = s'.settled) (events : List Event) :
    (s.run events).settled = (s'.run events).settled ∧
      ∀ n, s.deedsOf n events = s'.deedsOf n events := by
  induction events generalizing s s' with
  | nil => exact ⟨h, fun n => rfl⟩
  | cons event more ih =>
      have hnext : (s.next event).settled = (s'.next event).settled := by
        rw [← s.next_settled, h, s'.next_settled]
      have hdeeds : ∀ n, s.deeds n event = s'.deeds n event := by
        intro n
        rw [← s.deeds_settled, h, s'.deeds_settled]
      obtain ⟨hrun, hmore⟩ := ih hnext
      refine ⟨hrun, fun n => ?_⟩
      rw [deedsOf, deedsOf, hdeeds, hmore]

theorem settled_next_stop {s : Scene τ} (h : s.streamer.isRunning = false) :
    (s.next .stop).settled = s.settled :=
  settled_ext (Streamer.settled_stop h) rfl rfl

end Scene

structure StopRules {τ : Type} [Fallible τ] [Png.Codec] (t : τ) (events : List Event) : Prop where
  /-- After a stop, the session at work calls the source once more at most and begins one more
  transmission at most, also if the last step that its worker took before, which may have been under
  way still, is counted in full. -/
  prompt : ∀ event resting more n, (∀ now, .work n now ∉ resting) →
    (((Scene.ofTarget t).run events).run (event :: resting)).Running n → ∀ deed,
    (((Scene.ofTarget t).run events).deedsOf n (event :: resting ++ .stop :: more)).count deed ≤ 1
  early : ∀ (n : Nat) (w : Worker τ) (stop : Bool) (summary : StreamSummary),
    ((Scene.ofTarget t).run events).sessions[n]? = some (.working w stop) →
    w.phase = .ended (.ok summary) → summary.stoppedEarly = true →
    ∃ before after, events = before ++ .stop :: after ∧ ((Scene.ofTarget t).run before).Running n
  /-- If no session is at work, then with a stop all goes on as without it: what the sessions do,
  the log, the workers with their summaries, and what a wait returns. -/
  apart : ((Scene.ofTarget t).run events).streamer.isRunning = false → ∀ more,
    (∀ n, ((Scene.ofTarget t).run events).deedsOf n (.stop :: more) =
      ((Scene.ofTarget t).run events).deedsOf n more) ∧
    ((Scene.ofTarget t).run (events ++ .stop :: more)).settled =
      ((Scene.ofTarget t).run (events ++ more)).settled ∧
    ((Scene.ofTarget t).run (events ++ .stop :: more)).streamer.wait? =
      ((Scene.ofTarget t).run (events ++ more)).streamer.wait?

/-- Stop is prompt, and it is for the session that is at work. -/
theorem stop_rules {τ : Type} [Fallible τ] [Png.Codec] (t : τ) (events : List Event) :
    StopRules t events where
  prompt event resting more n hresting hrun deed :=
    Scene.count_deedsOf_stop_le _ hresting hrun more deed
  early n w stop summary hsession hended hearly := by
    have hmarked : (Session.working w stop).Marked := .inr (.inr ⟨summary, hended, hearly⟩)
    exact Scene.stoppedDuring_of_marked hsession hmarked
  apart h more := by
    obtain ⟨hrun, hdeeds⟩ := Scene.run_congr (Scene.settled_next_stop h) more
    rw [Scene.run_append, Scene.run_append]
    exact ⟨hdeeds, hrun, Scene.wait?_congr hrun⟩

end LedWall
