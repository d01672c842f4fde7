import LedWall.Proofs.Stream.Scene

/-!
# One session among others

Sessions keep the numbers of their starts. Under any event the session of one number stays as it is,
begins, has stop raised for it, or takes a step.
-/

namespace LedWall

open Fallible

def Session.raised {τ : Type} : Session τ → Session τ
  | working w _ => working w true
  | crashed => crashed

namespace Streamer

variable {τ : Type}

theorem stop_eq (s : Streamer τ) : s.stop = ⟨s.target, s.session.map Session.raised⟩ := by
  obtain ⟨target, _ | ⟨w, stop⟩ | _⟩ := s <;> rfl

theorem session_of_wait? {s s' : Streamer τ} {result : Except StreamError StreamSummary}
    (h : s.wait? = some (result, s')) : s'.session = none := by
  obtain ⟨target, _ | ⟨w, stop⟩ | _⟩ := s
  · cases h
    rfl
  · by_cases hw : w.isEnded
    · obtain ⟨result', -, hwait⟩ := wait?_of_isEnded hw target stop
      rw [hwait] at h
      cases h
      rfl
    · rw [wait?_of_not_isEnded hw] at h
      cases h
  · cases h
    rfl

theorem exists_wait? {s : Streamer τ} (h : s.isRunning = false) :
    ∃ answer, s.wait? = some answer := by
  obtain ⟨target, _ | ⟨w, stop⟩ | _⟩ := s
  · exact ⟨_, rfl⟩
  · rw [isRunning_working, Bool.not_eq_false'] at h
    obtain ⟨result, -, hwait⟩ := wait?_of_isEnded h target stop
    exact ⟨_, hwait⟩
  · exact ⟨_, rfl⟩

theorem reap_session {s : Streamer τ} (h : s.isRunning = false) : s.reap.session = none := by
  obtain ⟨⟨result, s'⟩, hwait⟩ := exists_wait? h
  rw [reap_of_wait? hwait]
  exact session_of_wait? hwait

end Streamer

namespace Scene

variable {τ : Type}

theorem sessions_eq (streamer : Streamer τ) (past : List (Session τ)) (log : List (Entry τ)) :
    (⟨streamer, past, log⟩ : Scene τ).sessions = past ++ streamer.session.toList := rfl

theorem getElem?_sessions (s : Scene τ) (n : Nat) :
    s.sessions[n]? = if n = s.past.length then s.streamer.session else s.past[n]? := by
  rw [sessions]
  rcases Nat.lt_trichotomy n s.past.length with hlt | rfl | hgt
  · rw [List.getElem?_append_left hlt, if_neg (Nat.ne_of_lt hlt)]
  · rw [List.getElem?_append_right (Nat.le_refl _), Nat.sub_self, if_pos rfl]
    cases s.streamer.session <;> rfl
  · have hbeyond : (s.past ++ s.streamer.session.toList).length ≤ n := by
      rw [List.length_append]
      cases s.streamer.session with
      | none => exact Nat.le_of_lt hgt
      | some session => exact hgt
    rw [if_neg (Nat.ne_of_gt hgt), List.getElem?_eq_none hbeyond,
      List.getElem?_eq_none (Nat.le_of_lt hgt)]

theorem getElem?_sessions_current (s : Scene τ) :
    s.sessions[s.past.length]? = s.streamer.session := by
  rw [getElem?_sessions, if_pos rfl]

theorem sessions_start (s : Scene τ) (source : FrameSource) (options : StreamOptions) (now : Nat) :
    (s.start source options now).sessions = s.sessions ∨ ∃ target,
      (s.start source options now).sessions =
        s.sessions ++ [.working (.start target source options now) false] := by
  rw [start]
  cases hrun : s.streamer.isRunning with
  | true =>
      rw [Streamer.start_of_isRunning options now hrun]
      exact .inl rfl
  | false =>
      by_cases hsource : source.count = 0
      · rw [Streamer.start_empty options now hrun hsource]
        exact .inl rfl
      · rw [Streamer.start_of_reap options now hrun hsource]
        cases s.streamer.reap.target with
        | none =>
            left
            rw [sessions_eq, Streamer.reap_session hrun, Option.toList_none, List.append_nil]
        | some target => exact .inr ⟨target, rfl⟩

theorem sessions_wait (s : Scene τ) : s.wait.sessions = s.sessions := by
  rw [wait]
  cases hwait : s.streamer.wait? with
  | none => rfl
  | some answer =>
      obtain ⟨result, streamer⟩ := answer
      rw [sessions_eq, Streamer.session_of_wait? hwait, Option.toList_none, List.append_nil]

variable [Fallible τ] [Png.Codec]

theorem work_of_past {s : Scene τ} {n : Nat} {session : Session τ} (hn : s.past[n]? = some session)
    (now : Nat) : s.work n now = { s with
      past := s.past.set n (session.stepped now)
      log := s.log ++ (seen ⟨none, some session⟩ now).map (Entry.mk n) } := by
  rw [work, hn]
  dsimp only
  rw [(Streamer.yields_advance ⟨none, some session⟩ now).returned_eq]
  rfl

theorem getElem?_sessions_work (s : Scene τ) (m now n : Nat) : (s.work m now).sessions[n]? =
    if m = n then s.sessions[n]?.map (Session.stepped now) else s.sessions[n]? := by
  rcases Nat.lt_trichotomy m s.past.length with hlt | rfl | hgt
  · have hwork : (s.work m now).sessions = s.sessions.set m (s.past[m].stepped now) := by
      rw [work_of_past (List.getElem?_eq_getElem hlt), sessions_eq, sessions,
        List.set_append_left _ _ hlt]
    have hsession : s.sessions[m]? = some s.past[m] := by
      rw [getElem?_sessions, if_neg (Nat.ne_of_lt hlt), List.getElem?_eq_getElem hlt]
    rw [hwork]
    split
    next hm =>
      rw [← hm, hsession, List.getElem?_set_self (List.getElem?_eq_some_iff.mp hsession).1]
      rfl
    next hm => exact List.getElem?_set_ne hm
  · rw [work_current, getElem?_sessions, getElem?_sessions]
    by_cases hn : n = s.past.length
    · simp [hn]
    · simp [hn, Ne.symm hn]
  · rw [work_beyond hgt]
    split
    next hm =>
      rw [← hm, getElem?_sessions, if_neg (Nat.ne_of_gt hgt),
        List.getElem?_eq_none (Nat.le_of_lt hgt), Option.map_none]
    next => rfl

/-- What an event makes of the session of one number. -/
inductive Passage (s : Scene τ) (n : Nat) (event : Event) :
    Option (Session τ) → Option (Session τ) → Prop where
  | same (session? : Option (Session τ)) (hevent : ∀ now, event ≠ .work n now) :
      Passage s n event session? session?
  | begun (target : τ) (source : FrameSource) (options : StreamOptions) (now : Nat)
      (hevent : event = .start source options now) :
      Passage s n event none (some (.working (.start target source options now) false))
  | raised (session : Session τ) (hevent : event = .stop) (hn : n = s.past.length) :
      Passage s n event (some session) (some session.raised)
  | stepped (session? : Option (Session τ)) (now : Nat) (hevent : event = .work n now) :
      Passage s n event session? (session?.map (Session.stepped now))

theorem passage (s : Scene τ) (n : Nat) (event : Event) :
    Passage s n event s.sessions[n]? (s.next event).sessions[n]? := by
  cases event with
  | start source options now =>
      rw [next]
      rcases s.sessions_start source options now with hsame | ⟨target, hbegun⟩
      · rw [hsame]
        exact .same _ nofun
      · rw [hbegun]
        rcases Nat.lt_trichotomy n s.sessions.length with hlt | rfl | hgt
        · rw [List.getElem?_append_left hlt]
          exact .same _ nofun
        · rw [List.getElem?_concat_length, List.getElem?_eq_none (Nat.le_refl _)]
          exact .begun target source options now rfl
        · have hbeyond : (s.sessions ++
              [Session.working (.start target source options now) false]).length ≤ n := by
            rw [List.length_append]
            exact hgt
          rw [List.getElem?_eq_none hbeyond, List.getElem?_eq_none (Nat.le_of_lt hgt)]
          exact .same _ nofun
  | stop =>
      rw [next, s.streamer.stop_eq, getElem?_sessions, getElem?_sessions]
      dsimp only
      split
      next hn =>
        cases s.streamer.session with
        | none => exact .same _ nofun
        | some session => exact .raised session rfl hn
      next => exact .same _ nofun
  | wait =>
      rw [next, sessions_wait]
      exact .same _ nofun
  | work m now =>
      rw [next, getElem?_sessions_work]
      by_cases hm : m = n
      · rw [if_pos hm]
        exact .stepped _ now (by rw [hm])
      · rw [if_neg hm]
        refine .same _ fun now' hevent => hm ?_
        cases hevent
        rfl

end Scene

end LedWall
