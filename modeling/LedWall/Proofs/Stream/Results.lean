import LedWall.Proofs.Stream.Stopping
import LedWall.Proofs.Stream.Custody

/-!
# Results are handed out once

A start that is refused changes nothing. A session that is over has one result, and one caller takes
it: by a wait, by the start that lets the session go, or by giving the transport up.
-/

namespace LedWall

open Fallible

namespace Session

variable {τ : Type}

def result? : Session τ → Option (Except StreamError StreamSummary)
  | working w _ => match w.phase with
    | .ended result => some result
    | _ => none
  | crashed => some (.error .workerCrashed)

def source? : Session τ → Option FrameSource
  | working w _ => some w.source
  | crashed => none

@[simp] theorem source?_raised (session : Session τ) : session.raised.source? = session.source? := by
  cases session <;> rfl

end Session

namespace Worker

variable {τ : Type} [Fallible τ]

theorem source_of_offer {w v : Worker τ} {now : Nat} {datagrams : List (List UInt8)}
    (h : (w.offer now datagrams).after = some v) : v.source = w.source := by
  cases datagrams with
  | nil =>
      cases h
      rfl
  | cons datagram rest =>
      rw [offer, Turn.after] at h
      cases h
      cases attempt w.target datagram <;> rfl

variable [Png.Codec]

theorem source_of_turn {w v : Worker τ} {moment : Moment} (h : (w.turn moment).after = some v) :
    v.source = w.source := by
  have hmove := w.moves moment
  generalize w.turn moment = turn at hmove h
  cases hmove with
  | request =>
      cases h
      exact w.request_keeps.2.1
  | first | due =>
      have hsource := source_of_offer h
      exact hsource
  | accepted => exact source_of_offer h
  | noFrame | crashed => cases h
  | ended | finish | stop | unwritable | pace | drop | early | failed =>
      cases h
      rfl

end Worker

theorem Session.source?_of_stepped {τ : Type} [Fallible τ] [Png.Codec] {session : Session τ}
    {now : Nat} {source : FrameSource} (h : (session.stepped now).source? = some source) :
    session.source? = some source := by
  cases session with
  | crashed => exact h
  | working w stop =>
      rw [stepped] at h
      cases hafter : (w.turn ⟨now, stop⟩).after with
      | none =>
          rw [hafter] at h
          cases h
      | some v =>
          rw [hafter] at h
          cases h
          simp [source?, Worker.source_of_turn hafter]

inductive Conclusion : Except StreamError StreamSummary → Prop where
  | summary (summary : StreamSummary) : Conclusion (.ok summary)
  | unwritable (index : Nat) (cause : FrameError) : Conclusion (.error (.encode index cause))
  | crashed : Conclusion (.error .workerCrashed)

namespace Streamer

variable {τ : Type}

theorem result?_of_wait? {s s' : Streamer τ} {result : Except StreamError StreamSummary}
    {session : Session τ} (h : s.wait? = some (result, s')) (hs : s.session = some session) :
    session.result? = some result := by
  obtain ⟨target, session'⟩ := s
  cases hs
  cases session with
  | crashed =>
      cases h
      rfl
  | working w stop =>
      by_cases hw : w.isEnded
      · obtain ⟨result', hp, hwait⟩ := wait?_of_isEnded hw target stop
        rw [hwait] at h
        cases h
        simp [Session.result?, hp]
      · rw [wait?_of_not_isEnded hw] at h
        cases h

theorem wait?_of_session {s : Streamer τ} (h : s.session = none) :
    s.wait? = some (.error .notStarted, s) := by
  obtain ⟨target, session⟩ := s
  cases h
  rfl

end Streamer

theorem Custody.conclusion {τ : Type} [Fallible τ] {t : τ} {s : Scene τ} (h : Custody t s)
    {session : Session τ} {result : Except StreamError StreamSummary}
    (hs : s.streamer.session = some session) (hresult : session.result? = some result) :
    Conclusion result := by
  cases session with
  | crashed =>
      cases hresult
      exact .crashed
  | working w stop =>
      have hp : w.phase = .ended result := by
        rw [Session.result?] at hresult
        split at hresult
        next hp =>
          cases hresult
          exact hp
        next => cases hresult
      cases result with
      | ok summary => exact .summary summary
      | error e =>
          obtain ⟨index, cause, rfl⟩ := h.endsWell w stop hs e hp
          exact .unwritable index cause

namespace Scene

variable {τ : Type}

inductive Started (s : Scene τ) (source : FrameSource) (options : StreamOptions) (now : Nat) :
    Except StreamError Unit × Streamer τ → Scene τ → Prop where
  | refused {e : StreamError} (he : e = .alreadyRunning ∨ e = .emptySource) :
      Started s source options now (.error e, s.streamer) s
  | lost (hrun : s.streamer.isRunning = false) :
      Started s source options now (.error .targetLost, ⟨none, none⟩) (s.letGo none)
  | begun (hrun : s.streamer.isRunning = false) (target : τ) :
      Started s source options now
        (.ok (), ⟨none, some (.working (.start target source options now) false)⟩)
        ((s.letGo none).goOn (.working (.start target source options now) false) [.began])

theorem started (s : Scene τ) (source : FrameSource) (options : StreamOptions) (now : Nat) :
    Started s source options now (s.streamer.start source options now)
      (s.start source options now) := by
  rw [start]
  cases hrun : s.streamer.isRunning with
  | true =>
      rw [Streamer.start_of_isRunning options now hrun]
      exact .refused (.inl rfl)
  | false =>
      by_cases hsource : source.count = 0
      · rw [Streamer.start_empty options now hrun hsource]
        exact .refused (.inr rfl)
      · have hnone := Streamer.reap_session hrun
        rw [Streamer.start_of_reap options now hrun hsource]
        generalize s.streamer.reap = reaped at hnone
        obtain ⟨target, session⟩ := reaped
        cases hnone
        cases target with
        | none => exact .lost hrun
        | some target => exact .begun hrun target

def accepts? (s : Scene τ) : Event → Option FrameSource
  | .start source options now => match (s.streamer.start source options now).1 with
    | .ok () => some source
    | .error _ => none
  | .stop | .wait | .work .. => none

/-- A result that is taken from the session of a number. -/
structure Delivery where
  session : Nat
  result : Except StreamError StreamSummary

def result? (s : Scene τ) : Option Delivery :=
  s.streamer.session.bind fun _ => s.streamer.wait?.map fun answer => ⟨s.past.length, answer.1⟩

/-- The result that an event takes: a wait returns it, and a start that goes on to the transport
discards it. -/
def delivers? (s : Scene τ) : Event → Option Delivery
  | .wait => s.result?
  | .start source options now => match (s.streamer.start source options now).1 with
    | .ok () | .error .targetLost => s.result?
    | .error _ => none
  | .stop | .work .. => none

/-- The source that is called for a frame, and the number of the session that calls it. -/
def asks? [Png.Codec] (s : Scene τ) : Event → Option (Nat × FrameSource)
  | .work n now => s.sessions[n]?.bind fun session =>
      if .request ∈ session.deeds now then session.source?.map (n, ·) else none
  | .start .. | .stop | .wait => none

theorem source_of_asks? [Png.Codec] {s : Scene τ} {event : Event} {n : Nat} {source : FrameSource}
    (h : s.asks? event = some (n, source)) :
    s.sessions[n]?.bind Session.source? = some source := by
  cases event with
  | start | stop | wait => cases h
  | work m now =>
      obtain ⟨session, hsession, hasks⟩ := Option.bind_eq_some_iff.mp h
      split at hasks
      next =>
        obtain ⟨source', hsource, heq⟩ := Option.map_eq_some_iff.mp hasks
        cases heq
        simp [hsession, hsource]
      next => cases hasks

def told [Fallible τ] [Png.Codec] {α : Type} (tells : Scene τ → Event → Option α) (s : Scene τ) :
    List Event → List α
  | [] => []
  | event :: more => (tells s event).toList ++ told tells (s.next event) more

theorem next_start_of_refused [Fallible τ] [Png.Codec] {s : Scene τ} {source : FrameSource}
    {options : StreamOptions} {now : Nat} {e : StreamError}
    (h : (s.streamer.start source options now).1 = .error e)
    (he : e = .alreadyRunning ∨ e = .emptySource) :
    (s.streamer.start source options now).2 = s.streamer ∧
      s.next (.start source options now) = s := by
  have hstarted := s.started source options now
  rw [next]
  generalize s.streamer.start source options now = answer at h hstarted
  generalize s.start source options now = after at hstarted
  cases hstarted with
  | refused => exact ⟨rfl, rfl⟩
  | lost =>
      cases h
      simp at he
  | begun => cases h

theorem sessions_letGo (s : Scene τ) (target : Option τ) :
    (s.letGo target).sessions = s.sessions := by
  simp [letGo, sessions]

/-- What the sources of accepted starts and the results taken so far have to do with the sessions:
each session has the source of its own start, and the results taken are those of the sessions that
the streamer has let go, in their order. -/
structure Ledger (s : Scene τ) (accepted : List FrameSource) (deliveries : List Delivery) :
    Prop where
  length_eq : accepted.length = s.sessions.length
  source : ∀ (n : Nat) (source : FrameSource), s.sessions[n]?.bind Session.source? = some source →
    accepted[n]? = some source
  numbers : deliveries.map Delivery.session = List.range s.past.length
  result : ∀ d ∈ deliveries, Conclusion d.result ∧
    s.past[d.session]?.bind Session.result? = some d.result

namespace Ledger

variable {s : Scene τ} {accepted : List FrameSource} {deliveries : List Delivery}

theorem ofTarget (t : τ) : Ledger (Scene.ofTarget t) [] [] where
  length_eq := rfl
  source n source h := by simp [Scene.ofTarget, sessions_eq, Streamer.ofTarget] at h
  numbers := rfl
  result d hd := by simp at hd

theorem of_sources {s' : Scene τ} (h : Ledger s accepted deliveries) (hpast : s'.past = s.past)
    (hlength : s'.sessions.length = s.sessions.length)
    (hsource : ∀ (n : Nat) (source : FrameSource),
      s'.sessions[n]?.bind Session.source? = some source →
      s.sessions[n]?.bind Session.source? = some source) : Ledger s' accepted deliveries where
  length_eq := h.length_eq.trans hlength.symm
  source n source hn := h.source n source (hsource n source hn)
  numbers := by rw [hpast, h.numbers]
  result := by simpa [hpast] using h.result

theorem letGo [Fallible τ] {t : τ} (h : Ledger s accepted deliveries) (hs : Custody t s)
    (hrun : s.streamer.isRunning = false) (target : Option τ) :
    Ledger (s.letGo target) accepted (deliveries ++ s.result?.toList) := by
  cases hsession : s.streamer.session with
  | none =>
      have hpast : (s.letGo target).past = s.past := by simp [Scene.letGo, sessions, hsession]
      have hnone : s.result? = none := by simp [Scene.result?, hsession]
      rw [hnone, Option.toList_none, List.append_nil]
      apply h.of_sources hpast <;> simp [sessions_letGo]
  | some session =>
      obtain ⟨⟨result, streamer⟩, hwait⟩ := Streamer.exists_wait? hrun
      have hpast : (s.letGo target).past = s.past ++ [session] := by
        simp [Scene.letGo, sessions, hsession]
      have hresult : s.result? = some ⟨s.past.length, result⟩ := by
        simp [Scene.result?, hsession, hwait]
      have hown := Streamer.result?_of_wait? hwait hsession
      rw [hresult, Option.toList_some]
      refine ⟨?_, ?_, ?_, ?_⟩
      · rw [sessions_letGo, h.length_eq]
      · rw [sessions_letGo]
        exact h.source
      · simp [hpast, h.numbers, List.range_succ]
      · intro d hd
        rw [hpast]
        rcases List.mem_append.mp hd with hd | hd
        · obtain ⟨hconclusion, hpassed⟩ := h.result d hd
          have hlt : d.session < s.past.length := by
            by_contra hge
            simp [List.getElem?_eq_none (Nat.le_of_not_lt hge)] at hpassed
          rw [List.getElem?_append_left hlt]
          exact ⟨hconclusion, hpassed⟩
        · cases List.mem_singleton.mp hd
          exact ⟨hs.conclusion hsession hown, by simp [hown]⟩

theorem begin [Fallible τ] (h : Ledger s accepted deliveries) (hs : s.streamer.session = none)
    (target : τ) (source : FrameSource) (options : StreamOptions) (now : Nat)
    (more : List (Happening τ)) :
    Ledger (s.goOn (.working (.start target source options now) false) more)
      (accepted ++ [source]) deliveries := by
  have hpast : s.sessions = s.past := by simp [sessions, hs]
  have hsessions : (s.goOn (.working (.start target source options now) false) more).sessions =
      s.sessions ++ [.working (.start target source options now) false] := by
    rw [hpast, goOn, sessions_eq, Option.toList_some]
  refine ⟨?_, ?_, h.numbers, h.result⟩
  · simp [hsessions, h.length_eq]
  · intro n source' hn
    rw [hsessions] at hn
    rcases Nat.lt_trichotomy n s.sessions.length with hlt | rfl | hgt
    · rw [List.getElem?_append_left hlt] at hn
      rw [List.getElem?_append_left (h.length_eq.symm ▸ hlt)]
      exact h.source n source' hn
    · rw [List.getElem?_concat_length] at hn
      cases hn
      rw [← h.length_eq, List.getElem?_concat_length]
      rfl
    · rw [List.getElem?_eq_none (by simpa using hgt)] at hn
      cases hn

variable [Fallible τ] {t : τ}

theorem start (h : Ledger s accepted deliveries) (hs : Custody t s) (source : FrameSource)
    (options : StreamOptions) (now : Nat) :
    Ledger (s.start source options now)
      (accepted ++ (s.accepts? (.start source options now)).toList)
      (deliveries ++ (s.delivers? (.start source options now)).toList) := by
  have hstarted := s.started source options now
  rw [accepts?, delivers?]
  generalize s.streamer.start source options now = answer at hstarted ⊢
  generalize s.start source options now = after at hstarted ⊢
  cases hstarted with
  | refused he => rcases he with rfl | rfl <;> simpa using h
  | lost hrun => simpa using h.letGo hs hrun none
  | begun hrun target => exact (h.letGo hs hrun none).begin rfl target source options now _

theorem wait (h : Ledger s accepted deliveries) (hs : Custody t s) :
    Ledger s.wait accepted (deliveries ++ s.result?.toList) := by
  rw [Scene.wait]
  cases hwait : s.streamer.wait? with
  | none => simpa [Scene.result?, hwait] using h
  | some answer =>
      obtain ⟨result, target, session⟩ := answer
      cases Streamer.session_of_wait? hwait
      exact h.letGo hs (Streamer.isRunning_of_wait? hwait) target

variable [Png.Codec]

theorem stop (h : Ledger s accepted deliveries) :
    Ledger (s.next .stop) accepted deliveries := by
  have hsessions : (s.next .stop).sessions =
      s.past ++ (s.streamer.session.map Session.raised).toList := by
    rw [next, s.streamer.stop_eq, sessions_eq]
  have hpast : (s.next .stop).past = s.past := rfl
  apply h.of_sources hpast
  · rw [hsessions, sessions]
    cases s.streamer.session <;> simp
  · intro n source hn
    have hpassage := s.passage n .stop
    generalize (s.next .stop).sessions[n]? = after at hn hpassage
    generalize s.sessions[n]? = before at hpassage ⊢
    cases hpassage with
    | same => exact hn
    | begun _ _ _ _ hevent => cases hevent
    | raised => simpa using hn
    | stepped _ _ hevent => cases hevent

theorem work (h : Ledger s accepted deliveries) (hs : Custody t s) (m now : Nat) :
    Ledger (s.work m now) accepted deliveries := by
  rcases Nat.lt_trichotomy m s.past.length with hlt | rfl | hgt
  · have hm := List.getElem?_eq_getElem hlt
    rw [work_past hm (hs.past m _ hm).1]
    exact h
  · have hwork := s.work_current now
    apply h.of_sources
    · rw [hwork]
    · rw [hwork, sessions, sessions]
      cases s.streamer.session <;> simp
    · intro n source hn
      rw [getElem?_sessions_work] at hn
      split at hn
      next =>
        obtain ⟨session', hsession', hsource⟩ := Option.bind_eq_some_iff.mp hn
        obtain ⟨session, hsession, rfl⟩ := Option.map_eq_some_iff.mp hsession'
        simp [hsession, Session.source?_of_stepped hsource]
      next => exact hn
  · rw [work_beyond hgt]
    exact h

theorem next (h : Ledger s accepted deliveries) (hs : Custody t s) (event : Event) :
    Ledger (s.next event) (accepted ++ (s.accepts? event).toList)
      (deliveries ++ (s.delivers? event).toList) := by
  cases event with
  | start source options now => exact h.start hs source options now
  | stop => simpa [accepts?, delivers?] using h.stop
  | wait => simpa [accepts?, delivers?, Scene.next] using h.wait hs
  | work m now => simpa [accepts?, delivers?, Scene.next] using h.work hs m now

theorem run (h : Ledger s accepted deliveries) (hs : Custody t s) (events : List Event) :
    Ledger (s.run events) (accepted ++ s.told accepts? events)
      (deliveries ++ s.told delivers? events) := by
  induction events generalizing s accepted deliveries with
  | nil => simpa [told, Scene.run] using h
  | cons event more ih =>
      have hmore := ih (h.next hs event) (hs.next event)
      simpa [told, run_cons] using hmore

theorem accepted_of_asked (h : Ledger s accepted deliveries) (hs : Custody t s)
    {events : List Event} {n : Nat} {source : FrameSource}
    (hasked : (n, source) ∈ s.told asks? events) :
    (accepted ++ s.told accepts? events)[n]? = some source := by
  induction events generalizing s accepted deliveries with
  | nil => simp [told] at hasked
  | cons event more ih =>
      rw [told] at hasked
      rcases List.mem_append.mp hasked with hasked | hasked
      · have hsource := h.source n source (source_of_asks? (by simpa using hasked))
        obtain ⟨hlt, -⟩ := List.getElem?_eq_some_iff.mp hsource
        rw [List.getElem?_append_left hlt, hsource]
      · have hmore := ih (h.next hs event) (hs.next event) hasked
        simpa [told] using hmore

end Ledger

variable [Fallible τ] [Png.Codec]

theorem session_next {s : Scene τ} {event : Event} (hs : s.streamer.session = none)
    (h : s.accepts? event = none) : (s.next event).streamer.session = none := by
  cases event with
  | start source options now =>
      have hstarted := s.started source options now
      rw [accepts?] at h
      rw [next]
      generalize s.streamer.start source options now = answer at h hstarted
      generalize s.start source options now = after at hstarted ⊢
      cases hstarted with
      | refused => exact hs
      | lost => rfl
      | begun => cases h
  | stop => simp [next, s.streamer.stop_eq, hs]
  | wait => simp [next, wait, Streamer.wait?_of_session hs, hs]
  | work m now =>
      rcases Nat.lt_trichotomy m s.past.length with hlt | rfl | hgt
      · rw [next, work_of_past (List.getElem?_eq_getElem hlt)]
        exact hs
      · simp [next, work_current, hs]
      · rw [next, work_beyond hgt]
        exact hs

theorem session_run {s : Scene τ} {events : List Event} (hs : s.streamer.session = none)
    (h : s.told accepts? events = []) : (s.run events).streamer.session = none := by
  induction events generalizing s with
  | nil => exact hs
  | cons event more ih =>
      rw [told, List.append_eq_nil_iff, Option.toList_eq_nil_iff] at h
      exact ih (session_next hs h.1) h.2

end Scene

section Rules

open Scene

variable {τ : Type} [Fallible τ]

theorem Custody.consumed {t : τ} {s : Scene τ} (h : Custody t s) {session : Session τ}
    {answer : Except StreamError τ} (hs : s.streamer.session = some session)
    (hinto : s.streamer.intoTarget? = some answer) : ∃ result, session.result? = some result ∧
      ((∃ u, answer = .ok u) ∧ result ≠ .error .workerCrashed ∨
        answer = .error .workerCrashed ∧ result = .error .workerCrashed) := by
  obtain ⟨⟨target, session'⟩, past, log⟩ := s
  cases hs
  cases session with
  | crashed =>
      cases hinto
      exact ⟨_, rfl, .inr ⟨rfl, rfl⟩⟩
  | working w stop =>
      have hends := h.endsWell w stop rfl
      rw [Streamer.intoTarget?_working hends] at hinto
      split at hinto
      next hw =>
        cases hinto
        obtain ⟨result, hp⟩ := Worker.isEnded_iff.mp hw
        refine ⟨result, by simp [Session.result?, hp], .inl ⟨⟨w.target, rfl⟩, ?_⟩⟩
        rintro rfl
        obtain ⟨index, cause, hcause⟩ := hends _ hp
        cases hcause
      next => cases hinto

variable [Png.Codec]

structure ResultRules (t : τ) (events : List Event) (s : Scene τ) : Prop where
  /-- A refused start leaves everything as it is, and all that follows. -/
  refused : ∀ source options now e, (s.streamer.start source options now).1 = .error e →
    e = .alreadyRunning ∨ e = .emptySource →
    (s.streamer.start source options now).2 = s.streamer ∧
    ∀ more, s.run (.start source options now :: more) = s.run more ∧
      (∀ n, s.deedsOf n (.start source options now :: more) = s.deedsOf n more) ∧
      s.told asks? (.start source options now :: more) = s.told asks? more ∧
      s.told accepts? (.start source options now :: more) = s.told accepts? more ∧
      s.told delivers? (.start source options now :: more) = s.told delivers? more
  /-- A session calls the source of the accepted start that has its number, and no other source is
  ever called. -/
  asked : ∀ (n : Nat) (source : FrameSource), (n, source) ∈ (Scene.ofTarget t).told asks? events →
    ((Scene.ofTarget t).told accepts? events)[n]? = some source
  /-- Of every session that the streamer has let go, and of no other, the result was taken once. -/
  once : ((Scene.ofTarget t).told delivers? events).map Delivery.session = List.range s.past.length
  /-- What was taken is the result that the session came to. -/
  own : ∀ d ∈ (Scene.ofTarget t).told delivers? events,
    Conclusion d.result ∧ s.past[d.session]?.bind Session.result? = some d.result
  /-- Giving the transport up takes the result of the session that the streamer still has. -/
  consumed : ∀ session answer, s.streamer.session = some session →
    s.streamer.intoTarget? = some answer → ∃ result, session.result? = some result ∧
      ((∃ u, answer = .ok u) ∧ result ≠ .error .workerCrashed ∨
        answer = .error .workerCrashed ∧ result = .error .workerCrashed)
  /-- A result that a wait has returned is not there for another wait. -/
  spent : ∀ answer, s.streamer.wait? = some answer → ∀ more,
    (s.next .wait).told accepts? more = [] →
    ((s.next .wait).run more).streamer.wait? =
      some (.error .notStarted, ((s.next .wait).run more).streamer)

/-- A refused start changes nothing, and every result is taken once, whatever callers and workers do
in whatever order. -/
theorem result_rules (t : τ) (events : List Event) :
    ResultRules t events ((Scene.ofTarget t).run events) := by
  have hstart := Custody.ofTarget t
  have hledger := (Ledger.ofTarget t).run hstart events
  have hs := hstart.run events
  generalize (Scene.ofTarget t).run events = s at hledger hs
  refine ⟨fun source options now e hanswer he => ?_, fun n source hasked => ?_, hledger.numbers,
    hledger.result, fun session answer => hs.consumed, fun answer hwait more hmore => ?_⟩
  · obtain ⟨hkept, hsame⟩ := next_start_of_refused hanswer he
    refine ⟨hkept, fun more => ⟨?_, fun n => ?_, ?_, ?_, ?_⟩⟩
    · rw [run_cons, hsame]
    · rw [deedsOf, hsame]
      rfl
    · rw [told, hsame]
      rfl
    · rw [told, hsame, accepts?, hanswer]
      rfl
    · rw [told, hsame, delivers?, hanswer]
      rcases he with rfl | rfl <;> rfl
  · exact (Ledger.ofTarget t).accepted_of_asked hstart hasked
  · apply Streamer.wait?_of_session
    apply session_run _ hmore
    simp [next, wait, hwait, Streamer.session_of_wait? hwait]

end Rules

end LedWall
