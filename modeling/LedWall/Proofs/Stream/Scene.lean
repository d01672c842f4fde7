import LedWall.Proofs.Recorded
import LedWall.Proofs.Stream.Turn
import LedWall.Stream.Streamer

/-!
# Callers and workers in any order

A scene is a streamer with all its sessions so far, also those that it has let go, and a log of what
has happened. Callers and workers take steps in any order.
-/

namespace LedWall

open Fallible

section Advance

variable {τ : Type} [Fallible τ]

namespace Turn

def after : Turn τ → Option (Worker τ)
  | settle next => next
  | hand w datagram rest => some (w.heard rest (attempt w.target datagram))

def calls : Turn τ → List (Call τ)
  | settle _ => []
  | hand w datagram _ => [⟨w.target, datagram⟩]

theorem yields_take (turn : Turn τ) : Yields (Worker.take turn : Recorded τ _) turn.after turn.calls := by
  cases turn with
  | settle next => exact .pure next
  | hand w datagram rest =>
      have hcall := (yields_attempt w.target datagram).bind
        (f := fun answer => pure (some (w.heard rest answer))) (.pure _)
      rwa [List.append_nil] at hcall

end Turn

def Session.isOver : Session τ → Bool
  | working w _ => w.isEnded
  | crashed => true

variable [Png.Codec]

namespace Session

def stepped (now : Nat) : Session τ → Session τ
  | working w stop =>
      match (w.turn ⟨now, stop⟩).after with
      | some w => working w stop
      | none => crashed
  | crashed => crashed

def calls (now : Nat) : Session τ → List (Call τ)
  | working w stop => (w.turn ⟨now, stop⟩).calls
  | crashed => []

theorem stepped_of_isOver {session : Session τ} (h : session.isOver) (now : Nat) :
    session.stepped now = session ∧ session.calls now = [] := by
  cases session with
  | crashed => exact ⟨rfl, rfl⟩
  | working w stop =>
      rw [stepped, calls, w.turn_of_isEnded h]
      exact ⟨rfl, rfl⟩

theorem endsWell_stepped {w v : Worker τ} {stop stop' : Bool} {now : Nat} (h : w.EndsWell)
    (hstep : stepped now (.working w stop) = .working v stop') : v.EndsWell := by
  rw [stepped] at hstep
  cases hturn : w.turn ⟨now, stop⟩ with
  | settle next =>
      rw [hturn, Turn.after] at hstep
      cases next with
      | none => cases hstep
      | some u =>
          cases hstep
          exact h.turn hturn
  | hand u datagram rest =>
      rw [hturn, Turn.after] at hstep
      cases hstep
      exact u.endsWell_heard rest _

end Session

namespace Streamer

theorem yields_advance (s : Streamer τ) (now : Nat) :
    Yields (s.advance now : Recorded τ _)
      { s with session := s.session.map (Session.stepped now) }
      ((s.session.map (Session.calls now)).getD []) := by
  obtain ⟨target, session⟩ := s
  rcases session with _ | ⟨w, stop⟩ | _
  · exact .pure _
  · have hstep := Turn.yields_take (w.turn ⟨now, stop⟩)
    rw [← Worker.step_eq] at hstep
    rw [advance, ← List.append_nil (Option.getD _ _)]
    refine hstep.bind ?_
    simp only [Option.map_some, Session.stepped]
    cases (w.turn ⟨now, stop⟩).after with
    | none => exact .pure _
    | some v => exact .pure _
  · exact .pure _

end Streamer

end Advance

namespace Streamer

variable {τ : Type}

theorem isRunning_working (target : Option τ) (w : Worker τ) (stop : Bool) :
    isRunning ⟨target, some (.working w stop)⟩ = !w.isEnded := rfl

theorem isOver_of_session {s : Streamer τ} (h : s.isRunning = false) :
    ∀ session, s.session = some session → session.isOver := by
  obtain ⟨target, _ | ⟨w, stop⟩ | _⟩ := s
  · rintro session ⟨⟩
  · rintro session ⟨⟩
    rwa [isRunning_working, Bool.not_eq_false'] at h
  · rintro session ⟨⟩
    rfl

theorem wait?_working (target : Option τ) (w : Worker τ) (stop : Bool) :
    wait? ⟨target, some (.working w stop)⟩ = match w.phase with
      | .ended result => some (result, ⟨some w.target, none⟩)
      | _ => none := rfl

theorem wait?_of_isEnded {w : Worker τ} (h : w.isEnded) (target : Option τ) (stop : Bool) :
    ∃ result, w.phase = .ended result ∧
      wait? ⟨target, some (.working w stop)⟩ = some (result, ⟨some w.target, none⟩) := by
  obtain ⟨result, hp⟩ := Worker.isEnded_iff.mp h
  exact ⟨result, hp, by rw [wait?_working, hp]⟩

theorem wait?_of_not_isEnded {w : Worker τ} (h : ¬ w.isEnded) (target : Option τ)
    (stop : Bool) : wait? ⟨target, some (.working w stop)⟩ = none := by
  rw [wait?_working]
  split
  next result hp => exact absurd (Worker.isEnded_iff.mpr ⟨result, hp⟩) h
  next => rfl

theorem intoTarget?_working {w : Worker τ} (hends : w.EndsWell) (target : Option τ) (stop : Bool) :
    intoTarget? ⟨target, some (.working w stop)⟩ =
      if w.isEnded then some (.ok w.target) else none := by
  rw [intoTarget?]
  dsimp only
  by_cases hw : w.isEnded
  · obtain ⟨result, hp, hwait⟩ := wait?_of_isEnded hw target stop
    rw [hwait, if_pos hw]
    cases result with
    | ok summary => rfl
    | error e =>
        obtain ⟨index, cause, rfl⟩ := hends e hp
        rfl
  · rw [wait?_of_not_isEnded hw, if_neg hw]

theorem reap_of_wait? {s s' : Streamer τ} {result : Except StreamError StreamSummary}
    (h : s.wait? = some (result, s')) : s.reap = s' := by
  rw [reap, h]
  rfl

theorem isRunning_of_wait? {s s' : Streamer τ} {result : Except StreamError StreamSummary}
    (h : s.wait? = some (result, s')) : s.isRunning = false := by
  obtain ⟨target, _ | ⟨w, stop⟩ | _⟩ := s
  · rfl
  · by_cases hw : w.isEnded
    · rw [isRunning_working, hw, Bool.not_true]
    · rw [wait?_of_not_isEnded hw] at h
      cases h
  · rfl

theorem exists_target_of_wait? {s s' : Streamer τ} {result : Except StreamError StreamSummary}
    (h : s.wait? = some (result, s'))
    (hresult : (∃ summary, result = .ok summary) ∨ ∃ index e, result = .error (.encode index e)) :
    ∃ u, s' = ⟨some u, none⟩ := by
  obtain ⟨target, _ | ⟨w, stop⟩ | _⟩ := s
  · cases h
    rcases hresult with ⟨summary, h⟩ | ⟨index, e, h⟩ <;> cases h
  · by_cases hw : w.isEnded
    · obtain ⟨result', -, hwait⟩ := wait?_of_isEnded hw target stop
      rw [hwait] at h
      cases h
      exact ⟨w.target, rfl⟩
    · rw [wait?_of_not_isEnded hw] at h
      cases h
  · cases h
    rcases hresult with ⟨summary, h⟩ | ⟨index, e, h⟩ <;> cases h

section Start

variable {source : FrameSource} (options : StreamOptions) (now : Nat)

theorem start_of_isRunning {s : Streamer τ} (h : s.isRunning) :
    s.start source options now = (.error .alreadyRunning, s) := by
  rw [start, if_pos h]

theorem start_empty {s : Streamer τ} (h : s.isRunning = false) (hsource : source.count = 0) :
    s.start source options now = (.error .emptySource, s) := by
  rw [start, h, if_neg nofun, if_pos hsource]

/-- Outside a session that is at work, a start goes by the transport that reaping leaves. -/
theorem start_of_reap {s : Streamer τ} (h : s.isRunning = false) (hsource : source.count ≠ 0) :
    s.start source options now = match s.reap.target with
      | none => (.error .targetLost, s.reap)
      | some target => (.ok (), ⟨none, some (.working (.start target source options now) false)⟩) := by
  rw [start, h, if_neg nofun]
  exact if_neg hsource

end Start

end Streamer

inductive Event where
  | start (source : FrameSource) (options : StreamOptions) (now : Nat)
  | stop
  /-- A wait that would block takes effect later, once the session is over. -/
  | wait
  /-- The worker of a session takes a step, whether or not the streamer still has the session. -/
  | work (session now : Nat)

inductive Happening (τ : Type) where
  | began
  | handed (call : Call τ)
  | ended
  | crashed

def Happening.call? {τ : Type} : Happening τ → Option (Call τ)
  | handed call => some call
  | began | ended | crashed => none

structure Entry (τ : Type) where
  session : Nat
  happening : Happening τ

def Session.endings {τ : Type} : Session τ → List (Happening τ)
  | working w _ => if w.isEnded then [.ended] else []
  | crashed => [.crashed]

theorem mem_endings_working {τ : Type} {w : Worker τ} {stop : Bool} {happening : Happening τ} :
    happening ∈ (Session.working w stop).endings ↔ happening = .ended ∧ w.isEnded := by
  rw [Session.endings]
  cases w.isEnded <;> simp

theorem filterMap_call?_seen {τ : Type} (calls : List (Call τ)) (session : Session τ) :
    (calls.map Happening.handed ++ session.endings).filterMap Happening.call? = calls := by
  have hcalls : (calls.map Happening.handed).filterMap Happening.call? = calls := by
    rw [List.filterMap_map]
    exact List.filterMap_some
  have hend : session.endings.filterMap Happening.call? = [] := by
    rw [List.filterMap_eq_nil_iff]
    intro happening hin
    cases session with
    | working w stop =>
        rw [(mem_endings_working.mp hin).1]
        rfl
    | crashed =>
        rw [List.mem_singleton.mp hin]
        rfl
  rw [List.filterMap_append, hcalls, hend, List.append_nil]

/-- A streamer, the sessions that it has let go in the order of their starts, and what has happened. -/
structure Scene (τ : Type) where
  streamer : Streamer τ
  past : List (Session τ)
  log : List (Entry τ)

namespace Scene

variable {τ : Type}

def ofTarget (t : τ) : Scene τ := ⟨.ofTarget t, [], []⟩

def sessions (s : Scene τ) : List (Session τ) := s.past ++ s.streamer.session.toList

def calls (s : Scene τ) : List (Call τ) := s.log.filterMap fun x => x.happening.call?

def Crashed (s : Scene τ) : Prop := ∃ n, ⟨n, .crashed⟩ ∈ s.log

/-- The session has begun, and nothing was seen of its end. -/
def Unfinished (s : Scene τ) (n : Nat) : Prop :=
  ⟨n, .began⟩ ∈ s.log ∧ ⟨n, .ended⟩ ∉ s.log ∧ ⟨n, .crashed⟩ ∉ s.log

def goOn (s : Scene τ) (session : Session τ) (more : List (Happening τ)) : Scene τ :=
  ⟨⟨none, some session⟩, s.past, s.log ++ more.map (Entry.mk s.past.length)⟩

theorem calls_goOn (s : Scene τ) (session : Session τ) (more : List (Happening τ)) :
    (s.goOn session more).calls = s.calls ++ more.filterMap Happening.call? := by
  rw [calls, goOn, List.filterMap_append, List.filterMap_map]
  rfl

theorem crashed_goOn_iff {s : Scene τ} {session : Session τ} {more : List (Happening τ)} :
    (s.goOn session more).Crashed ↔ s.Crashed ∨ .crashed ∈ more := by
  simp [Crashed, goOn, exists_or]

/-- The streamer has let its session go. -/
def letGo (s : Scene τ) (target : Option τ) : Scene τ := ⟨⟨target, none⟩, s.sessions, s.log⟩

/-- A start. Unless it is refused at once, it lets the session before go. -/
def start (s : Scene τ) (source : FrameSource) (options : StreamOptions) (now : Nat) : Scene τ :=
  match s.streamer.start source options now with
  | (.error .alreadyRunning, streamer) => { s with streamer }
  | (.error .emptySource, streamer) => { s with streamer }
  | (.error _, streamer) => { s with streamer, past := s.sessions }
  | (.ok (), streamer) => ⟨streamer, s.sessions, s.log ++ [⟨s.sessions.length, .began⟩]⟩

def wait (s : Scene τ) : Scene τ :=
  match s.streamer.wait? with
  | none => s
  | some (_, streamer) => { s with streamer, past := s.sessions }

variable [Fallible τ] [Png.Codec]

def seen (streamer : Streamer τ) (now : Nat) : List (Happening τ) :=
  let program : Recorded τ (Streamer τ) := streamer.advance now
  (made program).map .handed ++
    if streamer.isRunning then ((returned program).session.map Session.endings).getD [] else []

/-- A step of the worker of session `n`. -/
def work (s : Scene τ) (n now : Nat) : Scene τ :=
  match s.past[n]? with
  | some session =>
      let streamer : Streamer τ := ⟨none, some session⟩
      let streamer' := returned (streamer.advance now : Recorded τ _)
      { s with
        past := s.past.set n (streamer'.session.getD session)
        log := s.log ++ (seen streamer now).map (Entry.mk n) }
  | none =>
      if n = s.past.length then
        { s with
          streamer := returned (s.streamer.advance now : Recorded τ _)
          log := s.log ++ (seen s.streamer now).map (Entry.mk n) }
      else s

def next (s : Scene τ) : Event → Scene τ
  | .start source options now => s.start source options now
  | .stop => { s with streamer := s.streamer.stop }
  | .wait => s.wait
  | .work n now => s.work n now

def run (s : Scene τ) (events : List Event) : Scene τ := events.foldl next s

theorem seen_eq (target : Option τ) (session : Session τ) (now : Nat) :
    seen ⟨target, some session⟩ now = (session.calls now).map .handed ++
      if session.isOver then [] else (session.stepped now).endings := by
  have hadvance := Streamer.yields_advance ⟨target, some session⟩ now
  rw [seen, hadvance.made_eq, hadvance.returned_eq]
  cases session with
  | crashed => rfl
  | working w stop =>
      rw [Streamer.isRunning_working, Session.isOver]
      cases w.isEnded <;> rfl

theorem work_past {s : Scene τ} {n : Nat} {session : Session τ} (hn : s.past[n]? = some session)
    (h : session.isOver) (now : Nat) : s.work n now = s := by
  obtain ⟨hsame, hsilent⟩ := Session.stepped_of_isOver h now
  have hadvance := Streamer.yields_advance ⟨none, some session⟩ now
  have hpast : s.past.set n session = s.past := by
    obtain ⟨hlt, rfl⟩ := List.getElem?_eq_some_iff.mp hn
    exact List.set_getElem_self hlt
  rw [work, hn]
  dsimp only
  rw [seen_eq, h, hsilent, hadvance.returned_eq, Option.map_some, hsame, Option.getD_some, hpast]
  simp

theorem work_current (s : Scene τ) (now : Nat) : s.work s.past.length now = { s with
    streamer := { s.streamer with session := s.streamer.session.map (Session.stepped now) }
    log := s.log ++ (seen s.streamer now).map (Entry.mk s.past.length) } := by
  rw [work, List.getElem?_eq_none (Nat.le_refl _), (s.streamer.yields_advance now).returned_eq]
  exact if_pos rfl

theorem work_idle {s : Scene τ}
    (hover : ∀ session, s.streamer.session = some session → session.isOver) (now : Nat) :
    s.work s.past.length now = s := by
  rw [work_current]
  obtain ⟨⟨target, _ | session⟩, past, log⟩ := s
  · exact congrArg (Scene.mk _ _) (List.append_nil log)
  · have h := hover session rfl
    obtain ⟨hsame, hsilent⟩ := Session.stepped_of_isOver h now
    dsimp only
    rw [Option.map_some, hsame, seen_eq, hsilent, h]
    exact congrArg (Scene.mk _ _) (List.append_nil log)

theorem work_beyond {s : Scene τ} {n : Nat} (hn : s.past.length < n) (now : Nat) :
    s.work n now = s := by
  rw [work, List.getElem?_eq_none (Nat.le_of_lt hn)]
  exact if_neg (Nat.ne_of_gt hn)

end Scene

end LedWall
