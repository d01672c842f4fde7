import LedWall.Proofs.Stream.Scene

/-!
# Who has the transport

Whatever callers and workers do, the transport is with the streamer, with the one session that has
not been waited for, or lost in a crash, and a session that the streamer has let go sends nothing any
more.
-/

namespace LedWall

open Fallible

section Custody

variable {τ : Type}

/-- What the log tells of session `n`. -/
def Told (log : List (Entry τ)) (n : Nat) : Session τ → Prop
  | .working w _ => ⟨n, .began⟩ ∈ log ∧ (⟨n, .ended⟩ ∈ log ↔ w.isEnded)
  | .crashed => ⟨n, .began⟩ ∈ log ∧ ⟨n, .crashed⟩ ∈ log

theorem Told.append {log : List (Entry τ)} {n : Nat} {session : Session τ} (h : Told log n session)
    {more : List (Entry τ)} (hmore : ∀ x ∈ more, x.session ≠ n) : Told (log ++ more) n session := by
  have hmem : ∀ happening, (⟨n, happening⟩ : Entry τ) ∈ log ++ more ↔ ⟨n, happening⟩ ∈ log := by
    intro happening
    rw [List.mem_append, or_iff_left_of_imp]
    exact fun hin => absurd rfl (hmore _ hin)
  cases session with
  | working w stop => simpa only [Told, hmem] using h
  | crashed => simpa only [Told, hmem] using h

variable [Fallible τ]

/-- The places where a transport can be, having come from `t` through the calls so far: kept by the
streamer without a session, lent to its session, or lost in a crash. -/
inductive Placed (t : τ) (s : Scene τ) : Prop where
  | kept {u : τ} (h : s.streamer = ⟨some u, none⟩) (hpassed : Passed t s.calls (some u))
      (hcrash : ¬ s.Crashed)
  | lent {w : Worker τ} {stop : Bool} (h : s.streamer = ⟨none, some (.working w stop)⟩)
      (hpassed : Passed t s.calls w.held?) (hcrash : ¬ s.Crashed)
  | lost {session : Option (Session τ)} (h : s.streamer = ⟨none, session⟩)
      (hsession : session = none ∨ session = some .crashed)
      (hpassed : ∃ last, Passed t s.calls last) (hcrash : s.Crashed)

structure Custody (t : τ) (s : Scene τ) : Prop where
  placed : Placed t s
  past : ∀ n session, s.past[n]? = some session → session.isOver ∧ Told s.log n session
  current : ∀ session, s.streamer.session = some session → Told s.log s.past.length session
  endsWell : ∀ w stop, s.streamer.session = some (.working w stop) → w.EndsWell
  numbered : ∀ x ∈ s.log, x.session < s.sessions.length
  sorted : s.log.Pairwise fun x y => x.session ≤ y.session

namespace Custody

variable {t : τ} {s : Scene τ}

theorem ofTarget (t : τ) : Custody t (Scene.ofTarget t) where
  placed := .kept rfl .none (by rintro ⟨n, hn⟩; cases hn)
  past n session hn := by
    rw [Scene.ofTarget, List.getElem?_nil] at hn
    cases hn
  current session hsession := by cases hsession
  endsWell w stop hsession := by cases hsession
  numbered := List.forall_mem_nil _
  sorted := .nil

theorem session_le (h : Custody t s) : ∀ x ∈ s.log, x.session ≤ s.past.length := by
  intro x hx
  have hlt := h.numbered x hx
  rw [Scene.sessions, List.length_append] at hlt
  cases hsession : s.streamer.session with
  | none =>
      rw [hsession] at hlt
      exact Nat.le_of_lt hlt
  | some session =>
      rw [hsession] at hlt
      exact Nat.le_of_lt_succ hlt

theorem goOn (h : Custody t s) {session : Session τ} {more : List (Happening τ)}
    (hplaced : Placed t (s.goOn session more))
    (hends : ∀ w stop, session = .working w stop → w.EndsWell)
    (htold : Told (s.goOn session more).log s.past.length session) :
    Custody t (s.goOn session more) := by
  have hmore : ∀ x ∈ more.map (Entry.mk s.past.length), x.session = s.past.length := by
    intro x hx
    obtain ⟨happening, -, rfl⟩ := List.mem_map.mp hx
    rfl
  refine ⟨hplaced, fun n old hn => ?_, fun new hnew => ?_,
    fun w stop hnew => hends w stop (Option.some.inj hnew), fun x hx => ?_, ?_⟩
  · have hlt : n < s.past.length := (List.getElem?_eq_some_iff.mp hn).1
    obtain ⟨hover, hpast⟩ := h.past n old hn
    refine ⟨hover, hpast.append fun x hx => ?_⟩
    rw [hmore x hx]
    exact Nat.ne_of_gt hlt
  · rwa [← Option.some.inj hnew]
  · have hle : x.session ≤ s.past.length := by
      rcases List.mem_append.mp hx with hx | hx
      · exact h.session_le x hx
      · exact Nat.le_of_eq (hmore x hx)
    rw [Scene.sessions, List.length_append]
    exact Nat.lt_succ_of_le hle
  · refine List.pairwise_append.mpr ⟨h.sorted, ?_, fun x hx y hy => ?_⟩
    · exact List.pairwise_of_forall_mem_list fun x hx y hy => by rw [hmore x hx, hmore y hy]
    · rw [hmore y hy]
      exact h.session_le x hx

theorem letGo (h : Custody t s)
    (hover : ∀ session, s.streamer.session = some session → session.isOver) {target : Option τ}
    (hplaced : Placed t (s.letGo target)) : Custody t (s.letGo target) := by
  refine ⟨hplaced, fun n session hn => ?_, fun session hsession => ?_, fun w stop hsession => ?_,
    fun x hx => ?_, h.sorted⟩
  · rw [Scene.letGo, Scene.sessions] at hn
    rcases Nat.lt_or_ge n s.past.length with hlt | hge
    · rw [List.getElem?_append_left hlt] at hn
      exact h.past n session hn
    · -- The session let go is the last of the past now, under the number it had.
      rw [List.getElem?_append_right hge] at hn
      have hmem : s.streamer.session = some session := Option.mem_toList.mp (List.mem_of_getElem? hn)
      have hlength : n = s.past.length := by
        have hlt := (List.getElem?_eq_some_iff.mp hn).1
        rw [hmem, Option.toList_some, List.length_singleton] at hlt
        omega
      rw [hlength]
      exact ⟨hover session hmem, h.current session hmem⟩
  · cases hsession
  · cases hsession
  · rw [Scene.letGo, Scene.sessions, Option.toList_none, List.append_nil]
    exact h.numbered x hx

theorem passed (h : Custody t s) {u : τ} (hs : s.streamer = ⟨some u, none⟩) :
    Passed t s.calls (some u) ∧ ¬ s.Crashed := by
  cases h.placed with
  | kept hkept hpassed hcrash =>
      rw [hs] at hkept
      cases hkept
      exact ⟨hpassed, hcrash⟩
  | lent hlent =>
      rw [hs] at hlent
      cases hlent
  | lost hlost =>
      rw [hs] at hlost
      cases hlost

theorem lent (h : Custody t s) (hrun : s.streamer.isRunning) : ∃ w stop,
    s.streamer = ⟨none, some (.working w stop)⟩ ∧ ¬ w.isEnded ∧ Passed t s.calls w.held? ∧
      ¬ s.Crashed := by
  cases h.placed with
  | kept hs =>
      rw [hs] at hrun
      cases hrun
  | @lent w stop hs hpassed hcrash =>
      rw [hs, Streamer.isRunning_working, Bool.not_eq_true'] at hrun
      exact ⟨w, stop, hs, by simp [hrun], hpassed, hcrash⟩
  | lost hs hsession =>
      rw [hs] at hrun
      rcases hsession with rfl | rfl <;> cases hrun

theorem reap (h : Custody t s) (hrun : s.streamer.isRunning = false) :
    s.streamer.reap = ⟨s.streamer.reap.target, none⟩ ∧ Custody t (s.letGo s.streamer.reap.target) := by
  have hover := Streamer.isOver_of_session hrun
  cases h.placed with
  | kept hs hpassed hcrash =>
      rw [hs]
      exact ⟨rfl, h.letGo hover (.kept rfl hpassed hcrash)⟩
  | @lent w stop hs hpassed hcrash =>
      have hw : w.isEnded := hover (.working w stop) (by rw [hs])
      obtain ⟨result, -, hwait⟩ := Streamer.wait?_of_isEnded hw none stop
      rw [w.held?_of_isEnded hw] at hpassed
      rw [hs, Streamer.reap_of_wait? hwait]
      exact ⟨rfl, h.letGo hover (.kept rfl hpassed hcrash)⟩
  | lost hs hsession hpassed hcrash =>
      rw [hs]
      rcases hsession with rfl | rfl <;>
        exact ⟨rfl, h.letGo hover (.lost rfl (.inl rfl) hpassed hcrash)⟩

theorem begin (h : Custody t s) {u : τ} (hs : s.streamer = ⟨some u, none⟩) (source : FrameSource)
    (options : StreamOptions) (now : Nat) :
    Custody t (s.goOn (.working (.start u source options now) false) [.began]) := by
  obtain ⟨hpassed, hcrash⟩ := h.passed hs
  have hfresh : (⟨s.past.length, .ended⟩ : Entry τ) ∉ s.log := by
    intro hmem
    have hlt := h.numbered _ hmem
    rw [Scene.sessions, hs, Option.toList_none, List.append_nil] at hlt
    exact Nat.lt_irrefl _ hlt
  refine h.goOn (.lent rfl ?_ ?_) ?_ ⟨?_, ?_⟩
  · rw [Scene.calls_goOn, List.filterMap_cons]
    simpa [Happening.call?, Worker.start, Worker.held?] using hpassed
  · simpa [Scene.crashed_goOn_iff] using hcrash
  · rintro w stop ⟨⟩ e ⟨⟩
  · simp [Scene.goOn]
  · simpa [Scene.goOn, Worker.start, Worker.isEnded] using hfresh

theorem start (h : Custody t s) (source : FrameSource) (options : StreamOptions) (now : Nat) :
    Custody t (s.start source options now) := by
  rw [Scene.start]
  cases hrun : s.streamer.isRunning with
  | true =>
      rw [Streamer.start_of_isRunning options now hrun]
      exact h
  | false =>
      by_cases hsource : source.count = 0
      · rw [Streamer.start_empty options now hrun hsource]
        exact h
      · obtain ⟨hreap, hgone⟩ := h.reap hrun
        rw [Streamer.start_of_reap options now hrun hsource, hreap]
        cases htarget : s.streamer.reap.target with
        | none =>
            rw [htarget] at hgone
            exact hgone
        | some u =>
            rw [htarget] at hgone
            exact hgone.begin rfl source options now

theorem wait (h : Custody t s) : Custody t s.wait := by
  rw [Scene.wait]
  cases hwait : s.streamer.wait? with
  | none => exact h
  | some answer =>
      obtain ⟨result, streamer⟩ := answer
      obtain ⟨hreap, hgone⟩ := h.reap (Streamer.isRunning_of_wait? hwait)
      rw [Streamer.reap_of_wait? hwait] at hreap hgone
      rw [Scene.letGo, ← hreap] at hgone
      exact hgone

theorem stop (h : Custody t s) : Custody t { s with streamer := s.streamer.stop } := by
  cases h.placed with
  | kept hs =>
      have hsame : s.streamer.stop = s.streamer := by rw [hs, Streamer.stop]
      rwa [hsame]
  | @lent w stop hs hpassed hcrash =>
      have hsilent : s.log ++ List.map (Entry.mk s.past.length) [] = s.log := List.append_nil s.log
      have hgo : Custody t (s.goOn (.working w true) []) := by
        refine h.goOn (.lent rfl ?_ ?_) ?_ ?_
        · rwa [Scene.calls_goOn, List.filterMap_nil, List.append_nil]
        · simpa [Scene.crashed_goOn_iff] using hcrash
        · rintro v stop' ⟨⟩
          exact h.endsWell w stop (by rw [hs])
        · rw [Scene.goOn, hsilent]
          exact h.current (.working w stop) (by rw [hs])
      rw [Scene.goOn, hsilent] at hgo
      rwa [hs, Streamer.stop]
  | lost hs hsession =>
      have hsame : s.streamer.stop = s.streamer := by
        rcases hsession with rfl | rfl <;> rw [hs, Streamer.stop]
      rwa [hsame]

variable [Png.Codec]

theorem stepped (h : Custody t s) {w : Worker τ} {stop : Bool}
    (hs : s.streamer = ⟨none, some (.working w stop)⟩) (hw : ¬ w.isEnded)
    (hpassed : Passed t s.calls w.held?) (hcrash : ¬ s.Crashed) (now : Nat) :
    Custody t (s.goOn (Session.stepped now (.working w stop))
      ((Session.calls now (.working w stop)).map .handed ++
        (Session.stepped now (.working w stop)).endings)) := by
  obtain ⟨hbegan, hended⟩ : Told s.log s.past.length (.working w stop) :=
    h.current _ (by rw [hs])
  have htold : ∀ (calls : List (Call τ)) (session : Session τ),
      Told (s.goOn session (calls.map .handed ++ session.endings)).log s.past.length session := by
    intro calls session
    cases session with
    | working v stop => simp [Scene.goOn, Told, hbegan, hended, hw, mem_endings_working]
    | crashed => simp [Scene.goOn, Told, hbegan, Session.endings]
  have hlent : ∀ (calls : List (Call τ)) (v : Worker τ), Passed t (s.calls ++ calls) v.held? →
      Placed t (s.goOn (.working v stop) (calls.map .handed ++
        (Session.working v stop).endings)) := by
    intro calls v hv
    refine .lent rfl ?_ ?_
    · rwa [Scene.calls_goOn, filterMap_call?_seen]
    · simp [Scene.crashed_goOn_iff, hcrash, mem_endings_working]
  have hkeeps := w.keeps_turn ⟨now, stop⟩
  have hends : w.EndsWell := h.endsWell w stop (by rw [hs])
  refine h.goOn ?_ (fun v stop' hstep => Session.endsWell_stepped hends hstep) (htold _ _)
  rw [Session.stepped, Session.calls]
  cases hturn : w.turn ⟨now, stop⟩ with
  | settle next =>
      rw [hturn] at hkeeps
      cases next with
      | none =>
          refine .lost rfl (.inr rfl) ⟨w.held?, ?_⟩ ?_
          · rwa [Scene.calls_goOn, filterMap_call?_seen, Turn.calls, List.append_nil]
          · exact Scene.crashed_goOn_iff.mpr (.inr List.mem_cons_self)
      | some v =>
          refine hlent [] v ?_
          rwa [hkeeps v rfl, List.append_nil]
  | hand v datagram rest =>
      rw [hturn] at hkeeps
      refine hlent [⟨v.target, datagram⟩] _ ?_
      rw [Worker.held?_heard]
      rw [hkeeps] at hpassed
      exact hpassed.more datagram

theorem work (h : Custody t s) (n now : Nat) : Custody t (s.work n now) := by
  rcases Nat.lt_trichotomy n s.past.length with hlt | rfl | hgt
  · have hn := List.getElem?_eq_getElem hlt
    rw [Scene.work_past hn (h.past n _ hn).1]
    exact h
  · cases hrun : s.streamer.isRunning with
    | false =>
        rw [Scene.work_idle (Streamer.isOver_of_session hrun)]
        exact h
    | true =>
        obtain ⟨w, stop, hs, hw, hpassed, hcrash⟩ := h.lent hrun
        rw [Scene.work_current, hs, Scene.seen_eq, Session.isOver, if_neg hw]
        exact h.stepped hs hw hpassed hcrash now
  · rw [Scene.work_beyond hgt]
    exact h

theorem next (h : Custody t s) (event : Event) : Custody t (s.next event) := by
  cases event with
  | start source options now => exact h.start source options now
  | stop => exact h.stop
  | wait => exact h.wait
  | work n now => exact h.work n now

theorem run (h : Custody t s) (events : List Event) : Custody t (s.run events) :=
  List.foldlRecOn events Scene.next h fun _ hs event _ => hs.next event

end Custody

namespace Custody

variable {t : τ} {s : Scene τ}

theorem isRunning_iff (h : Custody t s) : s.streamer.isRunning ↔ ∃ n, s.Unfinished n := by
  constructor
  · intro hrun
    obtain ⟨w, stop, hs, hw, -, hcrash⟩ := h.lent hrun
    obtain ⟨hbegan, hended⟩ : Told s.log s.past.length (.working w stop) :=
      h.current _ (by rw [hs])
    exact ⟨_, hbegan, mt hended.mp hw, fun hin => hcrash ⟨_, hin⟩⟩
  · rintro ⟨n, hbegan, hended, hcrashed⟩
    have hopen : ∀ session, Told s.log n session → session.isOver = false := by
      intro session htold
      cases session with
      | working w stop =>
          rw [Session.isOver, ← Bool.not_eq_true, ← htold.2]
          exact hended
      | crashed => exact absurd htold.2 hcrashed
    have hle : n ≤ s.past.length := h.session_le _ hbegan
    rcases Nat.lt_or_eq_of_le hle with hlt | rfl
    · obtain ⟨hover, htold⟩ := h.past n _ (List.getElem?_eq_getElem hlt)
      rw [hopen _ htold] at hover
      cases hover
    · have hnumber := h.numbered _ hbegan
      obtain ⟨⟨target, _ | session⟩, past, log⟩ := s
      · rw [Scene.sessions, Option.toList_none, List.append_nil] at hnumber
        exact absurd hnumber (Nat.lt_irrefl _)
      · have hover := hopen session (h.current session rfl)
        cases session with
        | working w stop =>
            rw [Session.isOver] at hover
            rw [Streamer.isRunning_working, hover, Bool.not_false]
        | crashed => cases hover

theorem wait?_good (h : Custody t s) {result : Except StreamError StreamSummary}
    {streamer : Streamer τ} (hwait : s.streamer.wait? = some (result, streamer))
    (hresult : (∃ summary, result = .ok summary) ∨ ∃ index e, result = .error (.encode index e)) :
    ∃ u, streamer = ⟨some u, none⟩ ∧ Passed t s.calls (some u) := by
  obtain ⟨u, rfl⟩ := Streamer.exists_target_of_wait? hwait hresult
  obtain ⟨-, hgone⟩ := h.reap (Streamer.isRunning_of_wait? hwait)
  rw [Streamer.reap_of_wait? hwait] at hgone
  exact ⟨u, rfl, (hgone.passed rfl).1⟩

theorem intoTarget?_cases (h : Custody t s) {answer : Except StreamError τ}
    (hinto : s.streamer.intoTarget? = some answer) :
    (∃ u, answer = .ok u ∧ Passed t s.calls (some u)) ∨ (∃ e, answer = .error e) ∧ s.Crashed := by
  cases h.placed with
  | @kept u hs hpassed hcrash =>
      rw [hs, Streamer.intoTarget?] at hinto
      cases hinto
      exact .inl ⟨u, rfl, hpassed⟩
  | @lent w stop hs hpassed hcrash =>
      rw [hs, Streamer.intoTarget?_working (h.endsWell w stop (by rw [hs]))] at hinto
      split at hinto
      next hw =>
        cases hinto
        rw [w.held?_of_isEnded hw] at hpassed
        exact .inl ⟨w.target, rfl, hpassed⟩
      next => cases hinto
  | lost hs hsession hpassed hcrash =>
      refine .inr ⟨?_, hcrash⟩
      rw [hs] at hinto
      rcases hsession with rfl | rfl
      · cases hinto
        exact ⟨_, rfl⟩
      · cases hinto
        exact ⟨_, rfl⟩

end Custody

variable [Png.Codec]

theorem lost_next {s : Scene τ} (h : s.streamer = ⟨none, none⟩) (event : Event) :
    (s.next event).streamer = ⟨none, none⟩ := by
  cases event with
  | start source options now =>
      rw [Scene.next, Scene.start, h]
      by_cases hsource : source.count = 0
      · rw [Streamer.start_empty options now rfl hsource]
      · rw [Streamer.start_of_reap options now rfl hsource]
        rfl
  | stop => rw [Scene.next, h, Streamer.stop]
  | wait =>
      rw [Scene.next, Scene.wait, h]
      rfl
  | work n now =>
      rcases Nat.lt_trichotomy n s.past.length with hlt | rfl | hgt
      · rw [Scene.next, Scene.work, List.getElem?_eq_getElem hlt]
        exact h
      · rw [Scene.next, Scene.work_current, h]
        rfl
      · rw [Scene.next, Scene.work_beyond hgt]
        exact h

theorem lost_run {s : Scene τ} (h : s.streamer = ⟨none, none⟩) (events : List Event) :
    (s.run events).streamer = ⟨none, none⟩ :=
  List.foldlRecOn (motive := fun s : Scene τ => s.streamer = ⟨none, none⟩) events Scene.next h
    fun _ hs event _ => lost_next hs event

/-- What callers can rely on, whatever has been done before. Giving the transport up begins with
raising stop and ends the use of the streamer, so it needs no event of its own. -/
structure Guarantees (t : τ) (s : Scene τ) : Prop where
  placed : Placed t s
  /-- What happens in one session comes before anything that happens in the next. -/
  ordered : s.log.Pairwise fun x y => x.session ≤ y.session
  /-- A session runs from its start until its worker ends or crashes. -/
  running : s.streamer.isRunning ↔ ∃ n, s.Unfinished n
  /-- After a session that ended, the next one starts with the same transport. -/
  restart : ∀ result streamer, s.streamer.wait? = some (result, streamer) →
    ((∃ summary, result = .ok summary) ∨ ∃ index e, result = .error (.encode index e)) →
    ∃ u, Passed t s.calls (some u) ∧ ∀ source options now, source.count ≠ 0 →
      streamer.start source options now =
        (.ok (), ⟨none, some (.working (.start u source options now) false)⟩)
  /-- The transport is given back unless it is lost. -/
  given : ∀ answer, s.streamer.intoTarget? = some answer →
    (∃ u, answer = .ok u ∧ Passed t s.calls (some u)) ∨ (∃ e, answer = .error e) ∧ s.Crashed
  /-- Once a crashed session has been let go, nothing brings the transport back. -/
  gone : s.Crashed → s.streamer.session = none → ∀ more,
    (∀ source options now, source.count ≠ 0 →
      ((s.run more).streamer.start source options now).1 = .error .targetLost) ∧
    (s.run more).streamer.intoTarget? = some (.error .targetLost) ∧
    ∃ streamer, (s.run more).streamer.wait? = some (.error .notStarted, streamer)

/-- A transport that a streamer was made of is never shared and never lost but by a crash, whatever
callers and workers do in whatever order. -/
theorem transport_guarantees (t : τ) (events : List Event) :
    Guarantees t ((Scene.ofTarget t).run events) := by
  generalize hs : (Scene.ofTarget t).run events = s
  have h : Custody t s := hs ▸ (Custody.ofTarget t).run events
  refine ⟨h.placed, h.sorted, h.isRunning_iff, fun result streamer hwait hresult => ?_,
    fun answer => h.intoTarget?_cases, fun hcrash hnone more => ?_⟩
  · obtain ⟨u, rfl, hpassed⟩ := h.wait?_good hwait hresult
    refine ⟨u, hpassed, fun source options now hsource => ?_⟩
    rw [Streamer.start_of_reap options now rfl hsource]
    rfl
  · have hlost : s.streamer = ⟨none, none⟩ := by
      cases h.placed with
      | kept _ _ hsafe => exact absurd hcrash hsafe
      | lent _ _ hsafe => exact absurd hcrash hsafe
      | lost hs hsession =>
          rw [hs] at hnone
          rw [hs, ← hnone]
    rw [lost_run hlost more]
    refine ⟨fun source options now hsource => ?_, rfl, _, rfl⟩
    rw [Streamer.start_of_reap options now rfl hsource]
    rfl

end Custody

end LedWall
