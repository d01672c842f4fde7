import LedWall.Proofs.Stream.Passes

/-!
# The account of a session

Everything that a session hands over belongs to one of the frames that it has asked for, and the
summary tells how many of these were accepted and how many were not.
-/

namespace LedWall

open Fallible

inductive Outcome where
  | accepted
  | refused
  /-- Stop was raised while the frame waited for its turn. -/
  | dropped
  | unwritable (cause : FrameError)
  | crashed
  | underway
deriving DecidableEq

/-- A frame that was asked for, and the calls made for it. -/
structure Showing (τ : Type) where
  index : Nat
  calls : List (Call τ)
  outcome : Outcome

theorem countP_settled {τ : Type} {showings : List (Showing τ)}
    (h : ∀ x ∈ showings, x.outcome = .accepted ∨ x.outcome = .refused) :
    showings.countP (·.outcome = .accepted) + showings.countP (·.outcome = .refused) =
      showings.length := by
  rw [List.length_eq_countP_add_countP (fun x : Showing τ => decide (x.outcome = .accepted))]
  congr 1
  refine List.countP_congr fun x hx => ?_
  rcases h x hx with hx | hx <;> simp [hx]

def Written [Png.Codec] (source : FrameSource) (options : StreamOptions) (request index : Nat)
    (datagrams : List (List UInt8)) : Prop :=
  ∃ frame, source.frame request index = some frame ∧ options.datagrams frame = .ok datagrams

section Showings

variable {τ : Type} [Fallible τ]

def Call.answer? (c : Call τ) : Option (Except TransmissionError Unit) :=
  (attempt c.transport c.datagram).map Prod.fst

/-- The calls hand over the datagrams from the first one on, and each was accepted. -/
def Accepted (calls : List (Call τ)) (datagrams rest : List (List UInt8)) : Prop :=
  calls.map Call.datagram ++ rest = datagrams ∧ ∀ c ∈ calls, c.answer? = some (.ok ())

theorem Accepted.more {done : List (Call τ)} {datagrams rest : List (List UInt8)} {c : Call τ}
    (h : Accepted done datagrams (c.datagram :: rest)) (hc : c.answer? = some (.ok ())) :
    Accepted (done ++ [c]) datagrams rest := by
  obtain ⟨hdatagrams, hdone⟩ := h
  refine ⟨?_, fun d hd => ?_⟩
  · rw [List.map_append, List.map_singleton, List.append_assoc]
    exact hdatagrams
  · rcases List.mem_append.mp hd with hd | hd
    · exact hdone d hd
    · rwa [List.mem_singleton.mp hd]

theorem accepted_nil (datagrams : List (List UInt8)) :
    Accepted ([] : List (Call τ)) datagrams datagrams :=
  ⟨rfl, List.forall_mem_nil _⟩

variable [Png.Codec]

/-- What is true of a frame by what has become of it. -/
inductive Shown (source : FrameSource) (options : StreamOptions) (request : Nat) :
    Showing τ → Prop where
  | asked (index : Nat) : Shown source options request ⟨index, [], .underway⟩
  | noFrame {index : Nat} (hframe : source.frame request index = none) :
      Shown source options request ⟨index, [], .crashed⟩
  | unwritable {index : Nat} {frame : FrameBuffer} {cause : FrameError}
      (hframe : source.frame request index = some frame)
      (hcause : options.datagrams frame = .error cause) :
      Shown source options request ⟨index, [], .unwritable cause⟩
  | dropped {index : Nat} {datagrams : List (List UInt8)}
      (hw : Written source options request index datagrams) :
      Shown source options request ⟨index, [], .dropped⟩
  | accepted {index : Nat} {datagrams : List (List UInt8)} {calls : List (Call τ)}
      (hw : Written source options request index datagrams)
      (hcalls : Accepted calls datagrams []) :
      Shown source options request ⟨index, calls, .accepted⟩
  | underway {index : Nat} {datagrams rest : List (List UInt8)} {done : List (Call τ)} {c : Call τ}
      (hw : Written source options request index datagrams)
      (hdone : Accepted done datagrams (c.datagram :: rest)) :
      Shown source options request ⟨index, done ++ [c], .underway⟩
  | refused {index : Nat} {datagrams rest : List (List UInt8)} {done : List (Call τ)} {c : Call τ}
      {e : TransmissionError} (hw : Written source options request index datagrams)
      (hdone : Accepted done datagrams (c.datagram :: rest)) (hlast : c.answer? = some (.error e)) :
      Shown source options request ⟨index, done ++ [c], .refused⟩
  | crashed {index : Nat} {datagrams rest : List (List UInt8)} {done : List (Call τ)} {c : Call τ}
      (hw : Written source options request index datagrams)
      (hdone : Accepted done datagrams (c.datagram :: rest)) (hlast : c.answer? = none) :
      Shown source options request ⟨index, done ++ [c], .crashed⟩

def Facing (source : FrameSource) (options : StreamOptions) (request : Nat)
    (current : Option (Showing τ)) (w : Worker τ) : Prop :=
  match w.phase with
  | .boundary => current = none
  | .requesting index => current = some ⟨index, [], .underway⟩
  | .pacing datagrams => ∃ index, current = some ⟨index, [], .underway⟩ ∧
      Written source options request index datagrams
  | .sending outcome rest => ∃ index datagrams done c,
      current = some ⟨index, done ++ [c], .underway⟩ ∧
      Written source options request index datagrams ∧
      Accepted done datagrams (c.datagram :: rest) ∧ c.answer? = outcome
  | .ended (.ok summary) => summary = w.summary ∧
      (current = none ∨ summary.stoppedEarly ∧ ∃ index, current = some ⟨index, [], .dropped⟩)
  | .ended (.error e) => ∃ index cause, e = .encode index cause ∧
      current = some ⟨index, [], .unwritable cause⟩

/-- What is known of a worker that has concluded some frames and may have asked for another one. -/
structure Abreast (source : FrameSource) (options : StreamOptions) (closed : List (Showing τ))
    (current : Option (Showing τ)) (w : Worker τ) : Prop where
  source_eq : w.source = source
  options_eq : w.options = options
  requests_eq : w.requests = closed.length + current.toList.length
  sent_eq : w.summary.framesSent = closed.countP (·.outcome = .accepted)
  failures_eq : w.summary.sendFailures = closed.countP (·.outcome = .refused)
  facing : Facing source options closed.length current w

/-- The frames that were asked for, with all calls that were made. -/
structure Books (source : FrameSource) (options : StreamOptions) (requested : List Nat)
    (calls : List (Call τ)) (showings : List (Showing τ)) : Prop where
  requested_eq : requested = showings.map Showing.index
  calls_eq : calls = showings.flatMap Showing.calls
  shown : ∀ i x, showings[i]? = some x → Shown source options i x

section Books

variable {source : FrameSource} {options : StreamOptions} {requested : List Nat}
  {calls : List (Call τ)} {showings : List (Showing τ)}

theorem Books.enter (h : Books source options requested calls showings) {x : Showing τ}
    (hshown : Shown source options showings.length x) :
    Books source options (requested ++ [x.index]) (calls ++ x.calls) (showings ++ [x]) := by
  refine ⟨?_, ?_, fun i y hy => ?_⟩
  · rw [h.requested_eq, List.map_append, List.map_singleton]
  · rw [h.calls_eq, List.flatMap_append, List.flatMap_singleton]
  · rcases getElem?_concat_eq_some_iff.mp hy with hold | ⟨rfl, rfl⟩
    · exact h.shown i y hold
    · exact hshown

theorem Books.amend {x x' : Showing τ} (h : Books source options requested calls (showings ++ [x]))
    {more : List (Call τ)} (hindex : x'.index = x.index) (hcalls : x'.calls = x.calls ++ more)
    (hshown : Shown source options showings.length x') :
    Books source options requested (calls ++ more) (showings ++ [x']) := by
  have hbefore : Books source options (showings.map Showing.index)
      (showings.flatMap Showing.calls) showings := by
    refine ⟨rfl, rfl, fun i y hy => h.shown i y ?_⟩
    rwa [List.getElem?_append_left (List.getElem?_eq_some_iff.mp hy).1]
  have hnow := hbefore.enter hshown
  rw [h.requested_eq, h.calls_eq, List.map_append, List.flatMap_append, List.map_singleton,
    List.flatMap_singleton, List.append_assoc, ← hcalls, ← hindex]
  exact hnow

end Books

structure Kept (source : FrameSource) (options : StreamOptions) (next : Option (Worker τ))
    (requested : List Nat) (calls : List (Call τ)) (closed : List (Showing τ))
    (current : Option (Showing τ)) : Prop where
  books : Books source options requested calls (closed ++ current.toList)
  settled : ∀ x ∈ closed, x.outcome = .accepted ∨ x.outcome = .refused
  abreast : ∀ w ∈ next, Abreast source options closed current w
  crashed : next = none → ∃ x, current = some x ∧ x.outcome = .crashed

def InBooks (source : FrameSource) (options : StreamOptions) (next : Option (Worker τ))
    (requested : List Nat) (calls : List (Call τ)) : Prop :=
  ∃ closed current, Kept source options next requested calls closed current

namespace Kept

variable {source : FrameSource} {options : StreamOptions} {w : Worker τ} {requested : List Nat}
  {calls : List (Call τ)} {closed : List (Showing τ)} {current : Option (Showing τ)}

theorem start (target : τ) (source : FrameSource) (options : StreamOptions) (now : Nat) :
    Kept source options (some (Worker.start target source options now)) [] [] [] none where
  books := ⟨rfl, rfl, fun i x hx => by cases hx⟩
  settled := List.forall_mem_nil _
  abreast w hw := by
    obtain rfl := Option.some.inj hw
    exact ⟨rfl, rfl, rfl, rfl, rfl, rfl⟩
  crashed hnone := by cases hnone

theorem silent (h : Kept source options (some w) requested calls closed current) {v : Worker τ}
    (hasked : v.asked? = none) (hv : Abreast source options closed current v) :
    InBooks source options (some v) (requested ++ ((some v).bind Worker.asked?).toList)
      (calls ++ []) := by
  rw [Option.bind_some, hasked, Option.toList_none, List.append_nil, List.append_nil]
  refine ⟨closed, current, h.books, h.settled, fun u hu => ?_, by rintro ⟨⟩⟩
  obtain rfl := Option.some.inj hu
  exact hv

theorem request (h : Kept source options (some w) requested calls closed none) :
    InBooks source options (some w.request)
      (requested ++ ((some w.request).bind Worker.asked?).toList) (calls ++ []) := by
  have hnow := h.abreast w rfl
  obtain ⟨-, hsource, hoptions, hphase⟩ := w.request_keeps
  obtain ⟨hrequests, hsummary⟩ := w.request_counts
  have hbooks := h.books
  rw [Option.toList_none, List.append_nil] at hbooks
  rw [Option.bind_some, Worker.asked?_request]
  refine ⟨closed, some ⟨w.index, [], .underway⟩, hbooks.enter (.asked w.index), h.settled,
    fun v hv => ?_, by rintro ⟨⟩⟩
  obtain rfl := Option.some.inj hv
  refine ⟨hsource.trans hnow.source_eq, hoptions.trans hnow.options_eq, ?_, ?_, ?_, ?_⟩
  · rw [hrequests, hnow.requests_eq]
    rfl
  · rw [hsummary, hnow.sent_eq]
  · rw [hsummary, hnow.failures_eq]
  · rw [Facing, hphase]

theorem amend {x : Showing τ} (h : Kept source options (some w) requested calls closed (some x))
    (x' : Showing τ) {more : List (Call τ)} {next : Option (Worker τ)} (hindex : x'.index = x.index)
    (hcalls : x'.calls = x.calls ++ more) (hshown : Shown source options closed.length x')
    (habreast : ∀ v ∈ next, Abreast source options closed (some x') v)
    (hcrashed : next = none → x'.outcome = .crashed) :
    Kept source options next requested (calls ++ more) closed (some x') where
  books := h.books.amend hindex hcalls hshown
  settled := h.settled
  abreast := habreast
  crashed hnone := ⟨x', rfl, hcrashed hnone⟩

theorem close {x : Showing τ} (h : Kept source options (some w) requested calls closed (some x))
    (x' : Showing τ) {v : Worker τ} (hindex : x'.index = x.index) (hcalls : x'.calls = x.calls)
    (hshown : Shown source options closed.length x')
    (houtcome : x'.outcome = .accepted ∨ x'.outcome = .refused)
    (hv : Abreast source options (closed ++ [x']) none v) :
    Kept source options (some v) requested calls (closed ++ [x']) none where
  books := by
    have hnow := h.books.amend hindex (hcalls.trans (List.append_nil _).symm) hshown
    rw [Option.toList_none, List.append_nil]
    rwa [List.append_nil] at hnow
  settled y hy := by
    rcases List.mem_append.mp hy with hy | hy
    · exact h.settled y hy
    · rwa [List.mem_singleton.mp hy]
  abreast u hu := by
    obtain rfl := Option.some.inj hu
    exact hv
  crashed hnone := by cases hnone

theorem offer {index : Nat} {done : List (Call τ)} {datagrams rest : List (List UInt8)}
    (h : Kept source options (some w) requested calls closed (some ⟨index, done, .underway⟩))
    (hw : Written source options closed.length index datagrams)
    (hdone : Accepted done datagrams rest) (lastStart : Option Nat) (now : Nat) :
    let turn := Worker.offer { w with lastStart } now rest
    InBooks source options turn.after (requested ++ (turn.after.bind Worker.asked?).toList)
      (calls ++ turn.calls) := by
  intro turn
  have hnow := h.abreast w rfl
  cases rest with
  | nil =>
      show InBooks source options (some (Worker.concluded { w with lastStart } now true))
        (requested ++ []) (calls ++ [])
      rw [List.append_nil, List.append_nil]
      refine ⟨_, _, h.close ⟨index, done, .accepted⟩ rfl rfl (.accepted hw hdone) (.inl rfl)
        ⟨hnow.source_eq, hnow.options_eq, ?_, ?_, ?_, rfl⟩⟩
      · show w.requests = (closed ++ [(⟨index, done, .accepted⟩ : Showing τ)]).length
        rw [List.length_append]
        exact hnow.requests_eq
      · simpa [Worker.concluded] using hnow.sent_eq
      · simpa [Worker.concluded] using hnow.failures_eq
  | cons datagram rest =>
      show InBooks source options (some (Worker.heard { w with lastStart } rest _))
        (requested ++ (Worker.asked? (Worker.heard { w with lastStart } rest _)).toList)
        (calls ++ [⟨w.target, datagram⟩])
      rw [Worker.asked?_heard, Option.toList_none, List.append_nil]
      refine ⟨_, _, h.amend ⟨index, done ++ [⟨w.target, datagram⟩], .underway⟩ rfl rfl
        (.underway hw hdone) (fun v hv => ?_) (by rintro ⟨⟩)⟩
      obtain rfl := Option.some.inj hv
      cases hanswer : attempt w.target datagram with
      | none =>
          exact ⟨hnow.source_eq, hnow.options_eq, hnow.requests_eq, hnow.sent_eq, hnow.failures_eq,
            index, datagrams, done, _, rfl, hw, hdone, by rw [Call.answer?, hanswer]; rfl⟩
      | some answer =>
          exact ⟨hnow.source_eq, hnow.options_eq, hnow.requests_eq, hnow.sent_eq, hnow.failures_eq,
            index, datagrams, done, _, rfl, hw, hdone, by rw [Call.answer?, hanswer]; rfl⟩

theorem turn (h : Kept source options (some w) requested calls closed current) (moment : Moment) :
    InBooks source options (w.turn moment).after
      (requested ++ ((w.turn moment).after.bind Worker.asked?).toList)
      (calls ++ (w.turn moment).calls) := by
  have hnow := h.abreast w rfl
  have hfacing := hnow.facing
  have hmove := w.moves moment
  generalize w.turn moment = t at hmove ⊢
  have hquiet : Kept source options (some w) (requested ++ []) calls closed current := by
    rwa [List.append_nil]
  cases hmove with
  | ended hp => exact h.silent (by rw [Worker.asked?, hp]) hnow
  | finish hp | stop hp =>
      rw [Facing, hp] at hfacing
      exact h.silent rfl ⟨hnow.source_eq, hnow.options_eq, hnow.requests_eq, hnow.sent_eq,
        hnow.failures_eq, rfl, .inl hfacing⟩
  | request hp =>
      rw [Facing, hp] at hfacing
      obtain rfl := hfacing
      exact h.request
  | @noFrame index hp hframe =>
      rw [Facing, hp] at hfacing
      obtain rfl := hfacing
      rw [hnow.source_eq, hnow.requests_eq] at hframe
      exact ⟨_, _, hquiet.amend ⟨index, [], .crashed⟩ rfl rfl (.noFrame hframe)
        (fun v hv => absurd hv (Option.not_mem_none v)) fun _ => rfl⟩
  | @unwritable index frame e hp hframe hd =>
      rw [Facing, hp] at hfacing
      obtain rfl := hfacing
      rw [hnow.source_eq, hnow.requests_eq] at hframe
      rw [hnow.options_eq] at hd
      refine ⟨_, _, hquiet.amend ⟨index, [], .unwritable e⟩ rfl rfl (.unwritable hframe hd)
        (fun v hv => ?_) (by rintro ⟨⟩)⟩
      obtain rfl := Option.some.inj hv
      exact ⟨hnow.source_eq, hnow.options_eq, hnow.requests_eq, hnow.sent_eq, hnow.failures_eq, index, e,
        rfl, rfl⟩
  | @first index frame datagrams hp hframe hd =>
      rw [Facing, hp] at hfacing
      obtain rfl := hfacing
      rw [hnow.source_eq, hnow.requests_eq] at hframe
      rw [hnow.options_eq] at hd
      exact h.offer ⟨frame, hframe, hd⟩ (accepted_nil _) _ _
  | @pace index frame datagrams hp hframe hd =>
      rw [Facing, hp] at hfacing
      obtain rfl := hfacing
      rw [hnow.source_eq, hnow.requests_eq] at hframe
      rw [hnow.options_eq] at hd
      exact h.silent rfl ⟨hnow.source_eq, hnow.options_eq, hnow.requests_eq, hnow.sent_eq,
        hnow.failures_eq, index, rfl, frame, hframe, hd⟩
  | drop hp =>
      rw [Facing, hp] at hfacing
      obtain ⟨index, rfl, hw⟩ := hfacing
      refine ⟨_, _, hquiet.amend ⟨index, [], .dropped⟩ rfl rfl (.dropped hw) (fun v hv => ?_)
        (by rintro ⟨⟩)⟩
      obtain rfl := Option.some.inj hv
      exact ⟨hnow.source_eq, hnow.options_eq, hnow.requests_eq, hnow.sent_eq, hnow.failures_eq, rfl,
        .inr ⟨rfl, index, rfl⟩⟩
  | due hp =>
      rw [Facing, hp] at hfacing
      obtain ⟨index, rfl, hw⟩ := hfacing
      exact h.offer hw (accepted_nil _) _ _
  | early hp => exact h.silent (by rw [Worker.asked?, hp]) hnow
  | crashed hp =>
      rw [Facing, hp] at hfacing
      obtain ⟨index, datagrams, done, c, rfl, hw, hdone, hanswer⟩ := hfacing
      exact ⟨_, _, hquiet.amend ⟨index, done ++ [c], .crashed⟩ rfl (List.append_nil _).symm
        (.crashed hw hdone hanswer) (fun v hv => absurd hv (Option.not_mem_none v)) fun _ => rfl⟩
  | accepted hp =>
      rw [Facing, hp] at hfacing
      obtain ⟨index, datagrams, done, c, rfl, hw, hdone, hanswer⟩ := hfacing
      exact h.offer hw (hdone.more hanswer) w.lastStart _
  | failed hp =>
      rw [Facing, hp] at hfacing
      obtain ⟨index, datagrams, done, c, rfl, hw, hdone, hanswer⟩ := hfacing
      rw [Turn.calls, List.append_nil]
      refine ⟨_, _, hquiet.close ⟨index, done ++ [c], .refused⟩ rfl rfl (.refused hw hdone hanswer)
        (.inr rfl) ⟨hnow.source_eq, hnow.options_eq, ?_, ?_, ?_, rfl⟩⟩
      · rw [List.length_append]
        exact hnow.requests_eq
      · simpa [Worker.concluded] using hnow.sent_eq
      · simpa [Worker.concluded] using hnow.failures_eq

end Kept

/-- How the result of a session agrees with the frames that it asked for. -/
def Balanced (source : FrameSource) (showings : List (Showing τ)) :
    Except StreamError StreamSummary → Prop
  | .ok summary =>
      summary.framesSent = showings.countP (·.outcome = .accepted) ∧
      summary.sendFailures = showings.countP (·.outcome = .refused) ∧
      (summary.framesSent + summary.sendFailures = showings.length ∨
        summary.stoppedEarly ∧ summary.framesSent + summary.sendFailures + 1 = showings.length ∧
          ∃ index, showings.getLast? = some ⟨index, [], .dropped⟩) ∧
      (summary.stoppedEarly = false → ∃ passes, 0 < passes ∧ showings.length = passes * source.count)
  | .error e => ∃ index cause, e = .encode index cause ∧
      showings.getLast? = some ⟨index, [], .unwritable cause⟩

structure Account (source : FrameSource) (options : StreamOptions) (w : Worker τ)
    (moments : List Moment) (showings : List (Showing τ)) : Prop where
  requested_eq : w.requested moments = showings.map Showing.index
  inOrder : w.requested moments = (List.range showings.length).map (· % source.count)
  calls_eq : made (w.run moments : Recorded τ _) = showings.flatMap Showing.calls
  /-- Every call finds the transport as the call before has left it. -/
  passed : ∃ last, Passed w.target (made (w.run moments : Recorded τ _)) last
  shown : ∀ request x, showings[request]? = some x → Shown source options request x
  /-- Only the last frame can be anything but accepted or refused. -/
  settled : ∀ x ∈ showings.dropLast, x.outcome = .accepted ∨ x.outcome = .refused
  crashed : returned (w.run moments : Recorded τ _) = none →
    ∃ x, showings.getLast? = some x ∧ x.outcome = .crashed
  balanced : ∀ v result, returned (w.run moments : Recorded τ _) = some v →
    v.phase = .ended result → Balanced source showings result

theorem inBooks_run (target : τ) (source : FrameSource) (options : StreamOptions) (now : Nat)
    {moments : List Moment} (hclock : (moments.map Moment.now).Pairwise (· ≤ ·)) :
    let w := Worker.start target source options now
    InBooks source options (returned (w.run moments : Recorded τ _)) (w.requested moments)
      (made (w.run moments : Recorded τ _)) := by
  intro w
  let P : Nat → Option (Worker τ) → List (Worker τ) → List (Call τ) → Prop :=
    fun _ next past calls => InBooks source options next (past.filterMap Worker.asked?) calls
  have hturn : ∀ clock v past calls moment, P clock (some v) past calls → clock ≤ moment.now →
      P moment.now (v.turn moment).after (past ++ (v.turn moment).after.toList)
        (calls ++ (v.turn moment).calls) := by
    intro clock v past calls moment h hle
    obtain ⟨closed, current, h⟩ := h
    dsimp only [P]
    rw [Worker.filterMap_append_toList]
    exact h.turn moment
  have hstart : P 0 (some w) [] [] := ⟨[], none, .start target source options now⟩
  obtain ⟨clock, h⟩ := Worker.run_invariant hturn hstart hclock
  exact h

theorem Kept.settled_dropLast {source : FrameSource} {options : StreamOptions}
    {next : Option (Worker τ)} {requested : List Nat} {calls : List (Call τ)}
    {closed : List (Showing τ)} {current : Option (Showing τ)}
    (h : Kept source options next requested calls closed current) :
    ∀ x ∈ (closed ++ current.toList).dropLast, x.outcome = .accepted ∨ x.outcome = .refused := by
  intro x hx
  refine h.settled x ?_
  cases current with
  | none =>
      rw [Option.toList_none, List.append_nil] at hx
      exact List.dropLast_subset _ hx
  | some y => rwa [Option.toList_some, List.dropLast_concat] at hx

theorem Kept.balanced {source : FrameSource} {options : StreamOptions} {v : Worker τ}
    {requested : List Nat} {calls : List (Call τ)} {closed : List (Showing τ)}
    {current : Option (Showing τ)} (h : Kept source options (some v) requested calls closed current)
    {result : Except StreamError StreamSummary} (hp : v.phase = .ended result)
    (hwhole : ∀ summary, result = .ok summary → summary.stoppedEarly = false →
      ∃ passes, 0 < passes ∧ requested.length = passes * source.count) :
    Balanced source (closed ++ current.toList) result := by
  have hnow := h.abreast v rfl
  have hfacing := hnow.facing
  have htally := countP_settled h.settled
  rw [h.books.requested_eq, List.length_map] at hwhole
  rw [Facing, hp] at hfacing
  cases result with
  | error e =>
      obtain ⟨index, cause, he, rfl⟩ := hfacing
      exact ⟨index, cause, he, List.getLast?_concat⟩
  | ok summary =>
      obtain ⟨rfl, hopen⟩ := hfacing
      rw [← hnow.sent_eq, ← hnow.failures_eq] at htally
      rcases hopen with rfl | ⟨hstopped, index, rfl⟩
      · rw [Option.toList_none, List.append_nil] at hwhole ⊢
        exact ⟨hnow.sent_eq, hnow.failures_eq, .inl htally, hwhole _ rfl⟩
      · refine ⟨?_, ?_, .inr ⟨hstopped, ?_, index, List.getLast?_concat⟩, hwhole _ rfl⟩
        · simpa using hnow.sent_eq
        · simpa using hnow.failures_eq
        · rw [htally, List.length_append]
          rfl

/-- A session asks for whole passes in order and accounts for every frame. What it hands over is,
frame by frame, the datagrams of each up to the first that fails. -/
theorem session_account (target : τ) {source : FrameSource} (options : StreamOptions) (now : Nat)
    {moments : List Moment} (hcount : 0 < source.count)
    (hclock : (moments.map Moment.now).Pairwise (· ≤ ·)) :
    ∃ showings, Account source options (Worker.start target source options now) moments showings := by
  obtain ⟨closed, current, h⟩ := inBooks_run target source options now hclock
  obtain ⟨clock, hcounting⟩ := Worker.counting_run target options now hcount hclock
  have hlength := congrArg List.length h.books.requested_eq
  rw [List.length_map] at hlength
  refine ⟨closed ++ current.toList, h.books.requested_eq, hlength ▸ hcounting.inOrder, h.books.calls_eq,
    Worker.passed_run target source options now hclock, h.books.shown, h.settled_dropLast,
    fun hnone => ?_, fun v result hv hp => ?_⟩
  · obtain ⟨x, rfl, hx⟩ := h.crashed hnone
    exact ⟨x, List.getLast?_concat, hx⟩
  · rw [hv] at h hcounting
    refine h.balanced hp fun summary hsummary hfull => ?_
    obtain ⟨passes, hcomplete⟩ := hcounting.complete v rfl summary (hsummary ▸ hp) hfull
    exact ⟨passes, hcomplete.pos, hcomplete.requested_eq⟩

end Showings

theorem session_account_briefSession :
    (0 < redBlue.count ∧ (everyInterval.map Moment.now).Pairwise (· ≤ ·)) ∧
      ∃ showings, Account redBlue brief briefSession everyInterval showings ∧
        showings.map Showing.index = [0, 1, 0, 1] := by
  have hcount : 0 < redBlue.count := by decide
  have hclock : (everyInterval.map Moment.now).Pairwise (· ≤ ·) := by decide
  obtain ⟨-, hrequested, -⟩ := briefSession_run
  obtain ⟨showings, h⟩ := session_account (⟨⟩ : Sink) brief 0 hcount hclock
  exact ⟨⟨hcount, hclock⟩, showings, h, h.requested_eq.symm.trans hrequested⟩

end LedWall
