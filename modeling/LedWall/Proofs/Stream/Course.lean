import LedWall.Proofs.Stream.Scene

/-!
# The course of a run

A run leaves more behind than its last worker: the frames that were asked for, and what the clock
showed after each transmission. Both are read off the workers between its steps.
-/

namespace LedWall

open Fallible

namespace Worker

variable {τ : Type}

def asked? (w : Worker τ) : Option Nat :=
  match w.phase with
  | .requesting index => some index
  | _ => none

def reading? (w : Worker τ) : Option Nat :=
  match w.phase with
  | .boundary => some w.elapsed
  | _ => none

def result? (w : Worker τ) : Option (Except StreamError StreamSummary) :=
  match w.phase with
  | .ended result => some result
  | _ => none

theorem result?_eq_some_iff {w : Worker τ} {result : Except StreamError StreamSummary} :
    w.result? = some result ↔ w.phase = .ended result := by
  rw [result?]
  cases w.phase <;> simp

theorem asked?_request (w : Worker τ) : w.request.asked? = some w.index := by
  obtain ⟨-, -, -, hphase⟩ := w.request_keeps
  rw [asked?, hphase]

theorem reading?_request (w : Worker τ) : w.request.reading? = none := by
  obtain ⟨-, -, -, hphase⟩ := w.request_keeps
  rw [reading?, hphase]

theorem asked?_heard (w : Worker τ) (rest : List (List UInt8))
    (answer : Option (Except TransmissionError Unit × τ)) : (w.heard rest answer).asked? = none := by
  cases answer <;> rfl

theorem filterMap_append_toList {α β : Type} (f : α → Option β) (xs : List α) (next : Option α) :
    (xs ++ next.toList).filterMap f = xs.filterMap f ++ (next.bind f).toList := by
  cases next with
  | none => simp
  | some a =>
      rw [List.filterMap_append, Option.toList_some, Option.bind_some]
      cases h : f a <;> simp [h]

variable [Fallible τ] [Png.Codec]

/-- The workers after each of some steps, up to a crash. -/
def course (w : Worker τ) : List Moment → List (Worker τ)
  | [] => []
  | moment :: more =>
      match returned (w.step moment : Recorded τ _) with
      | some v => v :: v.course more
      | none => []

def requested (w : Worker τ) (moments : List Moment) : List Nat :=
  (w.course moments).filterMap asked?

/-- The times read after the transmissions. -/
def readings (w : Worker τ) (moments : List Moment) : List Nat :=
  (w.course moments).filterMap reading?

theorem yields_step (w : Worker τ) (moment : Moment) :
    Yields (w.step moment : Recorded τ _) (w.turn moment).after (w.turn moment).calls := by
  rw [step_eq]
  exact Turn.yields_take _

theorem passed_turn {t : τ} {w : Worker τ} {calls : List (Call τ)} (h : Passed t calls w.held?)
    (moment : Moment) : ∃ last, Passed t (calls ++ (w.turn moment).calls) last ∧
      ∀ v ∈ (w.turn moment).after, v.held? = last := by
  have hkeeps := w.keeps_turn moment
  cases hturn : w.turn moment with
  | settle next =>
      rw [hturn] at hkeeps
      refine ⟨w.held?, ?_, hkeeps⟩
      rwa [Turn.calls, List.append_nil]
  | hand v datagram rest =>
      rw [hturn] at hkeeps
      rw [hkeeps] at h
      refine ⟨_, h.more datagram, fun u hu => ?_⟩
      rw [← Option.some.inj hu, held?_heard]

theorem records_run (w : Worker τ) (moments : List Moment) :
    Records (w.run moments : Recorded τ _) := by
  induction moments generalizing w with
  | nil => exact ⟨_, _, .pure _⟩
  | cons moment more ih =>
      have hstep := w.yields_step moment
      rw [run]
      cases hafter : (w.turn moment).after with
      | none =>
          rw [hafter] at hstep
          exact ⟨_, _, hstep.bind (.pure _)⟩
      | some v =>
          obtain ⟨next, calls, hmore⟩ := ih v
          rw [hafter] at hstep
          exact ⟨_, _, hstep.bind hmore⟩

theorem run_cons_of_some {w v : Worker τ} {moment : Moment} (h : (w.turn moment).after = some v)
    (more : List Moment) :
    returned (w.run (moment :: more) : Recorded τ _) = returned (v.run more : Recorded τ _) ∧
      made (w.run (moment :: more) : Recorded τ _) =
        (w.turn moment).calls ++ made (v.run more : Recorded τ _) ∧
      w.course (moment :: more) = v :: v.course more := by
  have hstep := w.yields_step moment
  rw [h] at hstep
  have hrun : Yields (w.run (moment :: more)) _ _ := hstep.bind (v.records_run more).yields
  refine ⟨hrun.returned_eq, hrun.made_eq, ?_⟩
  rw [course, hstep.returned_eq]

theorem run_cons_of_none {w : Worker τ} {moment : Moment} (h : (w.turn moment).after = none)
    (more : List Moment) :
    returned (w.run (moment :: more) : Recorded τ _) = none ∧
      made (w.run (moment :: more) : Recorded τ _) = (w.turn moment).calls ∧
      w.course (moment :: more) = [] := by
  have hstep := w.yields_step moment
  rw [h] at hstep
  have hrun : Yields (w.run (moment :: more)) none ((w.turn moment).calls ++ []) :=
    hstep.bind (.pure _)
  refine ⟨hrun.returned_eq, ?_, ?_⟩
  · rw [hrun.made_eq, List.append_nil]
  · rw [course, hstep.returned_eq]

section Invariant

variable {P : Nat → Option (Worker τ) → List (Worker τ) → List (Call τ) → Prop}

theorem run_invariant_from
    (hturn : ∀ clock w past calls moment, P clock (some w) past calls → clock ≤ moment.now →
      P moment.now (w.turn moment).after (past ++ (w.turn moment).after.toList)
        (calls ++ (w.turn moment).calls))
    {clock : Nat} {w : Worker τ} {past : List (Worker τ)} {calls : List (Call τ)}
    (h : P clock (some w) past calls) (moments : List Moment)
    (hclock : (clock :: moments.map Moment.now).Pairwise (· ≤ ·)) :
    ∃ last, P last (returned (w.run moments : Recorded τ _)) (past ++ w.course moments)
      (calls ++ made (w.run moments : Recorded τ _)) := by
  induction moments generalizing clock w past calls with
  | nil =>
      refine ⟨clock, ?_⟩
      rw [course, List.append_nil]
      exact (List.append_nil calls).symm ▸ h
  | cons moment more ih =>
      rw [List.map_cons, List.pairwise_cons] at hclock
      obtain ⟨hle, hlater⟩ := hclock
      have hnext := hturn clock w past calls moment h (hle _ List.mem_cons_self)
      cases hafter : (w.turn moment).after with
      | none =>
          obtain ⟨hreturned, hmade, hcourse⟩ := run_cons_of_none hafter more
          rw [hafter, Option.toList_none] at hnext
          rw [hreturned, hmade, hcourse]
          exact ⟨_, hnext⟩
      | some v =>
          obtain ⟨hreturned, hmade, hcourse⟩ := run_cons_of_some hafter more
          rw [hafter, Option.toList_some] at hnext
          obtain ⟨last, hlast⟩ := ih hnext hlater
          rw [hreturned, hmade, hcourse]
          refine ⟨last, ?_⟩
          rwa [List.append_assoc, List.append_assoc] at hlast

/-- What every turn keeps of the worker, the workers before it and the calls so far holds at the end
of every run under a clock that never goes back. -/
theorem run_invariant
    (hturn : ∀ clock w past calls moment, P clock (some w) past calls → clock ≤ moment.now →
      P moment.now (w.turn moment).after (past ++ (w.turn moment).after.toList)
        (calls ++ (w.turn moment).calls))
    {w : Worker τ} (h : P 0 (some w) [] []) {moments : List Moment}
    (hclock : (moments.map Moment.now).Pairwise (· ≤ ·)) :
    ∃ last, P last (returned (w.run moments : Recorded τ _)) (w.course moments)
      (made (w.run moments : Recorded τ _)) := by
  have hzero : (0 :: moments.map Moment.now).Pairwise (· ≤ ·) :=
    List.pairwise_cons.mpr ⟨fun now _ => Nat.zero_le now, hclock⟩
  exact run_invariant_from hturn h moments hzero

end Invariant

theorem passed_run (target : τ) (source : FrameSource) (options : StreamOptions) (now : Nat)
    {moments : List Moment} (hclock : (moments.map Moment.now).Pairwise (· ≤ ·)) :
    ∃ last, Passed target
      (made ((start target source options now).run moments : Recorded τ _)) last := by
  let P : Nat → Option (Worker τ) → List (Worker τ) → List (Call τ) → Prop := fun _ next _ calls =>
    ∃ last, Passed target calls last ∧ ∀ v ∈ next, v.held? = last
  have hturn : ∀ clock w past calls moment, P clock (some w) past calls → clock ≤ moment.now →
      P moment.now (w.turn moment).after (past ++ (w.turn moment).after.toList)
        (calls ++ (w.turn moment).calls) := by
    intro clock w past calls moment h hle
    obtain ⟨last, hpassed, hheld⟩ := h
    rw [← hheld w rfl] at hpassed
    exact passed_turn hpassed moment
  have hstart : P 0 (some (start target source options now)) [] [] := by
    refine ⟨some target, .none, fun v hv => ?_⟩
    rw [← Option.some.inj hv]
    rfl
  obtain ⟨clock, last, hpassed, hheld⟩ := run_invariant hturn hstart hclock
  exact ⟨last, hpassed⟩

end Worker

end LedWall
