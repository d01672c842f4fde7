import LedWall.Proofs.Stream.Course

/-!
# Whole passes

A worker asks for the frames of its source in order, over and over. Whether a pass is the last one is
decided when its last frame is asked for, by the time that was read after the frame before.
-/

namespace LedWall

open Fallible

/-- The time since the start after so many frames; zero before the first. -/
def elapsedAfter (readings : List Nat) (frames : Nat) : Nat := (0 :: readings).getD frames 0

/-- The passes, counted from one, in which the timeout has passed when the last frame is asked for. -/
def latePasses (count timeout : Nat) (readings : List Nat) : Set Nat :=
  {k | 0 < k ∧ timeout < elapsedAfter readings (k * count - 1)}

section Readings

variable {readings : List Nat} {i j reading count timeout k : Nat}

theorem elapsedAfter_append (h : i ≤ readings.length) :
    elapsedAfter (readings ++ [reading]) i = elapsedAfter readings i :=
  List.getD_append (0 :: readings) [reading] 0 i (Nat.lt_succ_of_le h)

theorem elapsedAfter_last : elapsedAfter (readings ++ [reading]) (readings.length + 1) = reading := by
  rw [elapsedAfter, List.getD_cons_succ, List.getD_append_right _ _ _ _ (Nat.le_refl _), Nat.sub_self]
  rfl

theorem elapsedAfter_nil : elapsedAfter [] i = 0 := by
  cases i <;> rfl

theorem elapsedAfter_mono (hsorted : readings.Pairwise (· ≤ ·)) (hij : i ≤ j)
    (hj : j ≤ readings.length) : elapsedAfter readings i ≤ elapsedAfter readings j := by
  have hzero : (0 :: readings).Pairwise (· ≤ ·) :=
    List.pairwise_cons.mpr ⟨fun e _ => Nat.zero_le e, hsorted⟩
  have hj' : j < (0 :: readings).length := Nat.lt_succ_of_le hj
  have hi' : i < (0 :: readings).length := Nat.lt_of_le_of_lt hij hj'
  rw [elapsedAfter, elapsedAfter, ← List.getElem_eq_getD (h := hi') 0,
    ← List.getElem_eq_getD (h := hj') 0]
  rcases Nat.lt_or_eq_of_le hij with hlt | rfl
  · exact List.pairwise_iff_getElem.mp hzero i j hi' hj' hlt
  · exact Nat.le_refl _

theorem mem_latePasses_append (hk : k * count ≤ readings.length + 1) :
    k ∈ latePasses count timeout (readings ++ [reading]) ↔ k ∈ latePasses count timeout readings := by
  have hle : k * count - 1 ≤ readings.length := by omega
  exact and_congr_right fun _ => by rw [elapsedAfter_append hle]

theorem mod_eq_pred_iff {n q : Nat} (hn : 0 < n) : q % n = n - 1 ↔ ∃ k, q + 1 = k * n := by
  obtain ⟨p, rfl⟩ := Nat.exists_eq_succ_of_ne_zero (Nat.ne_of_gt hn)
  rw [Nat.succ_sub_one, ← Nat.succ_mod_succ_eq_zero_iff, ← Nat.dvd_iff_mod_eq_zero]
  exact dvd_iff_exists_eq_mul_left

end Readings

namespace Worker

variable {τ : Type}

def inFlight (w : Worker τ) : Bool :=
  match w.phase with
  | .requesting _ | .pacing _ | .sending .. => true
  | .boundary | .ended _ => false

theorem request_elapsed (w : Worker τ) :
    w.request.elapsed = w.elapsed ∧ w.request.startedAt = w.startedAt := by
  unfold request
  dsimp only
  split_ifs <;> exact ⟨rfl, rfl⟩

theorem request_lastStart (w : Worker τ) : w.request.lastStart = w.lastStart := by
  unfold request
  dsimp only
  split_ifs <;> rfl

theorem request_counts (w : Worker τ) :
    w.request.requests = w.requests + 1 ∧ w.request.summary = w.summary := by
  unfold request
  dsimp only
  split_ifs <;> exact ⟨rfl, rfl⟩

theorem request_index (w : Worker τ) : w.request.index =
    if 1 < w.source.count then if w.index = w.source.count - 1 then 0 else w.index + 1
    else w.index := by
  unfold request
  dsimp only
  split_ifs <;> rfl

theorem request_animating (w : Worker τ) : w.request.animating =
    if 1 < w.source.count ∧ w.index = w.source.count - 1 then
      w.animating && decide (w.elapsed ≤ w.timeout)
    else w.animating := by
  unfold request
  dsimp only
  split_ifs <;> first | rfl | (exfalso; omega)

theorem not_isEnded_of_inFlight {w : Worker τ} (h : w.inFlight) : w.isEnded = false := by
  rw [inFlight] at h
  rw [isEnded]
  cases hp : w.phase with
  | requesting | pacing | sending | boundary => rfl
  | ended =>
      rw [hp] at h
      cases h

theorem reading?_of_inFlight {w : Worker τ} (h : w.inFlight) : w.reading? = none := by
  rw [inFlight] at h
  rw [reading?]
  cases hp : w.phase with
  | requesting | pacing | sending | ended => rfl
  | boundary =>
      rw [hp] at h
      cases h

inductive Progress (w : Worker τ) (moment : Moment) : Option (Worker τ) → Prop where
  | ended (h : w.isEnded) : Progress w moment (some w)
  | finish (hp : w.phase = .boundary) (hover : ¬ (w.elapsed ≤ w.timeout ∨ w.animating)) :
      Progress w moment (some w.finish)
  | stop : Progress w moment (some w.stopEarly)
  | request (hp : w.phase = .boundary) (hdue : w.elapsed ≤ w.timeout ∨ w.animating) :
      Progress w moment (some w.request)
  | unwritable (e : StreamError) : Progress w moment (some { w with phase := .ended (.error e) })
  | crash : Progress w moment none
  | goOn (hflight : w.inFlight) (target : τ) (phase : Phase) (lastStart : Option Nat)
      (hstill : ({ w with target, phase, lastStart } : Worker τ).inFlight)
      (hasked : ({ w with target, phase, lastStart } : Worker τ).asked? = none) :
      Progress w moment (some { w with target, phase, lastStart })
  | conclude (hflight : w.inFlight) (lastStart : Option Nat) (accepted : Bool) :
      Progress w moment (some (concluded { w with lastStart } moment.now accepted))

section Turns

variable [Fallible τ]

theorem progress_offer {w : Worker τ} {moment : Moment} (hflight : w.inFlight)
    (lastStart : Option Nat) (datagrams : List (List UInt8)) :
    w.Progress moment (offer { w with lastStart } moment.now datagrams).after := by
  cases datagrams with
  | nil => exact .conclude hflight lastStart true
  | cons datagram rest =>
      rw [offer, Turn.after]
      cases attempt w.target datagram <;> exact .goOn hflight _ _ _ rfl rfl

variable [Png.Codec]

theorem progress (w : Worker τ) (moment : Moment) : w.Progress moment (w.turn moment).after := by
  have hflight : ∀ phase : Phase, w.phase = phase →
      (match phase with | .boundary | .ended _ => false | _ => true) = true → w.inFlight := by
    intro phase hp h
    rw [inFlight, hp]
    cases phase <;> first | rfl | cases h
  have hmove := w.moves moment
  generalize w.turn moment = t at hmove ⊢
  cases hmove with
  | ended hp => exact .ended (isEnded_iff.mpr ⟨_, hp⟩)
  | finish hp hover => exact .finish hp hover
  | stop => exact .stop
  | request hp hdue => exact .request hp hdue
  | noFrame | crashed => exact .crash
  | unwritable => exact .unwritable _
  | first hp | due hp => exact progress_offer (hflight _ hp rfl) _ _
  | pace hp => exact .goOn (hflight _ hp rfl) _ _ _ rfl rfl
  | drop => exact .stop
  | early hp =>
      have hstill := hflight _ hp rfl
      exact .goOn hstill w.target w.phase w.lastStart hstill (by rw [asked?, hp])
  | accepted hp => exact progress_offer (hflight _ hp rfl) w.lastStart _
  | failed hp => exact .conclude (hflight _ hp rfl) w.lastStart false

end Turns

/-- What is known of the counting of a worker that has not ended. -/
structure Passing (source : FrameSource) (limit clock : Nat) (w : Worker τ)
    (requested readings : List Nat) : Prop where
  source_eq : w.source = source
  timeout_eq : w.timeout = limit
  index_eq : w.index = requested.length % source.count
  elapsed_eq : w.elapsed = elapsedAfter readings readings.length
  bounded : ∀ e ∈ readings, e ≤ clock - w.startedAt
  length_eq : requested.length = readings.length + w.inFlight.toNat
  animated : w.animating → 1 < source.count
  running : w.animating → ∀ k ∈ latePasses source.count limit readings,
    requested.length < k * source.count
  last : w.animating = false → 1 < source.count →
    ∃ k, IsLeast (latePasses source.count limit readings) k ∧ requested.length = k * source.count

structure Complete (source : FrameSource) (limit : Nat) (requested readings : List Nat)
    (passes : Nat) : Prop where
  pos : 0 < passes
  requested_eq : requested.length = passes * source.count
  readings_eq : readings.length = passes * source.count
  late : limit < elapsedAfter readings (passes * source.count)
  least : 1 < source.count → IsLeast (latePasses source.count limit readings) passes

namespace Passing

variable {source : FrameSource} {limit clock : Nat} {w : Worker τ} {requested readings : List Nat}

theorem le_now (h : Passing source limit clock w requested readings) {now : Nat}
    (hnow : clock ≤ now) : ∀ e ∈ readings, e ≤ now - w.startedAt := fun e he =>
  Nat.le_trans (h.bounded e he) (Nat.sub_le_sub_right hnow _)

theorem length_of_boundary (h : Passing source limit clock w requested readings)
    (hp : w.phase = .boundary) : requested.length = readings.length := by
  have hflight : w.inFlight = false := by rw [inFlight, hp]
  rw [h.length_eq, hflight, Bool.toNat_false, Nat.add_zero]

theorem late (h : Passing source limit clock w requested readings)
    (hsorted : readings.Pairwise (· ≤ ·)) (hp : w.phase = .boundary) (hn : 1 < source.count)
    (hlast : w.animating = false) : limit < w.elapsed := by
  obtain ⟨k, ⟨⟨hk, hlate⟩, -⟩, hpasses⟩ := h.last hlast hn
  have hlength := h.length_of_boundary hp
  rw [h.elapsed_eq]
  exact Nat.lt_of_lt_of_le hlate (elapsedAfter_mono hsorted (by omega) (Nat.le_refl _))

theorem finish (h : Passing source limit clock w requested readings) (hcount : 0 < source.count)
    (hp : w.phase = .boundary) (hover : ¬ (w.elapsed ≤ w.timeout ∨ w.animating)) :
    ∃ k, Complete source limit requested readings k := by
  obtain ⟨hlate, hlast⟩ := not_or.mp hover
  have hlate : limit < w.elapsed := by
    rw [h.timeout_eq] at hlate
    exact Nat.lt_of_not_le hlate
  have hlength := h.length_of_boundary hp
  rw [h.elapsed_eq, ← hlength] at hlate
  rcases Nat.lt_or_ge 1 source.count with hn | hn
  · obtain ⟨k, hleast, hk⟩ := h.last (Bool.eq_false_of_not_eq_true hlast) hn
    exact ⟨k, hleast.1.1, hk, hlength ▸ hk, hk ▸ hlate, fun _ => hleast⟩
  · have hone : source.count = 1 := by omega
    refine ⟨requested.length, ?_, by rw [hone, Nat.mul_one], by rw [hone, Nat.mul_one, hlength],
      by rwa [hone, Nat.mul_one], fun hn' => absurd hn' (Nat.not_lt.mpr hn)⟩
    rw [Nat.pos_iff_ne_zero]
    intro hzero
    rw [hzero] at hlate
    exact Nat.not_lt_zero _ hlate

/-- Were the pass that has just been asked for complete and late, the worker would know, since it has
just looked at the time. -/
theorem running_request (h : Passing source limit clock w requested readings)
    (hcount : 0 < source.count) (hp : w.phase = .boundary) (hanimating : w.request.animating) {k : Nat}
    (hk : k ∈ latePasses source.count limit readings) :
    requested.length + 1 < k * source.count := by
  rw [request_animating, h.source_eq] at hanimating
  have hbefore : w.animating ∧ (w.index = source.count - 1 → w.elapsed ≤ w.timeout) := by
    split at hanimating
    next hwrap =>
      rw [Bool.and_eq_true, decide_eq_true_eq] at hanimating
      exact ⟨hanimating.1, fun _ => hanimating.2⟩
    next hwrap => exact ⟨hanimating, fun hindex => absurd ⟨h.animated hanimating, hindex⟩ hwrap⟩
  have hahead := h.running hbefore.1 k hk
  refine Nat.lt_of_le_of_ne hahead fun heq => ?_
  have hindex : w.index = source.count - 1 := by
    rw [h.index_eq]
    exact (mod_eq_pred_iff hcount).mpr ⟨k, heq⟩
  have hlate : limit < elapsedAfter readings (k * source.count - 1) := hk.2
  rw [← heq, Nat.add_sub_cancel, h.length_of_boundary hp, ← h.elapsed_eq, ← h.timeout_eq] at hlate
  exact Nat.not_le_of_gt hlate (hbefore.2 hindex)

theorem last_request (h : Passing source limit clock w requested readings)
    (hsorted : readings.Pairwise (· ≤ ·)) (hcount : 0 < source.count) (hp : w.phase = .boundary)
    (hdue : w.elapsed ≤ w.timeout ∨ w.animating) (hn : 1 < source.count)
    (hlast : w.request.animating = false) :
    ∃ k, IsLeast (latePasses source.count limit readings) k ∧
      requested.length + 1 = k * source.count := by
  have hanimating : w.animating = true := by
    by_contra hstill
    have hlate := h.late hsorted hp hn (Bool.eq_false_of_not_eq_true hstill)
    rw [← h.timeout_eq] at hlate
    exact Nat.not_le_of_gt hlate (hdue.resolve_right hstill)
  rw [request_animating, h.source_eq, hanimating] at hlast
  split at hlast
  next hwrap =>
    rw [Bool.true_and, decide_eq_false_iff_not, Nat.not_le, h.timeout_eq, h.elapsed_eq,
      ← h.length_of_boundary hp] at hlast
    obtain ⟨k, hk⟩ := (mod_eq_pred_iff hcount).mp (h.index_eq.symm.trans hwrap.2)
    have hpos : 0 < k := by
      rw [Nat.pos_iff_ne_zero]
      intro hzero
      rw [hzero, Nat.zero_mul] at hk
      cases hk
    have hlate : k ∈ latePasses source.count limit readings := by
      refine ⟨hpos, ?_⟩
      rwa [← hk, Nat.add_sub_cancel]
    refine ⟨k, ⟨hlate, fun j hj => ?_⟩, hk⟩
    have hahead := h.running hanimating j hj
    rw [← Nat.succ_le_iff, Nat.succ_eq_add_one, hk] at hahead
    exact Nat.le_of_mul_le_mul_right hahead hcount
  next => cases hlast

theorem request (h : Passing source limit clock w requested readings)
    (hsorted : readings.Pairwise (· ≤ ·)) (hcount : 0 < source.count) (hp : w.phase = .boundary)
    (hdue : w.elapsed ≤ w.timeout ∨ w.animating) {now : Nat} (hnow : clock ≤ now) :
    Passing source limit now w.request (requested ++ [w.index]) readings := by
  obtain ⟨-, hsource, hoptions, hphase⟩ := w.request_keeps
  obtain ⟨helapsed, hstarted⟩ := w.request_elapsed
  have hnext : (requested ++ [w.index]).length = requested.length + 1 := List.length_append
  refine ⟨hsource.trans h.source_eq, ?_, ?_, helapsed.trans h.elapsed_eq, ?_, ?_, ?_, ?_, ?_⟩
  · rw [← h.timeout_eq, Worker.timeout, Worker.timeout, hoptions]
  · have hmod := Nat.mod_lt requested.length hcount
    rw [hnext, request_index, h.source_eq, h.index_eq, Nat.add_mod_eq_ite]
    rcases Nat.lt_or_ge 1 source.count with hn | hn
    · rw [if_pos hn, Nat.mod_eq_of_lt hn]
      split_ifs <;> omega
    · have hone : source.count = 1 := by omega
      simp [hone, Nat.mod_one]
  · rw [hstarted]
    exact h.le_now hnow
  · rw [hnext, h.length_of_boundary hp, inFlight, hphase]
    rfl
  · intro hanimating
    rw [request_animating] at hanimating
    split at hanimating
    · exact h.animated (Bool.and_elim_left hanimating)
    · exact h.animated hanimating
  · intro hanimating k hk
    rw [hnext]
    exact h.running_request hcount hp hanimating hk
  · intro hlast hn
    rw [hnext]
    exact h.last_request hsorted hcount hp hdue hn hlast

/-- Between two frames of an animation: it is over when the pass that is complete is the first late
one. -/
theorem over_iff (h : Passing source limit clock w requested readings)
    (hsorted : readings.Pairwise (· ≤ ·)) (hp : w.phase = .boundary) (hn : 1 < source.count) :
    ¬ (w.elapsed ≤ w.timeout ∨ w.animating) ↔
      ∃ k, IsLeast (latePasses source.count limit readings) k ∧
        readings.length = k * source.count := by
  constructor
  · intro hover
    obtain ⟨k, hcomplete⟩ := h.finish (Nat.lt_of_succ_lt hn) hp hover
    exact ⟨k, hcomplete.least hn, hcomplete.readings_eq⟩
  · rintro ⟨k, hleast, hk⟩
    rw [← h.length_of_boundary hp] at hk
    have hlast : w.animating = false := by
      by_contra hstill
      have hahead := h.running (Bool.eq_true_of_not_eq_false hstill) k hleast.1
      exact Nat.ne_of_lt hahead hk
    have hlate := h.late hsorted hp hn hlast
    rw [h.timeout_eq, hlast]
    simp [hlate]

theorem goOn (h : Passing source limit clock w requested readings) (hflight : w.inFlight)
    {target : τ} {phase : Phase} {lastStart : Option Nat}
    (hstill : ({ w with target, phase, lastStart } : Worker τ).inFlight)
    {now : Nat} (hnow : clock ≤ now) :
    Passing source limit now { w with target, phase, lastStart } requested readings := by
  have hlength := h.length_eq
  rw [hflight, ← hstill] at hlength
  exact ⟨h.source_eq, h.timeout_eq, h.index_eq, h.elapsed_eq, h.le_now hnow, hlength, h.animated,
    h.running, h.last⟩

theorem conclude (h : Passing source limit clock w requested readings) (hflight : w.inFlight)
    (lastStart : Option Nat) (accepted : Bool) {now : Nat} (hnow : clock ≤ now) :
    Passing source limit now (concluded { w with lastStart } now accepted) requested
      (readings ++ [now - w.startedAt]) := by
  have hlength := h.length_eq
  rw [hflight, Bool.toNat_true] at hlength
  have hnext : (readings ++ [now - w.startedAt]).length = readings.length + 1 := List.length_append
  refine ⟨h.source_eq, h.timeout_eq, h.index_eq, ?_, ?_, ?_, h.animated, ?_, ?_⟩
  · rw [hnext, elapsedAfter_last]
    rfl
  · intro e he
    rcases List.mem_append.mp he with he | he
    · exact h.le_now hnow e he
    · exact Nat.le_of_eq (List.mem_singleton.mp he)
  · rw [hnext, hlength]
    rfl
  · -- A pass that this reading makes late is one that ends with the frame after.
    intro hanimating k hk
    by_contra hdone
    have hle : k * source.count ≤ readings.length + 1 := hlength ▸ Nat.le_of_not_lt hdone
    exact hdone (h.running hanimating k ((mem_latePasses_append hle).mp hk))
  · intro hlast hn
    obtain ⟨k, ⟨hk, hleast⟩, hpasses⟩ := h.last hlast hn
    have hle : k * source.count ≤ readings.length + 1 := Nat.le_of_eq (hpasses.symm.trans hlength)
    refine ⟨k, ⟨(mem_latePasses_append hle).mpr hk, fun j hj => ?_⟩, hpasses⟩
    by_contra hlt
    have hbefore : j * source.count ≤ readings.length + 1 :=
      Nat.le_trans (Nat.mul_le_mul_right _ (Nat.le_of_not_le hlt)) hle
    exact hlt (hleast ((mem_latePasses_append hbefore).mp hj))

end Passing

structure Counting (source : FrameSource) (limit clock : Nat) (next : Option (Worker τ))
    (requested readings : List Nat) : Prop where
  inOrder : requested = (List.range requested.length).map (· % source.count)
  sorted : readings.Pairwise (· ≤ ·)
  passing : ∀ w ∈ next, w.isEnded = false → Passing source limit clock w requested readings
  complete : ∀ w ∈ next, ∀ summary, w.phase = .ended (.ok summary) →
    summary.stoppedEarly = false → ∃ k, Complete source limit requested readings k

namespace Counting

variable {source : FrameSource} {limit clock : Nat} {w : Worker τ} {requested readings : List Nat}

theorem start (target : τ) (source : FrameSource) (options : StreamOptions) (now : Nat) :
    Counting source options.timeout clock
      (some (Worker.start target source options now)) [] [] where
  inOrder := rfl
  sorted := .nil
  passing w hw _ := by
    obtain rfl := Option.some.inj hw
    have hnone : ∀ k, k ∉ latePasses source.count options.timeout [] := by
      intro k hk
      have hlate := hk.2
      rw [elapsedAfter_nil] at hlate
      exact Nat.not_lt_zero _ hlate
    refine ⟨rfl, rfl, (Nat.zero_mod _).symm, rfl, List.forall_mem_nil _, rfl, of_decide_eq_true,
      fun _ k hk => absurd hk (hnone k), fun hlast hn => ?_⟩
    exact absurd hn (of_decide_eq_false hlast)
  complete w hw summary hp := by
    obtain rfl := Option.some.inj hw
    cases hp

theorem silent (h : Counting source limit clock (some w) requested readings) {now : Nat}
    {v : Worker τ} (hasked : v.asked? = none) (hreading : v.reading? = none)
    (hpassing : v.isEnded = false → Passing source limit now v requested readings)
    (hcomplete : ∀ summary, v.phase = .ended (.ok summary) → summary.stoppedEarly = false →
      ∃ k, Complete source limit requested readings k) :
    Counting source limit now (some v) (requested ++ ((some v).bind asked?).toList)
      (readings ++ ((some v).bind reading?).toList) := by
  rw [Option.bind_some, Option.bind_some, hasked, hreading, Option.toList_none, List.append_nil,
    List.append_nil]
  refine ⟨h.inOrder, h.sorted, fun u hu => ?_, fun u hu => ?_⟩
  · obtain rfl := Option.some.inj hu
    exact hpassing
  · obtain rfl := Option.some.inj hu
    exact hcomplete

theorem request (h : Counting source limit clock (some w) requested readings)
    (hcount : 0 < source.count) (hp : w.phase = .boundary)
    (hdue : w.elapsed ≤ w.timeout ∨ w.animating) {now : Nat} (hclock : clock ≤ now) :
    Counting source limit now (some w.request) (requested ++ ((some w.request).bind asked?).toList)
      (readings ++ ((some w.request).bind reading?).toList) := by
  have hpassing := h.passing w rfl (by rw [isEnded, hp])
  obtain ⟨-, -, -, hphase⟩ := w.request_keeps
  rw [Option.bind_some, Option.bind_some, asked?_request, reading?_request, Option.toList_none,
    List.append_nil, Option.toList_some]
  refine ⟨?_, h.sorted, fun v hv _ => ?_, fun v hv summary hended => ?_⟩
  · rw [List.length_append, List.length_singleton, List.range_succ, List.map_append, ← h.inOrder,
      hpassing.index_eq]
    rfl
  · obtain rfl := Option.some.inj hv
    exact hpassing.request h.sorted hcount hp hdue hclock
  · obtain rfl := Option.some.inj hv
    rw [hphase] at hended
    cases hended

theorem conclude (h : Counting source limit clock (some w) requested readings) (hflight : w.inFlight)
    (lastStart : Option Nat) (accepted : Bool) {now : Nat} (hclock : clock ≤ now) :
    let v := concluded { w with lastStart } now accepted
    Counting source limit now (some v) (requested ++ ((some v).bind asked?).toList)
      (readings ++ ((some v).bind reading?).toList) := by
  intro v
  have hpassing := h.passing w rfl (not_isEnded_of_inFlight hflight)
  have hnext := hpassing.conclude hflight lastStart accepted hclock
  have hsorted : (readings ++ [now - w.startedAt]).Pairwise (· ≤ ·) := by
    refine List.pairwise_append.mpr ⟨h.sorted, List.pairwise_singleton _ _, fun e he e' he' => ?_⟩
    rw [List.mem_singleton.mp he']
    exact hpassing.le_now hclock e he
  show Counting source limit now _ (requested ++ []) (readings ++ [now - w.startedAt])
  rw [List.append_nil]
  refine ⟨h.inOrder, hsorted, fun u hu _ => ?_, fun u hu summary hended => ?_⟩
  · obtain rfl := Option.some.inj hu
    exact hnext
  · obtain rfl := Option.some.inj hu
    cases hended

theorem progress (h : Counting source limit clock (some w) requested readings)
    (hcount : 0 < source.count) {moment : Moment} (hclock : clock ≤ moment.now)
    {next : Option (Worker τ)} (hnext : w.Progress moment next) :
    Counting source limit moment.now next (requested ++ (next.bind asked?).toList)
      (readings ++ (next.bind reading?).toList) := by
  have hnow := h.passing w rfl
  cases hnext with
  | ended hended =>
      obtain ⟨result, hp⟩ := isEnded_iff.mp hended
      refine h.silent (by rw [asked?, hp]) (by rw [reading?, hp]) (fun hstill => ?_)
        (h.complete w rfl)
      rw [hended] at hstill
      cases hstill
  | finish hp hover =>
      have hpassing := hnow (by rw [isEnded, hp])
      exact h.silent rfl rfl (by rintro ⟨⟩) fun _ _ _ => hpassing.finish hcount hp hover
  | stop =>
      refine h.silent rfl rfl (by rintro ⟨⟩) fun summary hended hstopped => ?_
      cases hended
      cases hstopped
  | unwritable e => exact h.silent rfl rfl (by rintro ⟨⟩) (by rintro _ ⟨⟩)
  | crash =>
      rw [Option.bind_none, Option.bind_none, Option.toList_none, List.append_nil, List.append_nil]
      exact ⟨h.inOrder, h.sorted, fun v hv => absurd hv (Option.not_mem_none v),
        fun v hv => absurd hv (Option.not_mem_none v)⟩
  | request hp hdue => exact h.request hcount hp hdue hclock
  | goOn hflight target phase lastStart hstill hasked =>
      have hpassing := hnow (not_isEnded_of_inFlight hflight)
      refine h.silent hasked (reading?_of_inFlight hstill)
        (fun _ => hpassing.goOn hflight hstill hclock) fun summary hended => ?_
      rw [inFlight, hended] at hstill
      cases hstill
  | conclude hflight lastStart accepted => exact h.conclude hflight lastStart accepted hclock

end Counting

variable [Fallible τ] [Png.Codec]

theorem counting_run (target : τ) {source : FrameSource} (options : StreamOptions) (now : Nat)
    {moments : List Moment} (hcount : 0 < source.count)
    (hclock : (moments.map Moment.now).Pairwise (· ≤ ·)) :
    let w := Worker.start target source options now
    ∃ clock, Counting source options.timeout clock
      (returned (w.run moments : Recorded τ _)) (w.requested moments) (w.readings moments) := by
  intro w
  let P : Nat → Option (Worker τ) → List (Worker τ) → List (Call τ) → Prop := fun clock next past _ =>
    Counting source options.timeout clock next (past.filterMap asked?)
      (past.filterMap reading?)
  have hturn : ∀ clock v past calls moment, P clock (some v) past calls → clock ≤ moment.now →
      P moment.now (v.turn moment).after (past ++ (v.turn moment).after.toList)
        (calls ++ (v.turn moment).calls) := by
    intro clock v past calls moment h hle
    dsimp only [P]
    rw [filterMap_append_toList, filterMap_append_toList]
    exact h.progress hcount hle (v.progress moment)
  have hstart : P 0 (some w) [] [] := Counting.start target source options now
  exact run_invariant hturn hstart hclock

theorem returned_step_boundary {w : Worker τ} (hp : w.phase = .boundary) (now : Nat) :
    returned (w.step ⟨now, false⟩ : Recorded τ _) =
      some (if w.elapsed ≤ w.timeout ∨ w.animating then w.request else w.finish) := by
  rw [(w.yields_step _).returned_eq, turn_boundary hp]
  rfl

/-- An animation that is not stopped ends right after the first pass in which the timeout had passed
when its last frame was asked for, and goes on after any other frame. -/
theorem animation_ends (target : τ) {source : FrameSource} (options : StreamOptions) (now : Nat)
    {moments : List Moment} (hcount : 1 < source.count)
    (hclock : (moments.map Moment.now).Pairwise (· ≤ ·)) {w : Worker τ}
    (hrun : returned ((start target source options now).run moments : Recorded τ _) = some w) :
    let readings := (start target source options now).readings moments
    let late := latePasses source.count options.timeout readings
    let done := ∃ k, IsLeast late k ∧ readings.length = k * source.count
    (w.phase = .boundary → ∀ later,
      done ∧ returned (w.step ⟨later, false⟩ : Recorded τ _) = some w.finish ∨
        ¬ done ∧ returned (w.step ⟨later, false⟩ : Recorded τ _) = some w.request) ∧
    (∀ summary, w.phase = .ended (.ok summary) → summary.stoppedEarly = false → done) := by
  intro readings late done
  obtain ⟨clock, h⟩ := counting_run target options now (Nat.lt_of_succ_lt hcount) hclock
  rw [hrun] at h
  refine ⟨fun hp later => ?_, fun summary hended hfull => ?_⟩
  · have hpassing := h.passing w rfl (by rw [isEnded, hp])
    have hover := hpassing.over_iff h.sorted hp hcount
    rw [returned_step_boundary hp]
    by_cases hdue : w.elapsed ≤ w.timeout ∨ w.animating
    · rw [if_pos hdue]
      exact .inr ⟨fun hdone => hover.mpr hdone hdue, rfl⟩
    · rw [if_neg hdue]
      exact .inl ⟨hover.mp hdue, rfl⟩
  · obtain ⟨k, hcomplete⟩ := h.complete w rfl summary hended hfull
    exact ⟨k, hcomplete.least hcount, hcomplete.readings_eq⟩

/-- The end that the timeout alone would call for comes at the same time, or one pass before. -/
theorem passes_after_timeout (target : τ) {source : FrameSource} (options : StreamOptions) (now : Nat)
    {moments : List Moment} (hcount : 1 < source.count)
    (hclock : (moments.map Moment.now).Pairwise (· ≤ ·)) {w : Worker τ}
    (hrun : returned ((start target source options now).run moments : Recorded τ _) = some w)
    {summary : StreamSummary} (hended : w.phase = .ended (.ok summary))
    (hfull : summary.stoppedEarly = false) :
    let e := elapsedAfter ((start target source options now).readings moments)
    let limit := options.timeout
    ∃ k, IsLeast {k | 0 < k ∧ limit < e (k * source.count)} k ∧
      ((start target source options now).readings moments).length =
        (if limit < e (k * source.count - 1) then k else k + 1) * source.count := by
  intro e limit
  obtain ⟨clock, h⟩ := counting_run target options now (Nat.lt_of_succ_lt hcount) hclock
  rw [hrun] at h
  obtain ⟨passes, hcomplete⟩ := h.complete w rfl summary hended hfull
  obtain ⟨hmem, hleast⟩ := hcomplete.least hcount
  have hex : ∃ k, 0 < k ∧ limit < e (k * source.count) := ⟨passes, hcomplete.pos, hcomplete.late⟩
  obtain ⟨hpos, hlate⟩ := Nat.find_spec hex
  have hle : Nat.find hex ≤ passes := Nat.find_min' hex ⟨hcomplete.pos, hcomplete.late⟩
  refine ⟨Nat.find hex, ⟨⟨hpos, hlate⟩, fun k hk => Nat.find_min' hex hk⟩, ?_⟩
  rw [hcomplete.readings_eq]
  generalize Nat.find hex = k at hpos hlate hle
  split
  next hsame => rw [Nat.le_antisymm (hleast ⟨hpos, hsame⟩) hle]
  next hafter =>
    have hlt : k + 1 ≤ passes := by
      refine Nat.lt_of_le_of_ne hle fun heq => hafter ?_
      rw [heq]
      exact hmem.2
    have hstep : (k + 1) * source.count = k * source.count + source.count := Nat.succ_mul _ _
    have hbound := Nat.mul_le_mul_right source.count hlt
    have hmono : e (k * source.count) ≤ e ((k + 1) * source.count - 1) :=
      elapsedAfter_mono h.sorted (by omega) (by rw [hcomplete.readings_eq]; omega)
    rw [Nat.le_antisymm (hleast ⟨Nat.succ_pos k, Nat.lt_of_lt_of_le hlate hmono⟩) hlt]

end Worker

def redBlue : FrameSource :=
  .ofList ([Color.red, .blue].map fun c =>
    ⟨.uniform 2 1 c, 0, true, (by decide : (2 : UInt32) ≠ 0), (by decide : (1 : UInt32) ≠ 0)⟩)

def brief : StreamOptions :=
  { interval := nanoseconds 400, timeout := nanoseconds 200, format := .raw }

def briefSession : Worker Sink := .start ⟨⟩ redBlue brief 0

def everyInterval : List Moment :=
  [0, 0, 0, 0, 0, 400, 400, 400, 400, 800, 800, 800, 800, 1200, 1200, 1200].map fun milliseconds =>
    ⟨nanoseconds milliseconds, false⟩

theorem briefSession_run :
    (returned (briefSession.run everyInterval : Recorded Sink _)).bind Worker.result? =
        some (.ok ⟨4, 0, false⟩) ∧
      briefSession.requested everyInterval = [0, 1, 0, 1] ∧
      briefSession.readings everyInterval = [0, 400, 800, 1200].map nanoseconds := by
  decide +kernel

theorem exists_briefSession_run : ∃ w,
    returned (briefSession.run everyInterval : Recorded Sink _) = some w ∧
      w.phase = .ended (.ok ⟨4, 0, false⟩) := by
  obtain ⟨hresult, -, -⟩ := briefSession_run
  obtain ⟨w, hw, hended⟩ := Option.bind_eq_some_iff.mp hresult
  exact ⟨w, hw, Worker.result?_eq_some_iff.mp hended⟩

theorem animation_ends_briefSession :
    (1 < redBlue.count ∧ (everyInterval.map Moment.now).Pairwise (· ≤ ·)) ∧
      ∃ k, IsLeast (latePasses redBlue.count brief.timeout
          (briefSession.readings everyInterval)) k ∧
        (briefSession.readings everyInterval).length = k * redBlue.count := by
  have hcount : 1 < redBlue.count := by decide
  have hclock : (everyInterval.map Moment.now).Pairwise (· ≤ ·) := by decide
  obtain ⟨w, hrun, hended⟩ := exists_briefSession_run
  obtain ⟨-, hends⟩ := Worker.animation_ends (⟨⟩ : Sink) brief 0 hcount hclock hrun
  exact ⟨⟨hcount, hclock⟩, hends _ hended rfl⟩

/-- The timeout passes while the last frame of the first pass waits for its interval. Time is over at
the end of that pass, and another whole pass is sent. -/
theorem pass_after_timeout :
    (∃ w, returned (briefSession.run everyInterval : Recorded Sink _) = some w ∧
      w.phase = .ended (.ok ⟨4, 0, false⟩)) ∧
    IsLeast {k | 0 < k ∧ brief.timeout <
      elapsedAfter (briefSession.readings everyInterval) (k * redBlue.count)} 1 ∧
    (briefSession.readings everyInterval).length = 2 * redBlue.count := by
  obtain ⟨-, -, hreadings⟩ := briefSession_run
  rw [hreadings]
  exact ⟨exists_briefSession_run, ⟨by decide, fun k hk => hk.1⟩, rfl⟩

end LedWall
