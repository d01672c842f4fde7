import LedWall.Proofs.Stream.Account
import LedWall.Proofs.Stream.Undisturbed

/-!
# A single pass

A session with no timeout has passed its timeout as soon as any time has passed. It shows every frame
of its source once: a single picture because it is asked only once whether there is time left, and an
animation because its first pass is then the last one.
-/

namespace LedWall

/-- The readings of a clock that does not go back and does not stand still for ever. -/
structure Ticks (clock : Nat → Nat) : Prop where
  mono : Monotone clock
  unbounded : ∀ time, ∃ k, time ≤ clock k

namespace Worker

variable {τ : Type} {w : Worker τ} {clock : Nat → Nat} {k : Nat}

/-- What is known before step `k` of a worker that has shown the first frames of its source, as many
as `i`, and waits for nothing. -/
structure Between (source : FrameSource) (options : StreamOptions) (target : τ) (now : Nat)
    (clock : Nat → Nat) (i k : Nat) (w : Worker τ) : Prop where
  source_eq : w.source = source
  options_eq : w.options = options
  target_eq : w.target = target
  started_eq : w.startedAt = now
  phase_eq : w.phase = .boundary
  requests_eq : w.requests = i
  index_eq : i < source.count → w.index = i
  animating_iff : w.animating ↔ 1 < source.count ∧ i < source.count
  summary_eq : w.summary = ⟨i, 0, false⟩
  first : i = 0 → k = 0 ∧ w.elapsed = 0 ∧ w.lastStart.isNone
  later : 0 < i → now < clock k ∧ 0 < w.elapsed ∧ ¬ w.lastStart.isNone

namespace Between

variable {source : FrameSource} {options : StreamOptions} {target : τ} {now i : Nat}

theorem start (target : τ) (source : FrameSource) (options : StreamOptions) (now : Nat)
    (clock : Nat → Nat) :
    Between source options target now clock 0 0 (Worker.start target source options now) where
  source_eq := rfl
  options_eq := rfl
  target_eq := rfl
  started_eq := rfl
  phase_eq := rfl
  requests_eq := rfl
  index_eq _ := rfl
  animating_iff := by
    rw [Worker.start, decide_eq_true_iff]
    omega
  summary_eq := rfl
  first _ := ⟨rfl, rfl, rfl⟩
  later h := absurd h (Nat.lt_irrefl 0)

theorem timeout_eq (h : Between source options target now clock i k w)
    (htimeout : options.timeout = 0) : w.timeout = 0 := by
  rw [Worker.timeout, h.options_eq, htimeout]

theorem concluded (h : Between source options target now clock i k w) (hi : i < source.count)
    (htimeout : options.timeout = 0) (hclock : Ticks clock) {l : Nat} (hlate : now < clock l)
    (phase : Phase) (started : Nat) : Between source options target now clock (i + 1) (l + 1)
      (Worker.concluded { w.request with phase, lastStart := some started } (clock l) true) := by
  obtain ⟨htarget, hsource, hoptions, -⟩ := w.request_keeps
  obtain ⟨-, hstarted⟩ := w.request_elapsed
  obtain ⟨hrequests, hsummary⟩ := w.request_counts
  refine ⟨hsource.trans h.source_eq, hoptions.trans h.options_eq, htarget.trans h.target_eq,
    hstarted.trans h.started_eq, rfl, ?_, ?_, ?_, ?_, fun hzero => absurd hzero (Nat.succ_ne_zero i), ?_⟩
  · rw [← h.requests_eq]
    exact hrequests
  · intro hnext
    have hindex := w.request_index
    rw [h.source_eq, h.index_eq hi, if_pos (by omega), if_neg (by omega)] at hindex
    exact hindex
  · have hanimating := w.request_animating
    rw [h.source_eq, h.index_eq hi, h.timeout_eq htimeout] at hanimating
    refine (iff_of_eq (congrArg (· = true) hanimating)).trans ?_
    split
    next hwrap =>
      obtain ⟨-, helapsed, -⟩ := h.later (by omega)
      have hover : decide (w.elapsed ≤ 0) = false := decide_eq_false (Nat.not_le_of_gt helapsed)
      rw [hover, Bool.and_false]
      simp only [Bool.false_eq_true, false_iff]
      omega
    next hwrap =>
      rw [h.animating_iff]
      omega
  · rw [Worker.concluded, if_pos rfl, hsummary, h.summary_eq]
  · intro _
    refine ⟨Nat.lt_of_lt_of_le hlate (hclock.mono (Nat.le_succ l)), ?_, Bool.false_ne_true⟩
    rw [← h.started_eq, ← hstarted] at hlate
    exact Nat.sub_pos_of_lt hlate

end Between

variable [Png.Codec]

theorem turn_requesting {index : Nat} (hp : w.phase = .requesting index)
    {datagrams : List (List UInt8)}
    (hw : Written w.source w.options (w.requests - 1) index datagrams) (now : Nat) :
    w.turn ⟨now, false⟩ = if w.lastStart.isNone then w.begin now datagrams
      else .settle (some { w with phase := .pacing datagrams }) := by
  obtain ⟨frame, hframe, hdatagrams⟩ := hw
  rw [turn, hp]
  dsimp only
  rw [hframe]
  dsimp only
  rw [hdatagrams]

theorem Leads.wait {datagrams : List (List UInt8)} (hp : w.phase = .pacing datagrams)
    (hclock : Ticks clock) (k : Nat) : ∃ j, w.Leads clock k j w [] ∧
      w.turn ⟨clock j, false⟩ = w.begin (clock j) datagrams := by
  obtain ⟨late, hlate⟩ := hclock.unbounded (w.lastStart.getD 0 + w.interval)
  have hdue : w.interval ≤ clock (k + late) - w.lastStart.getD 0 := by
    have hle := hclock.mono (Nat.le_add_left late k)
    omega
  clear hlate
  induction late generalizing k with
  | zero => exact ⟨k, .refl _ _, (turn_pacing hp _).trans (if_pos hdue)⟩
  | succ late ih =>
      by_cases hnow : w.interval ≤ clock k - w.lastStart.getD 0
      · exact ⟨k, .refl _ _, (turn_pacing hp _).trans (if_pos hnow)⟩
      · rw [← Nat.add_assoc, Nat.add_right_comm] at hdue
        obtain ⟨j, hwait, hbegin⟩ := ih (k + 1) hdue
        exact ⟨j, .settle ((turn_pacing hp _).trans (if_neg hnow)) hwait, hbegin⟩

namespace Between

variable {source : FrameSource} {options : StreamOptions} {target : τ} {now i : Nat}

theorem exists_next (h : Between source options target now clock i k w) (hi : i < source.count)
    (htimeout : options.timeout = 0) (hclock : Ticks clock) {datagrams : List (List UInt8)}
    (hw : Written source options i i datagrams)
    (hadvance : i = 0 → now < clock (1 + datagrams.length)) :
    ∃ l v, w.Leads clock k l v (datagrams.map (Call.mk target)) ∧
      Between source options target now clock (i + 1) l v := by
  obtain ⟨htarget, hsource, hoptions, hphase⟩ := w.request_keeps
  obtain ⟨hrequests, -⟩ := w.request_counts
  have hdue : w.elapsed ≤ w.timeout ∨ w.animating := by
    rcases Nat.eq_zero_or_pos i with hzero | hpos
    · exact .inl ((h.first hzero).2.1 ▸ Nat.zero_le _)
    · exact .inr (h.animating_iff.mpr ⟨by omega, hi⟩)
  have hrequest : w.Leads clock k (k + 1) w.request [] := by
    have hturn := turn_boundary h.phase_eq (clock k)
    rw [if_pos hdue] at hturn
    exact .single hturn
  have hwritten : Written w.request.source w.request.options (w.request.requests - 1) i datagrams := by
    rwa [hsource, hoptions, hrequests, h.source_eq, h.options_eq, h.requests_eq, Nat.add_sub_cancel]
  rw [h.index_eq hi] at hphase
  have hasked := turn_requesting hphase hwritten (clock (k + 1))
  have hstarted := w.request_lastStart
  have hgo : ∃ j phase, w.Leads clock k j { w.request with phase } [] ∧
      turn { w.request with phase } ⟨clock j, false⟩ =
        begin { w.request with phase } (clock j) datagrams ∧
      now < clock (j + datagrams.length) := by
    rcases Nat.eq_zero_or_pos i with hzero | hpos
    · obtain ⟨rfl, -, hfirst⟩ := h.first hzero
      rw [if_pos (hstarted ▸ hfirst)] at hasked
      exact ⟨1, w.request.phase, hrequest, hasked, hadvance hzero⟩
    · obtain ⟨hlate, -, hlater⟩ := h.later hpos
      rw [if_neg (hstarted ▸ hlater)] at hasked
      let waiting : Worker τ := { w.request with phase := .pacing datagrams }
      obtain ⟨j, hwait, hbegin⟩ := Leads.wait (w := waiting) rfl hclock (k + 1 + 1)
      have hle := hwait.le
      exact ⟨j, .pacing datagrams, hrequest.trans ((Leads.single hasked).trans hwait), hbegin,
        Nat.lt_of_lt_of_le hlate (hclock.mono (by omega))⟩
  obtain ⟨j, phase, hleads, hbegin, hlate⟩ := hgo
  refine ⟨_, _, ?_, h.concluded hi htimeout hclock hlate phase (clock j)⟩
  rw [← h.target_eq, ← htarget]
  exact hleads.trans (.transmission (u := { w.request with phase }) hbegin)

end Between

/-- A session without a timeout ends by itself after it has shown each frame once, if the clock has
advanced when the first frame is through. -/
theorem single_pass (target : τ) {source : FrameSource} {options : StreamOptions} {now : Nat}
    (hcount : 0 < source.count) (htimeout : options.timeout = 0) {tiles : Nat → List (List UInt8)}
    (hwritten : ∀ i < source.count, Written source options i i (tiles i)) (hclock : Ticks clock)
    (hadvance : now < clock (1 + (tiles 0).length)) :
    ∃ l v, (start target source options now).Leads clock 0 l v
        (((List.range source.count).flatMap tiles).map (Call.mk target)) ∧
      v.phase = .ended (.ok ⟨source.count, 0, false⟩) := by
  have hpass : ∀ i ≤ source.count, ∃ k w, (start target source options now).Leads clock 0 k w
      (((List.range i).flatMap tiles).map (Call.mk target)) ∧
      Between source options target now clock i k w := by
    intro i hi
    induction i with
    | zero => exact ⟨0, _, .refl _ _, .start target source options now clock⟩
    | succ i ih =>
        obtain ⟨k, w, hleads, hbetween⟩ := ih (Nat.le_of_succ_le hi)
        obtain ⟨l, v, hmore, hnext⟩ := hbetween.exists_next hi htimeout hclock (hwritten i hi)
          (by rintro rfl; exact hadvance)
        refine ⟨l, v, ?_, hnext⟩
        rw [List.range_succ, List.flatMap_append, List.flatMap_singleton, List.map_append]
        exact hleads.trans hmore
  obtain ⟨k, w, hleads, hbetween⟩ := hpass source.count (Nat.le_refl _)
  obtain ⟨-, helapsed, -⟩ := hbetween.later hcount
  have hover : ¬ (w.elapsed ≤ w.timeout ∨ w.animating) := by
    rw [hbetween.timeout_eq htimeout, hbetween.animating_iff]
    omega
  have hturn := turn_boundary hbetween.phase_eq (clock k)
  rw [if_neg hover] at hturn
  refine ⟨k + 1, w.finish, ?_, ?_⟩
  · rw [← List.append_nil (List.map _ _)]
    exact hleads.trans (.single hturn)
  · rw [← hbetween.summary_eq]
    rfl

end Worker

end LedWall
