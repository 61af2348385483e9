import Relentless.Engine.AsyncTwin
import Relentless.Guarantees.RunLength
import Relentless.Guarantees.TimeoutStop
import Relentless.Library.Rounding
import Relentless.Trace.Coherence

/-!
# A Timeout Bounds the Number of Attempts

With `.timeout(T)`, on a coherent clock and with delays of at least `δ`, a run makes at
most `⌈T / δ⌉ + 1` attempts, whatever the stop strategy and the classifier say.

- `Rounds.gap_lt` — every gap takes `δ` from the budget, or all that is left of it
- `timeout_bounds_run` — the bound, and that the run ends
-/

namespace Relentless

open StateLoop

variable {σ Fut WaitFut R A O : Type}

/-! ## §1 Gaps -/

/-- **Gap by gap**: when the `k`-th gap after a mark opens, `k` delays of at least `δ` have
been waited out, and the timeout has not passed.  A gap that the clamp shortens leads to a
reading at the deadline, so no other gap follows it. -/
theorem Rounds.gap_lt {S : Setting R A O} {mark : Mark} {log : List (Event R A O)}
    {turn : Turn Mark (Output R A O)} {T δ : Duration} (h : Rounds S mark log turn)
    (hT : S.timeout = some T) (hδ : ∀ state d, S.answers.nextWait state d → δ ≤ d) {pace : Pace}
    (hcoherent : Coherent pace log) {spent : ℕ} (hspent : mark.elapsed.highest.nanos ≤ spent)
    (hdue : mark.elapsed.origin.nanos + spent ≤ pace.due) (k : ℕ)
    (hk : k < (gapDelays S.timeout log).length) : spent + k * δ.nanos < T.nanos := by
  induction h generalizing pace spent k with
  | pause mark => cases hk
  | last mark round output hallowed hturn =>
    rw [gapDelays_round, Round.gap_of_done hturn] at hk
    cases hk
  | next mark mark' round rest turn hallowed hturn hrest ih =>
    obtain ⟨hround, hcoherent'⟩ := coherent_append_iff.mp hcoherent
    have hcovers : pace.Covers mark.elapsed := (Nat.add_le_add_left hspent _).trans hdue
    obtain ⟨hpost, hlate⟩ := hcovers.after_eq hround
    obtain ⟨delay, hgap, helapsed, hdue'⟩ := hcovers.next hround hturn
    have horigin : (round.after mark).origin = mark.elapsed.origin := rfl
    -- The round was retried within the timeout, after a delay of the strategy, clamped.
    obtain ⟨hbudget, rawDelay, hraw, hclamp⟩ : (round.after mark).highest.nanos < T.nanos ∧
        ∃ rawDelay : Duration, δ ≤ rawDelay ∧
          delay.nanos = min rawDelay.nanos (T.nanos - (round.after mark).highest.nanos) := by
      obtain ⟨last, rawDelay, hfate, -⟩ := Round.eq_retried_of_turn hturn
      rw [Round.Allowed, hfate] at hallowed
      obtain ⟨-, -, htimeout, hanswer⟩ := hallowed
      rw [hT] at htimeout
      rw [Round.gap, hfate, hT] at hgap
      obtain rfl := Option.some.inj hgap
      exact ⟨lt_of_not_ge (of_decide_eq_false htimeout), rawDelay, hδ _ _ hanswer,
        Duration.nanos_min _ _⟩
    have hδraw := Duration.le_def.mp hraw
    rw [horigin] at hpost
    cases k with
    | zero => omega
    | succ k =>
      rw [helapsed, horigin] at hdue'
      have hrestGap : k < (gapDelays S.timeout rest).length := by
        rw [gapDelays_append, gapDelays_round, hgap, List.length_append] at hk
        exact Nat.lt_of_add_lt_add_left (by rwa [Nat.add_comm k 1] at hk)
      have hspent' : mark'.elapsed.highest.nanos ≤
          (round.after mark).highest.nanos + delay.nanos := by
        rw [helapsed]
        exact Nat.le_add_right _ _
      have hdue'' : mark'.elapsed.origin.nanos +
          ((round.after mark).highest.nanos + delay.nanos) ≤
            (pace.after (round.calls S mark)).due := by
        rw [helapsed, horigin, hdue', Nat.add_assoc]
      have hnext := ih hcoherent' hspent' hdue'' k hrestGap
      rw [Nat.succ_mul]
      omega

section Start

variable {S : Setting R A O} {baseline : Duration} {rounds : List (Event R A O)}
  {turn : Turn Mark (Output R A O)} {T δ : Duration}

/-- A run opens at most as many gaps as delays of `δ` fit into the timeout. -/
theorem Rounds.gaps_le (h : Rounds S (.start baseline) rounds turn) (hT : S.timeout = some T)
    (hpos : δ ≠ .zero) (hδ : ∀ state d, S.answers.nextWait state d → δ ≤ d)
    (hcoherent : Coherent .start (.now baseline :: rounds)) :
    (gapDelays S.timeout rounds).length ≤ T.nanos ⌈/⌉ δ.nanos := by
  by_contra hmore
  have hlt := h.gap_lt hT hδ hcoherent.2 (le_refl 0) (le_refl _) _ (not_le.mp hmore)
  rw [Nat.zero_add, ← Rounding.le_ceilDiv_iff ((Duration.ne_zero_iff δ).mp hpos)] at hlt
  exact absurd hlt (Nat.not_succ_le_self _)

/-- Every call of the operation is followed by a gap, or is the last. -/
theorem Rounds.ops_le (h : Rounds S (.start baseline) rounds turn) (hT : S.timeout = some T)
    (hpos : δ ≠ .zero) (hδ : ∀ state d, S.answers.nextWait state d → δ ≤ d)
    (hcoherent : Coherent .start (.now baseline :: rounds)) :
    (opStates rounds).length ≤ T.nanos ⌈/⌉ δ.nanos + 1 := by
  have hle := h.gaps_le hT hpos hδ hcoherent
  have hgaps := h.gaps
  cases turn with
  | again mark =>
    have hgaps : (opStates rounds).length = (gapDelays S.timeout rounds).length := hgaps
    omega
  | done output =>
    have hgaps : (opStates rounds).length = (gapDelays S.timeout rounds).length + 1 := hgaps
    omega

end Start

/-! ## §2 Both engines -/

/-- The calls of a sync run, and its end. -/
theorem Retry.bounded {self : Retry (Eff σ) R A O} {T δ : Duration} (hT : self.timeout = some T)
    (hpos : δ ≠ .zero) (hδ : ∀ state w, δ ≤ (self.wait.nextWait state w).1) {w₀ : σ}
    (hcoherent : ∀ n, Coherent .start (self.traced.runFor n ⟨w₀, []⟩).2.log) :
    self.opCalls w₀ ≤ (T.nanos ⌈/⌉ δ.nanos + 1 : ℕ) ∧
      ∃ output w', self.runFor (T.nanos ⌈/⌉ δ.nanos + 1) w₀ = (.done output, w') := by
  have hanswers : ∀ state d, self.setting.answers.nextWait state d → δ ≤ d := by
    rintro state d ⟨w, rfl⟩
    exact hδ state w
  constructor
  · apply iSup_le
    intro n
    have hlog := hcoherent n
    obtain ⟨baseline, rounds, turn, w', hrounds, -, hrun⟩ := self.runFor_rounds n w₀
    rw [hrun] at hlog ⊢
    exact Nat.cast_le.mpr (hrounds.ops_le hT hpos hanswers hlog)
  · let n := T.nanos ⌈/⌉ δ.nanos + 1
    have hlog := hcoherent n
    obtain ⟨baseline, rounds, turn, w', hrounds, hrun, hrun'⟩ := self.runFor_rounds n w₀
    cases turn with
    | done output => exact ⟨output, w', hrun⟩
    | again mark =>
      -- A run that is still going has made a call, and opened a gap, in every round.
      exfalso
      rw [hrun'] at hlog
      have hgaps : (opStates rounds).length = (gapDelays self.timeout rounds).length :=
        hrounds.gaps
      have hle := hrounds.gaps_le hT hpos hanswers hlog
      have hcalls : (opStates rounds).length = n := (self.length_opStates_of_again hrun').2
      exact absurd (hcalls.symm.trans hgaps |>.le.trans hle) (Nat.not_succ_le_self _)

/-- The calls of an async run, however it is polled. -/
theorem AsyncRetry.bounded {self : AsyncRetry (Eff σ) Fut WaitFut R A O} {T δ : Duration}
    (hT : self.timeout = some T) (hpos : δ ≠ .zero)
    (hδ : ∀ state w, δ ≤ (self.wait.nextWait state w).1) {cxs : ℕ → Context} {w₀ : σ} {j : ℕ}
    {t : Traced σ R A O} {run : AsyncRun Fut WaitFut} {result : PollEnd (Output R A O)}
    (h : self.traced.PolledTo cxs ⟨w₀, []⟩ j t run result) (hcoherent : Coherent .start t.log) :
    (opStates t.log).length ≤ T.nanos ⌈/⌉ δ.nanos + 1 := by
  have hanswers : ∀ state d, self.setting.answers.nextWait state d → δ ≤ d := by
    rintro state d ⟨w, rfl⟩
    exact hδ state w
  rw [← opStates_calls]
  rw [← coherent_calls] at hcoherent
  revert hcoherent
  refine self.polledTo_cases (P := fun log _ => Coherent .start log →
    (opStates log).length ≤ T.nanos ⌈/⌉ δ.nanos + 1) ?_ ?_ ?_ h
  · exact fun _ => Nat.zero_le _
  · intro baseline log state hstands hlog
    cases hstands with
    | ready rounds mark hrounds => exact hrounds.ops_le hT hpos hanswers hlog
    | sleeping rounds mark k future hrounds => exact hrounds.ops_le hT hpos hanswers hlog
    | yielding rounds mark k hrounds => exact hrounds.ops_le hT hpos hanswers hlog
    | polling rounds mark reading future hrounds =>
      -- The operation in flight is the one call that no gap follows yet.
      have hgaps : (opStates rounds).length = (gapDelays self.timeout rounds).length :=
        hrounds.gaps
      have hrest := (coherent_append_iff.mp hlog.2).1
      have hle := hrounds.gaps_le hT hpos hanswers ⟨hlog.1, hrest⟩
      show (opStates (rounds ++ Round.openingCalls self.setting mark reading)).length ≤ _
      rw [opStates_append, Round.opStates_openingCalls, List.length_append, hgaps]
      exact Nat.succ_le_succ hle
  · rintro baseline log output ⟨rounds, rfl, hrounds⟩ hlog
    exact hrounds.ops_le hT hpos hanswers hlog

/-! ## §3 The guarantee -/

/-- **A timeout alone bounds the run.**  With `.timeout(T)` and delays of at least `δ`,
whatever the stop strategy and the classifier are: on a coherent clock a sync run calls the
operation at most `⌈T / δ⌉ + 1` times and then ends, and an async run, however it is polled,
makes no more calls either. -/
theorem timeout_bounds_run (T δ : Duration) (hpos : δ ≠ .zero) :
    (∀ (retry : Retry (Eff σ) R A O) (w₀ : σ),
      let self := retry.withTimeout T
      (∀ state w, δ ≤ (self.wait.nextWait state w).1) →
      (∀ n, Coherent .start (self.traced.runFor n ⟨w₀, []⟩).2.log) →
        self.opCalls w₀ ≤ (T.nanos ⌈/⌉ δ.nanos + 1 : ℕ) ∧
          ∃ output w', self.runFor (T.nanos ⌈/⌉ δ.nanos + 1) w₀ = (.done output, w')) ∧
    (∀ (retry : AsyncRetry (Eff σ) Fut WaitFut R A O) (w₀ : σ) (cxs : ℕ → Context) (j : ℕ)
      (t : Traced σ R A O) (run : AsyncRun Fut WaitFut) (result : PollEnd (Output R A O)),
      let self := retry.withTimeout T
      (∀ state w, δ ≤ (self.wait.nextWait state w).1) →
      self.traced.PolledTo cxs ⟨w₀, []⟩ j t run result → Coherent .start t.log →
        (opStates t.log).length ≤ T.nanos ⌈/⌉ δ.nanos + 1) := by
  constructor
  · intro retry w₀ self hδ hcoherent
    exact Retry.bounded rfl hpos hδ hcoherent
  · intro retry w₀ cxs j t run result self hδ hpolled hcoherent
    exact AsyncRetry.bounded rfl hpos hδ hpolled hcoherent

/-- An operation that is always busy, retried every four nanoseconds and never stopped. -/
def Retry.alwaysBusy : Retry (Eff ℕ) ℕ String (Except String ℕ) :=
  { Retry.busyTwice none with
    op := fun _ now => (.error "busy", now + 3)
    stop := .never
    wait := { nextWait := fun _ => pure (.ofNanos 4) } }

/-- After its end the log of a run stays as it is. -/
theorem Retry.coherent_of_isDone {self : Retry (Eff σ) R A O} {k : ℕ} {w₀ : σ}
    (hended : (self.traced.runFor k ⟨w₀, []⟩).1.isDone = true)
    (hshort : ∀ n ≤ k, Coherent .start (self.traced.runFor n ⟨w₀, []⟩).2.log) (n : ℕ) :
    Coherent .start (self.traced.runFor n ⟨w₀, []⟩).2.log := by
  rcases Nat.le_total n k with hle | hle
  · exact hshort n hle
  · have hsame : self.traced.runFor n ⟨w₀, []⟩ = self.traced.runFor k ⟨w₀, []⟩ :=
      runFor_of_isDone hle hended
    rw [hsame]
    exact hshort k (le_refl k)

/-- A timeout of twenty nanoseconds ends it after at most six calls. -/
theorem timeout_bounds_alwaysBusy :
    (Retry.alwaysBusy.withTimeout (.ofNanos 20)).opCalls 0 ≤ 6 := by
  have hcoherent : ∀ n, Coherent .start
      ((Retry.alwaysBusy.withTimeout (.ofNanos 20)).traced.runFor n ⟨0, []⟩).2.log :=
    @Retry.coherent_of_isDone _ _ _ _ _ 4 _ (by decide +kernel) (by decide +kernel)
  have hbound := @timeout_bounds_run ℕ Unit Unit ℕ String (Except String ℕ) (.ofNanos 20)
    (.ofNanos 4) (by decide)
  exact (hbound.1 Retry.alwaysBusy 0 (fun _ _ => Nat.le_refl _) hcoherent).1

end Relentless
