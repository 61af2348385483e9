import Relentless.Trace.DebugConformance

/-!
# The Call Log of a Sync Run

Which calls `Retry::run` makes, in which order and with which arguments, for any
operation, classifier, strategies, hooks, timeout and clock, however stateful.

- `Rounds.opStates_get` — the attempt number and previous delay of the `k`-th call
- `Retry.loop_debug_attempt` — the 1-indexed assertions are unreachable
- `Retry.run_call_log` — the grammar of the whole log
-/

namespace Relentless

open StateLoop

variable {σ R A O : Type}

/-- The `k`-th operation call of some rounds, counted from zero: its number, and
the delay of the gap just before it. -/
theorem Rounds.opStates_get {S : Setting R A O} {mark : Mark} {log : List (Event R A O)}
    {turn : Turn Mark (Output R A O)} (h : Rounds S mark log turn) (k : ℕ) (state : RetryState)
    (hstate : (opStates log)[k]? = some state) :
    state.attempt = attemptNumber (mark.round + k) ∧
      state.previousDelay =
        if k = 0 then mark.previousDelay else (gapDelays S.timeout log)[k - 1]? := by
  induction h generalizing k with
  | pause mark => cases hstate
  | last mark round output hallowed hturn =>
    rw [opStates_round] at hstate
    cases k with
    | zero =>
      obtain rfl := Option.some.inj hstate
      exact ⟨rfl, rfl⟩
    | succ k => cases hstate
  | next mark mark' round rest turn hallowed hturn hrest ih =>
    obtain ⟨last, rawDelay, hfate, rfl⟩ := Round.eq_retried_of_turn hturn
    rw [opStates_append, opStates_round] at hstate
    -- The first call is this round's; the others are those of the rounds after it.
    cases k with
    | zero =>
      obtain rfl := Option.some.inj hstate
      exact ⟨rfl, rfl⟩
    | succ k =>
      have hgaps : gapDelays S.timeout (round.calls S mark ++ rest) =
          clampDelay S.timeout (round.after mark).highest rawDelay ::
            gapDelays S.timeout rest := by
        rw [gapDelays_append, gapDelays_round, Round.gap, hfate]
        rfl
      obtain ⟨hattempt, hdelay⟩ := ih k hstate
      constructor
      · rw [hattempt]
        show attemptNumber (mark.round + 1 + k) = attemptNumber (mark.round + (k + 1))
        rw [Nat.add_assoc, Nat.add_comm 1 k]
      · rw [hdelay, hgaps, if_neg (Nat.succ_ne_zero k), Nat.add_sub_cancel]
        cases k with
        | zero => rfl
        | succ k => rfl

namespace Retry

/-- In a debug build the loop never trips over an attempt number of zero. -/
theorem loop_debug_attempt (self : Retry (Eff σ) R A O) (n : ℕ) (w w' : σ) (mark : Mark)
    (hround : 1 ≤ mark.round) :
    StateLoop.runFor self.debug.loopBody n mark.cursor w ≠ (.error .attemptIsOneIndexed, w') := by
  obtain ⟨rounds, turn, w₁, -, -, hguarded⟩ := self.loop_debug n mark hround w
  intro hpanic
  by_cases hascends : mark.elapsed.Ascends (readings rounds)
  · rw [hguarded.passes hascends] at hpanic
    cases hpanic
  · obtain ⟨w₂, hclock⟩ := hguarded.fails hascends
    rw [hclock] at hpanic
    cases hpanic

/-- **The call log of a run.**  For any number of rounds, the run logs one baseline
reading and then rounds, all of them unless it ends before, and returns what they
lead to; its `k`-th operation call has the saturated number `k` and the delay of the
gap before it; and in a debug build no assertion on the attempt number fires. -/
theorem run_call_log (self : Retry (Eff σ) R A O) (n : ℕ) (w : σ) :
    (∃ (baseline : Duration) (rounds : List (Event R A O)) (turn : Turn Mark (Output R A O))
      (w' : σ),
      self.runFor n w = (turn.mapNext Mark.cursor, w') ∧
      self.traced.runFor n ⟨w, []⟩ =
        (turn.mapNext Mark.cursor, ⟨w', .now baseline :: rounds⟩) ∧
      Rounds self.setting (.start baseline) rounds turn ∧
      (opStates rounds).length ≤ n ∧
      (∀ mark, turn = .again mark → (opStates rounds).length = n) ∧
      ∀ k state, (opStates rounds)[k]? = some state →
        state.attempt.toNat = min (k + 1) u32Max ∧ 1 ≤ state.attempt ∧
        state.previousDelay =
          if k = 0 then none else (gapDelays self.timeout rounds)[k - 1]?) ∧
    ∀ w', self.debug.runFor n w ≠ (.error .attemptIsOneIndexed, w') := by
  constructor
  · obtain ⟨baseline, rounds, turn, w', hrounds, hrun, hrun'⟩ := self.runFor_rounds n w
    refine ⟨baseline, rounds, turn, w', hrun, hrun', hrounds, ?_, ?_, ?_⟩
    · have hcalls := self.length_opStates_le w n
      rw [hrun'] at hcalls
      exact hcalls
    · rintro mark rfl
      exact (self.length_opStates_of_again hrun').2
    · intro k state hstate
      obtain ⟨hattempt, hdelay⟩ := hrounds.opStates_get k state hstate
      have hnumber : (Mark.start baseline).round + k = k + 1 := Nat.add_comm 1 k
      rw [hnumber] at hattempt
      refine ⟨?_, ?_, hdelay⟩
      · rw [hattempt, attemptNumber_toNat]
      · rw [hattempt]
        exact attemptNumber_ne_zero (Nat.le_add_left 1 k)
  · intro w'
    exact self.loop_debug_attempt n (self.clock.now w).2 w' (.start (self.clock.now w).1)
      (le_refl 1)

end Retry

end Relentless
