import Mathlib.Data.ENat.Lattice
import Mathlib.Order.CompletePartialOrder
import Relentless.Trace.SyncConformance

/-!
# Run Length Is Compositional in the Stop Expression

How many operation calls a run makes with a stop expression, in terms of the run that
never stops, everything else of the configuration being the same.

- `StopExpr` — expressions over `attempts`, `elapsed`, `never`, `|` and `&`
- `Retry.opCalls` — the number of operation calls of a run
- `Retry.going_withStop_iff` — a run goes on while the expression has not fired
- `Retry.opCalls_compositional` — the lengths of all runs
-/

namespace Relentless

open StateLoop

variable {σ R A O : Type}

/-! ## §1 Stop expressions -/

/-- A stop expression over the built-in strategies; `attempts` takes at least one. -/
inductive StopExpr where
  | attempts (max : UInt32) (hmax : 1 ≤ max)
  | elapsed (deadline : Duration)
  | never
  | any (left right : StopExpr)
  | all (left right : StopExpr)

namespace StopExpr

/-- The strategy that the expression builds. -/
def stop {m : Type → Type} [Monad m] : StopExpr → Stop m
  | attempts max _ => .attempts max
  | elapsed deadline => .elapsed deadline
  | never => .never
  | any left right => .any left.stop right.stop
  | all left right => .all left.stop right.stop

/-- Whether the strategy says to stop. -/
def fires (state : RetryState) : StopExpr → Bool
  | attempts max _ => decide (max ≤ state.attempt)
  | elapsed deadline => decide (deadline ≤ state.elapsed)
  | never => false
  | any left right => left.fires state || right.fires state
  | all left right => left.fires state && right.fires state

/-- The largest number of attempts that the expression allows. -/
noncomputable def bound : StopExpr → ℕ∞
  | attempts max _ => max.toNat
  | elapsed _ => ⊤
  | never => ⊤
  | any left right => min left.bound right.bound
  | all left right => max left.bound right.bound

/-- Consulting the strategy changes nothing. -/
theorem shouldStop_apply (e : StopExpr) (state : RetryState) (w : σ) :
    (e.stop : Stop (Eff σ)).shouldStop state w = (e.fires state, w) := by
  induction e generalizing w with
  | attempts max hmax => rfl
  | elapsed deadline => rfl
  | never => rfl
  | any left right ihl ihr => simp [stop, Stop.any, fires, ihl, ihr]
  | all left right ihl ihr => simp [stop, Stop.all, fires, ihl, ihr]

/-- Later states, with more attempts and more time elapsed, fire what earlier ones do. -/
theorem fires_mono (e : StopExpr) {s s' : RetryState} (hattempt : s.attempt ≤ s'.attempt)
    (helapsed : s.elapsed ≤ s'.elapsed) (h : e.fires s = true) : e.fires s' = true := by
  induction e with
  | attempts max hmax =>
    have hle : max ≤ s.attempt := of_decide_eq_true h
    exact decide_eq_true (UInt32.le_trans hle hattempt)
  | elapsed deadline =>
    have hle : deadline ≤ s.elapsed := of_decide_eq_true h
    exact decide_eq_true (hle.trans helapsed)
  | never => cases h
  | any left right ihl ihr =>
    rcases Bool.or_eq_true_iff.mp h with hleft | hright
    · exact Bool.or_eq_true_iff.mpr (.inl (ihl hleft))
    · exact Bool.or_eq_true_iff.mpr (.inr (ihr hright))
  | all left right ihl ihr =>
    obtain ⟨hleft, hright⟩ := Bool.and_eq_true_iff.mp h
    exact Bool.and_eq_true_iff.mpr ⟨ihl hleft, ihr hright⟩

end StopExpr

/-! ## §2 One round with and without the expression -/

section Step

variable (e : StopExpr) (progress : Progress) (outcome : O) (classifier : Decide (Eff σ) R A O)
  (wait : Wait (Eff σ)) (timeout : Option Duration) (hooks : ExecutionHooks (Eff σ) R A O) (w : σ)

theorem step_of_fires
    (h : e.fires ⟨progress.attempt, progress.elapsed, progress.previousDelay⟩ = true) :
    ∃ result stats w', step progress outcome classifier e.stop wait timeout hooks w =
      (.done result stats, w') := by
  obtain ⟨attempt, elapsed, previousDelay, totalWait⟩ := progress
  simp only [step, Eff.bind_apply, AttemptState.new_release, RetryState.forAttempt_release]
  generalize (hooks.afterAttempt.call ⟨attempt, elapsed, outcome⟩ w).2 = w₁
  cases (classifier.decide outcome w₁).1 with
  | return_ value | abort last => exact ⟨_, _, _, rfl⟩
  | retry last =>
    have hfires : e.fires (((⟨attempt, .zero, none⟩ : RetryState).withElapsed
      elapsed).withPreviousDelay previousDelay) = true := h
    simp only [Eff.bind_apply, e.shouldStop_apply, hfires, Bool.true_or, if_true]
    exact ⟨_, _, _, rfl⟩

theorem step_of_not_fires
    (h : e.fires ⟨progress.attempt, progress.elapsed, progress.previousDelay⟩ = false) :
    step progress outcome classifier e.stop wait timeout hooks w =
      step progress outcome classifier .never wait timeout hooks w := by
  obtain ⟨attempt, elapsed, previousDelay, totalWait⟩ := progress
  simp only [step, Eff.bind_apply, AttemptState.new_release, RetryState.forAttempt_release]
  generalize (hooks.afterAttempt.call ⟨attempt, elapsed, outcome⟩ w).2 = w₁
  cases (classifier.decide outcome w₁).1 with
  | return_ value | abort last => rfl
  | retry last =>
    have hfires : e.fires (((⟨attempt, .zero, none⟩ : RetryState).withElapsed
      elapsed).withPreviousDelay previousDelay) = false := h
    -- Neither answer touches the world, so the two go on in the same one.
    simp only [Eff.bind_apply, e.shouldStop_apply, hfires]
    rfl

end Step

namespace Retry

/-- The configuration with another stop expression. -/
def withStop (self : Retry (Eff σ) R A O) (e : StopExpr) : Retry (Eff σ) R A O :=
  { self with stop := e.stop }

/-- What the strategies are shown at the end of a round. -/
def postOp (self : Retry (Eff σ) R A O) (cursor : Cursor) (w : σ) : RetryState :=
  let ((_, elapsed), w) := self.invoke cursor w
  let ((postElapsed, _), _) := elapsed.read self.clock.toClock w
  { attempt := cursor.attempt, elapsed := postElapsed, previousDelay := cursor.previousDelay }

theorem loopBody_of_fires (self : Retry (Eff σ) R A O) {e : StopExpr} {cursor : Cursor} {w : σ}
    (h : e.fires (self.postOp cursor w) = true) :
    ∃ output w', (self.withStop e).loopBody cursor w = (.done output, w') := by
  let invoked := self.invoke cursor w
  let read := invoked.1.2.read self.clock.toClock invoked.2
  obtain ⟨result, stats, w', hstep⟩ := step_of_fires e
    ⟨cursor.attempt, read.1.1, cursor.previousDelay, cursor.totalWait⟩ invoked.1.1
    self.classifier self.wait self.timeout self.hooks read.2 h
  refine ⟨(result, stats), w', ?_⟩
  exact congrArg (fun answer => self.proceed cursor read.1.2 answer.1 answer.2) hstep

theorem loopBody_of_not_fires (self : Retry (Eff σ) R A O) {e : StopExpr} {cursor : Cursor}
    {w : σ} (h : e.fires (self.postOp cursor w) = false) :
    (self.withStop e).loopBody cursor w = (self.withStop .never).loopBody cursor w := by
  let invoked := self.invoke cursor w
  let read := invoked.1.2.read self.clock.toClock invoked.2
  have hstep := step_of_not_fires e
    ⟨cursor.attempt, read.1.1, cursor.previousDelay, cursor.totalWait⟩ invoked.1.1
    self.classifier self.wait self.timeout self.hooks read.2 h
  exact congrArg (fun answer => self.proceed cursor read.1.2 answer.1 answer.2) hstep

/-! ## §3 The run that never stops -/

/-- The state shown at the end of round `k` of the run that never stops, if that run has
such a round. -/
def postState (self : Retry (Eff σ) R A O) (w₀ : σ) : ℕ → Option RetryState
  | 0 => none
  | k + 1 =>
    match (self.withStop .never).runFor k w₀ with
    | (.again cursor, w) => some (self.postOp cursor w)
    | (.done _, _) => none

/-- The run is still going after `n` rounds. -/
def Going (self : Retry (Eff σ) R A O) (w₀ : σ) (n : ℕ) : Prop :=
  ∃ cursor w, self.runFor n w₀ = (.again cursor, w)

theorem postState_succ_eq_some_iff (self : Retry (Eff σ) R A O) (w₀ : σ) (k : ℕ)
    (state : RetryState) :
    self.postState w₀ (k + 1) = some state ↔
      ∃ cursor w, (self.withStop .never).runFor k w₀ = (.again cursor, w) ∧
        self.postOp cursor w = state := by
  rcases hrun : (self.withStop .never).runFor k w₀ with ⟨cursor | output, w⟩ <;>
    simp [postState, hrun]

/-- A round that is not the last, taken as a round of the grammar. -/
theorem again_of_loopBody (self : Retry (Eff σ) R A O) {mark : Mark} {cursor' : Cursor}
    {w w' : σ} (h : self.loopBody mark.cursor w = (.again cursor', w')) :
    ∃ mark' : Mark, cursor' = mark'.cursor ∧ mark'.round = mark.round + 1 ∧
      self.postOp mark.cursor w = mark.state mark'.elapsed := by
  obtain ⟨round, w₀, w₁, w₂, w₃, hunfolds⟩ := self.exists_unfolds mark w
  obtain ⟨w₄, hbody, -, -⟩ := hunfolds.loopBody
  rw [hbody] at h
  cases hturn : round.turn self.setting mark with
  | done output =>
    rw [hturn] at h
    cases (Prod.mk.inj h).1
  | again mark' =>
    rw [hturn] at h
    obtain rfl := Turn.again.inj (Prod.mk.inj h).1
    obtain ⟨last, rawDelay, -, rfl⟩ := Round.eq_retried_of_turn hturn
    refine ⟨_, rfl, rfl, ?_⟩
    -- The strategies see the watermark that the next mark starts with.
    obtain ⟨hinvoke, -⟩ := self.invoke_spec mark w
    simp only [hunfolds.before, hunfolds.op] at hinvoke
    simp only [postOp, hinvoke, Elapsed.read_release, hunfolds.after]
    rfl

/-- Where the loop stands after `n` rounds it has counted them. -/
theorem exists_mark (self : Retry (Eff σ) R A O) {w₀ w : σ} {n : ℕ} {cursor : Cursor}
    (h : self.runFor n w₀ = (.again cursor, w)) :
    ∃ mark : Mark, cursor = mark.cursor ∧ mark.round = n + 1 := by
  refine runFor_invariant (I := fun n cursor _ => ∃ mark : Mark, cursor = mark.cursor ∧
    mark.round = n + 1) ⟨.start (self.clock.now w₀).1, rfl, rfl⟩ ?_ h
  rintro k cursor w cursor' w' ⟨mark, rfl, hround⟩ hbody
  obtain ⟨mark', rfl, hround', -⟩ := self.again_of_loopBody hbody
  exact ⟨mark', rfl, by rw [hround', hround]⟩

/-- The state of a round starts from the watermark that the loop comes with. -/
theorem le_postOp_elapsed (self : Retry (Eff σ) R A O) (cursor : Cursor) (w : σ) :
    cursor.elapsed.highest ≤ (self.postOp cursor w).elapsed :=
  (le_max_left _ _).trans (le_max_left _ _)

/-- The states of the run that never stops are numbered, and only ever grow. -/
theorem postState_attempt (self : Retry (Eff σ) R A O) {w₀ : σ} {k : ℕ} {state : RetryState}
    (h : self.postState w₀ k = some state) : state.attempt = attemptNumber k := by
  cases k with
  | zero => cases h
  | succ k =>
    obtain ⟨cursor, w, hrun, rfl⟩ := (self.postState_succ_eq_some_iff w₀ k state).mp h
    obtain ⟨mark, rfl, hround⟩ := exists_mark _ hrun
    rw [← hround]
    rfl

theorem postState_pred (self : Retry (Eff σ) R A O) {w₀ : σ} {k : ℕ} {state : RetryState}
    (h : self.postState w₀ (k + 2) = some state) :
    ∃ before, self.postState w₀ (k + 1) = some before ∧ before.elapsed ≤ state.elapsed := by
  obtain ⟨cursor, w, hrun, rfl⟩ := (self.postState_succ_eq_some_iff w₀ (k + 1) state).mp h
  obtain ⟨cursor₀, w', hrun₀, hbody⟩ := runFor_again_pred hrun
  obtain ⟨mark, rfl, -⟩ := exists_mark (self.withStop .never) hrun₀
  obtain ⟨mark', rfl, -, hpost⟩ := again_of_loopBody _ hbody
  have hpost' : self.postOp mark.cursor w' = mark.state mark'.elapsed := hpost
  refine ⟨_, (self.postState_succ_eq_some_iff w₀ k _).mpr ⟨_, w', hrun₀, rfl⟩, ?_⟩
  rw [hpost']
  exact self.le_postOp_elapsed mark'.cursor w

/-- **Once an expression fires it keeps firing** in the later rounds of the run. -/
theorem fires_of_le (self : Retry (Eff σ) R A O) (e : StopExpr) {w₀ : σ} {j k : ℕ}
    {earlier later : RetryState} (hjk : j ≤ k) (hearlier : self.postState w₀ j = some earlier)
    (hlater : self.postState w₀ k = some later) (h : e.fires earlier = true) :
    e.fires later = true := by
  -- From one round to the next, back to the round in which it fired.
  induction k generalizing later with
  | zero => cases hlater
  | succ k ih =>
    rcases Nat.le_succ_iff.mp hjk with hle | rfl
    · cases k with
      | zero =>
        obtain rfl := Nat.le_zero.mp hle
        cases hearlier
      | succ k =>
        obtain ⟨before, hbefore, helapsed⟩ := self.postState_pred hlater
        refine e.fires_mono ?_ helapsed (ih hle hbefore)
        rw [self.postState_attempt hbefore, self.postState_attempt hlater,
          UInt32.le_iff_toNat_le, attemptNumber_toNat, attemptNumber_toNat]
        omega
    · obtain rfl := Option.some.inj (hearlier.symm.trans hlater)
      exact h

/-! ## §4 Runs with an expression -/

theorem Going.of_le {self : Retry (Eff σ) R A O} {w₀ : σ} {k n : ℕ} (hkn : k ≤ n)
    (h : self.Going w₀ n) : self.Going w₀ k := by
  obtain ⟨cursor, w, hrun⟩ := h
  exact runFor_again_le hkn hrun

/-- The run with an expression stands where the run that never stops does, as long as the
expression has not fired. -/
theorem runFor_withStop_iff (self : Retry (Eff σ) R A O) (e : StopExpr) (w₀ w : σ) (n : ℕ)
    (cursor : Cursor) :
    (self.withStop e).runFor n w₀ = (.again cursor, w) ↔
      (self.withStop .never).runFor n w₀ = (.again cursor, w) ∧
        ∀ k ≤ n, ∀ state, self.postState w₀ k = some state → e.fires state = false := by
  -- The last round is the same in both runs as long as the expression is quiet in it.
  induction n generalizing cursor w with
  | zero =>
    constructor
    · intro h
      refine ⟨h, fun k hk state hstate => ?_⟩
      obtain rfl := Nat.le_zero.mp hk
      cases hstate
    · rintro ⟨h, -⟩
      exact h
  | succ n ih =>
    constructor
    · intro h
      obtain ⟨cursor₁, w₁, hrun, hbody⟩ := runFor_again_pred h
      obtain ⟨hnever, hquiet⟩ := (ih w₁ cursor₁).mp hrun
      have hstate := (self.postState_succ_eq_some_iff w₀ n _).mpr ⟨cursor₁, w₁, hnever, rfl⟩
      have hfires : e.fires (self.postOp cursor₁ w₁) = false := by
        by_contra hfires
        obtain ⟨output, w', hdone⟩ := self.loopBody_of_fires (Bool.eq_true_of_not_eq_false hfires)
        rw [hdone] at hbody
        cases (Prod.mk.inj hbody).1
      refine ⟨(runFor_snoc hnever).trans ((self.loopBody_of_not_fires hfires).symm.trans hbody), ?_⟩
      intro k hk state hstate'
      rcases Nat.le_succ_iff.mp hk with hle | rfl
      · exact hquiet k hle state hstate'
      · obtain rfl := Option.some.inj (hstate.symm.trans hstate')
        exact hfires
    · rintro ⟨h, hquiet⟩
      obtain ⟨cursor₁, w₁, hnever, hbody⟩ := runFor_again_pred h
      have hstate := (self.postState_succ_eq_some_iff w₀ n _).mpr ⟨cursor₁, w₁, hnever, rfl⟩
      have hfires := hquiet (n + 1) (le_refl _) _ hstate
      have hrun := (ih w₁ cursor₁).mpr ⟨hnever, fun k hk => hquiet k (Nat.le_succ_of_le hk)⟩
      exact (runFor_snoc hrun).trans ((self.loopBody_of_not_fires hfires).trans hbody)

theorem going_withStop_iff (self : Retry (Eff σ) R A O) (e : StopExpr) (w₀ : σ) (n : ℕ) :
    (self.withStop e).Going w₀ n ↔ (self.withStop .never).Going w₀ n ∧
      ∀ k ≤ n, ∀ state, self.postState w₀ k = some state → e.fires state = false := by
  unfold Going
  simp only [self.runFor_withStop_iff e, exists_and_right]

/-! ## §5 Numbers of operation calls -/

/-- How often the run calls the operation. -/
noncomputable def opCalls (self : Retry (Eff σ) R A O) (w₀ : σ) : ℕ∞ :=
  ⨆ n, ((opStates (self.traced.runFor n ⟨w₀, []⟩).2.log).length : ℕ∞)

theorem going_iff_traced (self : Retry (Eff σ) R A O) (w₀ : σ) (n : ℕ) :
    self.Going w₀ n ↔ ∃ cursor t, self.traced.runFor n ⟨w₀, []⟩ = (.again cursor, t) := by
  obtain ⟨baseline, rounds, turn, w', -, hrun, htraced⟩ := self.runFor_rounds n w₀
  unfold Going
  rw [hrun, htraced]
  cases turn <;> simp

/-- A run makes more than `n` calls when it is still going after `n` rounds. -/
theorem lt_opCalls_iff (self : Retry (Eff σ) R A O) (w₀ : σ) (n : ℕ) :
    (n : ℕ∞) < self.opCalls w₀ ↔ self.Going w₀ n := by
  rw [opCalls, lt_iSup_iff, going_iff_traced]
  constructor
  · rintro ⟨m, hm⟩
    have hmore := Nat.cast_lt.mp hm
    rcases hrun : self.traced.runFor n ⟨w₀, []⟩ with ⟨cursor | output, t⟩
    · exact ⟨cursor, t, rfl⟩
    · -- A finished run makes no further calls.
      have hbound := self.length_opStates_le w₀ m
      have hsame : self.traced.runFor m ⟨w₀, []⟩ = (.done output, t) :=
        runFor_done_mono (by omega) hrun
      have hcalls := self.length_opStates_le w₀ n
      rw [hsame] at hmore
      rw [hrun] at hcalls
      omega
  · -- A run that goes on makes its next call in the next round.
    rintro ⟨cursor, t, hrun⟩
    refine ⟨n + 1, ?_⟩
    obtain ⟨⟨mark, rfl⟩, hlength⟩ := self.length_opStates_of_again hrun
    have hnext : self.traced.runFor (n + 1) ⟨w₀, []⟩ = self.traced.loopBody mark.cursor t :=
      runFor_snoc hrun
    rw [hnext, self.length_opStates_loopBody mark t, hlength]
    exact Nat.cast_lt.mpr (Nat.lt_succ_self n)

/-- The first round of the run that never stops whose post-operation elapsed time has
reached `D`. -/
noncomputable def firstSpent (self : Retry (Eff σ) R A O) (w₀ : σ) (D : Duration) : ℕ∞ :=
  ⨅ k ∈ {k | ∃ state, self.postState w₀ k = some state ∧ D ≤ state.elapsed}, (k : ℕ∞)

end Retry

/-- Extended numbers with the same natural numbers below them are equal. -/
theorem eq_of_forall_natCast_lt_iff {x y : ℕ∞} (h : ∀ n : ℕ, (n : ℕ∞) < x ↔ (n : ℕ∞) < y) :
    x = y := by
  apply ENat.eq_of_forall_natCast_le_iff
  intro a
  cases a with
  | zero => simp
  | succ n =>
    rw [Nat.cast_succ, ENat.add_one_le_iff (ENat.natCast_ne_top n), h,
      ← ENat.add_one_le_iff (ENat.natCast_ne_top n)]

namespace Retry

variable (self : Retry (Eff σ) R A O) (w₀ : σ)

/-- `n` rounds without the expression firing, and `n + 1` calls, are the same. -/
theorem lt_opCalls_withStop_iff (e : StopExpr) (n : ℕ) :
    (n : ℕ∞) < (self.withStop e).opCalls w₀ ↔ (n : ℕ∞) < (self.withStop .never).opCalls w₀ ∧
      ∀ k ≤ n, ∀ state, self.postState w₀ k = some state → e.fires state = false := by
  rw [lt_opCalls_iff, lt_opCalls_iff, going_withStop_iff]

theorem exists_postState {k n : ℕ} (hk : k < n) (hgoing : (self.withStop .never).Going w₀ n) :
    ∃ state, self.postState w₀ (k + 1) = some state := by
  obtain ⟨cursor, w, hrun⟩ := hgoing.of_le hk.le
  exact ⟨_, (self.postState_succ_eq_some_iff w₀ k _).mpr ⟨cursor, w, hrun, rfl⟩⟩

/-- The expression has not fired in any round when it does not fire in the last one. -/
theorem quiet_of_last (e : StopExpr) {n : ℕ} {last : RetryState}
    (hlast : self.postState w₀ n = some last) (hquiet : e.fires last = false) :
    ∀ k ≤ n, ∀ state, self.postState w₀ k = some state → e.fires state = false := by
  intro k hk state hstate
  by_contra hfires
  have hfires' := self.fires_of_le e hk hstate hlast (Bool.eq_true_of_not_eq_false hfires)
  rw [hfires'] at hquiet
  cases hquiet

theorem opCalls_any (left right : StopExpr) :
    (self.withStop (.any left right)).opCalls w₀ =
      min ((self.withStop left).opCalls w₀) ((self.withStop right).opCalls w₀) := by
  apply eq_of_forall_natCast_lt_iff
  intro n
  rw [lt_min_iff, lt_opCalls_withStop_iff, self.lt_opCalls_withStop_iff w₀ left,
    self.lt_opCalls_withStop_iff w₀ right]
  simp only [StopExpr.fires, Bool.or_eq_false_iff]
  constructor
  · rintro ⟨hgoing, hquiet⟩
    exact ⟨⟨hgoing, fun k hk state hstate => (hquiet k hk state hstate).1⟩,
      hgoing, fun k hk state hstate => (hquiet k hk state hstate).2⟩
  · rintro ⟨⟨hgoing, hleft⟩, -, hright⟩
    exact ⟨hgoing, fun k hk state hstate => ⟨hleft k hk state hstate, hright k hk state hstate⟩⟩

theorem opCalls_all (left right : StopExpr) :
    (self.withStop (.all left right)).opCalls w₀ =
      max ((self.withStop left).opCalls w₀) ((self.withStop right).opCalls w₀) := by
  apply eq_of_forall_natCast_lt_iff
  intro n
  rw [lt_max_iff, lt_opCalls_withStop_iff, self.lt_opCalls_withStop_iff w₀ left,
    self.lt_opCalls_withStop_iff w₀ right]
  simp only [StopExpr.fires, Bool.and_eq_false_iff]
  constructor
  · rintro ⟨hgoing, hquiet⟩
    cases n with
    | zero =>
      refine .inl ⟨hgoing, fun k hk state hstate => ?_⟩
      obtain rfl := Nat.le_zero.mp hk
      cases hstate
    | succ n =>
      -- One side is quiet in the last round, and so it was in all rounds.
      obtain ⟨last, hlast⟩ := self.exists_postState w₀ (Nat.lt_succ_self n)
        ((self.withStop .never).lt_opCalls_iff w₀ (n + 1) |>.mp hgoing)
      rcases hquiet (n + 1) (le_refl _) last hlast with hleft | hright
      · exact .inl ⟨hgoing, self.quiet_of_last w₀ left hlast hleft⟩
      · exact .inr ⟨hgoing, self.quiet_of_last w₀ right hlast hright⟩
  · rintro (⟨hgoing, hleft⟩ | ⟨hgoing, hright⟩)
    · exact ⟨hgoing, fun k hk state hstate => .inl (hleft k hk state hstate)⟩
    · exact ⟨hgoing, fun k hk state hstate => .inr (hright k hk state hstate)⟩

theorem opCalls_attempts (max : UInt32) (hmax : 1 ≤ max) :
    (self.withStop (.attempts max hmax)).opCalls w₀ =
      min (max.toNat : ℕ∞) ((self.withStop .never).opCalls w₀) := by
  apply eq_of_forall_natCast_lt_iff
  intro n
  rw [lt_min_iff, lt_opCalls_withStop_iff, Nat.cast_lt, and_comm]
  refine and_congr_left fun hgoing => ?_
  have hfits : max.toNat ≤ u32Max := Nat.le_of_lt_succ max.toNat_lt
  -- The counter of round `k` reaches `max` when `k` does.
  have hfires (k : ℕ) (state : RetryState) (hstate : self.postState w₀ k = some state) :
      (StopExpr.attempts max hmax).fires state = false ↔ k < max.toNat := by
    unfold StopExpr.fires
    rw [decide_eq_false_iff_not, self.postState_attempt hstate, UInt32.le_iff_toNat_le,
      attemptNumber_toNat]
    omega
  constructor
  · intro hquiet
    cases n with
    | zero => exact UInt32.le_iff_toNat_le.mp hmax
    | succ n =>
      obtain ⟨last, hlast⟩ := self.exists_postState w₀ (Nat.lt_succ_self n)
        ((self.withStop .never).lt_opCalls_iff w₀ (n + 1) |>.mp hgoing)
      exact (hfires _ last hlast).mp (hquiet _ (le_refl _) last hlast)
  · intro hlt k hk state hstate
    exact (hfires k state hstate).mpr (hk.trans_lt hlt)

theorem opCalls_elapsed (D : Duration) :
    (self.withStop (.elapsed D)).opCalls w₀ =
      min (self.firstSpent w₀ D) ((self.withStop .never).opCalls w₀) := by
  apply eq_of_forall_natCast_lt_iff
  intro n
  rw [lt_min_iff, lt_opCalls_withStop_iff, and_comm]
  refine and_congr_left fun _ => ?_
  rw [← ENat.add_one_le_iff (ENat.natCast_ne_top n), firstSpent, le_iInf₂_iff]
  -- Quiet up to round `n` says that the first spent round comes after it.
  constructor
  · rintro hquiet k ⟨state, hstate, hspent⟩
    by_contra hlt
    have hk : k ≤ n := by
      rw [not_le, ← Nat.cast_succ, Nat.cast_lt] at hlt
      exact Nat.le_of_lt_succ hlt
    exact of_decide_eq_false (hquiet k hk state hstate) hspent
  · intro hfirst k hk state hstate
    apply decide_eq_false
    intro hspent
    have hlt := hfirst k ⟨state, hstate, hspent⟩
    rw [← Nat.cast_succ, Nat.cast_le] at hlt
    omega

/-- Whatever the clock does, a run makes no more calls than its expression allows. -/
theorem opCalls_le_bound (e : StopExpr) : (self.withStop e).opCalls w₀ ≤ e.bound := by
  induction e with
  | attempts max hmax =>
    rw [opCalls_attempts]
    exact min_le_left _ _
  | elapsed deadline => exact le_top
  | never => exact le_top
  | any left right ihl ihr =>
    rw [opCalls_any]
    exact min_le_min ihl ihr
  | all left right ihl ihr =>
    rw [opCalls_all]
    exact max_le_max ihl ihr

/-- **The length of a run is compositional in its stop expression.**  With `M` the number
of calls of the run that never stops: `attempts` and `elapsed` cut it, `|` is the minimum
and `&` the maximum; an expression that fires keeps firing; and a run whose expression
has a finite bound terminates within it. -/
theorem opCalls_compositional :
    let N (e : StopExpr) := (self.withStop e).opCalls w₀
    (∀ max hmax, N (.attempts max hmax) = min (max.toNat : ℕ∞) (N .never)) ∧
    (∀ D, N (.elapsed D) = min (self.firstSpent w₀ D) (N .never)) ∧
    (∀ left right, N (.any left right) = min (N left) (N right)) ∧
    (∀ left right, N (.all left right) = max (N left) (N right)) ∧
    (∀ (e : StopExpr) j k earlier later, j ≤ k → self.postState w₀ j = some earlier →
      self.postState w₀ k = some later → e.fires earlier = true → e.fires later = true) ∧
    (∀ e, N e ≤ e.bound) ∧
    ∀ (e : StopExpr) (n : ℕ), e.bound = n →
      ∃ output w, (self.withStop e).runFor n w₀ = (.done output, w) := by
  refine ⟨self.opCalls_attempts w₀, self.opCalls_elapsed w₀, self.opCalls_any w₀,
    self.opCalls_all w₀, ?_, self.opCalls_le_bound w₀, ?_⟩
  · intro e j k earlier later hjk hearlier hlater h
    exact self.fires_of_le e hjk hearlier hlater h
  · intro e n hbound
    rcases hrun : (self.withStop e).runFor n w₀ with ⟨cursor | output, w⟩
    · -- A run still going after `n` rounds would make more than `n` calls.
      have hgoing := ((self.withStop e).lt_opCalls_iff w₀ n).mpr ⟨cursor, w, hrun⟩
      exact absurd (self.opCalls_le_bound w₀ e) (by rw [hbound, not_le]; exact hgoing)
    · exact ⟨output, w, rfl⟩

end Retry

end Relentless
