import Relentless.Wait.Exponential
import Relentless.Wait.PlainExpr

/-!
# Exact Waits

Saturating arithmetic gives what exact arithmetic gives, clamped once.

- `plain_waits_are_exact` — expressions of fixed and linear strategies
- `exponential_is_exact` — exponential strategies with base two, and with none
-/

namespace Relentless

/-! ## §1 Fixed and linear expressions -/

/-- **Clamped once**: a wait expression of fixed and linear strategies under `+`, `cap` and
`chain` gives its exact value in nanoseconds, clamped to `Duration::MAX`, in every state
and whatever can fail around it; so `+` commutes and associates, and without a switch the
delay never falls from one attempt to a later one. -/
theorem plain_waits_are_exact :
    (∀ {σ ν : Type} (draw : ν → Duration → RetryState → Eff σ Duration) (expr : PlainExpr)
      (state : RetryState) (w : σ),
      expr.toWaitExpr.nextWait draw state w =
        (.ofNanos (expr.exact state.attempt.toNat), w)) ∧
    (∀ {ε σ ν : Type} (draw : ν → Duration → RetryState → Fallible ε σ Duration)
      (expr : PlainExpr) (state : RetryState) (w : σ),
      expr.toWaitExpr.nextWait draw state w =
        (.ok (.ofNanos (expr.exact state.attempt.toNat)), w)) ∧
    (∀ {σ ν : Type} (draw : ν → Duration → RetryState → Eff σ Duration)
      (a b c : PlainExpr) (state : RetryState),
      (a.combine b).toWaitExpr.nextWait draw state =
        (b.combine a).toWaitExpr.nextWait draw state ∧
      ((a.combine b).combine c).toWaitExpr.nextWait draw state =
        (a.combine (b.combine c)).toWaitExpr.nextWait draw state) ∧
    (∀ {σ ν : Type} (draw : ν → Duration → RetryState → Eff σ Duration) (expr : PlainExpr)
      (state later : RetryState) (w : σ), expr.ChainFree → state.attempt ≤ later.attempt →
      (expr.toWaitExpr.nextWait draw state w).1 ≤
        (expr.toWaitExpr.nextWait draw later w).1) := by
  refine ⟨?_, ?_, ?_, ?_⟩
  · intro σ ν draw expr state w
    rw [expr.nextWait_eq draw state, Eff.pure_apply]
  · intro ε σ ν draw expr state w
    rw [expr.nextWait_eq draw state, Fallible.pure_apply]
  · intro σ ν draw a b c state
    -- Both sides have one exact value.
    simp only [PlainExpr.nextWait_eq, PlainExpr.exact]
    constructor
    · rw [Nat.add_comm]
    · rw [Nat.add_assoc]
  · intro σ ν draw expr state later w hfree hle
    rw [expr.nextWait_eq draw state, expr.nextWait_eq draw later]
    exact Duration.ofNanos_mono (PlainExpr.exact_mono hfree (UInt32.le_iff_toNat_le.mp hle))

/-! ## §2 Exponential strategies -/

theorem exponential_nextWait (strategy : WaitExponential)
    (hinitial : strategy.initial.nanos < 2 ^ 53) (state : RetryState) {k : ℕ}
    (hpow : IsPow (powNonnegativeF64 strategy.base (u32SaturatingSub state.attempt 1)) k) :
    strategy.nextWait state = .ofNanos (strategy.initial.nanos * 2 ^ k) :=
  Option.get_of_eq_some _ (saturatingDurationMulF64_of_isPow hinitial hpow)

/-- **Doubling is exact**: for every initial duration below `2 ^ 53` nanoseconds and every
attempt, the default exponential strategy waits `initial * 2 ^ (attempt - 1)`, clamped to
`Duration::MAX`; with a base that is at most one or not finite it waits `initial`.  The
multiplier is the power of two, or infinity when that is too large, for every exponent, and
below the threshold neither cast cuts anything off the seconds and nanoseconds. -/
theorem exponential_is_exact :
    (∀ (initial : Duration) (state : RetryState), initial.nanos < 2 ^ 53 →
      (exponential initial).nextWait state =
        .ofNanos (initial.nanos * 2 ^ (state.attempt.toNat - 1))) ∧
    (∀ (initial : Duration) (base : Float) (state : RetryState), initial.nanos < 2 ^ 53 →
      (base ≤ 1.0 ∨ base.isNaN = true ∨ base.isInf = true) →
      ((exponential initial).withBase base).nextWait state = initial) ∧
    (∀ exponent : UInt32,
      Binary64.IsScaled (powNonnegativeF64 defaultExponentialBase exponent) (2 ^ 52)
        exponent.toNat) ∧
    (∀ nanos : Float, ¬Binary64.ofNat maxNanos ≤ nanos →
      let totalNanos := Binary64.truncate u128Max nanos
      (UInt64.ofNat (totalNanos / 1000000000)).toNat = totalNanos / 1000000000 ∧
      (UInt32.ofNat (totalNanos % 1000000000)).toNat = totalNanos % 1000000000 ∧
      Duration.new (.ofNat (totalNanos / 1000000000)) (.ofNat (totalNanos % 1000000000)) =
        some (.ofNanos totalNanos)) := by
  have hpow (exponent : UInt32) :
      IsPow (powNonnegativeF64 defaultExponentialBase exponent) exponent.toNat := by
    have hpow := isPow_powNonnegativeF64 isPow_defaultExponentialBase (by decide) exponent
    rwa [Nat.one_mul] at hpow
  refine ⟨?_, ?_, hpow, ?_⟩
  · intro initial state hinitial
    rw [← PlainExpr.u32SaturatingSub_one]
    exact exponential_nextWait (exponential initial) hinitial state (hpow _)
  · intro initial base state hinitial hbase
    -- The multiplier is one.
    have hone : IsPow (powNonnegativeF64 (clampExponentialBase base)
        (u32SaturatingSub state.attempt 1)) 0 := by
      rw [powNonnegativeF64_of_le (clampExponentialBase_le hbase)]
      exact isPow_one
    have hwait := exponential_nextWait ((exponential initial).withBase base) hinitial state hone
    rw [hwait, Nat.pow_zero, Nat.mul_one]
    exact Duration.ofNanos_nanos initial
  · intro nanos hbelow
    have hle := truncate_le_maxNanos hbelow
    exact ⟨toNat_secs hle, toNat_nanos _, new_div_mod hle⟩

/-- A second, doubled four times; and the same second with a base below one. -/
theorem exponential_is_exact_oneSecond :
    (exponential (.ofNanos 1000000000)).nextWait ⟨5, .zero, none⟩ = .ofNanos 16000000000 ∧
      ((exponential (.ofNanos 1000000000)).withBase 0.5).nextWait ⟨5, .zero, none⟩ =
        .ofNanos 1000000000 := by
  obtain ⟨hdoubled, hconstant, -, -⟩ := exponential_is_exact
  have hinitial : (Duration.ofNanos 1000000000).nanos < 2 ^ 53 := by decide
  exact ⟨hdoubled _ _ hinitial, hconstant _ _ _ hinitial (.inl (by decide +kernel))⟩

end Relentless
