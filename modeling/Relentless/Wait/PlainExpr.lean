import Relentless.Library.Saturation
import Relentless.Wait.Expr

/-!
# Wait Expressions With Exact Values

The wait expressions that a whole number of nanoseconds describes exactly: fixed and
linear strategies under `cap`, `+` and `chain`.

- `PlainExpr` — the expressions, and the strategy each of them builds
- `PlainExpr.exact` — the value without any overflow
- `PlainExpr.nextWait_eq` — the delay is the exact value, clamped once
-/

namespace Relentless

/-! ## §1 Expressions -/

/-- A wait expression of fixed and linear strategies, without jitter. -/
inductive PlainExpr where
  | fixed (dur : Duration)
  | linear (initial increment : Duration)
  | capped (inner : PlainExpr) (max : Duration)
  | combine (left right : PlainExpr)
  | chain (first second : PlainExpr) (after : UInt32)

namespace PlainExpr

variable {ν : Type}

/-- The strategy that the expression builds. -/
def toWaitExpr : PlainExpr → WaitExpr ν
  | .fixed dur => .fixed (Relentless.fixed dur)
  | .linear initial increment => .linear (Relentless.linear initial increment)
  | .capped inner max => .capped inner.toWaitExpr max
  | .combine left right => .combine left.toWaitExpr right.toWaitExpr
  | .chain first second after => .chain first.toWaitExpr second.toWaitExpr after

/-- The value in unbounded nanoseconds. -/
def exact : PlainExpr → ℕ → ℕ
  | .fixed dur, _ => dur.nanos
  | .linear initial increment, attempt => initial.nanos + (attempt - 1) * increment.nanos
  | .capped inner max, attempt => min (inner.exact attempt) max.nanos
  | .combine left right, attempt => left.exact attempt + right.exact attempt
  | .chain first second after, attempt =>
    if attempt ≤ after.toNat then first.exact attempt else second.exact attempt

/-- No switch from one strategy to another. -/
def ChainFree : PlainExpr → Prop
  | .fixed _ | .linear _ _ => True
  | .capped inner _ => inner.ChainFree
  | .combine left right => left.ChainFree ∧ right.ChainFree
  | .chain .. => False

/-! ## §2 Clamped once -/

/-- The fallback of `checked_mul` is the clamp of the exact product. -/
theorem saturatingDurationMul_eq (dur : Duration) (mul : UInt32) :
    saturatingDurationMul dur mul = .ofNanos (dur.nanos * mul.toNat) := by
  apply Duration.ext
  unfold saturatingDurationMul Duration.checkedMul
  by_cases hfits : dur.nanos * mul.toNat ≤ maxNanos
  · rw [dif_pos hfits, Option.getD_some, Duration.nanos_ofNanos, min_eq_left hfits]
  · rw [dif_neg hfits, Option.getD_none, Duration.nanos_ofNanos,
      min_eq_right (Nat.le_of_not_le hfits)]
    rfl

theorem u32SaturatingSub_one (attempt : UInt32) :
    (u32SaturatingSub attempt 1).toNat = attempt.toNat - 1 := by
  unfold u32SaturatingSub
  by_cases hone : (1 : UInt32) ≤ attempt
  · rw [if_pos hone, UInt32.toNat_sub_of_le _ _ hone, UInt32.toNat_one]
  · -- Attempt zero stays at zero.
    have hlt : attempt.toNat < 1 := by
      rwa [UInt32.le_iff_toNat_le, UInt32.toNat_one, Nat.not_le] at hone
    rw [if_neg hone, UInt32.toNat_zero]
    omega

theorem linear_nextWait_eq (initial increment : Duration) (state : RetryState) :
    (Relentless.linear initial increment).nextWait state =
      .ofNanos (initial.nanos + (state.attempt.toNat - 1) * increment.nanos) := by
  unfold WaitLinear.nextWait Relentless.linear
  dsimp only
  rw [saturatingDurationMul_eq, u32SaturatingSub_one, Nat.mul_comm increment.nanos]
  exact Duration.saturatingAdd_ofNanos initial _

/-- **The delay is the exact value, clamped once**: every clamp inside the expression is
absorbed by the last one, and nothing is drawn. -/
theorem nextWait_eq {m : Type → Type} [Monad m] [LawfulMonad m]
    (draw : ν → Duration → RetryState → m Duration) (expr : PlainExpr) (state : RetryState) :
    expr.toWaitExpr.nextWait draw state = pure (.ofNanos (expr.exact state.attempt.toNat)) := by
  induction expr with
  | fixed dur =>
    show pure dur = pure (Duration.ofNanos dur.nanos)
    rw [Duration.ofNanos_nanos]
  | linear initial increment =>
    exact congrArg pure (linear_nextWait_eq initial increment state)
  | capped inner max ih =>
    rw [toWaitExpr, WaitExpr.nextWait, ih, pure_bind, Duration.min_ofNanos]
    rfl
  | combine left right ihl ihr =>
    rw [toWaitExpr, WaitExpr.nextWait, ihl, ihr, pure_bind, pure_bind,
      Duration.ofNanos_saturatingAdd_ofNanos]
    rfl
  | chain first second after ih₁ ih₂ =>
    rw [toWaitExpr, WaitExpr.nextWait, ih₁, ih₂, exact]
    -- Both sides of the switch are at the same attempt number.
    by_cases hafter : state.attempt ≤ after
    · rw [if_pos hafter, if_pos (UInt32.le_iff_toNat_le.mp hafter)]
    · rw [if_neg hafter, if_neg (mt UInt32.le_iff_toNat_le.mpr hafter)]

/-- Without a switch the exact value never falls from one attempt to a later one. -/
theorem exact_mono {expr : PlainExpr} (hfree : expr.ChainFree) {attempt later : ℕ}
    (h : attempt ≤ later) : expr.exact attempt ≤ expr.exact later := by
  induction expr with
  | fixed dur => exact le_refl _
  | linear initial increment =>
    exact Nat.add_le_add_left (Nat.mul_le_mul_right _ (Nat.sub_le_sub_right h 1)) _
  | capped inner max ih => exact min_le_min_right _ (ih hfree)
  | combine left right ihl ihr => exact Nat.add_le_add (ihl hfree.1) (ihr hfree.2)
  | chain first second after ih₁ ih₂ => exact hfree.elim

end PlainExpr

end Relentless
