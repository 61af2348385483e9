import Relentless.Library.Binary64
import Relentless.State

/-!
# Wait Strategies Without Jitter

The strategies whose delay the attempt number decides: fixed, linear and exponential.

- `WaitFixed`, `WaitLinear`, `WaitExponential` — the strategies with their `nextWait`
- `powNonnegativeF64` — square and multiply, up to infinity
- `saturatingDurationMulF64` — a duration times a float, which never panics
-/

namespace Relentless

/-! ## §1 Fixed and linear -/

structure WaitFixed where
  duration : Duration

def fixed (dur : Duration) : WaitFixed := ⟨dur⟩

def WaitFixed.nextWait (strategy : WaitFixed) (_state : RetryState) : Duration :=
  strategy.duration

structure WaitLinear where
  initial : Duration
  increment : Duration

def linear (initial increment : Duration) : WaitLinear := ⟨initial, increment⟩

/-- `saturating_duration_mul`. -/
def saturatingDurationMul (dur : Duration) (mul : UInt32) : Duration :=
  (dur.checkedMul mul).getD .maxValue

def WaitLinear.nextWait (strategy : WaitLinear) (state : RetryState) : Duration :=
  let multiplier := u32SaturatingSub state.attempt 1
  let step := saturatingDurationMul strategy.increment multiplier
  strategy.initial.saturatingAdd step

/-! ## §2 Exponential -/

/-- `WaitExponential`, with an `f64` base. -/
structure WaitExponential where
  initial : Duration
  base : Float

/-- `DEFAULT_EXPONENTIAL_BASE`. -/
def defaultExponentialBase : Float := 2.0

/-- `MIN_EXPONENTIAL_BASE`. -/
def minExponentialBase : Float := 1.0

def exponential (initial : Duration) : WaitExponential :=
  { initial, base := defaultExponentialBase }

/-- `f64::max`: the other argument, when one is not a number. -/
def f64Max (a b : Float) : Float :=
  if a.isNaN then b else if b.isNaN then a else if a < b then b else a

/-- `clamp_exponential_base`. -/
def clampExponentialBase (base : Float) : Float :=
  if !base.isFinite then minExponentialBase else f64Max base minExponentialBase

/-- `WaitExponential::base`. -/
def WaitExponential.withBase (strategy : WaitExponential) (base : Float) : WaitExponential :=
  { strategy with base := clampExponentialBase base }

/-- `f64::INFINITY`. -/
def f64Infinity : Float := .ofBits 0x7ff0000000000000

/-- The loop of `pow_nonnegative_f64`. -/
def powLoop (result factor : Float) (remaining : ℕ) : Float :=
  let odd := remaining % 2 == 1
  let result := if odd then result * factor else result
  -- The early return stands in the odd branch.
  if odd && !result.isFinite then f64Infinity
  else
    let rest := remaining / 2
    if rest = 0 then result
    else
      -- A square that overflows is kept at infinity.
      let factor := factor * factor
      let factor := if !factor.isFinite then f64Infinity else factor
      powLoop result factor rest
termination_by remaining
decreasing_by omega

/-- `pow_nonnegative_f64`. -/
def powNonnegativeF64 (base : Float) (exponent : UInt32) : Float :=
  if exponent = 0 then 1.0
  -- Bases below one count as one.
  else if base ≤ minExponentialBase then 1.0
  else powLoop 1.0 base exponent.toNat

/-- `saturating_duration_mul_f64`; no value where `Duration::new` panics. -/
def saturatingDurationMulF64 (dur : Duration) (mul : Float) : Option Duration :=
  let nanosPerSec := 1000000000
  if dur = .zero then some .zero
  else
    let nanos := Binary64.ofNat dur.nanos * mul
    if Binary64.ofNat maxNanos ≤ nanos then some .maxValue
    else
      let totalNanos := Binary64.truncate u128Max nanos
      Duration.new (.ofNat (totalNanos / nanosPerSec)) (.ofNat (totalNanos % nanosPerSec))

/-- `Duration::MAX` rounds up to the next number, which uses all 53 bits. -/
theorem unpack_ofNat_maxNanos :
    (Binary64.ofNat maxNanos).toModel.unpack =
      .finite .positive (2 ^ 23 * 10 ^ 9) (41 : ℕ) (by decide) := rfl

/-- Below the threshold the whole seconds fit in a `u64`, so nothing is truncated. -/
theorem truncate_le_maxNanos {nanos : Float} (h : ¬Binary64.ofNat maxNanos ≤ nanos) :
    Binary64.truncate u128Max nanos ≤ maxNanos := by
  have hlt := Binary64.truncate_lt unpack_ofNat_maxNanos (by decide) (by decide) h u128Max
  -- The threshold is one nanosecond past the maximum: `2 ^ 64` whole seconds.
  have hthreshold : 2 ^ 23 * 10 ^ 9 * 2 ^ 41 = maxNanos + 1 := by decide
  omega

/-- The whole seconds of nanoseconds in range fit. -/
theorem toNat_secs {n : ℕ} (h : n ≤ maxNanos) :
    (UInt64.ofNat (n / 1000000000)).toNat = n / 1000000000 := by
  apply UInt64.toNat_ofNat_of_lt'
  simp only [maxNanos, UInt64.size] at h ⊢
  omega

theorem toNat_nanos (n : ℕ) :
    (UInt32.ofNat (n % 1000000000)).toNat = n % 1000000000 := by
  apply UInt32.toNat_ofNat_of_lt'
  simp only [UInt32.size]
  omega

/-- Nanoseconds in range, split into seconds and a rest and put together again. -/
theorem new_div_mod {n : ℕ} (h : n ≤ maxNanos) :
    Duration.new (.ofNat (n / 1000000000)) (.ofNat (n % 1000000000)) = some (.ofNanos n) := by
  have hsecs := toNat_secs h
  have hnanos := toNat_nanos n
  have hsum : n / 1000000000 * 1000000000 + n % 1000000000 = n := Nat.div_add_mod' n _
  have hofNanos : Duration.ofNanos n = ⟨n, h⟩ := by
    apply Duration.ext
    simp [h]
  simp [Duration.new, hsecs, hnanos, hsum, h, hofNanos]

/-- **The product never panics**, and is the truncated float product where that fits. -/
theorem saturatingDurationMulF64_eq (dur : Duration) (mul : Float) :
    saturatingDurationMulF64 dur mul = some
      (if dur = .zero then .zero
      else if Binary64.ofNat maxNanos ≤ Binary64.ofNat dur.nanos * mul then .maxValue
      else .ofNanos (Binary64.truncate u128Max (Binary64.ofNat dur.nanos * mul))) := by
  unfold saturatingDurationMulF64
  dsimp only
  by_cases hzero : dur = .zero
  · rw [if_pos hzero, if_pos hzero]
  · rw [if_neg hzero, if_neg hzero]
    by_cases hmax : Binary64.ofNat maxNanos ≤ Binary64.ofNat dur.nanos * mul
    · rw [if_pos hmax, if_pos hmax]
    · rw [if_neg hmax, if_neg hmax]
      exact new_div_mod (truncate_le_maxNanos hmax)

theorem saturatingDurationMulF64_isSome (dur : Duration) (mul : Float) :
    (saturatingDurationMulF64 dur mul).isSome := by
  simp [saturatingDurationMulF64_eq]

/-- `WaitExponential::next_wait`. -/
def WaitExponential.nextWait (strategy : WaitExponential) (state : RetryState) : Duration :=
  let exponent := u32SaturatingSub state.attempt 1
  let multiplier := powNonnegativeF64 strategy.base exponent
  (saturatingDurationMulF64 strategy.initial multiplier).get
    (saturatingDurationMulF64_isSome _ _)

end Relentless
