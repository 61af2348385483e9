import Mathlib.Algebra.Order.Floor.Div
import Relentless.Duration

/-!
# Tick-Based Clock Adapters

The conversions with which `EmbassyClock` and `GlooClock` hand a duration to their
runtime's timer.  A conversion that would overflow or panic has no value.

- `toEmbassyDuration` — ticks at a given rate
- `glooMillis` — the milliseconds that `GlooClock::wait_async` asks for
- `ceilTicks` — what the first conversion comes to
-/

namespace Relentless

/-! ## §1 The conversions -/

/-- A value of type `u128`, unless it overflows. -/
def u128 (n : ℕ) : Option ℕ := if n ≤ u128Max then some n else none

/-- `u128::saturating_mul`. -/
def u128SaturatingMul (a b : ℕ) : ℕ := min (a * b) u128Max

/-- `u128::div_ceil`, which panics on a zero divisor. -/
def u128DivCeil (a b : ℕ) : Option ℕ := if b = 0 then none else u128 (a ⌈/⌉ b)

/-- `u64::MAX`. -/
def u64Max : UInt64 := 0xffffffffffffffff

/-- `u64::try_from` a `u128`. -/
def u64TryFrom (n : ℕ) : Option UInt64 := if n < 2 ^ 64 then some (.ofNat n) else none

/-- `to_embassy_duration` at the tick rate `tickHz`, as a number of ticks. -/
def toEmbassyDuration (tickHz : UInt64) (dur : Duration) : Option UInt64 := do
  let microsPerSec := 1000000
  let micros ← u128 dur.asMicros
  let ticksCeil ← u128DivCeil (u128SaturatingMul micros tickHz.toNat) microsPerSec
  let ticks := (u64TryFrom ticksCeil).getD u64Max
  return ticks

/-- `EmbassyClock::now`, when `as_micros` reads the ticks since the origin. -/
def embassyNow (asMicros : UInt64 → ℕ) (elapsed : UInt64) : Duration :=
  .fromMicros (asMicros elapsed)

/-- `i32::MAX`. -/
def i32Max : ℕ := 2 ^ 31 - 1

/-- `u32::try_from` a `u128`. -/
def u32TryFrom (n : ℕ) : Option UInt32 := if n < 2 ^ 32 then some (.ofNat n) else none

/-- The milliseconds `GlooClock::wait_async` asks `setTimeout` for. -/
def glooMillis (dur : Duration) : Option UInt32 :=
  let maxTimeoutMillis := i32Max
  u32TryFrom (min dur.asMillis maxTimeoutMillis)

/-! ## §2 What they come to -/

/-- The microseconds of a duration in ticks, rounded up, at most `u64::MAX`. -/
def ceilTicks (tickHz : UInt64) (dur : Duration) : ℕ :=
  min ((dur.asMicros * tickHz.toNat) ⌈/⌉ 1000000) (2 ^ 64 - 1)

theorem ceilTicks_lt (tickHz : UInt64) (dur : Duration) : ceilTicks tickHz dur < 2 ^ 64 := by
  unfold ceilTicks
  omega

/-- The ceiling of the `u128` product does not show below that of the ticks. -/
theorem min_ceilDiv_u128SaturatingMul (a b : ℕ) :
    min (u128SaturatingMul a b ⌈/⌉ 1000000) (2 ^ 64 - 1) =
      min ((a * b) ⌈/⌉ 1000000) (2 ^ 64 - 1) := by
  simp only [u128SaturatingMul, Nat.ceilDiv_eq_add_pred_div, u128Max]
  omega

/-- **The conversion never overflows** and gives the ceiling. -/
theorem toEmbassyDuration_eq (tickHz : UInt64) (dur : Duration) :
    toEmbassyDuration tickHz dur = some (.ofNat (ceilTicks tickHz dur)) := by
  -- No step of the conversion fails: the microseconds fit in a `u128`, ...
  have hmicros : u128 dur.asMicros = some dur.asMicros := by
    have hle : dur.asMicros ≤ u128Max :=
      (Nat.div_le_self _ _).trans (dur.nanos_le.trans (by decide))
    simp [u128, hle]
  -- ... so does the ceiling of what the multiplication leaves, ...
  have hceil (x : ℕ) (hx : x ≤ u128Max) : u128DivCeil x 1000000 = some (x ⌈/⌉ 1000000) := by
    have hle : x ⌈/⌉ 1000000 ≤ u128Max := by
      simp only [Nat.ceilDiv_eq_add_pred_div, u128Max] at hx ⊢
      omega
    simp [u128DivCeil, u128, hle]
  -- ... and what does not fit in a `u64` is replaced by the largest one.
  have htry (n : ℕ) : (u64TryFrom n).getD u64Max = .ofNat (min n (2 ^ 64 - 1)) := by
    unfold u64TryFrom
    split
    case isTrue h => rw [Nat.min_eq_left (by omega), Option.getD_some]
    case isFalse h => rw [Nat.min_eq_right (by omega), Option.getD_none, u64Max]; rfl
  have hmul : u128SaturatingMul dur.asMicros tickHz.toNat ≤ u128Max := Nat.min_le_right _ _
  have hbind : toEmbassyDuration tickHz dur = (u128 dur.asMicros).bind fun micros =>
      (u128DivCeil (u128SaturatingMul micros tickHz.toNat) 1000000).bind fun ticksCeil =>
        some ((u64TryFrom ticksCeil).getD u64Max) := rfl
  rw [hbind, hmicros, Option.bind_some, hceil _ hmul, Option.bind_some, htry,
    min_ceilDiv_u128SaturatingMul, ceilTicks]

/-- The clamp keeps the milliseconds within `u32`, so `wait_async` never panics. -/
theorem glooMillis_eq (dur : Duration) :
    glooMillis dur = some (.ofNat (min dur.asMillis i32Max)) := by
  have hlt : min dur.asMillis i32Max < 2 ^ 32 := by
    simp only [i32Max]
    omega
  unfold glooMillis u32TryFrom
  rw [if_pos hlt]

/-- A longer duration is not given fewer ticks. -/
theorem ceilTicks_mono (tickHz : UInt64) : Monotone (ceilTicks tickHz) := by
  intro a b hab
  have hmicros : a.asMicros ≤ b.asMicros := Nat.div_le_div_right hab
  have hproduct : a.asMicros * tickHz.toNat ≤ b.asMicros * tickHz.toNat :=
    Nat.mul_le_mul_right _ hmicros
  simp only [ceilTicks, Nat.ceilDiv_eq_add_pred_div]
  omega

end Relentless
