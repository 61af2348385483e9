import Mathlib.Algebra.Order.Ring.Nat
import Mathlib.Order.Basic
import Mathlib.Order.Lattice
import Mathlib.Order.MinMax
import Relentless.Library.Saturation

/-!
# Durations and Saturating Arithmetic

`core::time::Duration` as a bounded number of nanoseconds, with the saturating
operations the crate uses, and the saturating `u32` counter.

- `Duration` — between zero and `Duration::MAX`, ordered by its nanoseconds
- `saturatingAdd`, `saturatingSub` — clamped at the two ends
- `u32SaturatingAdd` — `u32::saturating_add`
-/

namespace Relentless

/-! ## §1 Durations -/

/-- `Duration::MAX` in nanoseconds: `u64::MAX` seconds and 999 999 999 ns. -/
def maxNanos : ℕ := (2 ^ 64 - 1) * 1000000000 + 999999999

/-- `core::time::Duration`, as its number of nanoseconds. -/
structure Duration where
  nanos : ℕ
  nanos_le : nanos ≤ maxNanos
  deriving DecidableEq

namespace Duration

theorem nanos_injective : Function.Injective nanos := by
  rintro ⟨a, ha⟩ ⟨b, hb⟩ h
  simpa using h

@[ext] theorem ext {a b : Duration} (h : a.nanos = b.nanos) : a = b := nanos_injective h

instance : LinearOrder Duration := LinearOrder.lift' nanos nanos_injective

theorem le_def {a b : Duration} : a ≤ b ↔ a.nanos ≤ b.nanos := Iff.rfl

theorem lt_def {a b : Duration} : a < b ↔ a.nanos < b.nanos := Iff.rfl

@[simp] theorem nanos_min (a b : Duration) : (min a b).nanos = min a.nanos b.nanos := by
  rcases le_total a b with h | h
  · rw [min_eq_left h, min_eq_left (le_def.mp h)]
  · rw [min_eq_right h, min_eq_right (le_def.mp h)]

@[simp] theorem nanos_max (a b : Duration) : (max a b).nanos = max a.nanos b.nanos := by
  rcases le_total a b with h | h
  · rw [max_eq_right h, max_eq_right (le_def.mp h)]
  · rw [max_eq_left h, max_eq_left (le_def.mp h)]

/-- `Duration::ZERO`. -/
def zero : Duration := ⟨0, Nat.zero_le _⟩

/-- `Duration::MAX`. -/
def maxValue : Duration := ⟨maxNanos, le_refl _⟩

/-- The nearest duration to a number of nanoseconds. -/
def ofNanos (n : ℕ) : Duration := ⟨min n maxNanos, min_le_right _ _⟩

/-- `Duration::is_zero`. -/
def isZero (d : Duration) : Bool := d.nanos == 0

/-- `Duration::saturating_add`. -/
def saturatingAdd (a b : Duration) : Duration := ofNanos (a.nanos + b.nanos)

/-- `Duration::saturating_sub`. -/
def saturatingSub (a b : Duration) : Duration :=
  ⟨a.nanos - b.nanos, le_trans (Nat.sub_le _ _) a.nanos_le⟩

/-- `Duration::saturating_mul`. -/
def saturatingMul (a : Duration) (k : ℕ) : Duration := ofNanos (a.nanos * k)

/-- `Duration::checked_mul`. -/
def checkedMul (a : Duration) (k : UInt32) : Option Duration :=
  if h : a.nanos * k.toNat ≤ maxNanos then some ⟨a.nanos * k.toNat, h⟩ else none

/-- `Duration::new`, which panics when the carry overflows the seconds. -/
def new (secs : UInt64) (nanos : UInt32) : Option Duration :=
  if h : secs.toNat * 1000000000 + nanos.toNat ≤ maxNanos then
    some ⟨secs.toNat * 1000000000 + nanos.toNat, h⟩
  else none

/-- `Duration / k`, for a non-zero `k`. -/
def divBy (a : Duration) (k : ℕ) : Duration :=
  ⟨a.nanos / k, le_trans (Nat.div_le_self _ _) a.nanos_le⟩

/-- `Duration::from_nanos`. -/
def fromNanos (n : UInt64) : Duration := ofNanos n.toNat

/-- `Duration::as_micros`, rounded down. -/
def asMicros (d : Duration) : ℕ := d.nanos / 1000

/-- `Duration::as_millis`, rounded down. -/
def asMillis (d : Duration) : ℕ := d.nanos / 1000000

/-- `Duration::from_micros`. -/
def fromMicros (n : ℕ) : Duration := ofNanos (n * 1000)

@[simp] theorem nanos_zero : zero.nanos = 0 := rfl

@[simp] theorem nanos_ofNanos (n : ℕ) : (ofNanos n).nanos = min n maxNanos := rfl

@[simp] theorem nanos_saturatingAdd (a b : Duration) :
    (a.saturatingAdd b).nanos = min (a.nanos + b.nanos) maxNanos := rfl

@[simp] theorem nanos_saturatingSub (a b : Duration) :
    (a.saturatingSub b).nanos = a.nanos - b.nanos := rfl

@[simp] theorem nanos_saturatingMul (a : Duration) (k : ℕ) :
    (a.saturatingMul k).nanos = min (a.nanos * k) maxNanos := rfl

@[simp] theorem nanos_divBy (a : Duration) (k : ℕ) : (a.divBy k).nanos = a.nanos / k := rfl

/-- Adding to a saturated sum gives the saturation of the exact sum. -/
theorem ofNanos_saturatingAdd (n : ℕ) (d : Duration) :
    (ofNanos n).saturatingAdd d = .ofNanos (n + d.nanos) :=
  Duration.ext (Saturation.min_add_top maxNanos n d.nanos)

@[simp] theorem ofNanos_nanos (d : Duration) : ofNanos d.nanos = d :=
  Duration.ext (min_eq_left d.nanos_le)

theorem ofNanos_saturatingAdd_ofNanos (n k : ℕ) :
    (ofNanos n).saturatingAdd (ofNanos k) = ofNanos (n + k) :=
  Duration.ext (Saturation.min_add_min_top maxNanos n k)

theorem saturatingAdd_ofNanos (d : Duration) (n : ℕ) :
    d.saturatingAdd (ofNanos n) = ofNanos (d.nanos + n) := by
  have hsum := ofNanos_saturatingAdd_ofNanos d.nanos n
  rwa [ofNanos_nanos] at hsum

/-- Two clamps in either order are one. -/
theorem min_ofNanos (n : ℕ) (d : Duration) : min (ofNanos n) d = ofNanos (min n d.nanos) := by
  apply Duration.ext
  rw [nanos_min, nanos_ofNanos, nanos_ofNanos, min_right_comm]

theorem ofNanos_mono {n k : ℕ} (h : n ≤ k) : ofNanos n ≤ ofNanos k :=
  min_le_min_right maxNanos h

theorem saturatingAdd_mono {a b c d : Duration} (hac : a ≤ c) (hbd : b ≤ d) :
    a.saturatingAdd b ≤ c.saturatingAdd d :=
  ofNanos_mono (Nat.add_le_add hac hbd)

theorem le_saturatingAdd (a b : Duration) : a ≤ a.saturatingAdd b := by
  have hmax := a.nanos_le
  rw [le_def, nanos_saturatingAdd]
  omega

@[simp] theorem isZero_iff (d : Duration) : d.isZero = true ↔ d = zero := by
  simp [isZero, Duration.ext_iff]

@[simp] theorem isZero_eq_false_iff (d : Duration) : d.isZero = false ↔ d ≠ zero := by
  rw [← Bool.not_eq_true, isZero_iff]

@[simp] theorem zero_le (d : Duration) : zero ≤ d := Nat.zero_le _

theorem ne_zero_iff (d : Duration) : d ≠ zero ↔ 0 < d.nanos := by
  simp [Duration.ext_iff, Nat.pos_iff_ne_zero]

end Duration

/-- `u128::MAX`. -/
def u128Max : ℕ := 2 ^ 128 - 1

/-! ## §2 The attempt counter -/

/-- `u32::MAX`. -/
def u32Max : ℕ := 2 ^ 32 - 1

/-- `u32::saturating_add`. -/
def u32SaturatingAdd (a b : UInt32) : UInt32 :=
  if a.toNat + b.toNat ≤ u32Max then a + b else UInt32.ofNat u32Max

/-- `u32::saturating_sub`. -/
def u32SaturatingSub (a b : UInt32) : UInt32 := if b ≤ a then a - b else 0

/-- The number the engine gives to round `k`, counted from one. -/
def attemptNumber (k : ℕ) : UInt32 := UInt32.ofNat (min k u32Max)

theorem attemptNumber_toNat (k : ℕ) : (attemptNumber k).toNat = min k u32Max := by
  rw [attemptNumber, UInt32.toNat_ofNat_of_lt']
  exact lt_of_le_of_lt (min_le_right _ _) (by decide)

theorem attemptNumber_ne_zero {k : ℕ} (hk : 1 ≤ k) : 1 ≤ attemptNumber k := by
  rw [UInt32.le_iff_toNat_le, attemptNumber_toNat]
  exact le_min hk (by decide)

/-- The saturating counter follows the round number. -/
theorem u32SaturatingAdd_attemptNumber (k : ℕ) :
    u32SaturatingAdd (attemptNumber k) 1 = attemptNumber (k + 1) := by
  apply UInt32.toNat_inj.mp
  unfold u32SaturatingAdd
  split
  case isTrue h =>
    rw [attemptNumber_toNat, UInt32.toNat_one] at h
    rw [UInt32.toNat_add, attemptNumber_toNat, attemptNumber_toNat, UInt32.toNat_one]
    simp only [u32Max] at h ⊢
    omega
  case isFalse h =>
    rw [attemptNumber_toNat, UInt32.toNat_one] at h
    rw [attemptNumber_toNat, UInt32.toNat_ofNat_of_lt' (by decide)]
    simp only [u32Max] at h ⊢
    omega

end Relentless
