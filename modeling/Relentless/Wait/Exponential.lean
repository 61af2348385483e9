import Relentless.Library.Binary64Scaled
import Relentless.Wait.Strategies

/-!
# Exponential Waits With Base Two

Square and multiply on powers of two, and the product of a duration by one of them.  Both
are exact until they reach infinity and `Duration::MAX`.

- `IsPow` — a float that is a power of two, or infinity
- `isPow_powLoop` — what the loop of `pow_nonnegative_f64` computes
- `saturatingDurationMulF64_of_isPow` — the product, clamped once
-/

namespace Relentless

open Binary64

/-! ## §1 Square and multiply -/

/-- A float that is `2 ^ k`, or infinity when that is too large. -/
abbrev IsPow (x : Float) (k : ℕ) : Prop := IsScaled x (2 ^ 52) k

theorem isPow_one : IsPow 1.0 0 := ⟨le_refl _, by decide, rfl⟩

theorem isPow_defaultExponentialBase : IsPow defaultExponentialBase 1 :=
  ⟨le_refl _, by decide, rfl⟩

theorem isPow_infinity {k : ℕ} (hlarge : ¬k ≤ 1023) : IsPow f64Infinity k :=
  IsScaled.of_infinite (le_refl _) (by decide) hlarge rfl

/-- The square that the loop keeps, which it sets to infinity by hand. -/
theorem IsPow.square {factor : Float} {k : ℕ} (h : IsPow factor k) :
    IsPow (if !(factor * factor).isFinite then f64Infinity else factor * factor) (k + k) := by
  have hsquare : IsPow (factor * factor) (k + k) := h.mul h
  by_cases hfits : k + k ≤ 1023
  · rw [hsquare.isFinite_iff.mpr hfits]
    exact hsquare
  · rw [Bool.eq_false_iff.mpr (mt hsquare.isFinite_iff.mp hfits)]
    exact isPow_infinity hfits

/-- **The loop** of `pow_nonnegative_f64` multiplies a power of two by another one, raised
to the exponent that remains. -/
theorem isPow_powLoop {result factor : Float} {a b remaining : ℕ} (hresult : IsPow result a)
    (hfactor : IsPow factor b) (hpos : 0 < remaining) :
    IsPow (powLoop result factor remaining) (a + b * remaining) := by
  induction remaining using Nat.strong_induction_on generalizing result factor a b with
  | _ remaining ih =>
    -- The lowest bit of what remains says whether the factor is taken in this round.
    obtain ⟨next, hnext, hpow⟩ : ∃ next : Float,
        (if (remaining % 2 == 1) = true then result * factor else result) = next ∧
          IsPow next (a + b * (remaining % 2)) := by
      refine ⟨_, rfl, ?_⟩
      rcases Nat.mod_two_eq_zero_or_one remaining with hbit | hbit
      · rw [hbit, Nat.mul_zero, Nat.add_zero]
        exact hresult
      · rw [hbit, Nat.mul_one]
        exact hresult.mul hfactor
    have hsplit : b * remaining = b * (remaining % 2) + (b + b) * (remaining / 2) := by
      calc b * remaining
          = b * (remaining % 2 + 2 * (remaining / 2)) := by rw [Nat.mod_add_div]
        _ = b * (remaining % 2) + (b + b) * (remaining / 2) := by
            rw [Nat.mul_add, ← Nat.mul_assoc, Nat.mul_two]
    rw [powLoop]
    dsimp only
    rw [hnext]
    rw [hsplit, ← Nat.add_assoc]
    split
    case isTrue hearly =>
      -- The early return: the result is infinite already, and it only grows.
      have hinf : ¬next.isFinite = true := by
        rw [Bool.not_eq_true, ← Bool.not_eq_true']
        exact (Bool.and_eq_true_iff.mp hearly).2
      have hlarge := mt hpow.isFinite_iff.mpr hinf
      exact isPow_infinity (by omega)
    case isFalse =>
      by_cases hrest : remaining / 2 = 0
      · rw [if_pos hrest, hrest, Nat.mul_zero, Nat.add_zero]
        exact hpow
      · rw [if_neg hrest]
        exact ih (remaining / 2) (by omega) hpow hfactor.square (Nat.pos_of_ne_zero hrest)

/-- `pow_nonnegative_f64` of a power of two above one. -/
theorem isPow_powNonnegativeF64 {base : Float} {k : ℕ} (hbase : IsPow base k)
    (hlarge : ¬base ≤ minExponentialBase) (exponent : UInt32) :
    IsPow (powNonnegativeF64 base exponent) (k * exponent.toNat) := by
  unfold powNonnegativeF64
  by_cases hzero : exponent = 0
  · rw [if_pos hzero, hzero, UInt32.toNat_zero, Nat.mul_zero]
    exact isPow_one
  · have hpos : 0 < exponent.toNat := Nat.pos_of_ne_zero fun h =>
      hzero (UInt32.toNat_inj.mp (h.trans UInt32.toNat_zero.symm))
    rw [if_neg hzero, if_neg hlarge, ← Nat.zero_add (k * exponent.toNat)]
    exact isPow_powLoop isPow_one hbase hpos

/-- A base of at most one counts as one. -/
theorem powNonnegativeF64_of_le {base : Float} (h : base ≤ minExponentialBase)
    (exponent : UInt32) : powNonnegativeF64 base exponent = 1.0 := by
  unfold powNonnegativeF64
  rw [if_pos h, ite_self]

/-- A base that is at most one, or no finite number, is clamped to at most one. -/
theorem clampExponentialBase_le {base : Float}
    (h : base ≤ 1.0 ∨ base.isNaN = true ∨ base.isInf = true) :
    clampExponentialBase base ≤ minExponentialBase := by
  have hone : minExponentialBase ≤ minExponentialBase := by decide
  unfold clampExponentialBase
  by_cases hfinite : base.isFinite = true
  · rw [hfinite]
    have hbase : base ≤ minExponentialBase := by
      rcases h with hle | hother
      · exact hle
      · rw [isFinite_eq, Bool.not_eq_true', Bool.or_eq_false_iff] at hfinite
        rw [hfinite.1, hfinite.2] at hother
        exact absurd hother (by decide)
    -- Either argument of the maximum is at most one.
    show f64Max base minExponentialBase ≤ minExponentialBase
    unfold f64Max
    split_ifs
    · exact hone
    · exact hbase
    · exact hone
    · exact hbase
  · rw [Bool.eq_false_iff.mpr hfinite]
    exact hone

/-! ## §2 The product -/

theorem isScaled_ofNat_maxNanos : IsScaled (ofNat maxNanos) (2 ^ 23 * 10 ^ 9) 93 :=
  ⟨by decide, by decide, unpack_ofNat_maxNanos⟩

/-- **A duration times a power of two** is exact, and clamped once. -/
theorem saturatingDurationMulF64_of_isPow {dur : Duration} (hdur : dur.nanos < 2 ^ 53)
    {mul : Float} {k : ℕ} (hmul : IsPow mul k) :
    saturatingDurationMulF64 dur mul = some (.ofNanos (dur.nanos * 2 ^ k)) := by
  rw [saturatingDurationMulF64_eq]
  congr 1
  by_cases hzero : dur = .zero
  · rw [if_pos hzero, hzero, Duration.nanos_zero, Nat.zero_mul]
    rfl
  · have hpos := (Duration.ne_zero_iff dur).mp hzero
    rw [if_neg hzero]
    have hproduct := (isScaled_ofNat hpos hdur).mul hmul
    -- The product as a scaled integer, and the threshold in the same unit.
    have hvalue : dur.nanos * 2 ^ (52 - dur.nanos.log2) * 2 ^ (dur.nanos.log2 + k) =
        dur.nanos * 2 ^ k * 2 ^ 52 := by
      have hlog : dur.nanos.log2 ≤ 52 := Nat.lt_succ_iff.mp ((Nat.log2_lt hpos.ne').mpr hdur)
      rw [Nat.mul_assoc, Nat.mul_assoc, ← Nat.pow_add, ← Nat.pow_add]
      congr 2
      omega
    have hthreshold : 2 ^ 23 * 10 ^ 9 * 2 ^ 93 = (maxNanos + 1) * 2 ^ 52 := by decide
    have hreaches : ofNat maxNanos ≤ ofNat dur.nanos * mul ↔
        maxNanos + 1 ≤ dur.nanos * 2 ^ k := by
      rw [isScaled_ofNat_maxNanos.le_iff hproduct (by decide), hvalue, hthreshold]
      exact Nat.mul_le_mul_right_iff (Nat.two_pow_pos 52)
    by_cases hmax : maxNanos + 1 ≤ dur.nanos * 2 ^ k
    · rw [if_pos (hreaches.mpr hmax)]
      have hle : maxNanos ≤ dur.nanos * 2 ^ k := Nat.le_of_succ_le hmax
      exact Duration.ext (min_eq_right hle).symm
    · -- Below the threshold the product is finite and whole.
      have hfits : dur.nanos.log2 + k ≤ 1023 := by
        by_contra hlarge
        apply hmax
        have hscaled : 2 ^ 52 * 2 ^ (dur.nanos.log2 + k) ≤ dur.nanos * 2 ^ k * 2 ^ 52 :=
          hvalue ▸ Nat.mul_le_mul_right _ hproduct.low
        calc maxNanos + 1
            ≤ 2 ^ 94 := by decide
          _ ≤ 2 ^ (dur.nanos.log2 + k) := Nat.pow_le_pow_right (by decide) (by omega)
          _ ≤ dur.nanos * 2 ^ k := by
            rw [Nat.mul_comm] at hscaled
            exact Nat.le_of_mul_le_mul_right hscaled (Nat.two_pow_pos 52)
      have htruncate : truncate u128Max (ofNat dur.nanos * mul) = dur.nanos * 2 ^ k := by
        rw [hproduct.truncate_eq hfits, hvalue, Nat.mul_div_cancel _ (Nat.two_pow_pos 52)]
        exact min_eq_left ((Nat.le_of_lt_succ (Nat.lt_of_not_le hmax)).trans (by decide))
      rw [if_neg (mt hreaches.mp hmax), htruncate]

end Relentless
