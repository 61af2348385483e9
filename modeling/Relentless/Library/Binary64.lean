import Mathlib.Algebra.Order.Ring.Nat

/-!
# Truncation of Binary64 Numbers

Conversion of binary64 numbers to integers that drops the fraction and saturates, and
bounds on it that a comparison of the numbers gives.

- `Binary64.truncate` — the conversion to an integer between zero and a bound
- `Binary64.mantissa_lt` — a number that is stored has 53 bits
- `Binary64.truncate_lt` — what is below a number truncates to less than it
-/

namespace Binary64

open Float.Model Float.Model.UnpackedFloat

/-- The conversion to an unsigned integer of largest value `max`: towards zero,
saturating at both ends, and zero for what is not a number. -/
def truncate (max : ℕ) (x : Float) : ℕ :=
  min (x.toModel.unpack.toInt 0 max).toNat max

/-- The nearest number to a natural number, ties to even. -/
def ofNat (n : ℕ) : Float := .ofModel (.ofNat n)

theorem shiftRight_mantissa (em : ExtendedMantissa) (k : ℕ) :
    (em >>> k).mantissa = em.mantissa / 2 ^ k := by
  induction k with
  | zero => simp [HShiftRight.hShiftRight, Nat.repeat]
  | succ k ih =>
    have hstep : (em >>> (k + 1)).mantissa = (em >>> k).mantissa / 2 := rfl
    rw [hstep, ih, Nat.div_div_eq_div_mul, Nat.pow_succ]

theorem roundToInt_positive (m : ℕ) (e : ℤ) :
    roundToInt .positive m e = (m * 2 ^ e.toNat / 2 ^ (-e).toNat : ℕ) := by
  have hshift : (0 - (e - e.toNat)).toNat = (-e).toNat := by omega
  simp only [roundToInt, decreaseExponent, shiftToExponent, Sign.apply, shiftRight_mantissa,
    hshift, Nat.shiftLeft_eq, Int.sub_zero, ExtendedMantissa.ofMantissaAndAccuracy]

theorem roundToInt_negative (m : ℕ) (e : ℤ) : roundToInt .negative m e ≤ 0 := by
  simp only [roundToInt, Sign.apply]
  omega

/-- The mantissa of a number; infinities and what is not a number have none. -/
def mantissa : UnpackedFloat → ℕ
  | .finite _ m _ _ => m
  | _ => 0

theorem mantissa_unpack_lt (x : Float.Model) : mantissa x.unpack < 2 ^ 53 := by
  have hsmall (k : ℕ) (hk : k ≤ 53) (v : BitVec k) : v.toNat < 2 ^ 53 :=
    lt_of_lt_of_le v.isLt (Nat.pow_le_pow_right (by decide) hk)
  have hnone : 0 < 2 ^ 53 := Nat.two_pow_pos 53
  unfold Float.Model.unpack UnpackedFloat.unpack
  dsimp only
  -- The exponent field decides: all ones, all zeros, or anything between.
  apply iteInduction (motive := fun y => mantissa y < 2 ^ 53)
  · intro _
    -- Infinities, and what is not a number.
    apply iteInduction (motive := fun y => mantissa y < 2 ^ 53)
    · exact fun _ => hnone
    · exact fun _ => hnone
  · intro _
    apply iteInduction (motive := fun y => mantissa y < 2 ^ 53)
    · -- A subnormal number stores the mantissa as it is.
      intro _
      by_cases hzero : @unpackMantissa Format.binary64 x.toBits.toBitVec = 0#52
      · rw [dif_pos hzero]
        exact hnone
      · rw [dif_neg hzero]
        exact hsmall 52 (by decide) _
    · -- A normal number stores all but the leading bit.
      intro _
      exact hsmall 53 (by decide) _

/-- A stored number has at most 53 bits. -/
theorem mantissa_lt {x : Float.Model} {s : Sign} {m : ℕ} {e : ℤ} {hm : 0 < m}
    (h : x.unpack = .finite s m e hm) : m < 2 ^ 53 := by
  have hlt := mantissa_unpack_lt x
  rwa [h] at hlt

/-- **A number not at least a threshold** truncates below it, when the threshold is a
positive integer with all 53 bits in use. -/
theorem truncate_lt {x y : Float} {m e : ℕ} {hm : 0 < m}
    (hy : y.toModel.unpack = .finite .positive m e hm) (hm53 : 2 ^ 52 ≤ m) (he : 0 < e)
    (hxy : ¬y ≤ x) (max : ℕ) : truncate max x < m * 2 ^ e := by
  have hlt : ¬y.toModel.unpack.le x.toModel.unpack = true :=
    fun h => hxy (decide_eq_true (p := y.toModel ≤ x.toModel) h)
  rw [hy, UnpackedFloat.le] at hlt
  have hpos : 0 < m * 2 ^ e := Nat.mul_pos hm (Nat.two_pow_pos e)
  apply lt_of_le_of_lt (Nat.min_le_left _ _)
  -- What is not positive truncates to zero; positive infinity is not below anything.
  cases hx : x.toModel.unpack with
  | notANumber => exact hpos
  | zero s => exact hpos
  | infinity s =>
    cases s with
    | negative => exact hpos
    | positive =>
      rw [hx] at hlt
      exact absurd rfl hlt
  | finite s n f hn =>
    cases s with
    | negative =>
      have hneg := roundToInt_negative n f
      show (roundToInt .negative n f).toNat < m * 2 ^ e
      omega
    | positive =>
      have hn53 := mantissa_lt hx
      rw [hx] at hlt
      have hle : n * 2 ^ f.toNat / 2 ^ (-f).toNat ≤ n * 2 ^ f.toNat := Nat.div_le_self _ _
      show (roundToInt .positive n f).toNat < m * 2 ^ e
      rw [roundToInt_positive, Int.toNat_natCast]
      apply lt_of_le_of_lt hle
      -- Either the exponent is smaller, or it is the same and the mantissa is smaller.
      rcases Int.lt_trichotomy f e with hfe | rfl | hfe
      · obtain ⟨e, rfl⟩ : ∃ k, e = k + 1 := ⟨e - 1, by omega⟩
        have hfe' : f.toNat ≤ e := by omega
        calc n * 2 ^ f.toNat
            ≤ n * 2 ^ e := Nat.mul_le_mul_left _ (Nat.pow_le_pow_right (by decide) hfe')
          _ < 2 ^ 53 * 2 ^ e := Nat.mul_lt_mul_of_pos_right hn53 (Nat.two_pow_pos e)
          _ = 2 ^ 52 * 2 ^ (e + 1) := by
              rw [← Nat.pow_add, ← Nat.pow_add, Nat.add_comm e 1, ← Nat.add_assoc]
          _ ≤ m * 2 ^ (e + 1) := Nat.mul_le_mul_right _ hm53
      · -- With one exponent, a mantissa that is not smaller contradicts `hxy`.
        have hnm : n < m := by
          by_contra hge
          apply hlt
          have hcompare : (compare m n).isLE = true := by
            rw [Nat.isLE_compare]
            omega
          show ((compare (e : ℤ) e).then (compare m n)).isLE = true
          rwa [Int.compare_eq_eq.mpr rfl, Ordering.then]
        rw [Int.toNat_natCast]
        exact Nat.mul_lt_mul_of_pos_right hnm (Nat.two_pow_pos e)
      · -- With a larger exponent `x` would be at least `y`.
        exfalso
        apply hlt
        have hcompare : compare (e : ℤ) f = .lt := Int.compare_eq_lt.mpr hfe
        show ((compare (e : ℤ) f).then (compare m n)).isLE = true
        rw [hcompare]
        rfl

end Binary64
