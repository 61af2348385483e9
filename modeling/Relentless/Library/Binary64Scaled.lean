import Relentless.Library.Binary64

/-!
# Scaled Integers in Binary64

Binary64 numbers from one upwards as a mantissa of 53 bits times a power of two, with
infinity for what is too large.  On these, products by a power of two are exact, and so are
integers below `2 ^ 53` and comparisons.

- `Binary64.IsScaled` — a number is a mantissa times a power of two, or infinity
- `IsScaled.mul` — a product by a power of two only moves the exponent
- `IsScaled.le_iff` — numbers compare as the integers they scale
- `isScaled_ofNat` — an integer of at most 53 bits converts exactly
-/

namespace Binary64

open Float.Model Float.Model.UnpackedFloat

/-! ## §1 Packing -/

theorem finite_congr {s t : Sign} {m n : ℕ} {e f : ℤ} {hm : 0 < m} {hn : 0 < n} (hst : s = t)
    (hmn : m = n) (hef : e = f) :
    UnpackedFloat.finite s m e hm = .finite t n f hn := by
  subst hst hmn hef
  rfl

theorem log2_of_mantissa {m : ℕ} (hlow : 2 ^ 52 ≤ m) (hhigh : m < 2 ^ 53) : m.log2 = 52 := by
  have hm : m ≠ 0 := by omega
  exact (Nat.log2_eq_iff hm).mpr ⟨hlow, hhigh⟩

theorem topBit_append (s : BitVec 1) (exponent : BitVec 11) (mantissa : BitVec 52) :
    (s ++ exponent ++ mantissa).extractLsb 63 63 = s := by
  unfold BitVec.extractLsb
  rw [BitVec.extractLsb'_append_eq_of_le (by decide),
    BitVec.extractLsb'_append_eq_of_le (by decide)]
  exact BitVec.extractLsb'_eq_self

theorem ofBitVec_unpackSign (exponent : BitVec 11) (mantissa : BitVec 52) :
    Sign.ofBitVec (unpackSign (packComponents Format.binary64 .positive exponent mantissa)) =
      .positive := by
  have htop : unpackSign (packComponents Format.binary64 .positive exponent mantissa) =
      Sign.positive.toBitVec := topBit_append _ exponent mantissa
  rw [htop]
  rfl

theorem toNat_leadingBit (mantissa : BitVec 52) :
    (1#1 ++ mantissa).toNat = 2 ^ 52 + mantissa.toNat := by
  rw [BitVec.toNat_append, ← Nat.shiftLeft_add_eq_or_of_lt mantissa.isLt]
  rfl

/-- With an exponent field that is neither all zeros nor all ones a number is normal. -/
theorem unpack_of_fields {b : BitVec Format.binary64.numBits}
    (hones : unpackExponent b ≠ -1#11) (hzeros : unpackExponent b ≠ 0#11)
    (hpos : 0 < (1#1 ++ unpackMantissa b).toNat) :
    UnpackedFloat.unpack Format.binary64 b =
      .finite (Sign.ofBitVec (unpackSign b)) (1#1 ++ unpackMantissa b).toNat
        (((unpackExponent b).toNat : ℤ) - 1075) hpos :=
  (if_neg hones).trans (if_neg hzeros)

/-- A normal number is stored without the leading bit of its mantissa. -/
theorem unpack_normal {m biased : ℕ} (hlow : 2 ^ 52 ≤ m) (hhigh : m < 2 ^ 53)
    (hpos : 0 < biased) (hfits : biased < 2047) (hm : 0 < m) :
    UnpackedFloat.unpack Format.binary64
        (packComponents Format.binary64 .positive (.ofNat 11 biased) (.ofNat 52 m)) =
      .finite .positive m ((biased : ℤ) - 1075) hm := by
  have hexponent : (BitVec.ofNat 11 biased).toNat = biased := Nat.mod_eq_of_lt (by omega)
  have hmantissa : (1#1 ++ BitVec.ofNat 52 m).toNat = m := by
    rw [toNat_leadingBit, BitVec.toNat_ofNat]
    omega
  -- All zeros and all ones in the exponent field mean something else.
  have hzeros : BitVec.ofNat 11 biased ≠ 0#11 := by
    intro h
    rw [h] at hexponent
    exact absurd hexponent hpos.ne
  have hones : BitVec.ofNat 11 biased ≠ -1#11 := by
    intro h
    rw [h] at hexponent
    exact absurd hexponent hfits.ne'
  have hunpack := unpack_of_fields (b := packComponents Format.binary64 .positive
    (.ofNat 11 biased) (.ofNat 52 m))
  rw [unpackMantissa_packComponents, unpackExponent_packComponents] at hunpack
  rw [hunpack hones hzeros (by omega)]
  exact finite_congr (ofBitVec_unpackSign _ _) hmantissa
    (congrArg (fun b : ℕ => (b : ℤ) - 1075) hexponent)

/-- What is read back of a mantissa of 53 bits is the number, or infinity. -/
theorem unpack_pack {m : ℕ} {e : ℤ} (hlow : 2 ^ 52 ≤ m) (hhigh : m < 2 ^ 53)
    (he : -1074 ≤ e) (hm : 0 < m) :
    (Float.Model.pack (.finite .positive m e hm)).unpack =
      if e ≤ 971 then .finite .positive m e hm else .infinity .positive := by
  obtain ⟨biased, hbiased⟩ : ∃ biased : ℕ, (biased : ℤ) = e + 1023 + 52 :=
    ⟨(e + 1023 + 52).toNat, Int.toNat_of_nonneg (by omega)⟩
  have htoNat : (e + (Format.binary64.exponentBias : ℤ) + (52 : ℕ)).toNat = biased :=
    congrArg Int.toNat hbiased.symm
  have hlog : m.log2 + 1 = Format.binary64.mantissaBits :=
    congrArg (· + 1) (log2_of_mantissa hlow hhigh)
  have hpack : UnpackedFloat.pack Format.binary64 (.finite .positive m e hm) =
      if 2 ^ 11 ≤ biased + 1 then packedInfinity Format.binary64 .positive
      else packComponents Format.binary64 .positive (.ofNat 11 biased) (.ofNat 52 m) := by
    unfold UnpackedFloat.pack
    dsimp only
    rw [htoNat, if_pos hlog]
  show UnpackedFloat.unpack Format.binary64
    (UnpackedFloat.pack Format.binary64 (.finite .positive m e hm)) = _
  rw [hpack]
  by_cases hfits : e ≤ 971
  · rw [if_pos hfits, if_neg (by omega), unpack_normal hlow hhigh (by omega) (by omega) hm]
    exact finite_congr rfl rfl (by omega)
  · rw [if_neg hfits, if_pos (by omega)]
    rfl

theorem unpack_pack_infinity :
    (Float.Model.pack (.infinity .positive)).unpack = .infinity .positive := rfl

/-! ## §2 Rounding -/

theorem shiftRight_exact (m k : ℕ) :
    (⟨m * 2 ^ k, false, false⟩ : ExtendedMantissa) >>> k = ⟨m, false, false⟩ := by
  induction k generalizing m with
  | zero => simp [HShiftRight.hShiftRight, Nat.repeat]
  | succ k ih =>
    have hstep (em : ExtendedMantissa) : em >>> (k + 1) = (em >>> k).shiftRightOne := rfl
    have hsplit : m * 2 ^ (k + 1) = m * 2 * 2 ^ k := by rw [Nat.pow_succ', ← Nat.mul_assoc]
    rw [hstep, hsplit, ih (m * 2)]
    -- The last bit to go is a zero.
    simp [ExtendedMantissa.shiftRightOne]

/-- A mantissa with trailing zeros loses only these. -/
theorem shiftToTargetExponent_exact {m k : ℕ} {e : ℤ} (hlow : 2 ^ 52 ≤ m) (hhigh : m < 2 ^ 53)
    (he : -1074 ≤ e + k) :
    shiftToTargetExponent Format.binary64 (m * 2 ^ k) e .exact =
      (⟨m, false, false⟩, e + k) := by
  have hne : m * 2 ^ k ≠ 0 := Nat.mul_ne_zero (by omega) (Nat.two_pow_pos k).ne'
  have hlog : (m * 2 ^ k).log2 = 52 + k := by
    rw [Nat.log2_eq_iff hne, Nat.pow_add, Nat.add_right_comm, Nat.pow_add]
    exact ⟨Nat.mul_le_mul_right _ hlow, Nat.mul_lt_mul_of_pos_right hhigh (Nat.two_pow_pos k)⟩
  have htarget : Format.binary64.targetExponent (totalExponent (m * 2 ^ k) e) = e + k := by
    unfold Format.targetExponent totalExponent
    rw [hlog]
    show max ((52 + k : ℕ) + 1 + e - 53) (-1074) = e + k
    omega
  have hamount : (e + k - e).toNat = k := by omega
  unfold shiftToTargetExponent shiftToExponent ExtendedMantissa.ofMantissaAndAccuracy
  simp only [htarget, hamount, shiftRight_exact]

/-- **Nothing is rounded** in a mantissa that fits but for trailing zeros. -/
theorem roundWithAccuracy_exact {m k : ℕ} {e : ℤ} (hlow : 2 ^ 52 ≤ m) (hhigh : m < 2 ^ 53)
    (he : -1074 ≤ e + k) (hm : 0 < m) :
    roundWithAccuracy Format.binary64 .positive (m * 2 ^ k) e .exact =
      .finite .positive m (e + k) hm := by
  have hagain : shiftToTargetExponent Format.binary64 m (e + k) .exact =
      (⟨m, false, false⟩, e + k) := by
    have hshift := shiftToTargetExponent_exact (k := 0) (e := e + k) hlow hhigh (by omega)
    rwa [Nat.pow_zero, Nat.mul_one, Int.natCast_zero, Int.add_zero] at hshift
  unfold roundWithAccuracy
  rw [shiftToTargetExponent_exact hlow hhigh he]
  -- The second shift, after rounding, finds nothing to do.
  show (if h : (shiftToTargetExponent Format.binary64 m (e + k) .exact).1.mantissa = 0 then
      UnpackedFloat.zero .positive
    else .finite .positive (shiftToTargetExponent Format.binary64 m (e + k) .exact).1.mantissa
      (shiftToTargetExponent Format.binary64 m (e + k) .exact).2 (Nat.pos_of_ne_zero h)) = _
  rw [hagain]
  exact dif_neg hm.ne'

/-! ## §3 Scaled integers -/

theorem isFinite_eq (x : Float) : x.isFinite = !(x.isNaN || x.isInf) := by
  show x.toModel.unpack.isFinite = !(x.toModel.unpack.isNaN || x.toModel.unpack.isInf)
  cases x.toModel.unpack <;> rfl

/-- A number is `m * 2 ^ k / 2 ^ 52`, with a mantissa `m` of 53 bits, or it is infinity
when that is too large. -/
structure IsScaled (x : Float) (m k : ℕ) : Prop where
  low : 2 ^ 52 ≤ m
  high : m < 2 ^ 53
  unpacked : x.toModel.unpack =
    if k ≤ 1023 then
      .finite .positive m ((k : ℤ) - 52) (Nat.lt_of_lt_of_le (Nat.two_pow_pos 52) low)
    else .infinity .positive

namespace IsScaled

variable {x y : Float} {m n k l : ℕ}

theorem pos (h : IsScaled x m k) : 0 < m := Nat.lt_of_lt_of_le (Nat.two_pow_pos 52) h.low

theorem finite (h : IsScaled x m k) (hfits : k ≤ 1023) :
    x.toModel.unpack = .finite .positive m ((k : ℤ) - 52) h.pos :=
  h.unpacked.trans (if_pos hfits)

theorem infinite (h : IsScaled x m k) (hlarge : ¬k ≤ 1023) :
    x.toModel.unpack = .infinity .positive :=
  h.unpacked.trans (if_neg hlarge)

theorem of_infinite (hlow : 2 ^ 52 ≤ m) (hhigh : m < 2 ^ 53) (hlarge : ¬k ≤ 1023)
    (h : x.toModel.unpack = .infinity .positive) : IsScaled x m k :=
  ⟨hlow, hhigh, h.trans (if_neg hlarge).symm⟩

theorem isFinite_iff (h : IsScaled x m k) : x.isFinite = true ↔ k ≤ 1023 := by
  show x.toModel.unpack.isFinite = true ↔ k ≤ 1023
  by_cases hfits : k ≤ 1023
  · rw [h.finite hfits]
    exact iff_of_true rfl hfits
  · rw [h.infinite hfits]
    exact iff_of_false Bool.false_ne_true hfits

/-- Packing a scaled integer keeps it, up to infinity. -/
theorem of_pack (hlow : 2 ^ 52 ≤ m) (hhigh : m < 2 ^ 53) (hm : 0 < m) :
    IsScaled (.ofModel (.pack (.finite .positive m ((k : ℤ) - 52) hm))) m k where
  low := hlow
  high := hhigh
  unpacked := by
    have hbounds : (k : ℤ) - 52 ≤ 971 ↔ k ≤ 1023 := by omega
    exact (unpack_pack hlow hhigh (by omega) hm).trans (if_congr hbounds rfl rfl)

/-- **A product by a power of two** only moves the exponent. -/
theorem mul (hx : IsScaled x m k) (hy : IsScaled y (2 ^ 52) l) :
    IsScaled (x * y) m (k + l) := by
  have hmul : (x * y).toModel =
      .pack (UnpackedFloat.mul Format.binary64 x.toModel.unpack y.toModel.unpack) := rfl
  by_cases hk : k ≤ 1023
  · by_cases hl : l ≤ 1023
    · -- Both are finite, and the trailing zeros of the product are dropped.
      have hexponent : (k : ℤ) - 52 + ((l : ℤ) - 52) + (52 : ℕ) = ((k + l : ℕ) : ℤ) - 52 := by
        omega
      have hround := roundWithAccuracy_exact (e := (k : ℤ) - 52 + ((l : ℤ) - 52)) (k := 52)
        hx.low hx.high (by omega) hx.pos
      have hproduct : (x * y).toModel =
          .pack (.finite .positive m (((k + l : ℕ) : ℤ) - 52) hx.pos) := by
        rw [hmul, hx.finite hk, hy.finite hl]
        show Float.Model.pack (roundWithAccuracy _ .positive (m * 2 ^ 52) _ .exact) = _
        rw [hround]
        exact congrArg Float.Model.pack (finite_congr rfl rfl hexponent)
      have hpack := of_pack (k := k + l) hx.low hx.high hx.pos
      exact ⟨hx.low, hx.high, (congrArg Float.Model.unpack hproduct).trans hpack.unpacked⟩
    · apply of_infinite hx.low hx.high (by omega)
      rw [hmul, hx.finite hk, hy.infinite hl]
      exact unpack_pack_infinity
  · apply of_infinite hx.low hx.high (by omega)
    rw [hmul, hx.infinite hk]
    by_cases hl : l ≤ 1023
    · rw [hy.finite hl]
      exact unpack_pack_infinity
    · rw [hy.infinite hl]
      exact unpack_pack_infinity

/-- **Numbers compare** as the integers they scale. -/
theorem le_iff (hx : IsScaled x m k) (hy : IsScaled y n l) (hfits : k ≤ 1023) :
    x ≤ y ↔ m * 2 ^ k ≤ n * 2 ^ l := by
  have hle : x ≤ y ↔ x.toModel.unpack.le y.toModel.unpack = true :=
    decide_eq_true_iff (p := x.toModel ≤ y.toModel)
  -- A smaller exponent is a smaller number, whatever the mantissas are.
  have hscale {a b i j : ℕ} (ha : a < 2 ^ 53) (hb : 2 ^ 52 ≤ b) (hij : i < j) :
      a * 2 ^ i < b * 2 ^ j := by
    obtain ⟨d, rfl⟩ : ∃ d, j = i + 1 + d := ⟨j - (i + 1), by omega⟩
    calc a * 2 ^ i
        < 2 ^ 53 * 2 ^ i := Nat.mul_lt_mul_of_pos_right ha (Nat.two_pow_pos i)
      _ = 2 ^ 52 * 2 ^ (i + 1) := by rw [← Nat.pow_add, ← Nat.pow_add]; congr 1; omega
      _ ≤ b * 2 ^ (i + 1) := Nat.mul_le_mul_right _ hb
      _ ≤ b * 2 ^ (i + 1 + d) :=
        Nat.mul_le_mul_left _ (Nat.pow_le_pow_right (by decide) (Nat.le_add_right _ d))
  rw [hle, hx.finite hfits]
  by_cases hl : l ≤ 1023
  · rw [hy.finite hl]
    show ((compare ((k : ℤ) - 52) ((l : ℤ) - 52)).then (compare m n)).isLE = true ↔ _
    rcases Nat.lt_trichotomy k l with hkl | rfl | hkl
    · rw [Int.compare_eq_lt.mpr (by omega)]
      exact iff_of_true rfl (hscale hx.high hy.low hkl).le
    · -- With one exponent the mantissas decide.
      rw [Int.compare_eq_eq.mpr rfl, Ordering.then, Nat.isLE_compare]
      exact (Nat.mul_le_mul_right_iff (Nat.two_pow_pos k)).symm
    · rw [Int.compare_eq_gt.mpr (by omega)]
      exact iff_of_false Bool.false_ne_true (hscale hy.high hx.low hkl).not_ge
  · rw [hy.infinite hl]
    exact iff_of_true rfl (hscale hx.high hy.low (by omega)).le

/-- A finite number truncates to the whole part of what it stands for. -/
theorem truncate_eq (h : IsScaled x m k) (hfits : k ≤ 1023) (max : ℕ) :
    truncate max x = min (m * 2 ^ k / 2 ^ 52) max := by
  have hint : (x.toModel.unpack.toInt 0 max).toNat = m * 2 ^ k / 2 ^ 52 := by
    rw [h.finite hfits]
    show (roundToInt .positive m ((k : ℤ) - 52)).toNat = m * 2 ^ k / 2 ^ 52
    rw [roundToInt_positive, Int.toNat_natCast]
    rcases Nat.le_total 52 k with hk | hk
    · -- A whole number: there is nothing to cut off.
      obtain ⟨j, rfl⟩ : ∃ j, k = j + 52 := ⟨k - 52, by omega⟩
      have hup : (((j + 52 : ℕ) : ℤ) - 52).toNat = j := by omega
      have hdown : (-(((j + 52 : ℕ) : ℤ) - 52)).toNat = 0 := by omega
      rw [hup, hdown, Nat.pow_zero, Nat.div_one, Nat.pow_add, ← Nat.mul_assoc,
        Nat.mul_div_cancel _ (Nat.two_pow_pos 52)]
    · obtain ⟨j, hj⟩ : ∃ j, 52 = k + j := ⟨52 - k, by omega⟩
      have hup : ((k : ℤ) - 52).toNat = 0 := by omega
      have hdown : (-((k : ℤ) - 52)).toNat = j := by omega
      rw [hup, hdown, Nat.pow_zero, Nat.mul_one, hj, Nat.pow_add, Nat.mul_comm m,
        Nat.mul_div_mul_left _ _ (Nat.two_pow_pos k)]
  rw [truncate, hint]

end IsScaled

/-- **An integer below `2 ^ 53`** converts exactly. -/
theorem isScaled_ofNat {n : ℕ} (hpos : 0 < n) (hn : n < 2 ^ 53) :
    IsScaled (ofNat n) (n * 2 ^ (52 - n.log2)) n.log2 := by
  have hlog : n.log2 ≤ 52 := Nat.lt_succ_iff.mp ((Nat.log2_lt hpos.ne').mpr hn)
  have hself := (Nat.log2_eq_iff hpos.ne').mp (rfl : n.log2 = n.log2)
  have hsum : n.log2 + (52 - n.log2) = 52 := by omega
  have hlow : 2 ^ 52 ≤ n * 2 ^ (52 - n.log2) := by
    calc 2 ^ 52
        = 2 ^ n.log2 * 2 ^ (52 - n.log2) := by rw [← Nat.pow_add, hsum]
      _ ≤ n * 2 ^ (52 - n.log2) := Nat.mul_le_mul_right _ hself.1
  have hhigh : n * 2 ^ (52 - n.log2) < 2 ^ 53 := by
    calc n * 2 ^ (52 - n.log2)
        < 2 ^ (n.log2 + 1) * 2 ^ (52 - n.log2) :=
          Nat.mul_lt_mul_of_pos_right hself.2 (Nat.two_pow_pos _)
      _ = 2 ^ 53 := by rw [← Nat.pow_add]; congr 1; omega
  have hm : 0 < n * 2 ^ (52 - n.log2) := Nat.lt_of_lt_of_le (Nat.two_pow_pos 52) hlow
  -- The mantissa is shifted up until it has 53 bits, and then it is exact.
  have hround : UnpackedFloat.ofNat Format.binary64 n =
      .finite .positive (n * 2 ^ (52 - n.log2)) ((n.log2 : ℤ) - 52) hm := by
    have htarget : Format.binary64.targetExponent (totalExponent n 0) = (n.log2 : ℤ) - 52 := by
      unfold Format.targetExponent totalExponent
      show max ((n.log2 : ℤ) + 1 + 0 - 53) (-1074) = n.log2 - 52
      omega
    have hshift : (0 - ((n.log2 : ℤ) - 52)).toNat = 52 - n.log2 := by omega
    have hexponent : (0 : ℤ) - (52 - n.log2 : ℕ) = n.log2 - 52 := by omega
    have hexact := roundWithAccuracy_exact (k := 0) (e := (n.log2 : ℤ) - 52) hlow hhigh
      (by omega) hm
    rw [Nat.pow_zero, Nat.mul_one, Int.natCast_zero, Int.add_zero] at hexact
    have hdecrease : decreaseExponent n 0 ((n.log2 : ℤ) - 52) =
        (n * 2 ^ (52 - n.log2), (n.log2 : ℤ) - 52) := by
      simp only [decreaseExponent, hshift, hexponent, Nat.shiftLeft_eq]
    unfold UnpackedFloat.ofNat UnpackedFloat.ofInt UnpackedFloat.normalize
    rw [Int.compare_eq_gt.mpr (by omega)]
    show roundWithAccuracy Format.binary64 .positive
      (decreaseExponent n 0 (Format.binary64.targetExponent (totalExponent n 0))).1
      (decreaseExponent n 0 (Format.binary64.targetExponent (totalExponent n 0))).2 .exact = _
    rw [htarget, hdecrease]
    exact hexact
  have hmodel : (ofNat n).toModel =
      .pack (.finite .positive (n * 2 ^ (52 - n.log2)) ((n.log2 : ℤ) - 52) hm) :=
    congrArg Float.Model.pack hround
  exact ⟨hlow, hhigh,
    (congrArg Float.Model.unpack hmodel).trans (IsScaled.of_pack hlow hhigh hm).unpacked⟩

end Binary64
