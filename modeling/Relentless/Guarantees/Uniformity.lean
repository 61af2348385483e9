import Mathlib.Algebra.Order.Floor.Div
import Mathlib.Tactic.Positivity
import Relentless.Wait.Draws

/-!
# Jitter Draws Are Uniform

How often a bounded draw gives each value, counted over all states of the generator,
and which durations a range can give.

- `ncard_nextBounded` — how many states give a value
- `probability` — the share of the states that give a duration
- `jitter_draws_uniform` — values are as likely as 64 bits allow, both ends included
-/

namespace Relentless

open SplitMix64

/-! ## §1 Counting states -/

theorem raw_new (s : UInt64) : (SplitMix64.new s).raw 0 = mix (s + gamma) := raw_zero _

/-- The first raw values of the generators are the words, in another order. -/
theorem mix_add_gamma_bijective : Function.Bijective fun s => mix (s + gamma) :=
  mix_bijective.comp (AddGroup.addRight_bijective gamma)

/-- A set of states is as large as the set of the first raw values it stands for. -/
theorem ncard_mix (p : UInt64 → Prop) :
    {s : UInt64 | p (mix (s + gamma))}.ncard = {x : UInt64 | p x}.ncard := by
  have himage : (fun s => mix (s + gamma)) '' {s | p (mix (s + gamma))} = {x | p x} :=
    Set.image_preimage_eq {x | p x} mix_add_gamma_bijective.surjective
  rw [← himage, Set.ncard_image_of_injective _ mix_add_gamma_bijective.injective]

/-- How many states give a remainder. -/
theorem ncard_mix_mod {r v : ℕ} (hv : v < r) :
    {s : UInt64 | (mix (s + gamma)).toNat % r = v}.ncard =
      2 ^ 64 / r + if v < 2 ^ 64 % r then 1 else 0 := by
  rw [ncard_mix fun x => x.toNat % r = v, UInt64.ncard_mod_eq hv]

/-- How many states give the value `v` of a bounded draw. -/
theorem ncard_nextBounded {max v : UInt64} (hv : v ≤ max) :
    {s : UInt64 | (nextBounded max (.new s)).1 = v}.ncard =
      2 ^ 64 / (max.toNat + 1) + if v.toNat < 2 ^ 64 % (max.toNat + 1) then 1 else 0 := by
  have hlt : v.toNat < max.toNat + 1 := Nat.lt_add_one_of_le (UInt64.le_iff_toNat_le.mp hv)
  rw [← ncard_mix_mod hlt]
  congr 1
  ext s
  have hdraw : (nextBounded max (.new s)).1 = reduce max (mix (s + gamma)) := by
    rw [nextBounded_eq, Eff.map_apply, nextU64_apply]
    rfl
  rw [Set.mem_ofPred_eq, Set.mem_ofPred_eq, hdraw, ← UInt64.toNat_inj, reduce_toNat]

/-- The quotient, or one more when the remainder is not zero, is its floor or its ceiling. -/
theorem floor_or_ceil {n r v c : ℕ} (hr : 0 < r)
    (hc : c = n / r + if v < n % r then 1 else 0) : c = n / r ∨ c = n ⌈/⌉ r := by
  split at hc
  case isFalse => exact .inl hc
  case isTrue h =>
    right
    rw [hc, Nat.ceilDiv_eq_add_pred_div]
    have hdiv := Nat.div_add_mod n r
    have hmod := Nat.mod_lt n hr
    symm
    apply Nat.div_eq_of_lt_le
    · rw [Nat.add_mul, Nat.mul_comm]
      omega
    · rw [Nat.add_mul, Nat.add_mul, Nat.mul_comm]
      omega

/-! ## §2 Durations -/

theorem randomDurationIn_nanos (lower upper : Duration) (s : UInt64) :
    (randomDurationIn lower upper (.new s)).1.nanos =
      lower.nanos + (mix (s + gamma)).toNat % (span lower upper + 1) := by
  rw [randomDurationIn_eq, Draw.run_fst, drawIn_eval_nanos, raw_new]

/-- How many states give the duration `d`. -/
theorem ncard_randomDurationIn {lower upper d : Duration} (hlower : lower.nanos ≤ d.nanos)
    (hupper : d.nanos ≤ lower.nanos + span lower upper) :
    {s : UInt64 | (randomDurationIn lower upper (.new s)).1 = d}.ncard =
      2 ^ 64 / (span lower upper + 1) +
        if d.nanos - lower.nanos < 2 ^ 64 % (span lower upper + 1) then 1 else 0 := by
  rw [← ncard_mix_mod (by omega : d.nanos - lower.nanos < span lower upper + 1)]
  congr 1
  ext s
  rw [Set.mem_ofPred_eq, Set.mem_ofPred_eq, Duration.ext_iff, randomDurationIn_nanos]
  omega

/-- Every duration that the range can give, and no other. -/
theorem exists_randomDurationIn_iff {lower upper d : Duration} :
    (∃ s, (randomDurationIn lower upper (.new s)).1 = d) ↔
      lower.nanos ≤ d.nanos ∧ d.nanos ≤ lower.nanos + span lower upper := by
  constructor
  · rintro ⟨s, rfl⟩
    rw [randomDurationIn_nanos]
    have hmod := Nat.mod_lt (mix (s + gamma)).toNat (Nat.add_one_pos (span lower upper))
    omega
  · rintro ⟨hlower, hupper⟩
    -- A duration that no state gave would be given by zero states.
    have hcount := ncard_randomDurationIn hlower hupper
    have hquotient : 0 < 2 ^ 64 / (span lower upper + 1) :=
      Nat.div_pos (by unfold span; omega) (Nat.succ_pos _)
    have hne := Set.nonempty_of_ncard_ne_zero (by omega :
      {s : UInt64 | (randomDurationIn lower upper (.new s)).1 = d}.ncard ≠ 0)
    exact hne

/-- The share of the generator's states from which the range gives `d`. -/
noncomputable def probability (lower upper d : Duration) : ℚ :=
  {s : UInt64 | (randomDurationIn lower upper (.new s)).1 = d}.ncard / 2 ^ 64

/-! ## §3 The guarantee -/

/-- **Uniform draws**: every value of a bounded draw comes from as many states as any
other, give or take one; a range gives every duration between its ends, and one wider
than `u64::MAX` nanoseconds gives those within `u64::MAX` nanoseconds of its lower end. -/
theorem jitter_draws_uniform :
    (∀ max v : UInt64, v ≤ max →
      {s : UInt64 | (nextBounded max (.new s)).1 = v}.ncard = 2 ^ 64 / (max.toNat + 1) ∨
      {s : UInt64 | (nextBounded max (.new s)).1 = v}.ncard = 2 ^ 64 ⌈/⌉ (max.toNat + 1)) ∧
    (∀ v : UInt64,
      {s : UInt64 | (nextBounded 0xffffffffffffffff (.new s)).1 = v}.ncard = 1) ∧
    (∀ max : UInt64, max ≠ 0xffffffffffffffff → (max + 1).toNat = max.toNat + 1) ∧
    (∀ lower upper : Duration, lower ≤ upper → upper.nanos - lower.nanos ≤ 2 ^ 64 - 1 →
      {d | ∃ s, (randomDurationIn lower upper (.new s)).1 = d} = Set.Icc lower upper ∧
      ∀ d ∈ Set.Icc lower upper, ∀ d' ∈ Set.Icc lower upper,
        |probability lower upper d - probability lower upper d'| ≤ 1 / 2 ^ 64) ∧
    (∀ lower upper : Duration, 2 ^ 64 - 1 < upper.nanos - lower.nanos →
      {d | ∃ s, (randomDurationIn lower upper (.new s)).1 = d} =
        {d | lower.nanos ≤ d.nanos ∧ d.nanos ≤ lower.nanos + (2 ^ 64 - 1)}) := by
  refine ⟨?_, ?_, fun max => toNat_add_one, ?_, ?_⟩
  · intro max v hv
    exact floor_or_ceil (Nat.succ_pos _) (ncard_nextBounded hv)
  · intro v
    rw [ncard_nextBounded (UInt64.le_iff_toNat_le.mpr (Nat.le_of_lt_succ v.toNat_lt))]
    simp
  · intro lower upper hle hwidth
    have hspan : lower.nanos + span lower upper = upper.nanos := by
      have hnanos := Duration.le_def.mp hle
      simp only [span]
      omega
    have hmem {d : Duration} (hd : d ∈ Set.Icc lower upper) :
        lower.nanos ≤ d.nanos ∧ d.nanos ≤ lower.nanos + span lower upper := by
      rw [hspan]
      exact hd
    constructor
    · ext d
      rw [Set.mem_ofPred_eq, exists_randomDurationIn_iff, hspan]
      rfl
    · intro d hd d' hd'
      -- The two counts differ by one state at most.
      unfold probability
      rw [ncard_randomDurationIn (hmem hd).1 (hmem hd).2,
        ncard_randomDurationIn (hmem hd').1 (hmem hd').2, ← sub_div, abs_div,
        abs_of_pos (by positivity : (0 : ℚ) < 2 ^ 64)]
      apply div_le_div_of_nonneg_right _ (by positivity)
      rw [abs_le]
      split <;> split <;> simp
  · intro lower upper hwide
    have hspan : span lower upper = 2 ^ 64 - 1 := by
      simp only [span]
      omega
    ext d
    rw [Set.mem_ofPred_eq, exists_randomDurationIn_iff, hspan]
    rfl

end Relentless
