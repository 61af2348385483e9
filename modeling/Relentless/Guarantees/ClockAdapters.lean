import Mathlib.Data.Rat.Floor
import Mathlib.Tactic.FieldSimp
import Mathlib.Tactic.NormNum
import Relentless.Clock.Adapters
import Relentless.Library.Rounding

/-!
# Waits Through Tick-Based Clocks

When the timer that an adapter asks for lasts as long as the wait that the engine asked
for.  Both conversions drop what is below the unit they read the duration in, so a wait
is shortened when the dropped part is not made up for by rounding up.

- `EmbassyHonours`, `GlooHonours` — the adapter keeps the contract of `Clock` on a wait
- `RoundsOver`, `RoundsUp`, `WholeMillis` — the durations that survive the conversions
- `clock_adapters_honour_iff` — the contract is kept on exactly these
-/

namespace Relentless

/-! ## §1 Keeping the contract -/

/-- `EmbassyClock` waits for `d`: it asks for its largest timer, or for one that lasts at
least `d`, after which `now` has advanced by at least `d`; and it does not skip the wait. -/
def EmbassyHonours (tickHz : UInt64) (asMicros : UInt64 → ℕ) (d : Duration) : Prop :=
  ∃ t, toEmbassyDuration tickHz d = some t ∧
    (t = u64Max ∨ (d.nanos : ℚ) / 10 ^ 9 ≤ t.toNat / tickHz.toNat) ∧
    (t ≠ u64Max → ∀ start stop : UInt64, start.toNat + t.toNat ≤ stop.toNat →
      d ≤ (embassyNow asMicros stop).saturatingSub (embassyNow asMicros start)) ∧
    (d ≠ .zero → t ≠ 0)

/-- `GlooClock` waits for `d`: the same, when its clock sees the timer's time pass. -/
def GlooHonours (d : Duration) : Prop :=
  ∃ m, glooMillis d = some m ∧
    (m.toNat = i32Max ∨ d.nanos ≤ m.toNat * 10 ^ 6) ∧
    (m.toNat ≠ i32Max → ∀ start stop : Duration,
      start.nanos + m.toNat * 10 ^ 6 ≤ stop.nanos → d ≤ stop.saturatingSub start) ∧
    (d ≠ .zero → m ≠ 0)

/-- The timer alone: `EmbassyClock` asks for its largest timer, or for one of at least `d`. -/
def TimerCovers (tickHz : UInt64) (d : Duration) : Prop :=
  ∃ t, toEmbassyDuration tickHz d = some t ∧
    (t = u64Max ∨ (d.nanos : ℚ) / 10 ^ 9 ≤ t.toNat / tickHz.toNat)

/-- The whole microseconds of a duration, in millionths of a tick. -/
def microTicks (tickHz : UInt64) (d : Duration) : ℕ := d.asMicros * tickHz.toNat

/-- The ticks are at their ceiling. -/
def AtCeiling (tickHz : UInt64) (d : Duration) : Prop :=
  (2 ^ 64 - 2) * 10 ^ 6 < microTicks tickHz d

/-- Rounding up to a tick adds at least what is dropped below a microsecond. -/
def RoundsOver (tickHz : UInt64) (d : Duration) : Prop :=
  d.nanos % 1000 * tickHz.toNat ≤ 1000 * Rounding.slack (10 ^ 6) (microTicks tickHz d) ∨
    AtCeiling tickHz d

/-- Nothing is dropped below a microsecond, or rounding up to a tick adds at least a
microsecond. -/
def RoundsUp (tickHz : UInt64) (d : Duration) : Prop :=
  d.nanos % 1000 = 0 ∨ tickHz.toNat ≤ Rounding.slack (10 ^ 6) (microTicks tickHz d) ∨
    AtCeiling tickHz d

/-- The duration is a whole number of milliseconds, or at the ceiling of `setTimeout`. -/
def WholeMillis (d : Duration) : Prop := d.nanos % 10 ^ 6 = 0 ∨ i32Max * 10 ^ 6 ≤ d.nanos

/-! ## §2 Ticks -/

/-- The microseconds of a duration, rounded up. -/
def ceilMicros (d : Duration) : ℕ := d.nanos ⌈/⌉ 1000

theorem ceilMicros_le_iff (d : Duration) (n : ℕ) : ceilMicros d ≤ n ↔ d.nanos ≤ 1000 * n :=
  ceilDiv_le_iff_le_mul (by decide)

theorem atCeiling_iff (tickHz : UInt64) (d : Duration) :
    AtCeiling tickHz d ↔ ceilTicks tickHz d = 2 ^ 64 - 1 := by
  rw [AtCeiling, ← Rounding.le_ceilDiv_iff (by decide), ceilTicks, min_eq_right_iff, microTicks]
  norm_num

/-- Below the ceiling the ticks are the microseconds and what rounding up adds. -/
theorem ceilTicks_mul {tickHz : UInt64} {d : Duration} (hmax : ¬AtCeiling tickHz d) :
    ceilTicks tickHz d * 10 ^ 6 =
      microTicks tickHz d + Rounding.slack (10 ^ 6) (microTicks tickHz d) := by
  rw [atCeiling_iff] at hmax
  have hbelow : ceilTicks tickHz d = microTicks tickHz d ⌈/⌉ 10 ^ 6 :=
    (min_choice _ _).resolve_right hmax
  rw [hbelow, Rounding.ceilDiv_mul (by decide)]

/-- The ticks cover the duration. -/
theorem roundsOver_iff (tickHz : UInt64) (d : Duration) :
    RoundsOver tickHz d ↔
      AtCeiling tickHz d ∨ d.nanos * tickHz.toNat ≤ ceilTicks tickHz d * 10 ^ 9 := by
  by_cases hmax : AtCeiling tickHz d
  · exact iff_of_true (.inr hmax) (.inl hmax)
  · have hticks := ceilTicks_mul hmax
    have hsplit : d.nanos * tickHz.toNat =
        1000 * microTicks tickHz d + d.nanos % 1000 * tickHz.toNat := by
      have hnanos : d.nanos = 1000 * d.asMicros + d.nanos % 1000 := (Nat.div_add_mod _ _).symm
      calc d.nanos * tickHz.toNat
          = (1000 * d.asMicros + d.nanos % 1000) * tickHz.toNat := by rw [← hnanos]
        _ = 1000 * microTicks tickHz d + d.nanos % 1000 * tickHz.toNat := by
            rw [Nat.add_mul, Nat.mul_assoc, microTicks]
    simp only [RoundsOver, hmax, or_false, false_or, hsplit]
    omega

/-- The ticks cover the duration rounded up to microseconds. -/
theorem roundsUp_iff (tickHz : UInt64) (d : Duration) :
    RoundsUp tickHz d ↔
      AtCeiling tickHz d ∨ ceilMicros d * tickHz.toNat ≤ ceilTicks tickHz d * 10 ^ 6 := by
  by_cases hmax : AtCeiling tickHz d
  · exact iff_of_true (.inr (.inr hmax)) (.inl hmax)
  · rw [ceilTicks_mul hmax]
    simp only [RoundsUp, hmax, or_false, false_or]
    by_cases hrem : d.nanos % 1000 = 0
    · have hmicros : ceilMicros d = d.asMicros := by
        simp only [ceilMicros, Duration.asMicros, Nat.ceilDiv_eq_add_pred_div]
        omega
      rw [hmicros]
      exact iff_of_true (.inl hrem) (Nat.le_add_right _ _)
    · have hmicros : ceilMicros d = d.asMicros + 1 := by
        simp only [ceilMicros, Duration.asMicros, Nat.ceilDiv_eq_add_pred_div]
        omega
      rw [hmicros, Nat.add_mul, Nat.one_mul, microTicks, Nat.add_le_add_iff_left]
      simp only [hrem, false_or]

/-- A count of ticks below the ceiling comes out of the conversion unchanged. -/
theorem ofNat_ceilTicks_toNat (tickHz : UInt64) (d : Duration) :
    (UInt64.ofNat (ceilTicks tickHz d)).toNat = ceilTicks tickHz d :=
  UInt64.toNat_ofNat_of_lt' (ceilTicks_lt tickHz d)

theorem ofNat_ceilTicks_eq_u64Max_iff (tickHz : UInt64) (d : Duration) :
    UInt64.ofNat (ceilTicks tickHz d) = u64Max ↔ AtCeiling tickHz d := by
  rw [← UInt64.toNat_inj, ofNat_ceilTicks_toNat, atCeiling_iff]
  rfl

theorem timerCovers_iff {tickHz : UInt64} (hhz : 1 ≤ tickHz.toNat) (d : Duration) :
    TimerCovers tickHz d ↔ RoundsOver tickHz d := by
  have hquotient (t : ℕ) :
      (d.nanos : ℚ) / 10 ^ 9 ≤ t / tickHz.toNat ↔ d.nanos * tickHz.toNat ≤ t * 10 ^ 9 := by
    rw [div_le_div_iff₀ (by norm_num) (by exact_mod_cast hhz)]
    exact_mod_cast Iff.rfl
  rw [roundsOver_iff]
  constructor
  · rintro ⟨t, ht, hcover⟩
    rw [toEmbassyDuration_eq, Option.some.injEq] at ht
    subst ht
    rwa [ofNat_ceilTicks_eq_u64Max_iff, ofNat_ceilTicks_toNat, hquotient] at hcover
  · intro hcover
    refine ⟨_, toEmbassyDuration_eq tickHz d, ?_⟩
    rwa [ofNat_ceilTicks_eq_u64Max_iff, ofNat_ceilTicks_toNat, hquotient]

/-- Rounding up by a microsecond makes up for what is dropped below one. -/
theorem RoundsUp.roundsOver {tickHz : UInt64} {d : Duration} (h : RoundsUp tickHz d) :
    RoundsOver tickHz d := by
  rcases h with hrem | hslack | hmax
  · left
    simp [hrem]
  · left
    have hmod : d.nanos % 1000 ≤ 1000 := (Nat.mod_lt _ (by decide)).le
    exact Nat.mul_le_mul hmod hslack
  · exact .inr hmax

section Embassy

variable {tickHz : UInt64} {asMicros : UInt64 → ℕ}

/-- The clock's reading does not saturate: all its ticks fit in a `Duration`. -/
theorem embassyNow_nanos
    (hdown : ∀ ticks, asMicros ticks = ticks.toNat * 1000000 / tickHz.toNat) (ticks : UInt64) :
    (embassyNow asMicros ticks).nanos = ticks.toNat * 1000000 / tickHz.toNat * 1000 := by
  have hdiv := Nat.div_le_self (ticks.toNat * 1000000) tickHz.toNat
  have hticks := ticks.toNat_lt
  simp only [embassyNow, Duration.fromMicros, Duration.nanos_ofNanos, hdown, maxNanos]
  omega

theorem embassyHonours_iff (hhz : 1 ≤ tickHz.toNat)
    (hdown : ∀ ticks, asMicros ticks = ticks.toNat * 1000000 / tickHz.toNat) (d : Duration) :
    EmbassyHonours tickHz asMicros d ↔ RoundsUp tickHz d := by
  rw [roundsUp_iff]
  have hticks : (UInt64.ofNat (ceilTicks tickHz d)).toNat = ceilTicks tickHz d :=
    ofNat_ceilTicks_toNat tickHz d
  constructor
  · rintro ⟨t, ht, -, hnow, -⟩
    rw [toEmbassyDuration_eq, Option.some.injEq] at ht
    subst ht
    rw [ne_eq, ofNat_ceilTicks_eq_u64Max_iff, hticks] at hnow
    by_cases hmax : AtCeiling tickHz d
    · exact .inl hmax
    · right
      -- A wait from the origin on shows what the clock reads after the timer.
      have hread := hnow hmax 0 (.ofNat (ceilTicks tickHz d)) (by
        rw [hticks, UInt64.toNat_zero, Nat.zero_add])
      rw [Duration.le_def, Duration.nanos_saturatingSub, embassyNow_nanos hdown,
        embassyNow_nanos hdown, hticks] at hread
      have hceil : ceilMicros d ≤ ceilTicks tickHz d * 1000000 / tickHz.toNat := by
        rw [ceilMicros_le_iff, Nat.mul_comm]
        exact hread.trans (Nat.sub_le _ _)
      exact (Nat.le_div_iff_mul_le hhz).mp hceil
  · intro hcover
    obtain ⟨t, ht, htimer⟩ :=
      (timerCovers_iff hhz d).mpr ((roundsUp_iff tickHz d).mpr hcover).roundsOver
    rw [toEmbassyDuration_eq, Option.some.injEq] at ht
    subst ht
    refine ⟨_, toEmbassyDuration_eq tickHz d, htimer, fun hne start stop hstop => ?_,
      fun hd hzero => ?_⟩
    · rw [ne_eq, ofNat_ceilTicks_eq_u64Max_iff] at hne
      have hceil := hcover.resolve_left hne
      have hnanos : d.nanos ≤ 1000 * ceilMicros d := (ceilMicros_le_iff d _).mp (le_refl _)
      rw [hticks] at hstop
      -- Reading down loses nothing, because the ticks cover whole microseconds.
      have hread : start.toNat * 1000000 / tickHz.toNat + ceilMicros d ≤
          stop.toNat * 1000000 / tickHz.toNat := by
        rw [← Nat.add_mul_div_right _ _ hhz]
        apply Nat.div_le_div_right
        omega
      rw [Duration.le_def, Duration.nanos_saturatingSub, embassyNow_nanos hdown,
        embassyNow_nanos hdown]
      omega
    · -- No ticks cover no time.
      have hpos : 0 < d.nanos * tickHz.toNat :=
        Nat.mul_pos ((Duration.ne_zero_iff d).mp hd) hhz
      have hnat := congrArg UInt64.toNat hzero
      rw [hticks, UInt64.toNat_zero] at hnat
      rcases (roundsOver_iff tickHz d).mp ((roundsUp_iff tickHz d).mpr hcover).roundsOver with
        hmax | hover
      · rw [atCeiling_iff] at hmax
        omega
      · omega

end Embassy

/-! ## §3 Milliseconds -/

theorem glooHonours_iff (d : Duration) : GlooHonours d ↔ WholeMillis d := by
  have hnat : (UInt32.ofNat (min d.asMillis i32Max)).toNat = min d.asMillis i32Max :=
    UInt32.toNat_ofNat_of_lt' (by simp only [i32Max, UInt32.size]; omega)
  constructor
  · rintro ⟨m, hm, hcover, -, -⟩
    rw [glooMillis_eq, Option.some.injEq] at hm
    rw [← hm, hnat] at hcover
    simp only [WholeMillis, Duration.asMillis, i32Max] at hcover ⊢
    omega
  · intro hwhole
    -- Below the ceiling the milliseconds are exact.
    have hcover : min d.asMillis i32Max = i32Max ∨
        d.nanos = min d.asMillis i32Max * 10 ^ 6 := by
      simp only [WholeMillis, Duration.asMillis, i32Max] at hwhole ⊢
      omega
    refine ⟨_, glooMillis_eq d, ?_, ?_, ?_⟩
    · rw [hnat]
      exact hcover.imp_right le_of_eq
    · rw [hnat]
      intro hmax start stop hstop
      rw [Duration.le_def, Duration.nanos_saturatingSub]
      rcases hcover with heq | heq
      · exact absurd heq hmax
      · omega
    · intro hd hzero
      have hpos : 0 < d.nanos := (Duration.ne_zero_iff d).mp hd
      rw [← UInt32.toNat_inj, hnat, UInt32.toNat_zero] at hzero
      rw [hzero] at hcover
      simp only [i32Max] at hcover
      omega

/-! ## §4 The guarantee -/

/-- **Waits through tick-based clocks**: neither conversion overflows or panics, a longer
wait is not given a shorter timer, and the adapters keep the contract of `Clock` on
exactly the durations that survive their conversions. -/
theorem clock_adapters_honour_iff (tickHz : UInt64) (hhz : 1 ≤ tickHz)
    (asMicros : UInt64 → ℕ)
    (hdown : ∀ ticks, asMicros ticks = ticks.toNat * 1000000 / tickHz.toNat) :
    (∀ d, (toEmbassyDuration tickHz d).isSome ∧ (glooMillis d).isSome) ∧
    (∀ (d d' : Duration) (t t' : UInt64), d ≤ d' → toEmbassyDuration tickHz d = some t →
      toEmbassyDuration tickHz d' = some t' → t ≤ t') ∧
    (∀ d, TimerCovers tickHz d ↔ RoundsOver tickHz d) ∧
    (∀ d, EmbassyHonours tickHz asMicros d ↔ RoundsUp tickHz d) ∧
    (∀ d, GlooHonours d ↔ WholeMillis d) := by
  have hone : 1 ≤ tickHz.toNat := UInt64.le_iff_toNat_le.mp hhz
  refine ⟨?_, ?_, timerCovers_iff hone, embassyHonours_iff hone hdown, glooHonours_iff⟩
  · intro d
    simp [toEmbassyDuration_eq, glooMillis_eq]
  · intro d d' t t' hle ht ht'
    rw [toEmbassyDuration_eq, Option.some.injEq] at ht ht'
    rw [← ht, ← ht', UInt64.le_iff_toNat_le, ofNat_ceilTicks_toNat, ofNat_ceilTicks_toNat]
    exact ceilTicks_mono tickHz hle

/-- `as_micros` at a million ticks a second. -/
def microsAtMillion (ticks : UInt64) : ℕ := ticks.toNat * 1000000 / (1000000 : UInt64).toNat

/-- Two milliseconds, and one nanosecond. -/
def twoMillis : Duration := .ofNanos 2000000

def oneNano : Duration := .ofNanos 1

theorem two_millis_honoured :
    EmbassyHonours 1000000 microsAtMillion twoMillis ∧ GlooHonours twoMillis := by
  have h := clock_adapters_honour_iff 1000000 (by decide) microsAtMillion fun _ => rfl
  constructor
  · exact (h.2.2.2.1 twoMillis).mpr (.inl (by decide))
  · exact (h.2.2.2.2 twoMillis).mpr (.inl (by decide))

/-- A wait of one nanosecond asks for no time at all. -/
theorem one_nano_not_honoured :
    toEmbassyDuration 1000000 oneNano = some 0 ∧ glooMillis oneNano = some 0 ∧
      ¬TimerCovers 1000000 oneNano ∧ ¬EmbassyHonours 1000000 microsAtMillion oneNano ∧
      ¬GlooHonours oneNano := by
  -- One nanosecond is below the smallest unit of each target clock.
  have hover : ¬RoundsOver 1000000 oneNano := by
    unfold RoundsOver AtCeiling
    decide
  have hnot : ¬RoundsUp 1000000 oneNano := by
    unfold RoundsUp AtCeiling
    decide
  have hhz : 1 ≤ (1000000 : UInt64).toNat := by decide
  refine ⟨?_, ?_, ?_, ?_, ?_⟩
  · rw [toEmbassyDuration_eq]
    decide
  · rw [glooMillis_eq]
    decide
  · exact fun h => hover ((timerCovers_iff hhz oneNano).mp h)
  · exact fun h => hnot ((embassyHonours_iff hhz (fun _ => rfl) oneNano).mp h)
  · rw [glooHonours_iff]
    unfold WholeMillis
    decide

end Relentless
