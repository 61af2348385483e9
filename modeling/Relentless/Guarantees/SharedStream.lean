import Relentless.Wait.Draws

/-!
# Shared Streams Have Full Period

Loops that share a jittered strategy draw from one stream, and the stream goes through
every word before it comes to one again.

- `raw_ne_raw` — no repetition among consecutive draws
- `existsUnique_raw` — every word once per round
- `shared_stream_full_period` — what loops that share a strategy draw
-/

namespace Relentless

open SplitMix64

/-! ## §1 One round of the stream -/

theorem isOfFinAddOrder_gamma : IsOfFinAddOrder gamma :=
  UInt64.isOfFinAddOrder_of_inverse gamma_inverse

/-- Draws less than a whole round apart are different. -/
theorem raw_ne_raw (rng : SplitMix64) {i j : ℕ} (hij : i < j) (hj : j < i + 2 ^ 64) :
    rng.raw i ≠ rng.raw j := by
  rw [raw_eq, raw_eq]
  apply mix_injective.ne
  apply Cycle.walk_ne_walk isOfFinAddOrder_gamma
  · omega
  · rw [addOrderOf_gamma]
    omega

/-- A round, from wherever it starts, meets every word once. -/
theorem existsUnique_raw (rng : SplitMix64) (k : ℕ) (v : UInt64) :
    ∃! i, (k ≤ i ∧ i < k + 2 ^ 64) ∧ rng.raw i = v := by
  -- The word was mixed from one state, which the walk meets once.
  obtain ⟨z, rfl⟩ := mix_bijective.surjective v
  obtain ⟨i, ⟨hi, hwalk⟩, hunique⟩ := Cycle.existsUnique_walk isOfFinAddOrder_gamma
    (UInt64.zmultiples_eq_top gamma_inverse) rng.state z (k + 1)
  rw [addOrderOf_gamma] at hi hunique
  obtain ⟨i, rfl⟩ : ∃ j, i = j + 1 := ⟨i - 1, by omega⟩
  refine ⟨i, ⟨by omega, ?_⟩, ?_⟩
  · rw [raw_eq, hwalk]
  · rintro j ⟨hj, hraw⟩
    rw [raw_eq] at hraw
    have hsame := hunique (j + 1) ⟨by omega, mix_injective hraw⟩
    omega

/-! ## §2 The guarantee -/

/-- **Shared streams**: whatever the interleaving, the draws are the mixed multiples of the
increment in their overall order, a call of `next_wait` takes the next of them or none,
and no word comes twice before every word has come once. -/
theorem shared_stream_full_period :
    (∀ (ι : Type) (schedule : List ι) (s : UInt64),
      (drawAll schedule (.new s)).1 = schedule.mapIdx fun i loop =>
        (loop, mix (s + UInt64.ofNat (i + 1) * gamma))) ∧
    (∀ (W ι : Type) (calls : List (Call ι)) (jittered : Jittered W),
      (jittered.serve calls).1 = calls.mapIdx fun k call => (call.loop,
        (call.draw jittered.kind).eval (mix (jittered.rng.state +
          UInt64.ofNat (drawCount jittered.kind (calls.take k) + 1) * gamma)))) ∧
    (∀ (s : UInt64) (i j : ℕ), i < j → j < i + 2 ^ 64 →
      (SplitMix64.new s).raw i ≠ (SplitMix64.new s).raw j) ∧
    (∀ (s : UInt64) (k : ℕ) (v : UInt64),
      ∃! i, (k ≤ i ∧ i < k + 2 ^ 64) ∧ (SplitMix64.new s).raw i = v) ∧
    (∀ (s : UInt64) (i : ℕ),
      (SplitMix64.new s).raw i = mix (s + UInt64.ofNat (i + 1) * gamma)) ∧
    Function.Bijective mix ∧
    AddSubgroup.zmultiples gamma = ⊤ ∧
    (∀ (s : UInt64) (n : ℕ), answers advanceAtomic n s = answers advanceCell n s) ∧
    (∀ s : UInt64, advance (.new s) = ((advanceAtomic s).1, .new (advanceAtomic s).2)) := by
  have hraw (rng : SplitMix64) (i : ℕ) :
      rng.raw i = mix (rng.state + UInt64.ofNat (i + 1) * gamma) := by
    rw [raw_eq, Cycle.walk, UInt64.nsmul_eq_ofNat_mul]
  refine ⟨?_, ?_, ?_, ?_, fun s => hraw (.new s), mix_bijective,
    UInt64.zmultiples_eq_top gamma_inverse, ?_, fun _ => rfl⟩
  · intro ι schedule s
    rw [drawAll_fst]
    simp only [hraw]
    rfl
  · intro W ι calls jittered
    rw [Jittered.serve_fst]
    simp only [hraw]
  · intro s i j hij hj
    exact raw_ne_raw _ hij hj
  · intro s k v
    exact existsUnique_raw _ k v
  · intro s n
    rw [advanceAtomic_eq_advanceCell]

end Relentless
