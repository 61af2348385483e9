import Mathlib.Algebra.Order.Ring.Nat
import Mathlib.Data.Int.CardIntervalMod
import Mathlib.Data.Rat.Floor
import Mathlib.Data.Set.Card
import Mathlib.Data.UInt
import Mathlib.GroupTheory.OrderOfElement
import Relentless.Library.Words

/-!
# Walks Through a Cyclic Group

A walk that adds one fixed increment at a time, and how often a residue occurs among
the machine words.

- `walk` — the points of a walk with a constant increment
- `walk_eq_walk_iff` — when two points of a walk are the same
- `existsUnique_walk` — a walk along a generator meets every point once per round
- `UInt64.zmultiples_eq_top` — an invertible word generates the additive group
- `UInt64.ncard_mod_eq` — how many words leave a given remainder
-/

namespace Cycle

/-! ## §1 Walks -/

section Walks

variable {G : Type*} [AddGroup G] {g : G}

/-- Where `i` increments of `g` lead from `s`. -/
def walk (g s : G) (i : ℕ) : G := s + i • g

@[simp] theorem walk_zero (g s : G) : walk g s 0 = s := by
  simp [walk]

@[simp] theorem walk_one (g s : G) : walk g s 1 = s + g := by
  simp [walk]

theorem walk_add (g s : G) (i j : ℕ) : walk g s (i + j) = walk g (walk g s i) j := by
  simp only [walk, add_nsmul, add_assoc]

theorem walk_eq_walk_iff (hg : IsOfFinAddOrder g) {s : G} {i j : ℕ} :
    walk g s i = walk g s j ↔ i ≡ j [MOD addOrderOf g] := by
  unfold walk
  rw [add_right_inj]
  exact hg.nsmul_eq_nsmul_iff_modEq

/-- Fewer steps than the order of the increment never lead back. -/
theorem walk_ne_walk (hg : IsOfFinAddOrder g) {s : G} {i j : ℕ} (hij : i < j)
    (hj : j < i + addOrderOf g) : walk g s i ≠ walk g s j := by
  intro h
  have hdvd : addOrderOf g ∣ j - i := (Nat.modEq_iff_dvd' hij.le).mp ((walk_eq_walk_iff hg).mp h)
  have hle : addOrderOf g ≤ j - i := Nat.le_of_dvd (Nat.sub_pos_of_lt hij) hdvd
  omega

/-- **One round**: along a generator every point is met exactly once per round. -/
theorem existsUnique_walk (hg : IsOfFinAddOrder g) (hgen : AddSubgroup.zmultiples g = ⊤)
    (s x : G) (k : ℕ) : ∃! i, (k ≤ i ∧ i < k + addOrderOf g) ∧ walk g s i = x := by
  -- From the `k`-th point on, the way to `x` is a short multiple of the increment.
  obtain ⟨n, hn, hwalk⟩ : ∃ n < addOrderOf g, walk g s (k + n) = x := by
    have hmem : -walk g s k + x ∈ AddSubgroup.zmultiples g := hgen ▸ AddSubgroup.mem_top _
    obtain ⟨n, hmul⟩ : ∃ n : ℕ, n • g = -walk g s k + x :=
      hg.mem_multiples_iff_mem_zmultiples.mpr hmem
    refine ⟨n % addOrderOf g, Nat.mod_lt n hg.addOrderOf_pos, ?_⟩
    rw [walk_add, walk, mod_addOrderOf_nsmul, hmul, add_neg_cancel_left]
  refine ⟨k + n, ⟨⟨Nat.le_add_right k n, Nat.add_lt_add_left hn k⟩, hwalk⟩, ?_⟩
  rintro i ⟨⟨hki, hik⟩, hi⟩
  -- Two places of one round cannot hold the same point.
  have hsame : walk g s i = walk g s (k + n) := hi.trans hwalk.symm
  rcases Nat.lt_trichotomy i (k + n) with hlt | heq | hlt
  · exact absurd hsame (walk_ne_walk hg hlt (by omega))
  · exact heq
  · exact absurd hsame.symm (walk_ne_walk hg hlt (by omega))

end Walks

end Cycle

namespace UInt64

/-! ## §2 Words -/

instance instFiniteUInt64 : Finite UInt64 := Finite.of_injective UInt64.toFin UInt64.toFin_injective

theorem nsmul_eq_ofNat_mul (n : ℕ) (x : UInt64) : n • x = UInt64.ofNat n * x := rfl

section Increment

variable {c d : UInt64}

/-- A word with an inverse has the order of the whole additive group. -/
theorem addOrderOf_of_inverse (hinverse : c * d = 1) : addOrderOf c = 2 ^ 64 := by
  rw [addOrderOf_eq_iff (by decide)]
  have hzero (n : ℕ) : n • c = 0 ↔ n % 2 ^ 64 = 0 := by
    rw [nsmul_eq_ofNat_mul, ← UInt64.zero_mul (a := c),
      (UInt64.mul_injective_of_inverse hinverse).eq_iff, UInt64.ofNat_eq_iff_mod_eq_toNat]
    rfl
  constructor
  · exact (hzero _).mpr (Nat.mod_self _)
  · intro n hn hpos hmul
    rw [hzero, Nat.mod_eq_of_lt hn] at hmul
    omega

theorem isOfFinAddOrder_of_inverse (hinverse : c * d = 1) : IsOfFinAddOrder c := by
  rw [← addOrderOf_pos_iff, addOrderOf_of_inverse hinverse]
  decide

/-- **An invertible word generates** the additive group of words. -/
theorem zmultiples_eq_top (hinverse : c * d = 1) : AddSubgroup.zmultiples c = ⊤ := by
  rw [AddSubgroup.eq_top_iff']
  intro x
  -- The multiple is `x` times the inverse.
  have hmul : (x * d).toNat • c = x := by
    rw [nsmul_eq_ofNat_mul, UInt64.ofNat_toNat, UInt64.mul_assoc, UInt64.mul_comm d, hinverse,
      UInt64.mul_one]
  rw [← hmul]
  exact AddSubgroup.nsmul_mem _ (AddSubgroup.mem_zmultiples c) _

end Increment

/-! ## §3 Remainders -/

/-- A set of words is as large as the set of the numbers below `2 ^ 64` it stands for. -/
theorem ncard_setOf (p : ℕ → Prop) [DecidablePred p] :
    {x : UInt64 | p x.toNat}.ncard = (2 ^ 64).count p := by
  rw [Nat.count_eq_card_filter_range, ← Set.ncard_coe_finset]
  apply Set.ncard_congr fun x _ => x.toNat
  · intro x hx
    simpa using ⟨x.toNat_lt, hx⟩
  · intro x y _ _ hxy
    exact UInt64.toNat_inj.mp hxy
  · intro n hn
    obtain ⟨hlt, hp⟩ : n < 2 ^ 64 ∧ p n := by simpa using hn
    have hnat : (UInt64.ofNat n).toNat = n := UInt64.toNat_ofNat_of_lt' hlt
    exact ⟨UInt64.ofNat n, by rwa [Set.mem_ofPred_eq, hnat], hnat⟩

/-- **How many words leave the remainder `v`**: the quotient, or one more. -/
theorem ncard_mod_eq {r v : ℕ} (hv : v < r) :
    {x : UInt64 | x.toNat % r = v}.ncard = 2 ^ 64 / r + if v < 2 ^ 64 % r then 1 else 0 := by
  have hmod : {x : UInt64 | x.toNat % r = v} = {x : UInt64 | x.toNat ≡ v [MOD r]} := by
    ext x
    rw [Set.mem_ofPred_eq, Set.mem_ofPred_eq, Nat.ModEq, Nat.mod_eq_of_lt hv]
  rw [hmod, ncard_setOf (· ≡ v [MOD r]), Nat.count_modEq_card _ (by omega), Nat.mod_eq_of_lt hv]

end UInt64
