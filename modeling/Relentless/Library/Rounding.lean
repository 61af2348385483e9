import Mathlib.Algebra.Order.Floor.Div
import Mathlib.Algebra.Order.Ring.Nat

/-!
# Rounding Up to a Unit

How far a number rounded up to a multiple of a unit lies above it.

- `Rounding.slack` — what rounding up adds
- `Rounding.ceilDiv_mul` — the multiple that a number is rounded up to
- `Rounding.le_ceilDiv_iff` — when rounding up reaches a number of units
-/

namespace Rounding

variable {x n c : ℕ}

/-- What rounding `x` up to a multiple of `n` adds to it. -/
def slack (n x : ℕ) : ℕ := (n - x % n) % n

theorem slack_of_mod_eq_zero (h : x % n = 0) : slack n x = 0 := by
  simp [slack, h]

theorem slack_of_mod_ne_zero (hn : 0 < n) (h : x % n ≠ 0) : slack n x = n - x % n := by
  have hmod := Nat.mod_lt x hn
  exact Nat.mod_eq_of_lt (by omega)

theorem ceilDiv_mul (hn : 0 < n) : (x ⌈/⌉ n) * n = x + slack n x := by
  have hdiv := Nat.div_add_mod x n
  have hmod := Nat.mod_lt x hn
  rw [Nat.ceilDiv_eq_add_pred_div, Nat.mul_comm]
  by_cases hrem : x % n = 0
  · have hquotient : (x + n - 1) / n = x / n := by
      apply Nat.div_eq_of_lt_le
      · rw [Nat.mul_comm]
        omega
      · rw [Nat.add_mul, Nat.mul_comm]
        omega
    rw [hquotient, slack_of_mod_eq_zero hrem]
    omega
  · have hquotient : (x + n - 1) / n = x / n + 1 := by
      apply Nat.div_eq_of_lt_le
      · rw [Nat.add_mul, Nat.mul_comm]
        omega
      · rw [Nat.add_mul, Nat.add_mul, Nat.mul_comm]
        omega
    rw [hquotient, slack_of_mod_ne_zero hn hrem, Nat.mul_add]
    omega

theorem le_ceilDiv_iff (hn : 0 < n) : c + 1 ≤ x ⌈/⌉ n ↔ c * n < x := by
  rw [Nat.add_one_le_iff, ← Nat.not_le, ceilDiv_le_iff_le_mul hn, Nat.not_le, Nat.mul_comm]

end Rounding
