import Mathlib.Algebra.Order.Monoid.Canonical.Defs
import Mathlib.Algebra.BigOperators.Group.List.Basic

/-!
# Saturating Addition

Sums that are cut off at a largest value.  In a canonically ordered monoid it makes no
difference whether every summand, every partial sum or only the whole sum is cut off.

- `min_add_min_top` — cutting the summands off changes nothing once the sum is cut off
- `foldl_min_add` — a running sum cut off at every step is the sum cut off once
-/

namespace Saturation

variable {M : Type*} [AddCommMonoid M] [LinearOrder M] [CanonicallyOrderedAdd M] (top a b : M)

/-- A sum with one summand cut off. -/
theorem min_add_top : min (min a top + b) top = min (a + b) top := by
  rcases le_total a top with ha | ha
  · rw [min_eq_left ha]
  · -- The summand reaches the top on its own, and adding does not take it below.
    have hsum : top ≤ a + b := ha.trans le_self_add
    rw [min_eq_right ha, min_eq_right le_self_add, min_eq_right hsum]

/-- **A sum with both summands cut off.** -/
theorem min_add_min_top : min (min a top + min b top) top = min (a + b) top := by
  calc min (min a top + min b top) top
      = min (a + min b top) top := min_add_top top a (min b top)
    _ = min (min b top + a) top := by rw [add_comm]
    _ = min (b + a) top := min_add_top top b a
    _ = min (a + b) top := by rw [add_comm]

/-- **A running sum** cut off at every step is the sum cut off once. -/
theorem foldl_min_add (xs : List M) :
    xs.foldl (fun sum x => min (sum + x) top) (min a top) = min (a + xs.sum) top := by
  induction xs generalizing a with
  | nil => rw [List.foldl_nil, List.sum_nil, add_zero]
  | cons x xs ih =>
    rw [List.foldl_cons, min_add_top, ih, List.sum_cons, add_assoc]

end Saturation
