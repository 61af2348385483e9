import Mathlib.Data.BitVec
import Mathlib.Logic.Function.Basic

/-!
# Invertible Operations on Machine Words

The steps that mixing functions are made of lose no information.

- `xorShiftRight_injective` — a word xor-ed with its own right shift
- `xor_eq_xor_iff` — when two xors of two words agree
- `UInt64.mul_injective_of_inverse` — multiplication by a constant with an inverse
-/

namespace Words

open Function

/-- A word that is its own right shift by at least one place is zero. -/
theorem eq_zero_of_ushiftRight_eq {w k : ℕ} (hk : 0 < k) {d : BitVec w} (h : d >>> k = d) :
    d = 0#w := by
  apply BitVec.eq_of_toNat_eq
  have hdiv : d.toNat / 2 ^ k = d.toNat := by
    rw [← Nat.shiftRight_eq_div_pow, ← BitVec.toNat_ushiftRight, h]
  by_contra hne
  have hpos : 0 < d.toNat := Nat.pos_of_ne_zero hne
  have hlt : d.toNat / 2 ^ k < d.toNat := Nat.div_lt_self hpos (Nat.one_lt_two_pow hk.ne')
  omega

theorem xorShiftRight_injective {w k : ℕ} (hk : 0 < k) :
    Injective fun x : BitVec w => x ^^^ (x >>> k) := by
  intro x y h
  -- The map is linear over xor, so it is enough that its kernel is zero.
  have hkernel : (x ^^^ y) >>> k = x ^^^ y := by
    have h' : x ^^^ (x >>> k) = y ^^^ (y >>> k) := h
    rw [BitVec.ushiftRight_xor_distrib]
    have hxor : x ^^^ y ^^^ ((x >>> k) ^^^ (y >>> k)) = 0#w := by
      calc x ^^^ y ^^^ ((x >>> k) ^^^ (y >>> k))
          = (x ^^^ (x >>> k)) ^^^ (y ^^^ (y >>> k)) := by ac_rfl
        _ = 0#w := by rw [h', BitVec.xor_self]
    exact (BitVec.xor_eq_zero_iff.mp hxor).symm
  exact BitVec.xor_eq_zero_iff.mp (eq_zero_of_ushiftRight_eq hk hkernel)

/-- Two xors agree when the words differ in the same bits. -/
theorem xor_eq_xor_iff {w : ℕ} (a b x y : BitVec w) :
    a ^^^ x = b ^^^ y ↔ a ^^^ b = x ^^^ y := by
  calc a ^^^ x = b ^^^ y
      ↔ a ^^^ x ^^^ (b ^^^ y) = 0#w := BitVec.xor_eq_zero_iff.symm
    _ ↔ a ^^^ b ^^^ (x ^^^ y) = 0#w := by
        have hsame : a ^^^ x ^^^ (b ^^^ y) = a ^^^ b ^^^ (x ^^^ y) := by ac_rfl
        rw [hsame]
    _ ↔ a ^^^ b = x ^^^ y := BitVec.xor_eq_zero_iff

end Words

namespace UInt64

theorem xorShiftRight_injective {k : UInt64} (hk : 0 < k.toNat % 64) :
    Function.Injective fun x : UInt64 => x ^^^ (x >>> k) := by
  intro x y h
  apply UInt64.toBitVec_inj.mp
  apply Words.xorShiftRight_injective hk
  have hbits := congrArg UInt64.toBitVec h
  simpa using hbits

theorem xor_eq_xor_iff (a b x y : UInt64) : a ^^^ x = b ^^^ y ↔ a ^^^ b = x ^^^ y := by
  rw [← UInt64.toBitVec_inj, ← UInt64.toBitVec_inj]
  exact Words.xor_eq_xor_iff a.toBitVec b.toBitVec x.toBitVec y.toBitVec

theorem mul_injective_of_inverse {c d : UInt64} (hinverse : c * d = 1) :
    Function.Injective fun x : UInt64 => x * c := by
  intro x y h
  have hmul : x * c * d = y * c * d := congrArg (· * d) h
  rwa [UInt64.mul_assoc, UInt64.mul_assoc, hinverse, UInt64.mul_one, UInt64.mul_one] at hmul

end UInt64
