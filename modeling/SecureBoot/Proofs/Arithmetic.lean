import Mathlib.Algebra.Order.Group.Nat
import SecureBoot.Arithmetic

/-!
# Arithmetic — lengths and powers

* `bitLength_le_iff`: a number has at most `k` binary digits if it is below `2 ^ k`.
* `powMod_eq`: repeated squaring gives the remainder of the power.
-/

namespace SecureBoot

/-! ## Lengths and powers -/

theorem bitLength_le_iff {n k : Nat} : bitLength n ≤ k ↔ n < 2 ^ k := by
  by_cases h : n = 0
  · rw [bitLength, if_pos h, h]
    exact iff_of_true (Nat.zero_le k) (Nat.two_pow_pos k)
  · rw [bitLength, if_neg h]
    exact Nat.succ_le_iff.trans (Nat.log2_lt h)

theorem two_pow_le_of_lt_bitLength {n k : Nat} (h : k < bitLength n) : 2 ^ k ≤ n := by
  have hnot : ¬n < 2 ^ k := fun hlt => absurd (bitLength_le_iff.2 hlt) (Nat.not_le_of_lt h)
  exact Nat.le_of_not_lt hnot

theorem bitLength_mono {m n : Nat} (h : m ≤ n) : bitLength m ≤ bitLength n :=
  bitLength_le_iff.2 (Nat.lt_of_le_of_lt h (bitLength_le_iff.1 (Nat.le_refl _)))

/-- A number fits into as many octets as its binary digits fill. -/
theorem lt_pow_of_bitLength_le {n k : Nat} (h : bitLength n ≤ 8 * k) : n < 256 ^ k := by
  have hlt := bitLength_le_iff.1 h
  rw [Nat.pow_mul] at hlt
  exact hlt

theorem bitLength_le_of_lt_pow {n k : Nat} (h : n < 256 ^ k) : bitLength n ≤ 8 * k := by
  rw [bitLength_le_iff, Nat.pow_mul]
  exact h

theorem powMod_eq (base exponent n : Nat) : powMod base exponent n = base ^ exponent % n := by
  fun_induction powMod base exponent n with
  | case1 => simp
  | case2 e he half square heven ih =>
    have hpow : base ^ e = base ^ (e / 2) * base ^ (e / 2) := by
      rw [← Nat.pow_add]
      congr 1
      omega
    simp only [square, half, ih, hpow, ← Nat.mul_mod]
  | case3 e he half square hodd ih =>
    have hpow : base ^ e = base ^ (e / 2) * base ^ (e / 2) * base := by
      rw [← Nat.pow_add, ← Nat.pow_succ]
      congr 1
      omega
    simp only [square, half, ih, hpow]
    rw [← Nat.mul_mod, Nat.mod_mul_mod]

theorem powMod_lt (base exponent : Nat) {n : Nat} (h : 0 < n) : powMod base exponent n < n := by
  rw [powMod_eq]
  exact Nat.mod_lt _ h

end SecureBoot
