import Mathlib.Algebra.Order.Ring.Int
import Mathlib.Data.Int.ModEq
import Mathlib.Tactic.Ring
import SecureBoot.Arithmetic

/-!
# Euclid — what the extended algorithm computes, and the words its numbers fit into

Each division keeps the greatest common divisor, so a number that is coprime to the modulus has an
inverse (`isSome_modInverse?`).  It also keeps two invariants of the cofactors:

* `Euclid.Cofactors`: each remainder is its cofactor times the first input, modulo the second.  At
  the end this makes the last cofactor an inverse (`mul_modInverse?`).
* `Euclid.Balanced`: the cofactors have opposite signs, so they only grow, and the products of each
  with the remainder beside it add up to the second input, so they do not outgrow it.

`Euclid.runInWords?` runs the algorithm with signed words of 128 bits and stops where a number does
not fit.  For inputs of 64 bits that does not happen (`modInverseInWords?_eq`).
-/

namespace SecureBoot

/-! ## Words -/

/-- The numbers of a signed word of 128 bits. -/
def FitsWord (x : Int) : Prop :=
  -2 ^ 127 ≤ x ∧ x < 2 ^ 127

instance (x : Int) : Decidable (FitsWord x) :=
  inferInstanceAs (Decidable (-2 ^ 127 ≤ x ∧ x < 2 ^ 127))

theorem fitsWord_of_natAbs_le {x : Int} {n : Nat} (h : x.natAbs ≤ n) (hn : n < 2 ^ 64) :
    FitsWord x := by
  have hlt : x.natAbs < 2 ^ 127 := by omega
  constructor
  · omega
  · omega

namespace Euclid

/-- What a step computes: the quotient, its two products, and the new remainder and cofactor. -/
def computed (s : Euclid) : List Int :=
  [s.quotient, s.quotient * s.remainder, s.oldRemainder - s.quotient * s.remainder,
    s.quotient * s.cofactor, s.oldCofactor - s.quotient * s.cofactor]

/-- Divisions until the remainder is zero, in words; there is no result if a number does not fit
into one. -/
def runInWords? (s : Euclid) : Option Euclid :=
  if _h : s.remainder = 0 then some s
  else if ∀ x ∈ s.computed, FitsWord x then runInWords? s.step else none
termination_by s.remainder
decreasing_by
  rw [remainder_step]
  exact Nat.mod_lt _ (Nat.pos_of_ne_zero _h)

/-! ## Greatest common divisors -/

theorem gcd_step (s : Euclid) :
    Nat.gcd s.step.oldRemainder s.step.remainder = Nat.gcd s.oldRemainder s.remainder := by
  calc
    Nat.gcd s.step.oldRemainder s.step.remainder
        = Nat.gcd s.remainder (s.oldRemainder % s.remainder) := by
          rw [remainder_step]
          rfl
    _ = Nat.gcd s.remainder s.oldRemainder := by
          rw [Nat.gcd_comm, ← Nat.gcd_rec]
    _ = Nat.gcd s.oldRemainder s.remainder := Nat.gcd_comm _ _

/-- The algorithm ends with the greatest common divisor. -/
theorem oldRemainder_run (s : Euclid) :
    (run s).oldRemainder = Nat.gcd s.oldRemainder s.remainder := by
  -- Induction along the divisions: each keeps the divisor, and the last remainder is zero.
  fun_induction run s with
  | case1 s hzero => rw [hzero, Nat.gcd_zero_right]
  | case2 s hne ih => rw [ih, gcd_step]

/-! ## Cofactors -/

theorem quotient_mul_le (s : Euclid) : s.quotient * s.remainder ≤ s.oldRemainder :=
  Nat.div_mul_le_self s.oldRemainder s.remainder

theorem natCast_remainder_step (s : Euclid) :
    (s.step.remainder : Int) = s.oldRemainder - s.quotient * s.remainder := by
  rw [step, Nat.cast_sub s.quotient_mul_le, Nat.cast_mul]

/-- The cofactors of two inputs: multiplied with the first, each gives its remainder modulo the
second. -/
structure Cofactors (a n : Nat) (s : Euclid) : Prop where
  old : a * s.oldCofactor ≡ s.oldRemainder [ZMOD n]
  current : a * s.cofactor ≡ s.remainder [ZMOD n]

theorem cofactors_start (a n : Nat) : Cofactors a n ⟨a % n, n, 1, 0⟩ where
  old := by
    rw [mul_one, Int.natCast_mod]
    exact (Int.mod_modEq _ _).symm
  current := by
    rw [mul_zero]
    exact (Int.modEq_zero_iff_dvd.2 (dvd_refl _)).symm

theorem Cofactors.step {a n : Nat} {s : Euclid} (h : Cofactors a n s) : Cofactors a n s.step where
  old := h.current
  current := by
    have hproduct : (a : Int) * s.step.cofactor =
        a * s.oldCofactor - s.quotient * (a * s.cofactor) := by
      rw [Euclid.step, mul_sub, mul_left_comm]
    rw [hproduct, natCast_remainder_step]
    exact h.old.sub (h.current.mul_left _)

theorem Cofactors.run {a n : Nat} {s : Euclid} (h : Cofactors a n s) : Cofactors a n (run s) := by
  fun_induction Euclid.run s with
  | case1 => exact h
  | case2 s hne ih => exact ih h.step

/-! ## Bounds -/

/-- Cofactors of opposite signs that keep each other, and the remainders, below the second input. -/
structure Balanced (n : Nat) (s : Euclid) : Prop where
  oldRemainder_le : s.oldRemainder ≤ n
  remainder_le : s.remainder ≤ n
  signs : s.oldCofactor * s.cofactor ≤ 0
  sum : s.oldCofactor.natAbs * s.remainder + s.cofactor.natAbs * s.oldRemainder = n

theorem balanced_start (a : Nat) {n : Nat} (hn : 0 < n) : Balanced n ⟨a % n, n, 1, 0⟩ where
  oldRemainder_le := Nat.le_of_lt (Nat.mod_lt a hn)
  remainder_le := Nat.le_refl n
  signs := by simp
  sum := by simp

/-- With opposite signs, a subtraction adds up absolute values. -/
theorem natAbs_sub_mul {x y : Int} (q : Nat) (h : x * y ≤ 0) :
    (x - q * y).natAbs = x.natAbs + q * y.natAbs := by
  have hq : (0 : Int) ≤ q := Int.natCast_nonneg q
  have hproduct : (q * y).natAbs = q * y.natAbs := by
    rw [Int.natAbs_mul, Int.natAbs_natCast]
  rw [← hproduct]
  rcases mul_nonpos_iff.1 h with ⟨hx, hy⟩ | ⟨hx, hy⟩
  · have hle : (q : Int) * y ≤ 0 := mul_nonpos_of_nonneg_of_nonpos hq hy
    omega
  · have hle : 0 ≤ (q : Int) * y := mul_nonneg hq hy
    omega

theorem Balanced.natAbs_cofactor_step {n : Nat} {s : Euclid} (h : Balanced n s) :
    s.step.cofactor.natAbs = s.oldCofactor.natAbs + s.quotient * s.cofactor.natAbs :=
  natAbs_sub_mul s.quotient h.signs

theorem remainder_add_quotient_mul (s : Euclid) :
    s.step.remainder + s.quotient * s.remainder = s.oldRemainder := by
  rw [step]
  exact Nat.sub_add_cancel s.quotient_mul_le

theorem Balanced.step {n : Nat} {s : Euclid} (h : Balanced n s) : Balanced n s.step where
  oldRemainder_le := h.remainder_le
  remainder_le := Nat.le_trans (Nat.sub_le _ _) h.oldRemainder_le
  signs := by
    have hsquare : (0 : Int) ≤ s.quotient * (s.cofactor * s.cofactor) :=
      mul_nonneg (Int.natCast_nonneg _) (mul_self_nonneg _)
    have hproduct : s.step.oldCofactor * s.step.cofactor =
        s.oldCofactor * s.cofactor - s.quotient * (s.cofactor * s.cofactor) := by
      rw [Euclid.step, mul_sub, mul_left_comm, mul_comm s.cofactor s.oldCofactor]
    rw [hproduct]
    exact le_trans (sub_le_self _ hsquare) h.signs
  sum := by
    calc
      s.step.oldCofactor.natAbs * s.step.remainder + s.step.cofactor.natAbs * s.step.oldRemainder
          = s.cofactor.natAbs * s.step.remainder +
              (s.oldCofactor.natAbs + s.quotient * s.cofactor.natAbs) * s.remainder := by
            rw [h.natAbs_cofactor_step]
            rfl
      _ = s.oldCofactor.natAbs * s.remainder +
            s.cofactor.natAbs * (s.step.remainder + s.quotient * s.remainder) := by
            ring
      _ = n := by
            rw [remainder_add_quotient_mul, h.sum]

/-- As long as there is a remainder, a step computes nothing that is larger than the second
input. -/
theorem Balanced.natAbs_le {n : Nat} {s : Euclid} (h : Balanced n s) (hpos : 0 < s.remainder) :
    ∀ x ∈ s.computed, x.natAbs ≤ n := by
  have hremainder : s.quotient * s.remainder ≤ n :=
    Nat.le_trans s.quotient_mul_le h.oldRemainder_le
  have hquotient : s.quotient ≤ n := Nat.le_trans (Nat.le_mul_of_pos_right _ hpos) hremainder
  have hcofactor : s.step.cofactor.natAbs ≤ n := by
    -- In the sum of the next state, the new cofactor stands beside the remainder of this one.
    have hsum := h.step.sum
    have hle : s.step.cofactor.natAbs ≤ s.step.cofactor.natAbs * s.remainder :=
      Nat.le_mul_of_pos_right _ hpos
    exact Nat.le_trans hle (hsum ▸ Nat.le_add_left _ _)
  have hproduct : s.quotient * s.cofactor.natAbs ≤ n := by
    rw [h.natAbs_cofactor_step] at hcofactor
    exact Nat.le_trans (Nat.le_add_left _ _) hcofactor
  have hlast : (s.oldRemainder - s.quotient * s.remainder : Int).natAbs ≤ n := by
    rw [← natCast_remainder_step, Int.natAbs_natCast]
    exact h.step.remainder_le
  simp only [computed, List.forall_mem_cons]
  refine ⟨hquotient, ?_, hlast, ?_, hcofactor, by simp⟩
  · rw [← Nat.cast_mul, Int.natAbs_natCast]
    exact hremainder
  · rw [Int.natAbs_mul, Int.natAbs_natCast]
    exact hproduct

/-- The words never overflow. -/
theorem Balanced.runInWords?_eq {n : Nat} {s : Euclid} (h : Balanced n s) (hn : n < 2 ^ 64) :
    runInWords? s = some (run s) := by
  -- The invariant goes down the divisions with the state, and bounds what each of them computes.
  fun_induction Euclid.run s with
  | case1 s hzero => rw [runInWords?, dif_pos hzero]
  | case2 s hne ih =>
      have hfits : ∀ x ∈ s.computed, FitsWord x := fun x hx =>
        fitsWord_of_natAbs_le (h.natAbs_le (Nat.pos_of_ne_zero hne) x hx) hn
      rw [runInWords?, dif_neg hne, if_pos hfits, ih h.step]

end Euclid

/-! ## Inverses -/

theorem isSome_modInverse? {a n : Nat} (h : Nat.Coprime a n) : (modInverse? a n).isSome := by
  have hgcd : (Euclid.run ⟨a % n, n, 1, 0⟩).oldRemainder = 1 := by
    rw [Euclid.oldRemainder_run]
    exact (Nat.gcd_rec n a).symm.trans ((Nat.gcd_comm n a).trans h)
  rw [modInverse?, if_pos hgcd]
  rfl

/-- The inverse of `a` modulo `n` computed in words: there is no result if a number does not fit
into one. -/
def modInverseInWords? (a n : Nat) : Option (Option Nat) :=
  (Euclid.runInWords? ⟨a % n, n, 1, 0⟩).map fun last =>
    if last.oldRemainder = 1 then some (last.oldCofactor % (n : Int)).toNat else none

theorem modInverseInWords?_eq (a : Nat) {n : Nat} (hpos : 0 < n) (hn : n < 2 ^ 64) :
    modInverseInWords? a n = some (modInverse? a n) := by
  rw [modInverseInWords?, (Euclid.balanced_start a hpos).runInWords?_eq hn]
  rfl

theorem mul_modInverse? {a n x : Nat} (hpos : 0 < n) (h : modInverse? a n = some x) :
    x < n ∧ a * x ≡ 1 [MOD n] := by
  have hn : (0 : Int) < n := Int.natCast_pos.2 hpos
  have hold := (Euclid.cofactors_start a n).run.old
  simp only [modInverse?] at h
  split at h
  · rename_i hone
    rw [hone] at hold
    -- From here on only the congruence of the last cofactor matters, not the run that ends in it.
    generalize (Euclid.run ⟨a % n, n, 1, 0⟩).oldCofactor = cofactor at hold h
    cases h
    have hcast : ((cofactor % n).toNat : Int) = cofactor % n :=
      Int.toNat_of_nonneg (Int.emod_nonneg _ hn.ne')
    constructor
    · rw [← Int.ofNat_lt, hcast]
      exact Int.emod_lt_of_pos _ hn
    · rw [← Int.natCast_modEq_iff, Nat.cast_mul, hcast]
      exact ((Int.mod_modEq cofactor n).mul_left a).trans hold
  · cases h

theorem modInverse?_eq_some_iff {a n x : Nat} (hpos : 0 < n) :
    modInverse? a n = some x ↔ x < n ∧ a * x ≡ 1 [MOD n] := by
  constructor
  · exact mul_modInverse? hpos
  · rintro ⟨hlt, hmod⟩
    have hcoprime : Nat.Coprime a n := Nat.coprime_of_mul_modEq_one x hmod
    rcases Option.isSome_iff_exists.1 (isSome_modInverse? hcoprime) with ⟨y, hy⟩
    rcases mul_modInverse? hpos hy with ⟨hylt, hymod⟩
    -- Modulo `n` the two inverses are the same, and both are below `n`.
    have hsame : y ≡ x [MOD n] :=
      Nat.ModEq.cancel_left_of_coprime hcoprime.symm (hymod.trans hmod.symm)
    rw [hy, hsame.eq_of_lt_of_lt hylt hlt]

theorem isSome_modInverse?_iff {a n : Nat} (hpos : 0 < n) :
    (modInverse? a n).isSome ↔ Nat.gcd a n = 1 := by
  constructor
  · intro h
    rcases Option.isSome_iff_exists.1 h with ⟨x, hx⟩
    exact Nat.coprime_of_mul_modEq_one x (mul_modInverse? hpos hx).2
  · exact isSome_modInverse?

end SecureBoot
