/-!
# Arithmetic with large natural numbers

* `bitLength` is the number of binary digits.
* `powMod` is exponentiation modulo a number, by repeated squaring.
* `modInverse?` is the inverse modulo a number, by the extended algorithm of Euclid.
-/

namespace SecureBoot

/-- The number of binary digits, none for zero. -/
def bitLength (n : Nat) : Nat :=
  if n = 0 then 0 else n.log2 + 1

/-- The remainder of `base ^ exponent` modulo `n`. -/
def powMod (base exponent n : Nat) : Nat :=
  if exponent = 0 then 1 % n
  else
    let half := powMod base (exponent / 2) n
    let square := half * half % n
    if exponent % 2 = 0 then square else square * base % n
termination_by exponent

/-! ## Inverses -/

/-- Two consecutive remainders of the algorithm of Euclid, each with its cofactor: the number that,
multiplied with the first input, gives the remainder modulo the second. -/
structure Euclid where
  oldRemainder : Nat
  remainder : Nat
  oldCofactor : Int
  cofactor : Int

namespace Euclid

/-- How often the later remainder goes into the earlier one. -/
def quotient (s : Euclid) : Nat :=
  s.oldRemainder / s.remainder

def step (s : Euclid) : Euclid where
  oldRemainder := s.remainder
  remainder := s.oldRemainder - s.quotient * s.remainder
  oldCofactor := s.cofactor
  cofactor := s.oldCofactor - s.quotient * s.cofactor

theorem remainder_step (s : Euclid) : s.step.remainder = s.oldRemainder % s.remainder := by
  have h := Nat.div_add_mod s.oldRemainder s.remainder
  rw [Nat.mul_comm] at h
  simp only [step, quotient]
  omega

/-- Divisions until the remainder is zero. -/
def run (s : Euclid) : Euclid :=
  if _h : s.remainder = 0 then s else run s.step
termination_by s.remainder
decreasing_by
  rw [remainder_step]
  exact Nat.mod_lt _ (Nat.pos_of_ne_zero _h)

end Euclid

/-- The inverse of `a` modulo `n`, if there is one. -/
def modInverse? (a n : Nat) : Option Nat :=
  -- The cofactors of the two inputs themselves are one and zero.
  let last := Euclid.run ⟨a % n, n, 1, 0⟩
  if last.oldRemainder = 1 then some (last.oldCofactor % n).toNat else none

end SecureBoot
