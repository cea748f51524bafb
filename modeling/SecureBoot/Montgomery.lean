import SecureBoot.Arithmetic

/-!
# Montgomery constants

The signature hardware multiplies modulo `n` word by word and needs two numbers that depend on `n`
alone.

* `Montgomery.m` is `-n⁻¹` modulo `2 ^ 32`, which an odd `n` has.
* `Montgomery.rr` is `2 ^ (2 * bitLength n)` modulo `n`.
-/

namespace SecureBoot.Montgomery

/-- The number of values of a word. -/
abbrev wordSize : Nat := UInt32.size

/-- The word that makes the product with the modulus end in a word of ones. -/
def m (n : Nat) : Option UInt32 :=
  (modInverse? (n % wordSize) wordSize).map fun inverse => -UInt32.ofNat inverse

/-- The square of the radix `2 ^ bitLength n` modulo `n`. -/
def rr (n : Nat) : Nat :=
  1 <<< (2 * bitLength n) % n

/-- The square of the radix, for a modulus that is not zero. -/
def rr? (n : Nat) : Option Nat :=
  if n = 0 then none else some (rr n)

end SecureBoot.Montgomery
