import SecureBoot.Arithmetic

/-!
# RSA keys

* `Rsa.PublicKey` is a modulus with a public exponent; `PublicKey.check` says which keys may be used
  to verify, and `Rejection` why one may not.
* `Rsa.PrivateKey` adds the private exponent and the two primes; `PrivateKey.check` tests that they
  belong together.
* `PublicKey.apply` and `PrivateKey.apply` are the two exponentiations.
-/

namespace SecureBoot.Rsa

/-! ## Public keys -/

structure PublicKey where
  modulus : Nat
  exponent : Nat
  deriving DecidableEq, Repr

/-- Why a public key is refused. -/
inductive Rejection where
  | modulusTooLarge
  | invalidModulus
  | invalidExponent
  | exponentTooSmall
  | exponentTooLarge
  deriving DecidableEq, Repr

def Rejection.message : Rejection → String
  | modulusTooLarge => "modulus too large"
  | invalidModulus => "invalid modulus"
  | invalidExponent => "invalid exponent"
  | exponentTooSmall => "public exponent too small"
  | exponentTooLarge => "public exponent too large"

namespace PublicKey

/-- The longest modulus in bits. -/
def maxModulusBits : Nat := 4096

/-- The longest public exponent in bits. -/
def maxExponentBits : Nat := 33

/-- Refuse a key whose numbers are out of range; the first fault in this order is named. -/
def check (key : PublicKey) : Except Rejection Unit :=
  if maxModulusBits < bitLength key.modulus then .error .modulusTooLarge
  else if key.modulus ≤ key.exponent ∨ key.modulus % 2 = 0 then .error .invalidModulus
  else if key.exponent % 2 = 0 then .error .invalidExponent
  else if key.exponent < 2 then .error .exponentTooSmall
  else if 1 <<< maxExponentBits ≤ key.exponent then .error .exponentTooLarge
  else .ok ()

/-- The number of octets of the modulus. -/
def size (key : PublicKey) : Nat :=
  (bitLength key.modulus + 7) / 8

/-- The power of a number by the public exponent. -/
def apply (key : PublicKey) (x : Nat) : Nat :=
  powMod x key.exponent key.modulus

end PublicKey

/-! ## Private keys -/

structure PrivateKey extends PublicKey where
  privateExponent : Nat
  prime1 : Nat
  prime2 : Nat
  deriving DecidableEq, Repr

namespace PrivateKey

/-- Whether the public part may be used, the primes multiply to the modulus, and the two exponents
are inverse to each other modulo each prime less one. -/
def check (key : PrivateKey) : Bool :=
  key.toPublicKey.check.isOk &&
  decide (1 ≤ key.prime1 ∧ 1 ≤ key.prime2) &&
  key.prime1 * key.prime2 == key.modulus &&
  [key.prime1, key.prime2].all fun p =>
    key.exponent * key.privateExponent % (p - 1) == 1 % (p - 1)

/-- The power of a number by the private exponent. -/
def apply (key : PrivateKey) (x : Nat) : Nat :=
  powMod x key.privateExponent key.modulus

end PrivateKey

end SecureBoot.Rsa
