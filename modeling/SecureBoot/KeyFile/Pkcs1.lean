import SecureBoot.Der.Value
import SecureBoot.Rsa.Basic

/-!
# RSA keys in the PKCS#1 format

A public key is a sequence of modulus and exponent.  A private key is a sequence of a version,
modulus, both exponents, both primes and three numbers that follow from these.
-/

namespace SecureBoot.Rsa

/-- The public key that an octet string is in this format, if the key may be used. -/
def PublicKey.ofPkcs1? (data : Bytes) : Option PublicKey := do
  match ← (← Der.element? data).members? Der.Tag.sequence with
  | [modulus, exponent] =>
    let key : PublicKey := ⟨← modulus.uint?, ← exponent.uint?⟩
    if key.check.isOk then return key else none
  | _ => none

def PublicKey.toPkcs1 (key : PublicKey) : Bytes :=
  (Der.construct Der.Tag.sequence
    [Der.Element.ofUint key.modulus, Der.Element.ofUint key.exponent]).encode

/-- The numbers of a private key, with the private exponent modulo each prime less one and the
inverse of the second prime modulo the first. -/
def PrivateKey.numbers? (key : PrivateKey) : Option (List Nat) := do
  let coefficient ← modInverse? key.prime2 key.prime1
  return [0, key.modulus, key.exponent, key.privateExponent, key.prime1, key.prime2,
    key.privateExponent % (key.prime1 - 1), key.privateExponent % (key.prime2 - 1), coefficient]

def PrivateKey.toPkcs1? (key : PrivateKey) : Option Bytes := do
  return (Der.construct Der.Tag.sequence ((← key.numbers?).map Der.Element.ofUint)).encode

/-- The private key that an octet string is in this format, if its numbers belong together. -/
def PrivateKey.ofPkcs1? (data : Bytes) : Option PrivateKey := do
  let members ← (← Der.element? data).members? Der.Tag.sequence
  match ← members.mapM Der.Element.uint? with
  | [0, modulus, exponent, privateExponent, prime1, prime2, _, _, _] =>
    let key : PrivateKey := { modulus, exponent, privateExponent, prime1, prime2 }
    if key.check then return key else none
  | _ => none

end SecureBoot.Rsa
