import SecureBoot.Bytes
import SecureBoot.Rsa.Basic

/-!
# New RSA keys

A machine makes a private key from two random primes: `Generator.candidate?` tells whether a random
string stands for a prime that will do, and `Generator.key?` is the key of two primes.
-/

namespace SecureBoot.Rsa.Generator

/-- The public exponent of new keys. -/
def exponent : Nat := 65537

/-- The number of octets of a prime. -/
def primeLength : Nat := 192

/-- Primes that are tried as divisors. -/
def smallPrimes : List Nat :=
  [3, 5, 7, 11, 13, 17, 19, 23, 29, 31, 37, 41, 43, 47, 53, 59, 61, 67, 71, 73, 79, 83, 89, 97]

/-- How often two divides a number. -/
def twos (n : Nat) : Nat :=
  (List.range (bitLength n)).findIdx fun i => n >>> i % 2 = 1

/-- The test of Miller and Rabin, which a prime passes with any base. -/
def passes (n base : Nat) : Bool :=
  let s := twos (n - 1)
  let power := powMod base ((n - 1) >>> s) n
  power == 1 || (List.range s).any fun i => powMod power (1 <<< i) n == n - 1

def isPrime (n : Nat) : Bool :=
  smallPrimes.all (fun p => n % p ≠ 0) && (2 :: smallPrimes).all (passes n)

/-- The prime that a random string stands for, with its lowest bit and its two highest bits set, if
it is one whose predecessor the public exponent does not divide. -/
def candidate? (random : Octets primeLength) : Option Nat :=
  let n := random.toNat ||| 1 ||| 3 <<< (8 * primeLength - 2)
  if (n - 1) % exponent ≠ 0 ∧ isPrime n = true then some n else none

/-- The key of two primes. -/
def key? (prime1 prime2 : Nat) : Option PrivateKey := do
  let privateExponent ← modInverse? exponent ((prime1 - 1) * (prime2 - 1))
  let key : PrivateKey :=
    { modulus := prime1 * prime2, exponent, privateExponent, prime1, prime2 }
  if prime1 ≠ prime2 ∧ key.check = true then return key else none

end SecureBoot.Rsa.Generator
